/-
**The persistent bump allocator.**

`persistentalloc1` serves the runtime's own small, never-freed data (itabs among them) from
chunks of `256 KB` that it takes from `sysAlloc`: it rounds the chunk's offset up to the
requested alignment, takes a new chunk when the block does not fit or there is none, and hands
out the block at the rounded offset.  Larger requests go to `sysAlloc` directly.

Over any sequence of calls on one allocator, every block lies inside the chunk it was cut from,
at an offset aligned as requested, the offset only grows within a chunk, and no two blocks meet
(`GoRuntime.persistent_bump`).  The last needs only that `sysAlloc` returns memory that no block
lies in.  A block is therefore fresh memory that no earlier block shares, which `getitab` relies
on when it uses a new itab without clearing `bad` and `link`.

Main definitions:

* `GoRuntime.persistentalloc1` — one call, with what `sysAlloc` returns as an input;
* `GoRuntime.PersistentStep`, `GoRuntime.PersistentReach` — calls with block sizes below
  `maxBlock` on the allocator's zero value, recording the blocks handed out;
* `GoRuntime.PersistentInv` — where the blocks lie relative to the current chunk.

Main results:

* `GoRuntime.persistentalloc1_cases` — what a call that returns did;
* `GoRuntime.persistentInv_reach` — every run keeps the invariant;
* `GoRuntime.persistent_bump` — **blocks are in their chunk, aligned, and never overlap**.
-/

import GoRuntime.Arena

set_option autoImplicit false

namespace GoRuntime

/-! ### The allocator -/

/-- `chunk = 256 << 10`: the size of the chunks taken from `sysAlloc`. -/
def persistentChunk : ℕ := 256 <<< 10

/-- `maxBlock = 64 << 10`: requests this large go to `sysAlloc` directly. -/
def persistentMaxBlock : ℕ := 64 <<< 10

theorem persistentChunk_eq : persistentChunk = 262144 := rfl

theorem persistentMaxBlock_eq : persistentMaxBlock = 65536 := rfl

/-- `persistentAlloc`: the current chunk (`0` for nil) and the offset of its free part. -/
structure PersistentAlloc where
  base : ℕ
  off : ℕ
deriving DecidableEq, Repr

/-- The argument checks of `persistentalloc1`, giving the alignment it uses: `8` for `0`. -/
def persistentAlign (size align : ℕ) : Except String ℕ :=
  if size = 0 then .error "persistentalloc: size == 0"
  else if align ≠ 0 then
    if align &&& (align - 1) ≠ 0 then .error "persistentalloc: align is not a power of 2"
    else if align > pageSize then .error "persistentalloc: align is too large"
    else .ok align
  else .ok 8

/-- `persistentalloc1(size, align, sysStat)` on the allocator `a` it chose (a P's `palloc`, or
`globalAlloc` under its mutex), where `sys` is what `sysAlloc` returns if the call makes one
(`0` for nil): the allocator afterwards and the block, or the `throw` text. -/
def persistentalloc1 (a : PersistentAlloc) (size align sys : ℕ) :
    Except String (PersistentAlloc × ℕ) :=
  match persistentAlign size align with
  | .error e => .error e
  | .ok align =>
    if size ≥ persistentMaxBlock then .ok (a, sys)
    else
      let off := round a.off align
      if off + size > persistentChunk ∨ a.base = 0 then
        if sys = 0 then .error "runtime: cannot allocate memory" else .ok (⟨sys, size⟩, sys)
      else .ok (⟨a.base, off + size⟩, a.base + off)

theorem persistentAlign_ok {size align al : ℕ} (h : persistentAlign size align = .ok al) :
    0 < size ∧ al = (if align = 0 then 8 else align) ∧ 0 < al ∧ al ≤ pageSize := by
  unfold persistentAlign at h
  split_ifs at h with hs h0 hp hl <;> cases h
  · exact ⟨Nat.pos_of_ne_zero hs, by simp [h0], Nat.pos_of_ne_zero h0, Nat.le_of_not_lt hl⟩
  · exact ⟨Nat.pos_of_ne_zero hs, by simp_all, by decide, by decide⟩

/-- **What a call below `maxBlock` that returns did**: either it took a new chunk `sys` from
`sysAlloc` and handed out its start, or it handed out the block at the rounded offset of the
current chunk, which fits. -/
theorem persistentalloc1_cases {a a' : PersistentAlloc} {size align sys p : ℕ}
    (hsize : size < persistentMaxBlock) (h : persistentalloc1 a size align sys = .ok (a', p)) :
    0 < size ∧ ∃ al, al = (if align = 0 then 8 else align) ∧ 0 < al ∧ al ≤ pageSize ∧
      (sys ≠ 0 ∧ a' = ⟨sys, size⟩ ∧ p = sys ∨
        a.base ≠ 0 ∧ round a.off al + size ≤ persistentChunk ∧
          a' = ⟨a.base, round a.off al + size⟩ ∧ p = a.base + round a.off al) := by
  unfold persistentalloc1 at h
  split at h
  · cases h
  · rename_i al hal
    obtain ⟨hs, hal', hpos, hle⟩ := persistentAlign_ok hal
    refine ⟨hs, al, hal', hpos, hle, ?_⟩
    simp only [ge_iff_le, Nat.not_le.2 hsize, if_false] at h
    split_ifs at h with hfit hsys <;> cases h
    · exact .inl ⟨hsys, rfl, rfl⟩
    · exact .inr ⟨by tauto, by omega, rfl, rfl⟩

/-! ### Runs of calls -/

/-- The allocator with the blocks it handed out, newest first (ghost). -/
structure PersistentState where
  alloc : PersistentAlloc
  blocks : List (ℕ × ℕ)

/-- A call of `persistentalloc1` with a size below `maxBlock` that returns.  `sysAlloc` returns
fresh memory: the chunk it would return, `[sys, sys + chunk)`, meets no block handed out. -/
inductive PersistentStep : PersistentState → PersistentState → Prop
  | call (st : PersistentState) (size align sys : ℕ) (a' : PersistentAlloc) (p : ℕ)
      (hsize : size < persistentMaxBlock)
      (hfresh : ∀ b ∈ st.blocks, Apart (sys, persistentChunk) b)
      (h : persistentalloc1 st.alloc size align sys = .ok (a', p)) :
      PersistentStep st ⟨a', (p, size) :: st.blocks⟩

/-- The states a sequence of calls reaches from the allocator's zero value. -/
inductive PersistentReach : PersistentState → Prop
  | init : PersistentReach ⟨⟨0, 0⟩, []⟩
  | step {st st' : PersistentState} : PersistentReach st → PersistentStep st st' →
      PersistentReach st'

/-- **The invariant**: the offset stays within the chunk; every block lies in the used part of
the current chunk or away from the whole chunk; and no two blocks meet. -/
structure PersistentInv (st : PersistentState) : Prop where
  off_le : st.alloc.off ≤ persistentChunk
  placed : ∀ b ∈ st.blocks, (st.alloc.base ≤ b.1 ∧ b.1 + b.2 ≤ st.alloc.base + st.alloc.off) ∨
    Apart (st.alloc.base, persistentChunk) b
  apart : st.blocks.Pairwise Apart

/-- Rounding the offset of a chunk up to an alignment of at most a page does not wrap. -/
theorem round_off_spec {off al : ℕ} (hoff : off ≤ persistentChunk) (hal : 0 < al)
    (hal' : al ≤ pageSize) : off ≤ round off al ∧ round off al % al = 0 :=
  let h := round_spec (n := off) hal (by simp only [persistentChunk_eq, pageSize] at *; omega)
  ⟨h.1, h.2.2⟩

/-- **One call keeps the invariant**, and its block meets no earlier block. -/
theorem PersistentInv.call {st : PersistentState} (hi : PersistentInv st) {size align sys p : ℕ}
    {a' : PersistentAlloc} (hsize : size < persistentMaxBlock)
    (hfresh : ∀ b ∈ st.blocks, Apart (sys, persistentChunk) b)
    (h : persistentalloc1 st.alloc size align sys = .ok (a', p)) :
    (∀ b ∈ st.blocks, Apart (p, size) b) ∧ PersistentInv ⟨a', (p, size) :: st.blocks⟩ := by
  have hs : size ≤ persistentChunk := by
    rw [persistentChunk_eq]; rw [persistentMaxBlock_eq] at hsize; omega
  obtain ⟨-, al, -, hpos, hle, ⟨-, rfl, rfl⟩ | ⟨-, hfit, rfl, rfl⟩⟩ :=
    persistentalloc1_cases hsize h
  · have hnew : ∀ b ∈ st.blocks, Apart (p, size) b := fun b hb => by
      have := hfresh b hb; simp only [Apart] at this ⊢; omega
    refine ⟨hnew, ⟨hs, fun b hb => ?_, List.pairwise_cons.2 ⟨hnew, hi.apart⟩⟩⟩
    rcases List.mem_cons.1 hb with rfl | hb
    · exact .inl ⟨le_rfl, le_rfl⟩
    · exact .inr (hfresh b hb)
  · have hround := round_off_spec hi.off_le hpos hle
    have hnew : ∀ b ∈ st.blocks, Apart (st.alloc.base + round st.alloc.off al, size) b :=
      fun b hb => by
        rcases hi.placed b hb with ⟨-, hb'⟩ | hb' <;> simp only [Apart] at hb' ⊢ <;> omega
    refine ⟨hnew, ⟨hfit, fun b hb => ?_, List.pairwise_cons.2 ⟨hnew, hi.apart⟩⟩⟩
    rcases List.mem_cons.1 hb with rfl | hb
    · exact .inl ⟨by simp, by simp; omega⟩
    rcases hi.placed b hb with ⟨hb₁, hb₂⟩ | hb'
    · exact .inl ⟨hb₁, by simp only; omega⟩
    · exact .inr hb'

theorem persistentInv_reach {st : PersistentState} (h : PersistentReach st) : PersistentInv st := by
  induction h with
  | init => exact ⟨by simp [persistentChunk_eq], by simp, .nil⟩
  | step _ hs ih =>
    cases hs with
    | call size align sys a' p hsize hfresh h => exact (ih.call hsize hfresh h).2

/-- **Persistent bump allocation never overlaps.**  After any sequence of calls on one
allocator, a call with a size below `maxBlock` that returns had `0 < size` and an alignment `al`
(`8` for `0`) of at most a page; its block lies in its chunk, `base ≤ p` and
`p + size ≤ base + chunk`, at an offset that is a multiple of `al`; it either starts a new chunk
or lies at or past the old offset of the same chunk, which grows past it; it meets no block
handed out before, and no two of those meet. -/
theorem persistent_bump {st : PersistentState} (hr : PersistentReach st) {size align sys p : ℕ}
    {a' : PersistentAlloc} (hsize : size < persistentMaxBlock)
    (hfresh : ∀ b ∈ st.blocks, Apart (sys, persistentChunk) b)
    (h : persistentalloc1 st.alloc size align sys = .ok (a', p)) :
    0 < size ∧ (align = 0 ∨ align ≤ pageSize) ∧
      a'.base ≤ p ∧ p + size ≤ a'.base + persistentChunk ∧
      (p - a'.base) % (if align = 0 then 8 else align) = 0 ∧
      (p = a'.base ∧ a'.off = size ∨
        a'.base = st.alloc.base ∧ st.alloc.off ≤ p - a'.base ∧ a'.off = p - a'.base + size) ∧
      (∀ b ∈ st.blocks, Apart (p, size) b) ∧ st.blocks.Pairwise Apart := by
  have hi := persistentInv_reach hr
  have hs : size ≤ persistentChunk := by
    rw [persistentChunk_eq]; rw [persistentMaxBlock_eq] at hsize; omega
  obtain ⟨hpos, al, hal, hal0, hle, hcase⟩ := persistentalloc1_cases hsize h
  have halign : align = 0 ∨ align ≤ pageSize := by
    by_cases h0 : align = 0
    · exact .inl h0
    · simp only [h0, if_false] at hal; exact .inr (hal ▸ hle)
  rw [← hal]
  rcases hcase with ⟨-, rfl, rfl⟩ | ⟨-, hfit, rfl, rfl⟩
  · exact ⟨hpos, halign, le_rfl, by simp only; omega, by simp, .inl ⟨rfl, rfl⟩,
      (hi.call hsize hfresh h).1, hi.apart⟩
  · have hr := round_off_spec hi.off_le hal0 hle
    exact ⟨hpos, halign, by simp, by simp only; omega, by simpa using hr.2,
      .inr ⟨rfl, by simpa using hr.1, by simp⟩, (hi.call hsize hfresh h).1, hi.apart⟩

/-- Four calls of `65000` bytes fill the chunk at `2^20` up to offset `260000`; a fifth does not
fit, takes the chunk `sysAlloc` returns at `2^21`, and meets none of the four blocks. -/
theorem persistent_bump_overflow :
    ∃ st, PersistentReach st ∧ st.alloc = ⟨1048576, 260000⟩ ∧ st.blocks.length = 4 ∧
      persistentalloc1 st.alloc 65000 0 2097152 = .ok (⟨2097152, 65000⟩, 2097152) ∧
      (∀ b ∈ st.blocks, Apart (2097152, 65000) b) ∧ st.blocks.Pairwise Apart := by
  have hfresh : ∀ (bs : List (ℕ × ℕ)), (∀ b ∈ bs, 1048576 ≤ b.1 ∧ b.1 + b.2 ≤ 1310720) →
      ∀ b ∈ bs, Apart (2097152, persistentChunk) b := fun bs hbs b hb => by
    have := hbs b hb; simp only [Apart, persistentChunk_eq]; omega
  have hr : PersistentReach ⟨⟨1048576, 260000⟩, [(1243576, 65000), (1178576, 65000),
      (1113576, 65000), (1048576, 65000)]⟩ :=
    .step (.step (.step (.step .init
      (.call _ 65000 0 1048576 _ _ (by decide) (by simp) rfl))
      (.call _ 65000 0 2097152 _ _ (by decide) (hfresh _ (by decide)) rfl))
      (.call _ 65000 0 2097152 _ _ (by decide) (hfresh _ (by decide)) rfl))
      (.call _ 65000 0 2097152 _ _ (by decide) (hfresh _ (by decide)) rfl)
  obtain ⟨-, -, -, -, -, -, hapart, hpair⟩ := @persistent_bump _ hr 65000 0 2097152 2097152
    ⟨2097152, 65000⟩ (by decide) (hfresh _ (by decide)) rfl
  exact ⟨_, hr, rfl, rfl, rfl, hapart, hpair⟩

end GoRuntime
