/-
**The tiny allocator of `mallocgc`.**

Pointer-free requests of fewer than `maxTinySize = 16` bytes are packed into one 16-byte block,
a slot of size class `tinySizeClass` that the mcache popped from `c.alloc[tinySizeClass]`.
`c.tiny` is the block and `c.tinyoffset` how much of it is used.  A request rounds the offset up
to the alignment its size calls for; if it then fits and there is a block, it is served from the
block.  Otherwise it takes a fresh slot, and the fresh slot's remainder replaces the block when it
has more free space: `if size < c.tinyoffset { c.tiny = x; c.tinyoffset = size }`.

`GoRuntime.TinyState` is one mcache's tiny block with three ghost lists: the class-2 slots its
free lists and refills will hand out, the slots popped so far, and the objects returned.  Requests
of other size classes come from other spans and leave all of it alone.

Main results:

* `GoRuntime.tiny_safe` — from any state meeting `GoRuntime.TinyOK`, a reset one included,
  every run keeps it: the offset stays within the block, the block is a popped slot, each object
  lies inside one popped slot, is aligned as its size asks, and no two objects overlap;
* `GoRuntime.tiny_never_retained` — from the zero state (`c.tiny = nil`, `c.tinyoffset = 0`)
  the test `size < c.tinyoffset` never holds, so no block is ever kept and every tiny request
  takes a slot of its own.
-/

import GoRuntime.Arena
import GoRuntime.Span

set_option autoImplicit false

namespace GoRuntime

/-! ### The state and the requests -/

/-- One mcache's tiny block, `c.tiny` (`0` for `nil`) and `c.tinyoffset`, with ghost lists: the
class-2 slots that `c.alloc[tinySizeClass]` and its refills will hand out, in order, the slots
popped so far, and the objects returned, as address and size. -/
structure TinyState where
  tiny : ℕ
  tinyoffset : ℕ
  free : List ℕ
  popped : List ℕ
  objs : List (ℕ × ℕ)
deriving DecidableEq, Repr

/-- A request to `mallocgc` on the mcache, as far as the tiny block and the class-2 slots are
concerned: a tiny request (`flagNoScan` and `size < maxTinySize`, with `size ≠ 0`), another
request of class `tinySizeClass`, which takes a whole slot, or a request of another class. -/
inductive Req where
  | tiny (size : ℕ) (hsize : 0 < size ∧ size < maxTinySize)
  | slot
  | other

/-- The offset of a tiny request: `round(off, 8)` when `size&7 == 0`, else `round(off, 4)` when
`size&3 == 0`, else `round(off, 2)` when `size&1 == 0`. -/
def alignOff (off size : ℕ) : ℕ :=
  if size % 8 = 0 then round off 8
  else if size % 4 = 0 then round off 4
  else if size % 2 = 0 then round off 2
  else off

/-- `v := s.freelist` of `s = c.alloc[tinySizeClass]`, after `mCache_Refill` when it is nil,
then `s.freelist = v.ptr().next; s.ref++`.  `none` when the supply is used up. -/
def popTinySlot (st : TinyState) : Option (ℕ × TinyState) :=
  match st.free with
  | [] => none
  | v :: free => some (v, { st with free := free, popped := st.popped ++ [v] })

namespace TinyState

variable (st : TinyState)

/-- The object at offset `off` of the block: `x = add(c.tiny, off); c.tinyoffset = off + size`. -/
@[simps]
def serveTiny (off size : ℕ) : TinyState :=
  { st with tinyoffset := off + size, objs := st.objs ++ [(st.tiny + off, size)] }

/-- `c.tiny = x; c.tinyoffset = size`: the rest of slot `v` becomes the block. -/
@[simps]
def setTiny (v size : ℕ) : TinyState := { st with tiny := v, tinyoffset := size }

/-- The object of `n` bytes returned at the start of slot `v`. -/
@[simps]
def addObj (v n : ℕ) : TinyState := { st with objs := st.objs ++ [(v, n)] }

end TinyState

/-- The small-object path of `mallocgc` for one request.  The zeroing of a fresh slot and the
statistics are left out. -/
def mallocgcReq (st : TinyState) : Req → Option TinyState
  | .tiny size _ =>
    let off := alignOff st.tinyoffset size
    if off + size ≤ maxTinySize ∧ st.tiny ≠ 0 then some (st.serveTiny off size)
    else (popTinySlot st).map fun (v, st') =>
      (if size < st.tinyoffset then st'.setTiny v size else st').addObj v size
  | .slot => (popTinySlot st).map fun (v, st') => st'.addObj v maxTinySize
  | .other => some st

/-- A run of requests on the mcache, up to the end or until the slots run out. -/
def mallocgcRun : TinyState → List Req → Option TinyState
  | st, [] => some st
  | st, r :: rs => (mallocgcReq st r).bind fun st' => mallocgcRun st' rs

/-! ### The invariant -/

/-- An object is aligned as its size asks: to 8, 4 or 2 bytes when its size is a multiple of
8, 4 or 2. -/
def Aligned (o : ℕ × ℕ) : Prop :=
  (o.2 % 8 = 0 → o.1 % 8 = 0) ∧ (o.2 % 4 = 0 → o.1 % 4 = 0) ∧ (o.2 % 2 = 0 → o.1 % 2 = 0)

instance (o : ℕ × ℕ) : Decidable (Aligned o) := inferInstanceAs (Decidable (_ ∧ _ ∧ _))

/-- **The safety of the tiny allocator.**  The offset stays within the block; the slots popped
and still to pop are distinct non-nil 16-aligned class-2 slots; the block is a popped slot;
every object lies inside a popped slot, is aligned, and overlaps no other object nor the unused
rest of the block. -/
structure TinyOK (st : TinyState) : Prop where
  offset_le : st.tinyoffset ≤ maxTinySize
  slots : ∀ a ∈ st.popped ++ st.free, a % maxTinySize = 0 ∧ 0 < a
  nodup : (st.popped ++ st.free).Nodup
  tiny_popped : st.tiny ≠ 0 → st.tiny ∈ st.popped
  in_slot : ∀ o ∈ st.objs, ∃ a ∈ st.popped, a ≤ o.1 ∧ o.1 + o.2 ≤ a + maxTinySize
  aligned : ∀ o ∈ st.objs, Aligned o
  disjoint : st.objs.Pairwise Apart
  tiny_free : st.tiny ≠ 0 → ∀ o ∈ st.objs,
    Apart o (st.tiny + st.tinyoffset, maxTinySize - st.tinyoffset)

section Lemmas

/-- Objects inside two different 16-aligned slots do not overlap. -/
theorem apart_of_slots {a b : ℕ} {o o' : ℕ × ℕ} (ha : a % maxTinySize = 0)
    (hb : b % maxTinySize = 0) (hab : a ≠ b) (ho : a ≤ o.1 ∧ o.1 + o.2 ≤ a + maxTinySize)
    (ho' : b ≤ o'.1 ∧ o'.1 + o'.2 ≤ b + maxTinySize) : Apart o o' := by
  unfold Apart; unfold maxTinySize at *; omega

theorem alignOff_spec (off size : ℕ) (hoff : off ≤ maxTinySize) :
    off ≤ alignOff off size ∧ alignOff off size ≤ off + 7 ∧ Aligned (alignOff off size, size) := by
  have hr : ∀ a, 0 < a → a ≤ 8 → off ≤ round off a ∧ round off a ≤ off + (a - 1) ∧
      round off a % a = 0 := fun a ha ha8 =>
    round_spec ha (by unfold maxTinySize at hoff; omega)
  unfold alignOff Aligned
  split_ifs with h8 h4 h2
  · obtain ⟨h₁, h₂, h₃⟩ := hr 8 (by decide) le_rfl
    exact ⟨h₁, by omega, fun _ => h₃, fun _ => by omega, fun _ => by omega⟩
  · obtain ⟨h₁, h₂, h₃⟩ := hr 4 (by decide) (by decide)
    exact ⟨h₁, by omega, fun h => absurd h h8, fun _ => h₃, fun _ => by omega⟩
  · obtain ⟨h₁, h₂, h₃⟩ := hr 2 (by decide) (by decide)
    exact ⟨h₁, by omega, fun h => absurd h h8, fun h => absurd h h4, fun _ => h₃⟩
  · exact ⟨le_rfl, by omega, fun h => absurd h h8, fun h => absurd h h4, fun h => absurd h h2⟩

theorem aligned_slot {v n : ℕ} (hv : v % maxTinySize = 0) : Aligned (v, n) := by
  unfold Aligned maxTinySize at *; dsimp only; omega

variable {st st' : TinyState} {v : ℕ}

theorem popTinySlot_eq_some (h : popTinySlot st = some (v, st')) :
    st.free = v :: st'.free ∧ st'.popped = st.popped ++ [v] ∧ st'.tiny = st.tiny ∧
      st'.tinyoffset = st.tinyoffset ∧ st'.objs = st.objs := by
  unfold popTinySlot at h
  split at h
  · cases h
  · cases h; simp_all

/-- The slot popped is a new 16-aligned non-nil slot, apart from every object and from the
unused rest of the block. -/
theorem TinyOK.pop_fresh (h : TinyOK st) (hp : popTinySlot st = some (v, st')) :
    v % maxTinySize = 0 ∧ 0 < v ∧ v ∉ st.popped ∧ st'.popped ++ st'.free = st.popped ++ st.free ∧
      ∀ o ∈ st.objs, ∀ n ≤ maxTinySize, Apart o (v, n) := by
  obtain ⟨hf, hpop, -, -, -⟩ := popTinySlot_eq_some hp
  have hv := h.slots v (by simp [hf])
  have hnot : v ∉ st.popped := fun hm => by
    have := h.nodup
    rw [hf, List.nodup_append] at this
    exact this.2.2 hm (List.mem_cons_self _ _)
  refine ⟨hv.1, hv.2, hnot, by simp [hpop, hf], fun o ho n hn => ?_⟩
  obtain ⟨a, ha, hao⟩ := h.in_slot o ho
  exact apart_of_slots (h.slots a (by simp [ha])).1 hv.1 (fun e => hnot (e ▸ ha)) hao
    ⟨le_rfl, by dsimp only; omega⟩

/-- The unused rest of a block in a slot other than `v` is apart from an object inside `v`. -/
theorem TinyOK.apart_tiny (h : TinyOK st) (hp : popTinySlot st = some (v, st'))
    (htiny : st.tiny ≠ 0)
    {n : ℕ} (hn : n ≤ maxTinySize) :
    Apart (v, n) (st.tiny + st.tinyoffset, maxTinySize - st.tinyoffset) := by
  obtain ⟨hv, -, hnot, -, -⟩ := h.pop_fresh hp
  have ht := h.tiny_popped htiny
  have ho := h.offset_le
  exact apart_of_slots hv (h.slots _ (by simp [ht])).1 (fun e => hnot (e ▸ ht))
    ⟨le_rfl, by dsimp only; omega⟩ ⟨by dsimp only; omega, by dsimp only; omega⟩

end Lemmas

/-! ### Every request keeps the invariant -/

section Steps

variable {st : TinyState}

/-- A tiny request served from the block: the object sits in the unused rest, after the old
offset rounded up, and the rest shrinks to what follows it. -/
theorem TinyOK.fit (h : TinyOK st) {size : ℕ}
    (hfit : alignOff st.tinyoffset size + size ≤ maxTinySize) (htiny : st.tiny ≠ 0) :
    TinyOK (st.serveTiny (alignOff st.tinyoffset size) size) := by
  obtain ⟨hle, -, hal⟩ := alignOff_spec st.tinyoffset size h.offset_le
  have ht := h.tiny_popped htiny
  have hslot := (h.slots st.tiny (by simp [ht])).1
  have hold := h.tiny_free htiny
  refine ⟨hfit, h.slots, h.nodup, h.tiny_popped, fun o ho => ?_, fun o ho => ?_, ?_,
    fun _ o ho => ?_⟩
  · rcases List.mem_append.mp ho with ho | ho
    · exact h.in_slot o ho
    · rw [List.mem_singleton.mp ho]
      exact ⟨st.tiny, ht, by dsimp only; omega, by dsimp only; omega⟩
  · rcases List.mem_append.mp ho with ho | ho
    · exact h.aligned o ho
    · rw [List.mem_singleton.mp ho]
      unfold Aligned at hal ⊢; unfold maxTinySize at hslot; dsimp only at hal ⊢; omega
  · refine List.pairwise_append.mpr ⟨h.disjoint, List.pairwise_singleton _ _, fun o ho o' ho' => ?_⟩
    rw [List.mem_singleton.mp ho']
    have := hold o ho
    unfold Apart at this ⊢; dsimp only at this ⊢; omega
  · simp only [TinyState.serveTiny_tiny, TinyState.serveTiny_tinyoffset,
      TinyState.serveTiny_objs] at ho ⊢
    rcases List.mem_append.mp ho with ho | ho
    · have := hold o ho
      unfold Apart at this ⊢; dsimp only at this ⊢; omega
    · rw [List.mem_singleton.mp ho]
      unfold Apart; dsimp only; omega

/-- A request served a fresh slot `v`, of which it takes the first `n` bytes, keeping the block
or replacing it with the rest of `v`. -/
theorem TinyOK.fresh (h : TinyOK st) {v n : ℕ} {st' : TinyState}
    (hp : popTinySlot st = some (v, st'))
    (hn : n ≤ maxTinySize) (keep : Bool) :
    TinyOK ((if keep then st'.setTiny v n else st').addObj v n) := by
  obtain ⟨hfree, hpop, htiny, hoff, hobjs⟩ := popTinySlot_eq_some hp
  obtain ⟨hv, hv0, hnot, hsame, hapart⟩ := h.pop_fresh hp
  have hin : ∀ o ∈ st'.objs ++ [(v, n)],
      ∃ a ∈ st'.popped, a ≤ o.1 ∧ o.1 + o.2 ≤ a + maxTinySize := by
    intro o ho
    rcases List.mem_append.mp ho with ho | ho
    · obtain ⟨a, ha, hao⟩ := h.in_slot o (hobjs ▸ ho)
      exact ⟨a, by simp [hpop, ha], hao⟩
    · rw [List.mem_singleton.mp ho]
      exact ⟨v, by simp [hpop], le_rfl, by dsimp only; omega⟩
  have hal : ∀ o ∈ st'.objs ++ [(v, n)], Aligned o := by
    intro o ho
    rcases List.mem_append.mp ho with ho | ho
    · exact h.aligned o (hobjs ▸ ho)
    · rw [List.mem_singleton.mp ho]; exact aligned_slot hv
  have hdis : (st'.objs ++ [(v, n)]).Pairwise Apart :=
    List.pairwise_append.mpr ⟨hobjs ▸ h.disjoint, List.pairwise_singleton _ _,
      fun o ho o' ho' => by rw [List.mem_singleton.mp ho']; exact hapart o (hobjs ▸ ho) n hn⟩
  cases keep <;> simp only [Bool.false_eq_true, ↓reduceIte]
  · refine ⟨hoff ▸ h.offset_le, hsame ▸ h.slots, hsame ▸ h.nodup,
      (fun ht => by
        simp only [TinyState.addObj_popped, TinyState.addObj_tiny, hpop, htiny] at ht ⊢
        exact List.mem_append_left _ (h.tiny_popped ht)), hin, hal, hdis,
      fun ht o ho => ?_⟩
    simp only [TinyState.addObj_tiny, TinyState.addObj_tinyoffset, TinyState.addObj_objs,
      htiny, hoff] at ht ho ⊢
    rcases List.mem_append.mp ho with ho | ho
    · exact h.tiny_free ht o (hobjs ▸ ho)
    · rw [List.mem_singleton.mp ho]; exact h.apart_tiny hp ht hn
  · refine ⟨hn, hsame ▸ h.slots, hsame ▸ h.nodup, fun _ => by simp [hpop], hin, hal, hdis,
      fun _ o ho => ?_⟩
    simp only [TinyState.addObj_tiny, TinyState.addObj_tinyoffset, TinyState.addObj_objs,
      TinyState.setTiny_tiny, TinyState.setTiny_tinyoffset, TinyState.setTiny_objs] at ho ⊢
    rcases List.mem_append.mp ho with ho | ho
    · have := hapart o (hobjs ▸ ho) maxTinySize le_rfl
      unfold Apart at this ⊢; dsimp only at this ⊢; omega
    · rw [List.mem_singleton.mp ho]; unfold Apart; dsimp only; omega

/-- **Every request keeps the safety of the tiny allocator.** -/
theorem TinyOK.req (h : TinyOK st) {st' : TinyState} (r : Req) (hr : mallocgcReq st r = some st') :
    TinyOK st' := by
  cases r with
  | tiny size hsize =>
    simp only [mallocgcReq] at hr
    have hn : size ≤ maxTinySize := by unfold maxTinySize at hsize ⊢; omega
    split_ifs at hr with hfit hlt
    · cases hr; exact h.fit hfit.1 hfit.2
    · obtain ⟨⟨v, st₁⟩, hp, rfl⟩ := Option.map_eq_some'.mp hr
      simpa using h.fresh hp hn true
    · obtain ⟨⟨v, st₁⟩, hp, rfl⟩ := Option.map_eq_some'.mp hr
      simpa using h.fresh hp hn false
  | slot =>
    obtain ⟨⟨v, st₁⟩, hp, rfl⟩ := Option.map_eq_some'.mp hr
    simpa using h.fresh hp le_rfl false
  | other => cases hr; exact h

end Steps

/-- **The tiny allocator is safe.**  From any state of an mcache meeting `TinyOK`, a reset one
with an unused supply of class-2 slots included, every run of requests keeps it: `c.tinyoffset`
stays at most 16, a non-nil `c.tiny` is a slot the mcache popped, every object returned lies
inside one popped 16-byte slot, at an address aligned to 8, 4 or 2 when its size is a multiple
of it, and no two objects returned overlap. -/
theorem tiny_safe {st₀ st : TinyState} (h₀ : TinyOK st₀) (reqs : List Req)
    (hrun : mallocgcRun st₀ reqs = some st) : TinyOK st := by
  induction reqs generalizing st₀ with
  | nil => cases hrun; exact h₀
  | cons r rs ih =>
    obtain ⟨st₁, h₁, hrun⟩ := Option.bind_eq_some.mp hrun
    exact ih (h₀.req r h₁) hrun

/-- A block at `16` with 8 bytes used serves a 4-byte request at offset 8, and a 16-byte request
then takes the next slot. -/
theorem tiny_safe_fit :
    TinyOK ⟨16, 8, [32], [16], [(16, 8)]⟩ ∧
      mallocgcRun ⟨16, 8, [32], [16], [(16, 8)]⟩ [.tiny 4 (by decide), .slot] =
        some ⟨16, 12, [], [16, 32], [(16, 8), (24, 4), (32, 16)]⟩ ∧
      TinyOK ⟨16, 12, [], [16, 32], [(16, 8), (24, 4), (32, 16)]⟩ :=
  have h₀ : TinyOK ⟨16, 8, [32], [16], [(16, 8)]⟩ :=
    ⟨by decide, by decide, by decide, by decide, by decide, by decide,
      by simp [Apart], by simp [Apart]⟩
  ⟨h₀, rfl, tiny_safe h₀ [.tiny 4 (by decide), .slot] rfl⟩

/-! ### From the zero state no block is kept -/

/-- With no block and nothing used, a request leaves the block empty and returns an object at
the start of the slot it pops, if any. -/
theorem zero_req {st₀ st₁ : TinyState} (h1 : st₀.tiny = 0) (h2 : st₀.tinyoffset = 0)
    (h3 : st₀.objs.map Prod.fst = st₀.popped) (r : Req) (h : mallocgcReq st₀ r = some st₁) :
    st₁.tiny = 0 ∧ st₁.tinyoffset = 0 ∧ st₁.objs.map Prod.fst = st₁.popped := by
  have hpop : ∀ n, (popTinySlot st₀).map (fun x => x.2.addObj x.1 n) = some st₁ →
      st₁.tiny = 0 ∧ st₁.tinyoffset = 0 ∧ st₁.objs.map Prod.fst = st₁.popped := by
    intro n hm
    obtain ⟨⟨v, st₂⟩, hp, rfl⟩ := Option.map_eq_some'.mp hm
    obtain ⟨-, hpop, ht, ho, hobjs⟩ := popTinySlot_eq_some hp
    simp [ht, ho, hobjs, hpop, h1, h2, h3]
  cases r with
  | tiny size _ =>
    simp only [mallocgcReq, h1, h2, ne_eq, not_true_eq_false, and_false, if_false,
      Nat.not_lt_zero, ite_false] at h
    exact hpop size h
  | slot => exact hpop maxTinySize h
  | other => cases h; exact ⟨h1, h2, h3⟩

/-- From the zero state, nothing is ever kept in the block: `size < c.tinyoffset` fails against
`c.tinyoffset = 0`, so `c.tiny` stays `nil`, and every object, tiny or not, starts a slot of its
own. -/
theorem tiny_never_retained {free : List ℕ} {reqs : List Req} {st : TinyState}
    (hrun : mallocgcRun ⟨0, 0, free, [], []⟩ reqs = some st) :
    st.tiny = 0 ∧ st.tinyoffset = 0 ∧ st.objs.map Prod.fst = st.popped := by
  suffices ∀ st₀ : TinyState, st₀.tiny = 0 → st₀.tinyoffset = 0 →
      st₀.objs.map Prod.fst = st₀.popped → mallocgcRun st₀ reqs = some st →
      st.tiny = 0 ∧ st.tinyoffset = 0 ∧ st.objs.map Prod.fst = st.popped from
    this _ rfl rfl rfl hrun
  clear hrun
  induction reqs with
  | nil => intro st₀ h1 h2 h3 h; cases h; exact ⟨h1, h2, h3⟩
  | cons r rs ih =>
    intro st₀ h1 h2 h3 h
    obtain ⟨st₁, h₁, hrun⟩ := Option.bind_eq_some.mp h
    obtain ⟨h1', h2', h3'⟩ := zero_req h1 h2 h3 r h₁
    exact ih st₁ h1' h2' h3' hrun

/-- Two 8-byte tiny requests from the zero state take two slots, though they fit in one. -/
theorem tiny_two_requests_two_slots :
    mallocgcRun ⟨0, 0, [16, 32], [], []⟩ [.tiny 8 (by decide), .tiny 8 (by decide)] =
        some ⟨0, 0, [], [16, 32], [(16, 8), (32, 8)]⟩ ∧
      (0 = 0 ∧ 0 = 0 ∧ [(16, 8), (32, 8)].map Prod.fst = [16, 32]) :=
  ⟨rfl, @tiny_never_retained [16, 32] [.tiny 8 (by decide), .tiny 8 (by decide)] _ rfl⟩

end GoRuntime
