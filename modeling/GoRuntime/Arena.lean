/-
**The heap arena: `mallocinit` and `mHeap_SysAlloc`.**

`mallocinit` reserves one region `[p, p + pSize)` and lays out in it, from
`p1 = round(p, _PageSize)`, the `spans` array, the heap bitmap and the arena
`[arena_start, arena_end)`.  `mHeap_SysAlloc(h, n)` hands out the next `n` bytes of the arena
and moves `arena_used` up.  When they do not fit it first tries, in 32-bit mode, to reserve more
address space next to `arena_end`, and when that fails too it takes memory wherever `sysAlloc`
puts it, if that lies in `[arena_start, arena_start + _MaxArena32)`.

`uintptr` values are natural numbers below `2 ^ 64`, and every addition and subtraction the code
does on them wraps (`GoRuntime.uadd`, `GoRuntime.usub`).  The replies of the operating system are
parameters of a call (`GoRuntime.SysReply`).

Main definitions:

* `GoRuntime.mallocinit`, `GoRuntime.mHeapSysAlloc` and `GoRuntime.sysAllocRun`, a sequence of
  calls;
* `GoRuntime.ArenaOK` — the bounds `arena_start ≤ arena_used ≤ arena_end` with both ends
  page-aligned.

Main results:

* `GoRuntime.mallocinit_layout` — the spans, bitmap and arena follow one another inside the
  reservation, and the arena spans more than `_MaxArena32`;
* `GoRuntime.sysAllocRun_aligned` — no run throws "misrounded allocation": `arena_used` stays
  page-aligned whatever the operating system answers;
* `GoRuntime.sysAllocRun_wide` — on an arena spanning more than `_MaxArena32`, every run keeps
  the bounds, and every region handed out stays inside `[arena_start, arena_used)`;
* `GoRuntime.mHeapSysAlloc_below_start` — the 32-bit re-reservation accepts a region below
  `arena_start`, which `sysAlloc`'s path rejects, and `arena_used` drops below `arena_start`.
-/

import GoRuntime.SizeClass

set_option autoImplicit false

namespace GoRuntime

/-! ### `uintptr` arithmetic -/

/-- `a + b` on `uintptr`. -/
def uadd (a b : ℕ) : ℕ := (a + b) % 2 ^ 64

/-- `a - b` on `uintptr`. -/
def usub (a b : ℕ) : ℕ := (a + (2 ^ 64 - b % 2 ^ 64)) % 2 ^ 64

/-- `round(n, a) = (n + a - 1) &^ (a - 1)` of `stubs.go`, for `a` a power of two. -/
def round (n a : ℕ) : ℕ := uadd n (a - 1) / a * a

/-- Two blocks of memory, as address and size, do not overlap. -/
def Apart (o o' : ℕ × ℕ) : Prop := o.1 + o.2 ≤ o'.1 ∨ o'.1 + o'.2 ≤ o.1

instance (o o' : ℕ × ℕ) : Decidable (Apart o o') := inferInstanceAs (Decidable (_ ∨ _))

theorem uadd_of_lt {a b : ℕ} (h : a + b < 2 ^ 64) : uadd a b = a + b := Nat.mod_eq_of_lt h

/-- Without wrap-around, `round n a` rounds `n` up to a multiple of `a`, by less than `a`. -/
theorem round_spec {n a : ℕ} (ha : 0 < a) (h : n + (a - 1) < 2 ^ 64) :
    n ≤ round n a ∧ round n a ≤ n + (a - 1) ∧ round n a % a = 0 := by
  rw [round, uadd_of_lt h]
  have := Nat.div_add_mod' (n + (a - 1)) a
  have := Nat.mod_lt (n + (a - 1)) ha
  exact ⟨by omega, by omega, Nat.mul_mod_left _ _⟩

theorem usub_of_le {a b : ℕ} (h : b ≤ a) (ha : a < 2 ^ 64) : usub a b = a - b := by
  unfold usub; omega

/-- `-p & (_PageSize - 1)` rounds `p` up to a page: the sum is always page-aligned. -/
theorem uadd_pageUp_aligned (p : ℕ) : uadd p (usub 0 p % pageSize) % pageSize = 0 := by
  unfold uadd usub pageSize; omega

theorem uadd_aligned {a b : ℕ} (ha : a % pageSize = 0) (hb : b % pageSize = 0) :
    uadd a b % pageSize = 0 := by
  simp only [uadd, pageSize] at ha hb ⊢; omega

/-! ### Constants and the heap's arena fields -/

/-- `_MaxArena32 = 2 << 30`: the span of a 32-bit arena. -/
def maxArena32 : ℕ := 2 <<< 30

/-- `ptrSize` on a 64-bit platform. -/
def ptrSize : ℕ := 8

/-- `arenaSize := round(_MaxMem, _PageSize)`, 512 GB. -/
def arenaSize : ℕ := round maxMem pageSize

/-- `bitmapSize = arenaSize / (ptrSize * 8 / 4)`: four bits for each word of the arena. -/
def bitmapSize : ℕ := arenaSize / (ptrSize * 8 / 4)

/-- `spansSize = round(arenaSize / _PageSize * ptrSize, _PageSize)`: one pointer a page. -/
def spansSize : ℕ := round (arenaSize / pageSize * ptrSize) pageSize

/-- `pSize = bitmapSize + spansSize + arenaSize + _PageSize`, the size `mallocinit` reserves. -/
def pSize : ℕ := bitmapSize + spansSize + arenaSize + pageSize

@[simp] theorem maxArena32_eq : maxArena32 = 2 ^ 31 := rfl

theorem arenaSize_eq : arenaSize = 2 ^ 39 := by decide

theorem bitmapSize_eq : bitmapSize = 2 ^ 35 := by decide

theorem spansSize_eq : spansSize = 2 ^ 29 := by decide

theorem pSize_eq : pSize = 2 ^ 35 + 2 ^ 29 + 2 ^ 39 + 2 ^ 13 := by decide

/-- The fields of `mheap` that `mHeap_SysAlloc` reads and writes.  The mapped extent of the
bitmap and of `spans`, which `mHeap_MapBits` and `mHeap_MapSpans` keep up with `arena_used`, is
left out. -/
structure MHeapArena where
  arenaStart : ℕ
  arenaUsed : ℕ
  arenaEnd : ℕ
  arenaReserved : Bool
deriving DecidableEq, Repr

/-- What the operating system answers the calls one `mHeap_SysAlloc` may make: `sysReserve`
returns `reserve` and sets `*reserved`, and `sysAlloc` returns `alloc`; `0` is `nil`. -/
structure SysReply where
  reserve : ℕ
  reserved : Bool
  alloc : ℕ
deriving DecidableEq, Repr

/-- **The bounds of an arena**: `arena_start ≤ arena_used ≤ arena_end < 2 ^ 64`, with
`arena_start` and `arena_used` page-aligned. -/
structure ArenaOK (h : MHeapArena) : Prop where
  start_aligned : h.arenaStart % pageSize = 0
  used_aligned : h.arenaUsed % pageSize = 0
  start_le_used : h.arenaStart ≤ h.arenaUsed
  used_le_end : h.arenaUsed ≤ h.arenaEnd
  end_lt : h.arenaEnd < 2 ^ 64

instance (h : MHeapArena) : Decidable (ArenaOK h) :=
  decidable_of_iff (h.arenaStart % pageSize = 0 ∧ h.arenaUsed % pageSize = 0 ∧
      h.arenaStart ≤ h.arenaUsed ∧ h.arenaUsed ≤ h.arenaEnd ∧ h.arenaEnd < 2 ^ 64)
    ⟨fun ⟨a, b, c, d, e⟩ => ⟨a, b, c, d, e⟩, fun ⟨a, b, c, d, e⟩ => ⟨a, b, c, d, e⟩⟩

/-! ### `mallocinit` -/

/-- Where `mallocinit` puts the `spans` array, the bitmap and the arena. -/
structure ArenaLayout where
  spans : ℕ
  bitmap : ℕ
  heap : MHeapArena
deriving DecidableEq, Repr

/-- The layout `mallocinit` makes of the reservation at `p` (on a 64-bit platform, the only
one this `mallocinit` keeps), with `reserved` as `sysReserve` set it. -/
def mallocinit (p : ℕ) (reserved : Bool) : Except String ArenaLayout :=
  let p1 := round p pageSize
  let arenaStart := uadd p1 (spansSize + bitmapSize)
  let h : MHeapArena := ⟨arenaStart, arenaStart, uadd p pSize, reserved⟩
  if h.arenaStart % pageSize ≠ 0 then .error "misrounded allocation in mallocinit"
  else .ok ⟨p1, uadd p1 spansSize, h⟩

/-- **The layout of `mallocinit`.**  For a reservation that does not wrap, `spans` starts at
`p` rounded up to a page, the bitmap follows it and the arena follows the bitmap, all inside
`[p, p + pSize)`; the arena is empty, meets its bounds, and spans more than `_MaxArena32`. -/
theorem mallocinit_layout {p : ℕ} (hp : p + pSize < 2 ^ 64) (reserved : Bool) :
    ∃ L, mallocinit p reserved = .ok L ∧ L.spans = round p pageSize ∧ p ≤ L.spans ∧
      L.spans + spansSize = L.bitmap ∧ L.bitmap + bitmapSize = L.heap.arenaStart ∧
      L.heap.arenaUsed = L.heap.arenaStart ∧ L.heap.arenaEnd = p + pSize ∧ ArenaOK L.heap ∧
      maxArena32 < L.heap.arenaEnd - L.heap.arenaStart := by
  rw [pSize_eq] at hp
  have hr : round p pageSize = (p + 8191) / 8192 * 8192 := by
    unfold round uadd pageSize; rw [Nat.mod_eq_of_lt (by omega)]
  have hs : uadd (round p pageSize) (spansSize + bitmapSize) =
      round p pageSize + (spansSize + bitmapSize) := by
    rw [uadd_of_lt (by rw [hr, spansSize_eq, bitmapSize_eq]; omega)]
  have hb : uadd (round p pageSize) spansSize = round p pageSize + spansSize :=
    uadd_of_lt (by rw [hr, spansSize_eq]; omega)
  have he : uadd p pSize = p + pSize := uadd_of_lt (by rw [pSize_eq]; omega)
  have hal : (round p pageSize + (spansSize + bitmapSize)) % pageSize = 0 := by
    rw [hr, spansSize_eq, bitmapSize_eq, pageSize]; omega
  refine ⟨⟨round p pageSize, round p pageSize + spansSize,
      ⟨round p pageSize + (spansSize + bitmapSize), round p pageSize + (spansSize + bitmapSize),
        p + pSize, reserved⟩⟩, by simp only [mallocinit, hs, hb, he, hal, ne_eq,
          not_true_eq_false, if_false], rfl, ?_, rfl, ?_, rfl, rfl,
      ⟨hal, hal, le_rfl, ?_, ?_⟩, ?_⟩ <;>
    simp only [hr, pSize_eq, spansSize_eq, bitmapSize_eq, maxArena32_eq] <;> omega

/-! ### `mHeap_SysAlloc` -/

/-- The first block of `mHeap_SysAlloc`: when `n` bytes do not fit before `arena_end` and a
32-bit arena still has room, reserve `p_size` more bytes.  If the reservation lands at
`arena_end` the arena grows; if it lands elsewhere below `arena_start + _MaxArena32`, the arena
moves there, `arena_used` rounded up from its start. -/
def reReserve (h : MHeapArena) (n : ℕ) (os : SysReply) : MHeapArena :=
  if usub h.arenaEnd h.arenaUsed < n then
    let pSize := round (uadd n pageSize) (256 <<< 20)
    let newEnd := uadd h.arenaEnd pSize
    if newEnd ≤ uadd h.arenaStart maxArena32 then
      let p := os.reserve
      if p = h.arenaEnd then { h with arenaEnd := newEnd, arenaReserved := os.reserved }
      else if uadd p pSize ≤ uadd h.arenaStart maxArena32 then
        let used := uadd p (usub 0 p % pageSize)
        { h with arenaEnd := uadd p pSize, arenaUsed := used, arenaReserved := os.reserved }
      else h
    else h
  else h

/-- The last block of `mHeap_SysAlloc`, on 32-bit once the reservation is used up: take
`round(n, _PageSize) + _PageSize` bytes from `sysAlloc` and keep them if they lie in
`[arena_start, arena_start + _MaxArena32)`. -/
def sysAllocTail (h : MHeapArena) (n : ℕ) (os : SysReply) : Except String (MHeapArena × ℕ) :=
  let pSize := uadd (round n pageSize) pageSize
  let p := os.alloc
  if p = 0 then .ok (h, 0)
  else if p < h.arenaStart ∨ maxArena32 ≤ usub (uadd p pSize) h.arenaStart then .ok (h, 0)
  else
    let pEnd := uadd p pSize
    let p := uadd p (usub 0 p % pageSize)
    let h := if h.arenaUsed < uadd p n then
        { h with arenaUsed := uadd p n, arenaEnd := if h.arenaEnd < pEnd then pEnd else h.arenaEnd }
      else h
    if p % pageSize ≠ 0 then .error "misrounded allocation in MHeap_SysAlloc" else .ok (h, p)

/-- `mHeap_SysAlloc(h, n)`: the new arena fields and the pointer returned (`0` for `nil`), or
the message of the `throw` it stops with. -/
def mHeapSysAlloc (h : MHeapArena) (n : ℕ) (os : SysReply) : Except String (MHeapArena × ℕ) :=
  let h := reReserve h n os
  if n ≤ usub h.arenaEnd h.arenaUsed then
    let p := h.arenaUsed
    if p % pageSize ≠ 0 then .error "misrounded allocation in MHeap_SysAlloc"
    else .ok ({ h with arenaUsed := uadd p n }, p)
  else if maxArena32 ≤ usub h.arenaEnd h.arenaStart then .ok (h, 0)
  else sysAllocTail h n os

/-- A sequence of `mHeap_SysAlloc` calls, each with its `n` and the replies of the operating
system: the final arena fields and the regions `(p, n)` of the calls that returned a pointer. -/
def sysAllocRun : MHeapArena → List (ℕ × SysReply) → Except String (MHeapArena × List (ℕ × ℕ))
  | h, [] => .ok (h, [])
  | h, (n, os) :: calls =>
    match mHeapSysAlloc h n os with
    | .error e => .error e
    | .ok (h₁, p) =>
      match sysAllocRun h₁ calls with
      | .error e => .error e
      | .ok (h', rs) => .ok (h', if p = 0 then rs else (p, n) :: rs)

/-! ### The pointers are page-aligned -/

section Aligned

variable {h : MHeapArena} {n : ℕ} {os : SysReply}

theorem reReserve_aligned (hu : h.arenaUsed % pageSize = 0) :
    (reReserve h n os).arenaUsed % pageSize = 0 := by
  unfold reReserve; dsimp only
  split_ifs <;> first | exact hu | exact uadd_pageUp_aligned _

theorem sysAllocTail_aligned (hu : h.arenaUsed % pageSize = 0) (hn : n % pageSize = 0) :
    ∃ h' p, sysAllocTail h n os = .ok (h', p) ∧ h'.arenaUsed % pageSize = 0 ∧
      p % pageSize = 0 := by
  have hp := uadd_pageUp_aligned os.alloc
  unfold sysAllocTail; dsimp only
  simp only [hp, ne_eq, not_true_eq_false, if_false]
  split_ifs <;> first
    | exact ⟨_, _, rfl, hu, Nat.zero_mod _⟩
    | exact ⟨_, _, rfl, uadd_aligned hp hn, hp⟩
    | exact ⟨_, _, rfl, hu, hp⟩

/-- **`mHeap_SysAlloc` does not throw**: when `arena_used` is page-aligned and `n` a multiple of
the page size, whatever the operating system answers, the call returns a page-aligned pointer
and leaves `arena_used` page-aligned. -/
theorem mHeapSysAlloc_aligned (hu : h.arenaUsed % pageSize = 0) (hn : n % pageSize = 0) :
    ∃ h' p, mHeapSysAlloc h n os = .ok (h', p) ∧ h'.arenaUsed % pageSize = 0 ∧
      p % pageSize = 0 := by
  have hr := @reReserve_aligned h n os hu
  unfold mHeapSysAlloc; dsimp only
  simp only [hr, ne_eq, not_true_eq_false, if_false]
  split_ifs
  · exact ⟨_, _, rfl, uadd_aligned hr hn, hr⟩
  · exact ⟨_, _, rfl, hr, Nat.zero_mod _⟩
  · exact sysAllocTail_aligned hr hn

end Aligned

/-- **The "misrounded allocation" throw is unreachable.**  From arena fields with `arena_used`
page-aligned, every sequence of calls whose requests are multiples of the page size runs to its
end, whatever the operating system answers, every pointer it returns is page-aligned, and so is
`arena_used` at the end. -/
theorem sysAllocRun_aligned {h : MHeapArena} (hu : h.arenaUsed % pageSize = 0)
    (calls : List (ℕ × SysReply)) (hn : ∀ c ∈ calls, c.1 % pageSize = 0) :
    ∃ h' rs, sysAllocRun h calls = .ok (h', rs) ∧ h'.arenaUsed % pageSize = 0 ∧
      ∀ r ∈ rs, r.1 % pageSize = 0 := by
  induction calls generalizing h with
  | nil => exact ⟨h, [], rfl, hu, by simp⟩
  | cons c calls ih =>
    obtain ⟨n, os⟩ := c
    obtain ⟨h₁, p, hc, hu₁, hp⟩ :=
      @mHeapSysAlloc_aligned h n os hu (hn _ (List.mem_cons_self _ _))
    obtain ⟨h', rs, hrun, hu', hrs⟩ := ih hu₁ fun c hc => hn c (List.mem_cons_of_mem _ hc)
    refine ⟨h', if p = 0 then rs else (p, n) :: rs, by simp only [sysAllocRun, hc, hrun], hu',
      fun r hr => ?_⟩
    split_ifs at hr
    · exact hrs r hr
    · rcases List.mem_cons.mp hr with rfl | hr
      · exact hp
      · exact hrs r hr

theorem sysAllocRun_aligned_moved :
    (2 ^ 30 + 2 ^ 28) % pageSize = 0 ∧
      (∀ c ∈ [(pageSize, (⟨2 ^ 28, false, 0⟩ : SysReply)), (pageSize, ⟨0, false, 0⟩)],
        c.1 % pageSize = 0) ∧
      ∃ h' rs, sysAllocRun ⟨2 ^ 30, 2 ^ 30 + 2 ^ 28, 2 ^ 30 + 2 ^ 28, false⟩
          [(pageSize, ⟨2 ^ 28, false, 0⟩), (pageSize, ⟨0, false, 0⟩)] = .ok (h', rs) ∧
        h'.arenaUsed % pageSize = 0 ∧ ∀ r ∈ rs, r.1 % pageSize = 0 :=
  ⟨by decide, by decide,
    sysAllocRun_aligned (h := ⟨2 ^ 30, 2 ^ 30 + 2 ^ 28, 2 ^ 30 + 2 ^ 28, false⟩)
      (by decide) _ (by decide)⟩

/-! ### Arenas wider than `_MaxArena32` -/

section Wide

variable {h : MHeapArena} {n : ℕ} {os : SysReply}

/-- Taking `n` more bytes of the reservation keeps the bounds. -/
theorem ArenaOK.take (hok : ArenaOK h) (hn : n % pageSize = 0)
    (hle : n ≤ h.arenaEnd - h.arenaUsed) : ArenaOK { h with arenaUsed := h.arenaUsed + n } := by
  obtain ⟨h1, h2, h3, h4, h5⟩ := hok
  refine ⟨h1, ?_, ?_, ?_, h5⟩ <;> dsimp only <;> simp only [pageSize] at * <;> omega

/-- On an arena spanning more than `_MaxArena32`, the 32-bit re-reservation never runs: `arena_end
+ p_size` lies beyond `arena_start + _MaxArena32` when no sum wraps. -/
theorem reReserve_wide (hok : ArenaOK h) (hwide : maxArena32 < h.arenaEnd - h.arenaStart)
    (hfit : h.arenaEnd + n + 2 ^ 29 ≤ 2 ^ 64) : reReserve h n os = h := by
  have hne : ¬uadd h.arenaEnd (round (uadd n pageSize) (256 <<< 20)) ≤
      uadd h.arenaStart maxArena32 := by
    have := hok.end_lt
    simp only [uadd, round, pageSize, maxArena32_eq, Nat.shiftLeft_eq] at hwide ⊢
    omega
  unfold reReserve; dsimp only
  simp only [hne, if_false, ite_self]

/-- On an arena spanning more than `_MaxArena32`, a call takes its `n` bytes at `arena_used`
when they fit before `arena_end`, and returns `nil` otherwise. -/
theorem mHeapSysAlloc_wide (hok : ArenaOK h) (hwide : maxArena32 < h.arenaEnd - h.arenaStart)
    (hfit : h.arenaEnd + n + 2 ^ 29 ≤ 2 ^ 64) :
    mHeapSysAlloc h n os = if n ≤ h.arenaEnd - h.arenaUsed
      then .ok ({ h with arenaUsed := h.arenaUsed + n }, h.arenaUsed) else .ok (h, 0) := by
  have hsub : usub h.arenaEnd h.arenaUsed = h.arenaEnd - h.arenaUsed :=
    usub_of_le hok.used_le_end hok.end_lt
  have hstart : usub h.arenaEnd h.arenaStart = h.arenaEnd - h.arenaStart :=
    usub_of_le (hok.start_le_used.trans hok.used_le_end) hok.end_lt
  unfold mHeapSysAlloc; dsimp only
  rw [reReserve_wide hok hwide hfit, hsub]
  by_cases hle : n ≤ h.arenaEnd - h.arenaUsed
  · have hadd : uadd h.arenaUsed n = h.arenaUsed + n := by
      have := hok.end_lt; have := hok.used_le_end
      exact uadd_of_lt (by omega)
    simp only [hle, if_true, hok.used_aligned, ne_eq, not_true_eq_false, if_false, hadd]
  · simp only [hle, if_false, hstart, le_of_lt hwide, if_true]

/-- One call on a wide arena keeps its bounds, `arena_start` and `arena_end`, does not lower
`arena_used`, and a region it hands out ends at the new `arena_used`. -/
theorem mHeapSysAlloc_wide_ok {h' : MHeapArena} {p : ℕ} (hok : ArenaOK h)
    (hwide : maxArena32 < h.arenaEnd - h.arenaStart) (hn : n % pageSize = 0)
    (hfit : h.arenaEnd + n + 2 ^ 29 ≤ 2 ^ 64) (hc : mHeapSysAlloc h n os = .ok (h', p)) :
    ArenaOK h' ∧ h'.arenaStart = h.arenaStart ∧ h'.arenaEnd = h.arenaEnd ∧
      h.arenaUsed ≤ h'.arenaUsed ∧ (p ≠ 0 → h.arenaStart ≤ p ∧ p + n = h'.arenaUsed) := by
  rw [mHeapSysAlloc_wide hok hwide hfit] at hc
  split_ifs at hc with hle
  · simp only [Except.ok.injEq, Prod.mk.injEq] at hc
    obtain ⟨rfl, rfl⟩ := hc
    exact ⟨hok.take hn hle, rfl, rfl, Nat.le_add_right _ _, fun _ => ⟨hok.start_le_used, rfl⟩⟩
  · simp only [Except.ok.injEq, Prod.mk.injEq] at hc
    obtain ⟨rfl, rfl⟩ := hc
    exact ⟨hok, rfl, rfl, le_rfl, fun h0 => absurd rfl h0⟩

end Wide

/-- **Runs on an arena wider than `_MaxArena32` keep its bounds.**  From arena fields meeting
their bounds and spanning more than `_MaxArena32`, every sequence of calls whose requests are
multiples of the page size, with no `uintptr` sum reaching `2 ^ 64`, runs to its end whatever the
operating system answers; the final fields meet the bounds, `arena_start` and `arena_end` do not
move, `arena_used` does not go down, and every region `[p, p + n)` handed out lies in
`[arena_start, arena_used)` of the final fields. -/
theorem sysAllocRun_wide {h : MHeapArena} (hok : ArenaOK h)
    (hwide : maxArena32 < h.arenaEnd - h.arenaStart) (calls : List (ℕ × SysReply))
    (hn : ∀ c ∈ calls, c.1 % pageSize = 0 ∧ h.arenaEnd + c.1 + 2 ^ 29 ≤ 2 ^ 64) :
    ∃ h' rs, sysAllocRun h calls = .ok (h', rs) ∧ ArenaOK h' ∧ h'.arenaStart = h.arenaStart ∧
      h'.arenaEnd = h.arenaEnd ∧ h.arenaUsed ≤ h'.arenaUsed ∧
      ∀ r ∈ rs, h'.arenaStart ≤ r.1 ∧ r.1 + r.2 ≤ h'.arenaUsed := by
  induction calls generalizing h with
  | nil => exact ⟨h, [], rfl, hok, rfl, rfl, le_rfl, by simp⟩
  | cons c calls ih =>
    obtain ⟨n, os⟩ := c
    obtain ⟨hn₁, hfit⟩ := hn _ (List.mem_cons_self _ _)
    obtain ⟨h₁, p, hc⟩ : ∃ h₁ p, mHeapSysAlloc h n os = .ok (h₁, p) := by
      rw [mHeapSysAlloc_wide hok hwide hfit]; split_ifs <;> exact ⟨_, _, rfl⟩
    obtain ⟨hok₁, hs₁, he₁, hu₁, hp⟩ := mHeapSysAlloc_wide_ok hok hwide hn₁ hfit hc
    obtain ⟨h', rs, hrun, hok', hs', he', hu', hrs⟩ :=
      ih hok₁ (by rw [hs₁, he₁]; exact hwide) fun c hc => by
        rw [he₁]; exact hn c (List.mem_cons_of_mem _ hc)
    refine ⟨h', if p = 0 then rs else (p, n) :: rs, by simp only [sysAllocRun, hc, hrun], hok',
      hs'.trans hs₁, he'.trans he₁,
      hu₁.trans hu', fun r hr => ?_⟩
    split_ifs at hr with h0
    · exact hrs r hr
    · rcases List.mem_cons.mp hr with rfl | hr
      · obtain ⟨h1, h2⟩ := hp h0
        exact ⟨hs'.trans hs₁ ▸ h1, h2 ▸ hu'⟩
      · exact hrs r hr

/-- **The arena `mallocinit` lays out keeps its bounds.**  Every sequence of calls on it
whose requests are multiples of the page size and small enough that no sum wraps keeps
`arena_start ≤ arena_used ≤ arena_end`, and every region handed out stays in
`[arena_start, arena_used)`. -/
theorem mallocinit_sysAllocRun {p : ℕ} (hp : p + pSize < 2 ^ 64) (reserved : Bool)
    (calls : List (ℕ × SysReply))
    (hn : ∀ c ∈ calls, c.1 % pageSize = 0 ∧ p + pSize + c.1 + 2 ^ 29 ≤ 2 ^ 64) :
    ∃ L h' rs, mallocinit p reserved = .ok L ∧ sysAllocRun L.heap calls = .ok (h', rs) ∧
      ArenaOK h' ∧ h'.arenaStart = L.heap.arenaStart ∧ h'.arenaEnd = L.heap.arenaEnd ∧
      ∀ r ∈ rs, h'.arenaStart ≤ r.1 ∧ r.1 + r.2 ≤ h'.arenaUsed := by
  obtain ⟨L, hL, -, -, -, -, -, he, hok, hwide⟩ := mallocinit_layout hp reserved
  obtain ⟨h', rs, hrun, hok', hs', he', -, hrs⟩ :=
    sysAllocRun_wide hok hwide calls fun c hc => by rw [he]; exact hn c hc
  exact ⟨L, h', rs, hL, hrun, hok', hs', he', hrs⟩

theorem mallocinit_sysAllocRun_one_page :
    (2 ^ 40 + pSize < 2 ^ 64 ∧ ∀ c ∈ [(pageSize, (⟨0, false, 0⟩ : SysReply))],
      c.1 % pageSize = 0 ∧ 2 ^ 40 + pSize + c.1 + 2 ^ 29 ≤ 2 ^ 64) ∧
    ∃ L h' rs, mallocinit (2 ^ 40) true = .ok L ∧
      sysAllocRun L.heap [(pageSize, ⟨0, false, 0⟩)] = .ok (h', rs) ∧ ArenaOK h' ∧
      h'.arenaStart = L.heap.arenaStart ∧ h'.arenaEnd = L.heap.arenaEnd ∧
      ∀ r ∈ rs, h'.arenaStart ≤ r.1 ∧ r.1 + r.2 ≤ h'.arenaUsed :=
  have hp : 2 ^ 40 + pSize < 2 ^ 64 := by rw [pSize_eq]; norm_num
  have hn : ∀ c ∈ [(pageSize, (⟨0, false, 0⟩ : SysReply))],
      c.1 % pageSize = 0 ∧ 2 ^ 40 + pSize + c.1 + 2 ^ 29 ≤ 2 ^ 64 := by
    simp only [List.mem_singleton, forall_eq, Nat.mod_self, true_and, pSize_eq, pageSize]
    norm_num
  ⟨⟨hp, hn⟩, mallocinit_sysAllocRun hp true _ hn⟩

/-! ### A 32-bit arena -/

/-- **The 32-bit re-reservation accepts a region below `arena_start`.**  A 32-bit arena at
`2 ^ 30` whose 256 MB reservation is used up gets a request for one page.  `sysReserve` at
`arena_end` places the 256 MB elsewhere, at `2 ^ 28`, a region free of the arena, the bitmap
and `spans` below it.  The check `p + p_size <= arena_start + _MaxArena32` passes, so
`arena_end` and `arena_used` move down to it, and the call returns `2 ^ 28`: `arena_used` is
now below `arena_start`, and the page returned lies outside `[arena_start, arena_used)`.
`sysAlloc`'s path rejects the same address by its test `p < h.arena_start`. -/
theorem mHeapSysAlloc_below_start :
    ArenaOK ⟨2 ^ 30, 2 ^ 30 + 2 ^ 28, 2 ^ 30 + 2 ^ 28, false⟩ ∧
      (2 ^ 30 + 2 ^ 28) - 2 ^ 30 < maxArena32 ∧ 2 ^ 28 + 2 ^ 28 + 2 ^ 28 ≤ 2 ^ 30 ∧
      mHeapSysAlloc ⟨2 ^ 30, 2 ^ 30 + 2 ^ 28, 2 ^ 30 + 2 ^ 28, false⟩ pageSize ⟨2 ^ 28, false, 0⟩ =
        .ok (⟨2 ^ 30, 2 ^ 28 + pageSize, 2 ^ 29, false⟩, 2 ^ 28) ∧
      ¬ArenaOK ⟨2 ^ 30, 2 ^ 28 + pageSize, 2 ^ 29, false⟩ ∧
      sysAllocTail ⟨2 ^ 30, 2 ^ 30 + 2 ^ 28, 2 ^ 30 + 2 ^ 28, false⟩ pageSize
        ⟨0, false, 2 ^ 28⟩ = .ok (⟨2 ^ 30, 2 ^ 30 + 2 ^ 28, 2 ^ 30 + 2 ^ 28, false⟩, 0) :=
  ⟨by decide, by decide, by decide, rfl, by decide, rfl⟩

/-- When `sysReserve` fails and returns `nil`, the same branch moves the arena to address `0`:
`arena_end = p_size` and `arena_used = 0`, memory the operating system never gave. -/
example : reReserve ⟨2 ^ 30, 2 ^ 30 + 2 ^ 28, 2 ^ 30 + 2 ^ 28, false⟩ pageSize ⟨0, false, 0⟩ =
    ⟨2 ^ 30, 0, 2 ^ 28, false⟩ := by decide

end GoRuntime
