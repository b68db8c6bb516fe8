/-
**Large objects: `largeAlloc` and `roundupsize`.**

`mallocgc` serves a request above `maxSmallSize` from a span of its own: `largeAlloc` counts the
pages it needs with a shift and a test of the low bits, asks `mHeap_Alloc` for them, and sets
the span's `limit` to the end of the requested bytes.  `roundupsize`, which callers use to learn
what `mallocgc` will hand out, computes the same size another way, with `round`.  The two agree
on every size whose page rounding does not wrap a `uintptr`, and on the others `largeAlloc`
throws while `roundupsize` returns the size unchanged (`GoRuntime.largeAlloc_sizing`).

Main definitions:

* `GoRuntime.largeAllocPages`, `GoRuntime.largeAlloc` — the page count and the allocation, with
  `mHeap_Alloc` as an input;
* `GoRuntime.roundupsize` — the size `mallocgc` hands out, with the class lookup tables as an
  input.

Main results:

* `GoRuntime.largeAllocPages_eq` — the page count is `⌈size / _PageSize⌉`;
* `GoRuntime.largeAlloc_sizing` — **large-object sizing agrees with `roundupsize`**.
-/

import GoRuntime.Arena
import GoRuntime.Span

set_option autoImplicit false

namespace GoRuntime

/-- `_PageMask = _PageSize - 1`. -/
def pageMask : ℕ := pageSize - 1

/-- The page count of `largeAlloc`: `size >> _PageShift`, one more if `size&_PageMask != 0`. -/
def largeAllocPages (size : ℕ) : ℕ :=
  if size &&& pageMask ≠ 0 then (size >>> pageShift) + 1 else size >>> pageShift

/-- `largeAlloc(size, flag)`, where `mHeap_Alloc` answers a request for `npages` pages with
`heapAlloc npages` (`none` for nil): the span with its `limit` set, or the `throw` text. -/
def largeAlloc (size : ℕ) (heapAlloc : ℕ → Option MSpan) : Except String MSpan :=
  if uadd size pageSize < size then .error "out of memory"
  else
    match heapAlloc (largeAllocPages size) with
    | none => .error "out of memory"
    | some s => .ok { s with limit := uadd (s.start <<< pageShift % 2 ^ 64) size }

/-- `size_to_class8` and `size_to_class128`, the class lookup tables `initSizes` fills. -/
structure SizeToClass where
  class8 : ℕ → ℕ
  class128 : ℕ → ℕ

/-- `roundupsize(size)`: the size of the class a small request falls in, read through the
lookup tables; otherwise the size rounded up to a page, or the size itself when that wraps. -/
def roundupsize (sc : SizeClasses) (t : SizeToClass) (size : ℕ) : ℕ :=
  if size < maxSmallSize then
    if size ≤ 1024 - 8 then sc.classToSize (t.class8 ((size + 7) >>> 3))
    else sc.classToSize (t.class128 (uadd (usub size 1024) 127 >>> 7))
  else if uadd size pageSize < size then size
  else round size pageSize

/-- `size + _PageSize < size` on `uintptr` exactly when the sum wraps. -/
theorem uadd_pageSize_lt_iff {size : ℕ} (h : size < 2 ^ 64) :
    uadd size pageSize < size ↔ 2 ^ 64 ≤ size + pageSize := by
  unfold uadd pageSize; omega

/-- **The page count is `⌈size / _PageSize⌉`**: the shift counts the whole pages and the mask
test adds the partial one. -/
theorem largeAllocPages_eq (size : ℕ) :
    largeAllocPages size = (size + pageSize - 1) / pageSize := by
  have hmask : size &&& pageMask = size % 2 ^ pageShift := by
    rw [← Nat.and_pow_two_sub_one_eq_mod]; rfl
  unfold largeAllocPages
  rw [hmask, Nat.shiftRight_eq_div_pow]
  simp only [pageShift, pageSize]
  split_ifs <;> omega

example : largeAllocPages 40000 = 5 := by decide

/-- **Large-object sizing agrees with `roundupsize`.**  For every `uintptr` size above
`maxSmallSize`, whatever the class tables and `mHeap_Alloc`: if `size + _PageSize` does not
wrap, `largeAlloc` asks for `npages = ⌈size / _PageSize⌉` pages, `npages * _PageSize` is
`roundupsize(size)`, `(npages - 1) * _PageSize < size ≤ npages * _PageSize`, and the span it
returns is the one `mHeap_Alloc` gave, with `limit = s.start << _PageShift + size`; if it wraps,
`largeAlloc` throws `"out of memory"` and `roundupsize` returns `size`. -/
theorem largeAlloc_sizing (sc : SizeClasses) (t : SizeToClass) (heapAlloc : ℕ → Option MSpan)
    {size : ℕ} (hsmall : maxSmallSize < size) (hsize : size < 2 ^ 64) :
    (size + pageSize < 2 ^ 64 →
      largeAllocPages size = (size + pageSize - 1) / pageSize ∧
      largeAllocPages size * pageSize = roundupsize sc t size ∧
      (largeAllocPages size - 1) * pageSize < size ∧ size ≤ largeAllocPages size * pageSize ∧
      ∀ s, largeAlloc size heapAlloc = .ok s ↔
        ∃ s₀, heapAlloc (largeAllocPages size) = some s₀ ∧
          s = { s₀ with limit := uadd (s₀.start <<< pageShift % 2 ^ 64) size }) ∧
    (2 ^ 64 ≤ size + pageSize →
      largeAlloc size heapAlloc = .error "out of memory" ∧ roundupsize sc t size = size) := by
  have hbig : ¬size < maxSmallSize := by omega
  constructor
  · intro hfit
    have hnowrap : ¬uadd size pageSize < size := by rw [uadd_pageSize_lt_iff hsize]; omega
    have hround : roundupsize sc t size = (size + pageSize - 1) / pageSize * pageSize := by
      simp only [roundupsize, hbig, hnowrap, if_false, round]
      rw [uadd_of_lt (by simp only [pageSize] at hfit ⊢; omega)]; rfl
    have hpages := largeAllocPages_eq size
    refine ⟨hpages, by rw [hpages, hround], ?_, ?_, fun s => ?_⟩
    · rw [hpages]; simp only [pageSize, maxSmallSize] at *; omega
    · rw [hpages]; simp only [pageSize]; omega
    · simp only [largeAlloc, hnowrap, if_false]
      cases heapAlloc (largeAllocPages size) with
      | none => simp
      | some s₀ => simp [eq_comm]
  · intro hwrap
    have hw : uadd size pageSize < size := (uadd_pageSize_lt_iff hsize).2 hwrap
    simp [largeAlloc, roundupsize, hbig, hw]

/-- A request of 40000 bytes takes five pages, the 40960 bytes `roundupsize` reports, and with
`mHeap_Alloc` handing out the run at page `3` the span ends at `3 << 13 + 40000`. -/
theorem largeAlloc_sizing_five_pages :
    largeAllocPages 40000 = 5 ∧
      roundupsize goSizeClasses ⟨fun _ => 0, fun _ => 0⟩ 40000 = 40960 ∧
      largeAlloc 40000 (fun n => some ⟨3, n, 0, 0, 0, 0, 0, false, 0⟩) =
        .ok ⟨3, 5, 0, 0, 0, 0, 64576, false, 0⟩ := by
  obtain ⟨-, hround, -, -, hspan⟩ := (largeAlloc_sizing goSizeClasses ⟨fun _ => 0, fun _ => 0⟩
    (fun n => some ⟨3, n, 0, 0, 0, 0, 0, false, 0⟩) (by decide : maxSmallSize < 40000)
    (by decide)).1 (by decide)
  have hpages : largeAllocPages 40000 = 5 := by decide
  exact ⟨hpages, hround.symm.trans (by rw [hpages]; rfl), (hspan _).2 ⟨_, by rw [hpages], rfl⟩⟩

end GoRuntime
