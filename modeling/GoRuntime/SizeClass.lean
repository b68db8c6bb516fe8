/-
**Size classes: the table `initSizes` computes.**

`initSizes` (msize.go) walks the candidate object sizes from 8 bytes up to `_MaxSmallSize`,
bumping the alignment at powers of two, and for each size grows the page run until the
leftover after chopping it into objects is at most an eighth of the run.  A size whose run
holds as many objects as the previous class's merges into that class.  The page count and
object size of a class are what `mCentral_Grow` later carves a fresh span with, so everything
the allocator proves about a span's slots rests on three facts of each class: objects are at
least 8 bytes, at least one fits in the run, and the number that fits is below `2 ^ 16` (the
span's live count `s.ref` is a `uint16`).

Both loops of the source are unbounded `for` loops.  They are written here with fuel: the
page loop stops by its own test within 32 pages for every small size
(`GoRuntime.allocLoop_exits`), and the size loop advances by at least 8 bytes a round.

Main definitions:

* `GoRuntime.allocLoop` — the page-run loop of `initSizes`;
* `GoRuntime.initSizes` — the class table, or the `throw` text of the source;
* `GoRuntime.ClassOK` — what a class must satisfy to be carved;
* `GoRuntime.SizeClasses` — a class table carrying `ClassOK` for every class.

Main results:

* `GoRuntime.allocLoop_exits`, `GoRuntime.allocLoop_le` — the page loop ends by its test, with
  at most 32 pages;
* `GoRuntime.initSizes_classOK` — **every class `initSizes` produces satisfies `ClassOK`**.
-/

import Mathlib.Data.Nat.Defs
import Mathlib.Tactic.Ring
import Mathlib.Tactic.Linarith

set_option autoImplicit false

namespace GoRuntime

/-! ### Constants of malloc.go -/

/-- `_PageShift`. -/
def pageShift : ℕ := 13

/-- `_PageSize = 1 << _PageShift`. -/
def pageSize : ℕ := 8192

/-- `_MaxSmallSize`: the largest size served from a size class. -/
def maxSmallSize : ℕ := 32768

/-- `_NumSizeClasses`, checked by `initSizes`. -/
def numSizeClasses : ℕ := 67

/-- `_TinySize`, the tiny allocator's block size. -/
def maxTinySize : ℕ := 16

/-- `_TinySizeClass`, the class whose 16-byte objects the tiny allocator packs. -/
def tinySizeClass : ℕ := 2

/-- `_MaxMem` on 64-bit Linux, where `_MHeapMap_TotalBits = 39`: `1 << 39 - 1`. -/
def maxMem : ℕ := 2 ^ 39 - 1

@[simp] theorem shiftLeft_pageShift (n : ℕ) : n <<< pageShift = n * pageSize := by
  simp [pageShift, pageSize, Nat.shiftLeft_eq]

@[simp] theorem shiftRight_pageShift (n : ℕ) : n >>> pageShift = n / pageSize := by
  simp [pageShift, pageSize, Nat.shiftRight_eq_div_pow]

/-! ### The page-run loop -/

/-- `for allocsize%size > allocsize/8 { allocsize += _PageSize }`, with `fuel` rounds. -/
def allocLoop : ℕ → ℕ → ℕ → ℕ
  | 0, allocsize, _ => allocsize
  | fuel + 1, allocsize, size =>
      if allocsize % size > allocsize / 8 then allocLoop fuel (allocsize + pageSize) size
      else allocsize

/-- The loop only adds whole pages. -/
theorem allocLoop_mod (fuel a size : ℕ) (ha : a % pageSize = 0) :
    allocLoop fuel a size % pageSize = 0 := by
  induction fuel generalizing a with
  | zero => exact ha
  | succ fuel ih =>
      simp only [allocLoop]
      split
      · exact ih _ (by simp [Nat.add_mod, ha])
      · exact ha

/-- If the loop's test fails `j ≤ fuel` pages on, the loop stops there or earlier, and where it
stops the test fails. -/
theorem allocLoop_stop (size : ℕ) : ∀ (fuel a j : ℕ), j ≤ fuel →
    (a + j * pageSize) % size ≤ (a + j * pageSize) / 8 →
    allocLoop fuel a size ≤ a + j * pageSize ∧
      allocLoop fuel a size % size ≤ allocLoop fuel a size / 8
  | 0, a, j, hj, h => by
      obtain rfl : j = 0 := by omega
      simpa [allocLoop] using h
  | fuel + 1, a, j, hj, h => by
      simp only [allocLoop]
      split
      · rename_i hgt
        cases j with
        | zero => simp at h; omega
        | succ j =>
            have := allocLoop_stop size fuel (a + pageSize) j (by omega)
              (by rwa [show a + pageSize + j * pageSize = a + (j + 1) * pageSize by ring])
            rw [show a + pageSize + j * pageSize = a + (j + 1) * pageSize by ring] at this
            exact this
      · exact ⟨by omega, by omega⟩

/-- Every small size stops the loop within 32 pages, by the loop's own test: fuel 32 computes
the unbounded loop of the source. -/
theorem allocLoop_exits (size : ℕ) (h0 : 0 < size) (hs : size ≤ maxSmallSize) :
    allocLoop 32 pageSize size ≤ 32 * pageSize ∧
      allocLoop 32 pageSize size % size ≤ allocLoop 32 pageSize size / 8 := by
  have key := allocLoop_stop size 32 pageSize 31 (by omega) (by
    have := Nat.mod_lt (pageSize + 31 * pageSize) h0
    simp only [maxSmallSize, pageSize] at *
    omega)
  exact ⟨by simpa [pageSize] using key.1, key.2⟩

/-- Where the loop stops, the run holds at least one object. -/
theorem le_of_allocLoop_exit {a size : ℕ} (ha : 0 < a) (h : a % size ≤ a / 8) : size ≤ a := by
  by_contra hlt
  rw [Nat.mod_eq_of_lt (by omega)] at h
  omega

/-- The loop never shrinks the run. -/
theorem le_allocLoop (size : ℕ) : ∀ (fuel a : ℕ), a ≤ allocLoop fuel a size
  | 0, _ => le_rfl
  | fuel + 1, a => by
      simp only [allocLoop]
      split
      · exact le_trans (by omega) (le_allocLoop size fuel (a + pageSize))
      · exact le_rfl

/-- At most 32 pages, at least one object, and fewer than `2 ^ 16` objects of at least
8 bytes. -/
theorem allocLoop_le (size : ℕ) (h8 : 8 ≤ size) (hs : size ≤ maxSmallSize) :
    size ≤ allocLoop 32 pageSize size ∧ allocLoop 32 pageSize size / size < 2 ^ 16 := by
  obtain ⟨hle, hex⟩ := allocLoop_exits size (by omega) hs
  have hpos : 0 < allocLoop 32 pageSize size :=
    lt_of_lt_of_le (by decide) (le_allocLoop size 32 pageSize)
  refine ⟨le_of_allocLoop_exit hpos hex, ?_⟩
  have h32 : 32 * pageSize = 262144 := rfl
  calc allocLoop 32 pageSize size / size ≤ allocLoop 32 pageSize size / 8 :=
        Nat.div_le_div_left h8 (by norm_num)
    _ < 2 ^ 16 := by omega

/-! ### The class table -/

/-- `class_to_size` and `class_to_allocnpages`, zero where no class was made. -/
structure SizeTables where
  classToSize : ℕ → ℕ
  classToAllocnpages : ℕ → ℕ

/-- The zeroed arrays `initSizes` starts from. -/
def SizeTables.zero : SizeTables := ⟨fun _ => 0, fun _ => 0⟩

/-- Record a new class (`class_to_allocnpages[sizeclass] = npages`, `class_to_size[...] = size`). -/
def SizeTables.setClass (t : SizeTables) (sizeclass npages size : ℕ) : SizeTables :=
  ⟨Function.update t.classToSize sizeclass size,
    Function.update t.classToAllocnpages sizeclass npages⟩

/-- Merge a size into an existing class: `class_to_size[sizeclass-1] = size`. -/
def SizeTables.setSize (t : SizeTables) (sizeclass size : ℕ) : SizeTables :=
  { t with classToSize := Function.update t.classToSize sizeclass size }

/-- "bump alignment once in a while": at each power of two the alignment becomes 256 from
2048 bytes on, `size / 8` from 128, and 16 from 16. -/
def bumpAlign (size align : ℕ) : ℕ :=
  if size &&& (size - 1) = 0 then
    if 2048 ≤ size then 256 else if 128 ≤ size then size / 8 else if 16 ≤ size then 16 else align
  else align

/-- The first loop of `initSizes`, over `size := align; size <= _MaxSmallSize; size += align`,
returning the next free class number and the tables.  The alignment check throws
"InitSizes - bug". -/
def initSizesLoop : ℕ → ℕ → ℕ → ℕ → SizeTables → Except String (ℕ × SizeTables)
  | 0, sizeclass, _, _, t => .ok (sizeclass, t)
  | fuel + 1, sizeclass, align, size, t =>
      if maxSmallSize < size then .ok (sizeclass, t) else
      let align := bumpAlign size align
      if align &&& (align - 1) ≠ 0 then .error "InitSizes - bug" else
      let allocsize := allocLoop 32 pageSize size
      let npages := allocsize >>> pageShift
      if 1 < sizeclass ∧ npages = t.classToAllocnpages (sizeclass - 1) ∧
          allocsize / size = allocsize / t.classToSize (sizeclass - 1) then
        initSizesLoop fuel sizeclass align (size + align) (t.setSize (sizeclass - 1) size)
      else
        initSizesLoop fuel (sizeclass + 1) align (size + align) (t.setClass sizeclass npages size)

/-- `initSizes`: the class table, or "InitSizes - bad NumSizeClasses" when the loop does not
make exactly `_NumSizeClasses` classes.  The size loop runs at most `_MaxSmallSize / 8`
rounds, since the alignment never drops below 8. -/
def initSizes : Except String SizeTables :=
  match initSizesLoop (maxSmallSize / 8) 1 8 8 SizeTables.zero with
  | .error e => .error e
  | .ok (sizeclass, t) =>
      if sizeclass ≠ numSizeClasses then .error "InitSizes - bad NumSizeClasses" else .ok t

/-- What `mCentral_Grow` needs of a class: objects of at least 8 bytes, at least one object in
the run, and fewer than `2 ^ 16` objects in it. -/
structure ClassOK (npages size : ℕ) : Prop where
  size_ge : 8 ≤ size
  size_le : size ≤ npages * pageSize
  cap_lt : npages * pageSize / size < 2 ^ 16

/-- A size found by the page loop makes a class that can be carved. -/
theorem classOK_allocLoop (size : ℕ) (h8 : 8 ≤ size) (hs : size ≤ maxSmallSize) :
    ClassOK (allocLoop 32 pageSize size >>> pageShift) size := by
  have hmod := allocLoop_mod 32 pageSize size (by simp)
  have hrun : allocLoop 32 pageSize size / pageSize * pageSize = allocLoop 32 pageSize size :=
    Nat.div_mul_cancel (Nat.dvd_of_mod_eq_zero hmod)
  obtain ⟨hle, hcap⟩ := allocLoop_le size h8 hs
  exact ⟨h8, by simpa [hrun] using hle, by simpa [hrun] using hcap⟩

/-- The loop invariant of `initSizesLoop`: classes `1 ≤ c < sizeclass` satisfy `ClassOK`. -/
def TablesOK (sizeclass : ℕ) (t : SizeTables) : Prop :=
  ∀ c, 0 < c → c < sizeclass → ClassOK (t.classToAllocnpages c) (t.classToSize c)

theorem initSizesLoop_ok : ∀ (fuel sizeclass align size : ℕ) (t : SizeTables)
    (sc' : ℕ) (t' : SizeTables), 0 < sizeclass → 8 ≤ size → TablesOK sizeclass t →
    initSizesLoop fuel sizeclass align size t = .ok (sc', t') → TablesOK sc' t'
  | 0, _, _, _, _, _, _, _, _, ht, h => by
      simp only [initSizesLoop, Except.ok.injEq, Prod.mk.injEq] at h
      obtain ⟨rfl, rfl⟩ := h
      exact ht
  | fuel + 1, sizeclass, align, size, t, sc', t', hsc, h8, ht, h => by
      simp only [initSizesLoop] at h
      split at h
      · simp only [Except.ok.injEq, Prod.mk.injEq] at h
        obtain ⟨rfl, rfl⟩ := h
        exact ht
      rename_i hs
      have hnew := classOK_allocLoop size h8 (by omega)
      split at h
      · cases h
      split at h
      · rename_i hmerge
        refine initSizesLoop_ok fuel _ _ _ _ _ _ hsc (by omega) ?_ h
        intro c hc hlt
        by_cases hce : c = sizeclass - 1
        · subst hce
          simpa [SizeTables.setSize, ← hmerge.2.1] using hnew
        · simpa [SizeTables.setSize, hce] using ht c hc hlt
      · refine initSizesLoop_ok fuel _ _ _ _ _ _ (by omega) (by omega) ?_ h
        intro c hc hlt
        by_cases hce : c = sizeclass
        · subst hce
          simpa [SizeTables.setClass] using hnew
        · simpa [SizeTables.setClass, hce] using ht c hc (by omega)

/-- **Every class of the table `initSizes` produces can be carved.** -/
theorem initSizes_classOK {t : SizeTables} (h : initSizes = .ok t) :
    ∀ c, 0 < c → c < numSizeClasses → ClassOK (t.classToAllocnpages c) (t.classToSize c) := by
  unfold initSizes at h
  split at h
  · cases h
  · rename_i sc t₀ hl
    split at h
    · cases h
    · rename_i hsc
      cases h
      obtain rfl : sc = numSizeClasses := not_not.mp hsc
      exact initSizesLoop_ok _ _ _ _ _ _ _ (by decide) (by decide)
        (fun c hc hlt => absurd hlt (by omega)) hl

/-- A class table every class of which satisfies `ClassOK`: the tables `initSizes` makes
(`GoRuntime.SizeClasses.ofInit`), and the only ones the allocator below is run with. -/
structure SizeClasses where
  classToSize : ℕ → ℕ
  classToAllocnpages : ℕ → ℕ
  classOK : ∀ c, 0 < c → c < numSizeClasses → ClassOK (classToAllocnpages c) (classToSize c)

/-- The tables of a successful `initSizes`. -/
def SizeClasses.ofInit (t : SizeTables) (h : initSizes = .ok t) : SizeClasses :=
  ⟨t.classToSize, t.classToAllocnpages, initSizes_classOK h⟩

/-- The table of the source's comment on `initSizes` (64-bit): `class_to_size`, and the
`class_to_allocnpages` the loop computes beside it. -/
def goClassToSize : List ℕ :=
  [0, 8, 16, 32, 48, 64, 80, 96, 112, 128, 144, 160, 176, 192, 208, 224, 240, 256, 288, 320, 352,
    384, 416, 448, 480, 512, 576, 640, 704, 768, 896, 1024, 1152, 1280, 1408, 1536, 1664, 2048,
    2304, 2560, 2816, 3072, 3328, 4096, 4608, 5376, 6144, 6400, 6656, 6912, 8192, 8448, 8704, 9472,
    10496, 12288, 13568, 14080, 16384, 16640, 17664, 20480, 21248, 24576, 24832, 28416, 32768]

def goClassToAllocnpages : List ℕ :=
  [0, 1, 1, 1, 1, 1, 1, 1, 1, 1, 1, 1, 1, 1, 1, 1, 1, 1, 1, 1, 1, 1, 1, 1, 1, 1, 1, 1, 1, 1, 1, 1,
    1, 1, 2, 1, 2, 1, 2, 1, 3, 2, 3, 1, 3, 2, 3, 4, 5, 6, 1, 7, 6, 5, 4, 3, 5, 7, 2, 9, 7, 5, 8, 3,
    10, 7, 4]

theorem goClasses_ok : ∀ c < numSizeClasses, 0 < c →
    8 ≤ goClassToSize.getD c 0 ∧ goClassToSize.getD c 0 ≤ goClassToAllocnpages.getD c 0 * pageSize ∧
      goClassToAllocnpages.getD c 0 * pageSize / goClassToSize.getD c 0 < 2 ^ 16 := by
  decide

/-- The source's class table as a `SizeClasses`. -/
def goSizeClasses : SizeClasses where
  classToSize c := goClassToSize.getD c 0
  classToAllocnpages c := goClassToAllocnpages.getD c 0
  classOK c hc hc' := let h := goClasses_ok c hc' hc; ⟨h.1, h.2.1, h.2.2⟩

end GoRuntime
