/-
**The size-class lookup tables.**

`initSizes` ends with a second loop that fills two byte arrays from `class_to_size`:
- `size_to_class8` is indexed by the size divided by 8, rounded up, for sizes up to 1024;
- `size_to_class128` is indexed by `(size - 1024) / 128`, rounded up, for the larger sizes.

Each entry holds the first class whose object size reaches the entry's size.  With these
arrays, `mallocgc`, `sizeToClass` and `roundupsize` find a class with one shift and one array
read instead of a search.

The loop walks the classes once.  A cursor `nextsize` only moves forward, and every class is
written at the grid points from the cursor up to its own size.  The lookup is exact because of
how the classes are laid out (`GoRuntime.ClassTableOK`):
- they grow strictly;
- every class size is a multiple of 8;
- every class size from 1024 on is a multiple of 128;
- the last class is `_MaxSmallSize`.

Under this layout no class size falls strictly between a size and the grid point that indexes
its entry.  The table `initSizes` computes has this layout.

Main definitions:

* `GoRuntime.fill8`, `GoRuntime.fill128`, `GoRuntime.fillTables`, `GoRuntime.initSizeToClass`
  — the second loop of `initSizes`, with Go's bounds check on `size_to_class128`;
* `GoRuntime.mallocgcClass`, `GoRuntime.sizeToClass` — the two lookups;
* `GoRuntime.firstFit` — the search the tables stand for.

Main results:

* `GoRuntime.fill8_eq`, `GoRuntime.fill128_eq` — what the inner loops write for one class;
* `GoRuntime.FillInv.step`, `GoRuntime.FillInv.run` — one class of the outer loop, and so the
  whole loop, keeps every entry equal to the search;
* `GoRuntime.sizeClass_lookup` — **the lookups find the smallest class that fits**, for every
  class table with the layout;
* `GoRuntime.classTableOK_of_initSizes` — the table `initSizes` builds has the layout.
-/

import GoRuntime.Large

set_option autoImplicit false

namespace GoRuntime

/-! ### The second loop of `initSizes` -/

/-- The length of `size_to_class128`, `(_MaxSmallSize-1024)/128 + 1`. -/
def class128Len : ℕ := (maxSmallSize - 1024) / 128 + 1

/-- `for ; nextsize < 1024 && nextsize <= class_to_size[sizeclass]; nextsize += 8 {
size_to_class8[nextsize/8] = int8(sizeclass) }` for class `sc` of size `csize`, for at most
`fuel` rounds.  The index stays below `128`, inside the array of `1024/8 + 1` entries. -/
def fill8 (sc csize : ℕ) : ℕ → ℕ → (ℕ → ℕ) → ℕ × (ℕ → ℕ)
  | 0, nextsize, tab => (nextsize, tab)
  | fuel + 1, nextsize, tab =>
    if nextsize < 1024 ∧ nextsize ≤ csize then
      fill8 sc csize fuel (nextsize + 8) (Function.update tab (nextsize / 8) sc)
    else (nextsize, tab)

/-- `for ; nextsize <= class_to_size[sizeclass]; nextsize += 128 {
size_to_class128[(nextsize-1024)/128] = int8(sizeclass) }`, for at most `fuel` rounds, with the
panic of Go's bounds check on the array. -/
def fill128 (sc csize : ℕ) : ℕ → ℕ → (ℕ → ℕ) → Except String (ℕ × (ℕ → ℕ))
  | 0, nextsize, tab => .ok (nextsize, tab)
  | fuel + 1, nextsize, tab =>
    if nextsize ≤ csize then
      if (nextsize - 1024) / 128 < class128Len then
        fill128 sc csize fuel (nextsize + 128)
          (Function.update tab ((nextsize - 1024) / 128) sc)
      else .error "index out of range"
    else .ok (nextsize, tab)

/-- The outer loop `for sizeclass = 1; sizeclass < _NumSizeClasses; sizeclass++` from class
`sizeclass` on, for the `n` classes left, with the cursor `nextsize` carried from class to class.
The `128`-loop runs only `if nextsize >= 1024`.  The inner loops get as much fuel as the test
`nextsize < 1024` and the bounds check let them use. -/
def fillTables (classToSize : ℕ → ℕ) : ℕ → ℕ → ℕ → SizeToClass → Except String SizeToClass
  | 0, _, _, s => .ok s
  | n + 1, sizeclass, nextsize, s =>
    let r := fill8 sizeclass (classToSize sizeclass) 128 nextsize s.class8
    if 1024 ≤ r.1 then
      match fill128 sizeclass (classToSize sizeclass) 250 r.1 s.class128 with
      | .error e => .error e
      | .ok (nextsize, c128) => fillTables classToSize n (sizeclass + 1) nextsize ⟨r.2, c128⟩
    else fillTables classToSize n (sizeclass + 1) r.1 ⟨r.2, s.class128⟩

/-- The second loop of `initSizes` over `class_to_size`, from `nextsize := 0` and the zeroed
arrays. -/
def initSizeToClass (classToSize : ℕ → ℕ) : Except String SizeToClass :=
  fillTables classToSize (numSizeClasses - 1) 1 0 ⟨fun _ => 0, fun _ => 0⟩

/-! ### The lookups -/

/-- The class that `mallocgc`'s small path picks for a `uintptr` size:
`size_to_class8[(size+7)>>3]` when `size <= 1024-8`, else
`size_to_class128[(size-1024+127)>>7]`.  For a size above `1016`, `size-1024+127` is
`size - 897` on `uintptr`, also when `size < 1024`. -/
def mallocgcClass (s : SizeToClass) (size : ℕ) : ℕ :=
  if size ≤ 1024 - 8 then s.class8 ((size + 7) >>> 3) else s.class128 ((size + 127 - 1024) >>> 7)

/-- `sizeToClass(size)` for a non-negative `int32` size: the class, or the `throw` text. -/
def sizeToClass (s : SizeToClass) (size : ℕ) : Except String ℕ :=
  if maxSmallSize < size then .error "SizeToClass - invalid size"
  else if 1024 - 8 < size then .ok (s.class128 ((size + 127 - 1024) >>> 7))
  else .ok (s.class8 ((size + 7) >>> 3))

/-- The search the tables stand for: the first class `1 ≤ c < k` whose objects hold `n` bytes,
`0` when there is none. -/
def firstFit (classToSize : ℕ → ℕ) : ℕ → ℕ → ℕ
  | 0, _ => 0
  | k + 1, n =>
    if firstFit classToSize k n ≠ 0 then firstFit classToSize k n
    else if 0 < k ∧ n ≤ classToSize k then k else 0

/-- `c` is the smallest class whose objects hold `n` bytes. -/
def IsClassOf (classToSize : ℕ → ℕ) (n c : ℕ) : Prop :=
  0 < c ∧ c < numSizeClasses ∧ n ≤ classToSize c ∧ ∀ c', 0 < c' → c' < c → classToSize c' < n

/-- The layout of `class_to_size` that makes the tables exact:
- the classes `1 … 66` grow strictly;
- every class size is a multiple of 8, and from 1024 on a multiple of 128;
- the last class is `_MaxSmallSize`. -/
structure ClassTableOK (classToSize : ℕ → ℕ) : Prop where
  mono : ∀ c, 0 < c → c + 1 < numSizeClasses → classToSize c < classToSize (c + 1)
  align8 : ∀ c, 0 < c → c < numSizeClasses → classToSize c % 8 = 0
  align128 : ∀ c, 0 < c → c < numSizeClasses → 1024 ≤ classToSize c → classToSize c % 128 = 0
  last : classToSize (numSizeClasses - 1) = maxSmallSize

section FirstFit

variable {cts : ℕ → ℕ}

theorem ClassTableOK.lt (ht : ClassTableOK cts) {c c' : ℕ} (h0 : 0 < c) (hlt : c < c')
    (hc' : c' < numSizeClasses) : cts c < cts c' := by
  induction c', hlt using Nat.le_induction with
  | base => exact ht.mono c h0 hc'
  | succ c' hle ih => exact (ih (by omega)).trans (ht.mono c' (by omega) hc')

theorem ClassTableOK.le_max (ht : ClassTableOK cts) {c : ℕ} (h0 : 0 < c)
    (hc : c < numSizeClasses) : cts c ≤ maxSmallSize := by
  rcases Nat.lt_or_ge c (numSizeClasses - 1) with hlt | hge
  · exact (ht.lt h0 hlt (by decide)).le.trans ht.last.le
  · rw [show c = numSizeClasses - 1 by unfold numSizeClasses at *; omega, ht.last]

/-- The search finds class `c` only when `c` is the smallest class below `k` that fits. -/
theorem firstFit_spec {n : ℕ} : ∀ {k c : ℕ}, firstFit cts k n = c → c ≠ 0 →
    0 < c ∧ c < k ∧ n ≤ cts c ∧ ∀ c', 0 < c' → c' < c → cts c' < n
  | 0, _, h, hc => absurd h.symm hc
  | k + 1, c, h, hc => by
    simp only [firstFit] at h
    split_ifs at h with h₁ h₂
    · obtain ⟨h0, hk, hn, hmin⟩ := firstFit_spec h hc
      exact ⟨h0, by omega, hn, hmin⟩
    · subst h
      refine ⟨h₂.1, by omega, h₂.2, fun c' hc' hlt => Nat.lt_of_not_le fun hle => h₁ ?_⟩
      -- a smaller class that fits would have been found below `k`
      exact (firstFit_pos hc' hlt hle).ne'
    · exact absurd h.symm hc
where
  firstFit_pos {c' : ℕ} : ∀ {k : ℕ}, 0 < c' → c' < k → n ≤ cts c' → 0 < firstFit cts k n
    | 0, _, hk, _ => absurd hk (Nat.not_lt_zero _)
    | k + 1, h0, hk, hn => by
      simp only [firstFit]
      split_ifs with h₁ h₂
      · exact Nat.pos_of_ne_zero h₁
      · exact h₂.1
      · rcases Nat.lt_succ_iff_lt_or_eq.1 hk with hk | rfl
        · exact absurd (firstFit_pos h0 hk hn).ne' h₁
        · exact absurd ⟨h0, hn⟩ h₂

/-- Over a growing class table, the search below `k` finds a class exactly when the last class
below `k` fits. -/
theorem firstFit_ne_zero_iff (ht : ClassTableOK cts) {n : ℕ} :
    ∀ {k : ℕ}, k ≤ numSizeClasses → (firstFit cts k n ≠ 0 ↔ 1 < k ∧ n ≤ cts (k - 1))
  | 0, _ => by simp [firstFit]
  | k + 1, hk => by
    have ih := firstFit_ne_zero_iff ht (n := n) (k := k) (by omega)
    simp only [firstFit, Nat.add_sub_cancel]
    by_cases h₁ : firstFit cts k n ≠ 0
    · obtain ⟨hk1, hn⟩ := ih.1 h₁
      exact ⟨fun _ => ⟨by omega, hn.trans (ht.lt (by omega) (by omega) hk).le⟩,
        fun _ => by simp [h₁]⟩
    · simp only [h₁, if_false, ne_eq, not_false_eq_true]
      split_ifs with h₂ <;> omega

/-- The search below `k + 1` adds class `k` for the sizes above the class before it. -/
theorem firstFit_step (ht : ClassTableOK cts) {k : ℕ} (hk : 0 < k) (hk' : k < numSizeClasses)
    (n : ℕ) : firstFit cts (k + 1) n =
      if ¬(1 < k ∧ n ≤ cts (k - 1)) ∧ n ≤ cts k then k else firstFit cts k n := by
  have hne := firstFit_ne_zero_iff ht (n := n) hk'.le
  simp only [firstFit]
  by_cases h : 1 < k ∧ n ≤ cts (k - 1)
  · rw [if_pos (hne.2 h), if_neg (fun h' => h'.1 h)]
  · have h0 : firstFit cts k n = 0 := by_contra fun h0 => h (hne.1 h0)
    simp [h0, h, hk]

/-- Two sizes that no class tells apart have the same first class. -/
theorem firstFit_congr {n m : ℕ}
    (h : ∀ c, 0 < c → c < numSizeClasses → (n ≤ cts c ↔ m ≤ cts c)) :
    ∀ {k : ℕ}, k ≤ numSizeClasses → firstFit cts k n = firstFit cts k m
  | 0, _ => rfl
  | k + 1, hk => by
    simp only [firstFit, firstFit_congr h (k := k) (by omega)]
    by_cases hk0 : 0 < k
    · simp only [h k hk0 (by omega)]
    · simp [hk0]

/-- Up to `_MaxSmallSize` the search over all classes finds the smallest class that fits. -/
theorem firstFit_isClassOf (ht : ClassTableOK cts) {n : ℕ} (hn : n ≤ maxSmallSize) :
    IsClassOf cts n (firstFit cts numSizeClasses n) :=
  firstFit_spec rfl <| (firstFit_ne_zero_iff ht le_rfl).2 ⟨by decide, ht.last ▸ hn⟩

end FirstFit

/-! ### The inner loops -/

/-- **The `8`-loop**, started from a cursor on the grid of multiples of 8, writes class `sc` at
every grid point from the cursor up to `csize` and below 1024.  It leaves the cursor at the
first grid point past `csize`, and at most at 1024. -/
theorem fill8_eq (sc csize : ℕ) : ∀ (fuel nextsize : ℕ) (tab : ℕ → ℕ), nextsize % 8 = 0 →
    1024 ≤ nextsize + 8 * fuel →
    fill8 sc csize fuel nextsize tab =
      (max nextsize (min (csize / 8 * 8 + 8) 1024),
        fun i => if nextsize ≤ 8 * i ∧ 8 * i ≤ csize ∧ i < 128 then sc else tab i)
  | 0, nextsize, tab, _, hf => by
    simp only [fill8, Prod.mk.injEq]
    exact ⟨by omega, funext fun i => by rw [if_neg (by omega)]⟩
  | fuel + 1, nextsize, tab, h8, hf => by
    simp only [fill8]
    split_ifs with hrun
    · rw [fill8_eq sc csize fuel (nextsize + 8) _ (by omega) (by omega), Prod.mk.injEq]
      refine ⟨by omega, funext fun i => ?_⟩
      by_cases hi : i = nextsize / 8
      · subst hi
        rw [Function.update_same, if_neg (by omega), if_pos (by omega)]
      · rw [Function.update_noteq hi]
        exact if_congr (by omega) rfl rfl
    · simp only [Prod.mk.injEq]
      exact ⟨by omega, funext fun i => by rw [if_neg (by omega)]⟩

/-- **The `128`-loop**, started from a cursor on the grid `1024 + 128 j`, writes class `sc` at
every grid point from the cursor up to `csize`.  It never indexes out of the array when `csize`
lies inside the grid, and it leaves the cursor at the first grid point past `csize`. -/
theorem fill128_eq (sc csize : ℕ) (hcs : csize < 1024 + 128 * class128Len) :
    ∀ (fuel nextsize : ℕ) (tab : ℕ → ℕ), 1024 ≤ nextsize → (nextsize - 1024) % 128 = 0 →
    csize < nextsize + 128 * fuel →
    fill128 sc csize fuel nextsize tab =
      .ok (max nextsize (1024 + 128 * ((csize + 128 - 1024) / 128)),
        fun j => if nextsize ≤ 1024 + 128 * j ∧ 1024 + 128 * j ≤ csize then sc else tab j)
  | 0, nextsize, tab, _, _, hf => by
    simp only [fill128, Except.ok.injEq, Prod.mk.injEq]
    exact ⟨by omega, funext fun j => by rw [if_neg (by omega)]⟩
  | fuel + 1, nextsize, tab, h1, h128, hf => by
    simp only [fill128]
    have hlen : class128Len = 249 := rfl
    rw [hlen] at hcs ⊢
    split_ifs with hrun hidx
    · rw [fill128_eq sc csize (by rw [hlen]; omega) fuel (nextsize + 128) _ (by omega)
        (by omega) (by omega), Except.ok.injEq, Prod.mk.injEq]
      refine ⟨by omega, funext fun j => ?_⟩
      by_cases hj : j = (nextsize - 1024) / 128
      · subst hj
        rw [Function.update_same, if_neg (by omega), if_pos (by omega)]
      · rw [Function.update_noteq hj]
        exact if_congr (by omega) rfl rfl
    · omega
    · simp only [Except.ok.injEq, Prod.mk.injEq]
      exact ⟨by omega, funext fun j => by rw [if_neg (by omega)]⟩

/-! ### The outer loop -/

/-- Where the cursor stands after a class of size `p`: on the next multiple of 8 below 1024,
on the next multiple of 128 from there on. -/
def cursor (p : ℕ) : ℕ := if p < 1024 then p + 8 else p + 128

/-- The invariant of the outer loop before class `k`:
- the cursor stands past the last class done;
- every entry of both arrays holds the first class below `k` that reaches it. -/
structure FillInv (cts : ℕ → ℕ) (k nextsize : ℕ) (s : SizeToClass) : Prop where
  next : nextsize = if k ≤ 1 then 0 else cursor (cts (k - 1))
  class8 : ∀ i < 128, s.class8 i = firstFit cts k (8 * i)
  class128 : ∀ j < class128Len, s.class128 j = firstFit cts k (1024 + 128 * j)

section Fill

variable {cts : ℕ → ℕ}

/-- The zeroed arrays and `nextsize := 0` meet the invariant before class 1. -/
theorem fillInv_start : FillInv cts 1 0 ⟨fun _ => 0, fun _ => 0⟩ :=
  ⟨rfl, fun _ _ => rfl, fun _ _ => rfl⟩

/-- A size on both grids is past the cursor exactly when it is past the class the cursor
follows. -/
theorem cursor_le_iff {p m : ℕ} (hp : p % 8 = 0) (hp' : 1024 ≤ p → p % 128 = 0)
    (hm : m % 8 = 0) (hm' : 1024 ≤ m → m % 128 = 0) : cursor p ≤ m ↔ p < m := by
  unfold cursor; split_ifs <;> omega

/-- Where the two inner loops leave a cursor that starts on the grids at or below a class of
size `p`: at `cursor p`, whether or not the `128`-loop runs. -/
theorem cursor_after_loops {p nextsize : ℕ} (hp : p % 8 = 0) (hp' : 1024 ≤ p → p % 128 = 0)
    (hn : nextsize ≤ p) :
    (1024 ≤ max nextsize (min (p / 8 * 8 + 8) 1024) →
      max (max nextsize (min (p / 8 * 8 + 8) 1024)) (1024 + 128 * ((p + 128 - 1024) / 128)) =
        cursor p) ∧
    (¬1024 ≤ max nextsize (min (p / 8 * 8 + 8) 1024) →
      max nextsize (min (p / 8 * 8 + 8) 1024) = cursor p) := by
  unfold cursor
  split_ifs <;> omega

/-- The cursor before class `k` lies on the grids, not past class `k`, and the grid points at or
past it are those the classes below `k` do not reach. -/
theorem FillInv.cursor_facts (ht : ClassTableOK cts) {k nextsize : ℕ} {s : SizeToClass}
    (h : FillInv cts k nextsize s) (hk : 0 < k) (hk' : k < numSizeClasses) :
    nextsize % 8 = 0 ∧ (1024 ≤ nextsize → nextsize % 128 = 0) ∧ nextsize ≤ cts k ∧
      ∀ m, m % 8 = 0 → (1024 ≤ m → m % 128 = 0) →
        (nextsize ≤ m ↔ ¬(1 < k ∧ m ≤ cts (k - 1))) := by
  rw [h.next]
  by_cases hk1 : k ≤ 1
  · rw [if_pos hk1]
    exact ⟨rfl, by omega, Nat.zero_le _, fun m _ _ => iff_of_true (Nat.zero_le _) (by omega)⟩
  · have hlt := ht.lt (c := k - 1) (by omega) (by omega) hk'
    have hp := ht.align8 (k - 1) (by omega) (by omega)
    have hp' := ht.align128 (k - 1) (by omega) (by omega)
    rw [if_neg hk1]
    refine ⟨by unfold cursor; split_ifs <;> omega, by unfold cursor; split_ifs <;> omega,
      (cursor_le_iff hp hp' (ht.align8 k hk hk') (ht.align128 k hk hk')).2 hlt,
      fun m hm hm' => (cursor_le_iff hp hp' hm hm').trans (by omega)⟩

/-- **One class of the outer loop keeps the invariant**, and never panics on the bounds check.
Its `8`-loop and its `128`-loop write it at the grid points from the cursor to its size, and
these are the entries whose first class it becomes. -/
theorem FillInv.step (ht : ClassTableOK cts) {k nextsize : ℕ} {s : SizeToClass}
    (h : FillInv cts k nextsize s) (hk : 0 < k) (hk' : k < numSizeClasses) :
    ∃ nextsize' s', FillInv cts (k + 1) nextsize' s' ∧
      ∀ n, fillTables cts (n + 1) k nextsize s = fillTables cts n (k + 1) nextsize' s' := by
  have hQ8 := ht.align8 k hk hk'
  have hQ128 := ht.align128 k hk hk'
  have hQmax := ht.le_max hk hk'
  obtain ⟨hn8, hn128, hnQ, hpast⟩ := h.cursor_facts ht hk hk'
  unfold maxSmallSize at hQmax
  have hc8 : ∀ i < 128,
      (if nextsize ≤ 8 * i ∧ 8 * i ≤ cts k ∧ i < 128 then k else s.class8 i) =
        firstFit cts (k + 1) (8 * i) := fun i hi => by
    rw [firstFit_step ht hk hk', h.class8 i hi]
    refine if_congr ?_ rfl rfl
    rw [hpast (8 * i) (by omega) (by omega)]
    simp only [hi, and_true]
  have hnext : cursor (cts (k + 1 - 1)) = cursor (cts k) := rfl
  simp only [fillTables]
  rw [fill8_eq k (cts k) 128 nextsize s.class8 hn8 (by omega)]
  dsimp only
  split_ifs with h1024
  · rw [fill128_eq k (cts k) (by rw [show class128Len = 249 from rfl]; omega) 250 _ s.class128
      h1024 (by omega) (by omega)]
    dsimp only
    refine ⟨_, _, ⟨?_, hc8, fun j hj => ?_⟩, fun _ => rfl⟩
    · rw [if_neg (by omega), hnext]
      exact (cursor_after_loops hQ8 hQ128 hnQ).1 h1024
    · have hmin : min (cts k / 8 * 8 + 8) 1024 ≤ 1024 + 128 * j := (min_le_right _ _).trans (by omega)
      dsimp only
      rw [firstFit_step ht hk hk', h.class128 j hj]
      refine if_congr ?_ rfl rfl
      rw [max_le_iff, hpast (1024 + 128 * j) (by omega) (by omega)]
      simp only [hmin, and_true]
  · refine ⟨_, _, ⟨?_, hc8, fun j hj => ?_⟩, fun _ => rfl⟩
    · rw [if_neg (by omega), hnext]
      exact (cursor_after_loops hQ8 hQ128 hnQ).2 h1024
    · rw [firstFit_step ht hk hk', if_neg (by omega), h.class128 j hj]

/-- **The whole outer loop keeps the invariant**: from class `k`, the `n` classes left run
without a panic, and the arrays they leave hold the search below `k + n`. -/
theorem FillInv.run (ht : ClassTableOK cts) : ∀ (n k nextsize : ℕ) (s : SizeToClass),
    FillInv cts k nextsize s → 0 < k → k + n ≤ numSizeClasses →
    ∃ nextsize' s', FillInv cts (k + n) nextsize' s' ∧ fillTables cts n k nextsize s = .ok s'
  | 0, _, nextsize, s, h, _, _ => ⟨nextsize, s, h, rfl⟩
  | n + 1, k, nextsize, s, h, hk, hkn => by
    obtain ⟨nextsize', s', h', hrun⟩ := h.step ht hk (by omega)
    obtain ⟨nextsize'', s'', h'', hrun'⟩ := FillInv.run ht n (k + 1) nextsize' s' h'
      (by omega) (by omega)
    exact ⟨nextsize'', s'', by rwa [Nat.add_right_comm] at h'', (hrun n).trans hrun'⟩

/-- After the last class, `mallocgc`'s lookup is the search over all classes. -/
theorem FillInv.lookup (ht : ClassTableOK cts) {nextsize : ℕ} {s : SizeToClass}
    (h : FillInv cts numSizeClasses nextsize s) {n : ℕ} (hn : n ≤ maxSmallSize) :
    mallocgcClass s n = firstFit cts numSizeClasses n := by
  unfold mallocgcClass
  unfold maxSmallSize at hn
  split_ifs with hsmall
  · have hi : (n + 7) >>> 3 = (n + 7) / 8 := Nat.shiftRight_eq_div_pow _ _
    rw [hi, h.class8 _ (by omega)]
    refine firstFit_congr (fun c hc hc' => ?_) le_rfl
    have := ht.align8 c hc hc'
    omega
  · have hj : (n + 127 - 1024) >>> 7 = (n + 127 - 1024) / 128 := Nat.shiftRight_eq_div_pow _ _
    rw [hj, h.class128 _ (by rw [show class128Len = 249 from rfl]; omega)]
    refine firstFit_congr (fun c hc hc' => ?_) le_rfl
    have h8 := ht.align8 c hc hc'
    have h128 := ht.align128 c hc hc'
    omega

end Fill

/-! ### The lookups are exact -/

/-- **The lookups find the smallest class that fits.**  Take any class table with the layout of
`ClassTableOK`.  The second loop of `initSizes` fills both arrays without a bounds panic.  Then,
for every size up to `_MaxSmallSize`, the class `mallocgc` reads off the arrays is the smallest
class whose objects hold that size, and `sizeToClass` returns the same class.  Above
`_MaxSmallSize`, `sizeToClass` throws.  Below `_MaxSmallSize`, `roundupsize` rounds a size up to
that class's size. -/
theorem sizeClass_lookup (sc : SizeClasses) (ht : ClassTableOK sc.classToSize) :
    ∃ s, initSizeToClass sc.classToSize = .ok s ∧ ∀ n,
      (n ≤ maxSmallSize → IsClassOf sc.classToSize n (mallocgcClass s n) ∧
        sizeToClass s n = .ok (mallocgcClass s n)) ∧
      (maxSmallSize < n → sizeToClass s n = .error "SizeToClass - invalid size") ∧
      (n < maxSmallSize → roundupsize sc s n = sc.classToSize (mallocgcClass s n)) := by
  obtain ⟨_, s, hinv, hrun⟩ := fillInv_start.run ht (numSizeClasses - 1) 1 0 _ Nat.one_pos
    (by decide)
  refine ⟨s, hrun, fun n => ⟨fun hn => ⟨?_, ?_⟩, fun hn => if_pos hn, fun hn => ?_⟩⟩
  · rw [hinv.lookup ht hn]
    exact firstFit_isClassOf ht hn
  · rw [sizeToClass, if_neg (by omega), mallocgcClass]
    split_ifs <;> first | rfl | omega
  · unfold roundupsize mallocgcClass
    rw [if_pos hn]
    split_ifs with hsmall
    · rfl
    · have hwrap : uadd (usub n 1024) 127 = n + 127 - 1024 := by
        unfold uadd usub maxSmallSize at *; omega
      rw [hwrap]

/-- The source's class table has the layout. -/
theorem goClassTable_ok : ClassTableOK goSizeClasses.classToSize where
  mono := by
    have h : ∀ c < numSizeClasses - 1, 0 < c →
        goClassToSize.getD c 0 < goClassToSize.getD (c + 1) 0 := by decide
    exact fun c h0 hc => h c (by omega) h0
  align8 := by
    have h : ∀ c < numSizeClasses, 0 < c → goClassToSize.getD c 0 % 8 = 0 := by decide
    exact fun c h0 hc => h c hc h0
  align128 := by
    have h : ∀ c < numSizeClasses, 0 < c → 1024 ≤ goClassToSize.getD c 0 →
        goClassToSize.getD c 0 % 128 = 0 := by decide
    exact fun c h0 hc => h c hc h0
  last := rfl

/-- The first loop of `initSizes` computes the table of the source's comment. -/
theorem initSizes_classToSize :
    (initSizes.toOption.map fun t => (List.range numSizeClasses).map t.classToSize) =
      some goClassToSize := by
  set_option maxRecDepth 100000 in decide

/-- A class table is checked only at the classes `0 … 66`. -/
theorem ClassTableOK.congr {f g : ℕ → ℕ} (h : ∀ c < numSizeClasses, f c = g c)
    (hg : ClassTableOK g) : ClassTableOK f where
  mono c h0 hc := by
    rw [h c (by omega), h (c + 1) hc]; exact hg.mono c h0 hc
  align8 c h0 hc := by rw [h c hc]; exact hg.align8 c h0 hc
  align128 c h0 hc := by rw [h c hc]; exact hg.align128 c h0 hc
  last := by rw [h _ (by decide)]; exact hg.last

/-- The class table `initSizes` builds has the layout, so its lookups are exact. -/
theorem classTableOK_of_initSizes {t : SizeTables} (h : initSizes = .ok t) :
    ClassTableOK t.classToSize := by
  have hmap := initSizes_classToSize
  rw [h] at hmap
  simp only [Except.toOption, Option.map_some', Option.some.injEq] at hmap
  refine goClassTable_ok.congr fun c hc => ?_
  have := congrArg (fun l => l.getD c 0) hmap
  simp [List.getD_eq_getElem?_getD, hc, goSizeClasses] at this ⊢
  exact this

/-- The lookups of the tables that `initSizes`' two loops compute find the smallest class that
fits. -/
theorem sizeClass_lookup_initSizes :
    ∃ t, ∃ h : initSizes = .ok t, ∃ s, initSizeToClass t.classToSize = .ok s ∧ ∀ n,
      (n ≤ maxSmallSize → IsClassOf t.classToSize n (mallocgcClass s n) ∧
        sizeToClass s n = .ok (mallocgcClass s n)) ∧
      (maxSmallSize < n → sizeToClass s n = .error "SizeToClass - invalid size") ∧
      (n < maxSmallSize →
        roundupsize (SizeClasses.ofInit t h) s n = t.classToSize (mallocgcClass s n)) := by
  obtain ⟨t, ht⟩ : ∃ t, initSizes = .ok t := by
    have hmap := initSizes_classToSize
    cases h : initSizes with
    | error e => rw [h] at hmap; cases hmap
    | ok t => exact ⟨t, rfl⟩
  exact ⟨t, ht, sizeClass_lookup (SizeClasses.ofInit t ht) (classTableOK_of_initSizes ht)⟩

end GoRuntime
