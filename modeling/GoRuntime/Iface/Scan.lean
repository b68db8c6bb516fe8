/-
**The method scan of `getitab`.**

An itab pairs an interface type with a concrete type; building one fills `fun[k]`, for each
method `k` of the interface, with the code pointer of the type's method of the same name,
signature and package.  The compiler sorts both method tables by name, and the names of an
interface's methods are distinct, so `getitab` walks the two tables in lock step, `O(ni + nt)`:
the type's index `j` only moves forward, and each interface method is looked for from where the
previous one was found.

`GoRuntime.Iface.lockstep` is the loop as `getitab` runs it; `GoRuntime.Iface.naiveSearch` is the
`O(ni · nt)` search of every interface method in the whole type table.  They agree on sorted
tables (`GoRuntime.Iface.lockstep_scan`), including type tables with several methods of one name
and different package paths or signatures: a type method before `j` has a name not above the
last name matched, so it cannot match a later interface method.
-/

import Mathlib.Data.List.Sort
import Mathlib.Data.String.Basic

set_option autoImplicit false

namespace GoRuntime.Iface

/-- An entry of `inter.mhdr` (`imethod`): its name, its `pkgpath` pointer and its `_type`
pointer. -/
structure IMethod where
  name : String
  pkgpath : ℕ
  typ : ℕ
deriving DecidableEq, Repr

/-- An entry of `x.mhdr` (`method`) with the fields the scan reads. -/
structure Method where
  name : String
  mtyp : ℕ
  ifn : ℕ
  pkgpath : ℕ
deriving DecidableEq, Repr

/-- The test of the scan, `t.mtyp == itype && (t.name == iname || *t.name == *iname) &&
t.pkgpath == ipkgpath`.  Names are compared by their text, which the pointer test only
short-cuts. -/
def Method.Matches (t : Method) (i : IMethod) : Prop :=
  t.mtyp = i.typ ∧ t.name = i.name ∧ t.pkgpath = i.pkgpath

instance (t : Method) (i : IMethod) : Decidable (t.Matches i) :=
  inferInstanceAs (Decidable (_ ∧ _ ∧ _))

/-! ### The two searches -/

/-- The inner loop `for ; j < nt; j++` over `ts`, the type's methods from `j` on: the index and
the method of the first match for `i`, and the type's methods from there on, since
`goto nextimethod` leaves `j` at the match. -/
def findMethod (i : IMethod) : List Method → ℕ → Option (ℕ × Method × List Method)
  | [], _ => none
  | t :: ts, j => if t.Matches i then some (j, t, t :: ts) else findMethod i ts (j + 1)

/-- The outer loop `for k := 0; k < ni; k++` over the interface methods `is`, with `ts` the
type's methods from `j` on: for each interface method, the index `j` of its match and the `ifn`
written into `fun[k]`; or the first interface method with no match. -/
def lockstep : List IMethod → List Method → ℕ → Except IMethod (List (ℕ × ℕ))
  | [], _, _ => .ok []
  | i :: is, ts, j =>
    match findMethod i ts j with
    | none => .error i
    | some (j', t, ts') => (lockstep is ts' j').map ((j', t.ifn) :: ·)

/-- The specification the lock-step scan refines: the nested search, for each interface method
in order, of a method of the type anywhere in `xs` that matches it; the first match gives
`fun[k]`. -/
def naiveSearch (xs : List Method) : List IMethod → Except IMethod (List ℕ)
  | [] => .ok []
  | i :: is =>
    match xs.find? (fun t => decide (t.Matches i)) with
    | none => .error i
    | some t => (naiveSearch xs is).map (t.ifn :: ·)

/-! ### The inner loop -/

section FindMethod

variable {i : IMethod}

theorem findMethod_eq_none {ts : List Method} {j : ℕ} :
    findMethod i ts j = none ↔ ∀ t ∈ ts, ¬t.Matches i := by
  induction ts generalizing j with
  | nil => simp [findMethod]
  | cons t ts ih =>
    unfold findMethod
    split_ifs with h
    · simp [h]
    · simp [ih, h]

/-- The inner loop stops at the first match, past methods that do not match, and leaves `j` at
it. -/
theorem findMethod_eq_some {ts ts' : List Method} {j j' : ℕ} {t : Method}
    (h : findMethod i ts j = some (j', t, ts')) :
    ∃ mid rest, ts = mid ++ t :: rest ∧ ts' = t :: rest ∧ j' = j + mid.length ∧ t.Matches i ∧
      ∀ u ∈ mid, ¬u.Matches i := by
  induction ts generalizing j with
  | nil => simp [findMethod] at h
  | cons u ts ih =>
    unfold findMethod at h
    split_ifs at h with hu
    · simp only [Option.some.injEq, Prod.mk.injEq] at h
      obtain ⟨rfl, rfl, rfl⟩ := h
      exact ⟨[], ts, rfl, rfl, rfl, hu, by simp⟩
    · obtain ⟨mid, rest, rfl, rfl, rfl, ht, hmid⟩ := ih h
      refine ⟨u :: mid, rest, rfl, rfl, by simp [Nat.add_assoc, Nat.add_comm 1], ht, ?_⟩
      simp only [List.mem_cons, forall_eq_or_imp]
      exact ⟨hu, hmid⟩

end FindMethod

/-- Two methods with different names do not both match one interface method. -/
theorem not_matches_of_name_lt {u : Method} {i : IMethod} (h : u.name < i.name) :
    ¬u.Matches i :=
  fun hm => (ne_of_lt h) hm.2.1

theorem except_map_map {ε α β γ : Type} (x : Except ε α) (f : α → β) (g : β → γ) :
    (x.map f).map g = x.map (g ∘ f) := by
  cases x <;> rfl

/-! ### Lock step against the nested search -/

/-- **The lock-step scan is the nested search**, given the type methods already passed over,
`pre`, whose names are all below the names of the interface methods still to match. -/
theorem lockstep_map_snd {is : List IMethod} {pre ts : List Method} {j : ℕ}
    (hi : (is.map IMethod.name).Sorted (· < ·)) (hx : ((pre ++ ts).map Method.name).Sorted (· ≤ ·))
    (hpre : ∀ u ∈ pre, ∀ i ∈ is, u.name < i.name) :
    (lockstep is ts j).map (List.map Prod.snd) = naiveSearch (pre ++ ts) is := by
  induction is generalizing pre ts j with
  | nil => rfl
  | cons i is ih =>
    simp only [List.map_cons, List.sorted_cons, List.mem_map, forall_exists_index, and_imp,
      forall_apply_eq_imp_iff₂] at hi
    have hfind : (pre ++ ts).find? (fun t => decide (t.Matches i)) =
        ts.find? (fun t => decide (t.Matches i)) := by
      rw [List.find?_append, List.find?_eq_none.mpr fun u hu => by
        simpa using not_matches_of_name_lt (hpre u hu i (List.mem_cons_self _ _)),
        Option.none_or]
    simp only [lockstep, naiveSearch, hfind]
    cases hf : findMethod i ts j with
    | none =>
      rw [List.find?_eq_none.mpr fun u hu => by simpa using findMethod_eq_none.mp hf u hu]
      rfl
    | some r =>
      obtain ⟨j', t, ts'⟩ := r
      obtain ⟨mid, rest, rfl, rfl, rfl, ht, hmid⟩ := findMethod_eq_some hf
      have htfind : (mid ++ t :: rest).find? (fun t => decide (t.Matches i)) = some t := by
        rw [List.find?_append, List.find?_eq_none.mpr fun u hu => by simpa using hmid u hu]
        simp [ht]
      have hsort : ((pre ++ mid) ++ t :: rest).map Method.name |>.Sorted (· ≤ ·) := by
        simpa using hx
      have hmid_le : ∀ u ∈ pre ++ mid, u.name ≤ t.name := by
        rw [List.map_append] at hsort
        exact fun u hu => (List.pairwise_append.mp hsort).2.2 _ (List.mem_map_of_mem _ hu) _
          (List.mem_map_of_mem _ (List.mem_cons_self _ _))
      have hpre' : ∀ u ∈ pre ++ mid, ∀ i' ∈ is, u.name < i'.name := fun u hu i' hi' =>
        lt_of_le_of_lt ((hmid_le u hu).trans_eq ht.2.1) (hi.1 i' hi')
      simp only [htfind, except_map_map]
      rw [← List.append_assoc, ← ih hi.2 (by simpa using hsort) hpre', except_map_map]
      rfl

/-- Each call of the outer loop leaves `j` where it was or further on. -/
theorem lockstep_mono {is : List IMethod} {ts : List Method} {j : ℕ} {ps : List (ℕ × ℕ)}
    (h : lockstep is ts j = .ok ps) : (ps.map Prod.fst).Sorted (· ≤ ·) ∧ ∀ p ∈ ps, j ≤ p.1 := by
  induction is generalizing ts j ps with
  | nil => cases h; simp
  | cons i is ih =>
    simp only [lockstep] at h
    split at h
    · cases h
    · rename_i j' t ts' hf
      obtain ⟨mid, rest, -, -, rfl, -⟩ := findMethod_eq_some hf
      cases hl : lockstep is ts' (j + mid.length) with
      | error e => simp [hl, Except.map] at h
      | ok ps' =>
        simp only [hl, Except.map, Except.ok.injEq] at h
        subst h
        obtain ⟨hs, hge⟩ := ih hl
        refine ⟨List.sorted_cons.mpr ⟨by simpa using hge, hs⟩, ?_⟩
        simp only [List.mem_cons, forall_eq_or_imp]
        exact ⟨Nat.le_add_right _ _, fun p hp => (Nat.le_add_right _ _).trans (hge p hp)⟩

/-! ### The nested search -/

section Naive

variable {xs : List Method}

theorem naiveSearch_ok {is : List IMethod} {fs : List ℕ} (h : naiveSearch xs is = .ok fs) :
    List.Forall₂ (fun i f => ∃ t ∈ xs, t.Matches i ∧ t.ifn = f) is fs := by
  induction is generalizing fs with
  | nil => cases h; exact .nil
  | cons i is ih =>
    simp only [naiveSearch] at h
    split at h
    · cases h
    · rename_i t ht
      cases hn : naiveSearch xs is with
      | error e => simp [hn, Except.map] at h
      | ok fs' =>
        simp only [hn, Except.map, Except.ok.injEq] at h
        subst h
        exact .cons ⟨t, List.mem_of_find?_eq_some ht, by simpa using List.find?_some ht, rfl⟩
          (ih hn)

theorem naiveSearch_error {is : List IMethod} {i : IMethod} (h : naiveSearch xs is = .error i) :
    ∃ pre post, is = pre ++ i :: post ∧ (∀ i' ∈ pre, ∃ t ∈ xs, t.Matches i') ∧
      ∀ t ∈ xs, ¬t.Matches i := by
  induction is with
  | nil => cases h
  | cons i' is ih =>
    simp only [naiveSearch] at h
    split at h
    · rename_i hn
      cases h
      exact ⟨[], is, rfl, by simp, fun t ht => by simpa using List.find?_eq_none.mp hn t ht⟩
    · rename_i t ht
      cases hn : naiveSearch xs is with
      | ok fs => simp [hn, Except.map] at h
      | error e =>
        simp only [hn, Except.map, Except.error.injEq] at h
        subst h
        obtain ⟨pre, post, rfl, hpre, hi⟩ := ih hn
        refine ⟨i' :: pre, post, rfl, ?_, hi⟩
        simp only [List.mem_cons, forall_eq_or_imp]
        exact ⟨⟨t, List.mem_of_find?_eq_some ht, by simpa using List.find?_some ht⟩, hpre⟩

end Naive

/-- **The lock-step scan of `getitab` is the nested search.**  For an interface method table
sorted by name with distinct names and a type method table sorted by name, the scan writes into
`fun` exactly what the nested search finds; `j` never moves backwards, and on success each
`fun[k]` is the `ifn` of a type method matching interface method `k`; on failure the scan stops
at the first interface method, in order, that no type method matches. -/
theorem lockstep_scan {is : List IMethod} {xs : List Method}
    (hi : (is.map IMethod.name).Sorted (· < ·)) (hx : (xs.map Method.name).Sorted (· ≤ ·)) :
    (lockstep is xs 0).map (List.map Prod.snd) = naiveSearch xs is ∧
      (∀ ps, lockstep is xs 0 = .ok ps → (ps.map Prod.fst).Sorted (· ≤ ·) ∧
        List.Forall₂ (fun i p => ∃ t ∈ xs, t.Matches i ∧ t.ifn = p.2) is ps) ∧
      (∀ i, lockstep is xs 0 = .error i → ∃ pre post, is = pre ++ i :: post ∧
        (∀ i' ∈ pre, ∃ t ∈ xs, t.Matches i') ∧ ∀ t ∈ xs, ¬t.Matches i) := by
  have heq := @lockstep_map_snd is [] xs 0 hi hx (by simp)
  refine ⟨heq, fun ps hps => ⟨(lockstep_mono hps).1, ?_⟩, fun i hi' => ?_⟩
  · rw [hps] at heq
    exact List.forall₂_map_right_iff.mp (naiveSearch_ok heq.symm)
  · rw [hi'] at heq
    exact naiveSearch_error heq.symm

/-- A type with two methods named `Read`, of different packages: the scan passes over the one
from package `1` and writes the `ifn` of the one from package `0`. -/
theorem lockstep_scan_read :
    (([⟨"Read", 0, 7⟩] : List IMethod).map IMethod.name).Sorted (· < ·) ∧
      (([⟨"Close", 5, 100, 0⟩, ⟨"Read", 7, 101, 1⟩, ⟨"Read", 7, 102, 0⟩] : List Method).map
        Method.name).Sorted (· ≤ ·) ∧
      (lockstep [⟨"Read", 0, 7⟩] [⟨"Close", 5, 100, 0⟩, ⟨"Read", 7, 101, 1⟩, ⟨"Read", 7, 102, 0⟩]
          0).map (List.map Prod.snd) =
        naiveSearch [⟨"Close", 5, 100, 0⟩, ⟨"Read", 7, 101, 1⟩, ⟨"Read", 7, 102, 0⟩]
          [⟨"Read", 0, 7⟩] :=
  have hx : (([⟨"Close", 5, 100, 0⟩, ⟨"Read", 7, 101, 1⟩, ⟨"Read", 7, 102, 0⟩] : List Method).map
      Method.name).Sorted (· ≤ ·) := by
    simp only [List.map, List.Sorted, List.pairwise_cons, List.mem_cons, forall_eq_or_imp,
      String.le_iff_toList_le]
    decide
  ⟨by decide, hx, (@lockstep_scan [⟨"Read", 0, 7⟩]
    [⟨"Close", 5, 100, 0⟩, ⟨"Read", 7, 101, 1⟩, ⟨"Read", 7, 102, 0⟩] (by decide) hx).1⟩

example : naiveSearch [⟨"Close", 5, 100, 0⟩, ⟨"Read", 7, 101, 1⟩, ⟨"Read", 7, 102, 0⟩]
    [⟨"Read", 0, 7⟩] = .ok [102] := rfl

end GoRuntime.Iface
