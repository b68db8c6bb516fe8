/-
**`closechan`'s release loops on the linked wait queues.**

`closechan` sets `c.closed` and then empties both wait queues.  It dequeues until `nil`, from
`recvq` first and then from `sendq`, and readies the goroutine of every sudog it gets.  One level
up, `GoRuntime.Chan.closechanLocked` models this on lists of waiting calls: it releases
`recvq ++ sendq` in order and empties both.

This module runs the loops on the doubly linked queues of `GoRuntime.Chan.WaitQ`.  There,
`dequeue` skips a sudog whose `select` has already been won by another case, and claims the
select of the sudog it returns.  So the loops release the first unclaimed sudog of each select,
in queue order, and drop the rest.

* `GoRuntime.Chan.WaitQ.releaseAll`, `GoRuntime.Chan.closechanRelease` — the two loops;
* `GoRuntime.Chan.unclaimed` — the sudogs a run of dequeues returns, in order;
* `GoRuntime.Chan.WaitQ.IsList.releaseAll_spec` — one loop empties its queue and returns
  `unclaimed`;
* `GoRuntime.Chan.closechan_releases` — **the loops empty both queues and wake each select at
  most once.**  Every released sudog was queued and is released once, and a select claimed
  before the close is not woken.  With no select waiting, the loops release exactly what
  `closechanLocked` releases, in the same order.
-/

import GoRuntime.Chan.WaitQ
import GoRuntime.Chan.Machine

set_option autoImplicit false

namespace GoRuntime.Chan

/-! ### The loops -/

/-- One release loop of `closechan` on `q`: `for { sg := q.dequeue(); if sg == nil { break };
...; goready(gp) }`.  It runs for at most `fuel` rounds, each `dequeue` with as much fuel, and
returns the sudogs whose goroutines it readies, in order. -/
def WaitQ.releaseAll : ℕ → WaitQ → (ℕ → Sudog) → (ℕ → ℕ) →
    Option (WaitQ × (ℕ → Sudog) × (ℕ → ℕ) × List ℕ)
  | 0, _, _, _ => none
  | fuel + 1, q, sg, words =>
    match q.dequeue (fuel + 1) sg words with
    | none => none
    | some (q, sg, words, sgp) =>
      if sgp = 0 then some (q, sg, words, [])
      else (releaseAll fuel q sg words).map fun (q, sg, words, gs) => (q, sg, words, sgp :: gs)

/-- `closechan`'s two loops, "release all readers" and then "release all writers". -/
def closechanRelease (fuel : ℕ) (recvq sendq : WaitQ) (sg : ℕ → Sudog) (words : ℕ → ℕ) :
    Option (WaitQ × WaitQ × (ℕ → Sudog) × (ℕ → ℕ) × List ℕ) := do
  let (recvq, sg, words, rs) ← recvq.releaseAll fuel sg words
  let (sendq, sg, words, ss) ← sendq.releaseAll fuel sg words
  pure (recvq, sendq, sg, words, rs ++ ss)

/-! ### Which sudogs are released -/

/-- The sudogs of `xs` that successive dequeues return, in order, and the select words after.
Each returned sudog is one whose select is not yet claimed, and it claims it.  `sd` gives each
sudog's `selectdone`. -/
def unclaimed (sd : ℕ → ℕ) : (ℕ → ℕ) → List ℕ → List ℕ × (ℕ → ℕ)
  | words, [] => ([], words)
  | words, s :: xs =>
    if claimed words (sd s) then unclaimed sd words xs
    else
      let r := unclaimed sd (claimWord words (sd s)) xs
      (s :: r.1, r.2)

section Unclaimed

variable {sd : ℕ → ℕ}

theorem unclaimed_cons (words : ℕ → ℕ) (s : ℕ) (xs : List ℕ) :
    unclaimed sd words (s :: xs) =
      if claimed words (sd s) then unclaimed sd words xs
      else (s :: (unclaimed sd (claimWord words (sd s)) xs).1,
        (unclaimed sd (claimWord words (sd s)) xs).2) := rfl

/-- Sudogs whose selects are claimed are skipped. -/
theorem unclaimed_of_claimed {words : ℕ → ℕ} : ∀ {pre : List ℕ} (ys : List ℕ),
    (∀ s ∈ pre, claimed words (sd s)) → unclaimed sd words (pre ++ ys) = unclaimed sd words ys
  | [], _, _ => rfl
  | s :: pre, ys, h => by
    rw [List.cons_append, unclaimed, if_pos (h s (List.mem_cons_self _ _))]
    exact unclaimed_of_claimed ys fun a ha => h a (List.mem_cons_of_mem _ ha)

/-- Only sudogs of the list are returned. -/
theorem unclaimed_sublist : ∀ (words : ℕ → ℕ) (xs : List ℕ), List.Sublist (unclaimed sd words xs).1 xs
  | _, [] => List.Sublist.slnil
  | words, s :: xs => by
    simp only [unclaimed]
    split_ifs
    · exact (unclaimed_sublist words xs).cons s
    · exact (unclaimed_sublist _ xs).cons₂ s

/-- Claims are never undone. -/
theorem claimed_claimWord {words : ℕ → ℕ} {w w' : ℕ} (h : claimed words w') :
    claimed (claimWord words w) w' := by
  unfold claimed claimWord at *
  split_ifs with hw
  · by_cases hww : w' = w
    · subst hww; simp_all
    · simpa [Function.update_noteq hww] using h
  · exact h

/-- A returned sudog's select was unclaimed before the dequeues and is claimed after them. -/
theorem unclaimed_claims : ∀ (words : ℕ → ℕ) (xs : List ℕ), ∀ s ∈ (unclaimed sd words xs).1,
    claimed words (sd s) = false ∧ (sd s ≠ 0 → (unclaimed sd words xs).2 (sd s) = 1)
  | _, [], _, hs => absurd hs (List.not_mem_nil _)
  | words, x :: xs, s, hs => by
    simp only [unclaimed] at hs ⊢
    split_ifs at hs ⊢ with hx
    · exact unclaimed_claims words xs s hs
    · rcases List.mem_cons.1 hs with rfl | hs
      · refine ⟨by simpa using hx, fun h0 => ?_⟩
        exact unclaimed_keeps _ xs (claimWord_self h0)
      · obtain ⟨h1, h2⟩ := unclaimed_claims _ xs s hs
        refine ⟨?_, h2⟩
        cases hc : claimed words (sd s)
        · rfl
        · have := claimed_claimWord (w := sd x) hc
          simp [h1] at this
where
  unclaimed_keeps : ∀ (words : ℕ → ℕ) (xs : List ℕ) {w : ℕ}, words w = 1 →
      (unclaimed sd words xs).2 w = 1
    | _, [], _, h => h
    | words, x :: xs, w, h => by
      simp only [unclaimed]
      split_ifs
      · exact unclaimed_keeps words xs h
      · exact unclaimed_keeps _ xs (claimWord_of_eq_one h)

/-- **No select is returned twice**: two returned sudogs never share a select. -/
theorem unclaimed_pairwise : ∀ (words : ℕ → ℕ) (xs : List ℕ),
    (unclaimed sd words xs).1.Pairwise fun a b => sd a = 0 ∨ sd a ≠ sd b
  | _, [] => List.Pairwise.nil
  | words, s :: xs => by
    simp only [unclaimed]
    split_ifs with hs
    · exact unclaimed_pairwise words xs
    · refine List.Pairwise.cons (fun b hb => ?_) (unclaimed_pairwise _ xs)
      by_cases h0 : sd s = 0
      · exact .inl h0
      · refine .inr fun heq => ?_
        have hb' := (unclaimed_claims _ xs b hb).1
        rw [← heq] at hb'
        simp [claimed, claimWord_self h0, h0] at hb'

/-- With no select waiting, every sudog is returned and no claim is made. -/
theorem unclaimed_plain : ∀ (words : ℕ → ℕ) (xs : List ℕ), (∀ s ∈ xs, sd s = 0) →
    unclaimed sd words xs = (xs, words)
  | _, [], _ => rfl
  | words, s :: xs, h => by
    have h0 := h s (List.mem_cons_self _ _)
    have hrest := unclaimed_plain words xs fun a ha => h a (List.mem_cons_of_mem _ ha)
    simp only [unclaimed, claimed, claimWord, h0, bne_self_eq_false, Bool.false_and,
      Bool.false_eq_true, if_false, ne_eq, not_true_eq_false, hrest]

/-- Returning the sudogs of two lists is returning those of the first, then those of the second
from the claims the first left. -/
theorem unclaimed_append : ∀ (words : ℕ → ℕ) (xs ys : List ℕ),
    unclaimed sd words (xs ++ ys) =
      ((unclaimed sd words xs).1 ++ (unclaimed sd (unclaimed sd words xs).2 ys).1,
        (unclaimed sd (unclaimed sd words xs).2 ys).2)
  | _, [], _ => rfl
  | words, s :: xs, ys => by
    rw [List.cons_append, unclaimed_cons, unclaimed_cons]
    split_ifs
    · exact unclaimed_append words xs ys
    · rw [unclaimed_append]
      rfl

end Unclaimed

/-! ### The loops on linked queues -/

section Loops

variable {sd : ℕ → ℕ}

/-- A queue reads only the sudogs on it. -/
theorem WaitQ.IsList.frame {sg sg' : ℕ → Sudog} {q : WaitQ} {xs : List ℕ} (h : q.IsList sg xs)
    (hsg : ∀ a ∈ xs, sg' a = sg a) : q.IsList sg' xs :=
  ⟨h.seg.frame hsg, h.last, h.nodup⟩

/-- An empty queue has nil `first` and `last`. -/
theorem WaitQ.IsList.nil_eq {sg : ℕ → Sudog} {q : WaitQ} (h : q.IsList sg []) :
    q.first = 0 ∧ q.last = 0 :=
  ⟨h.seg, h.last⟩

/-- **One release loop empties its queue** and readies the sudogs `unclaimed` gives, in order,
whenever its fuel exceeds the queue's length.  Only the sudogs that were queued change, and
no `selectdone` does. -/
theorem WaitQ.IsList.releaseAll_spec : ∀ {fuel : ℕ} {q : WaitQ} {sg : ℕ → Sudog} {xs : List ℕ}
    (words : ℕ → ℕ), q.IsList sg xs → (∀ a, (sg a).selectdone = sd a) → xs.length < fuel →
    ∃ q' sg', q.releaseAll fuel sg words =
        some (q', sg', (unclaimed sd words xs).2, (unclaimed sd words xs).1) ∧
      q'.IsList sg' [] ∧ (∀ a ∉ xs, sg' a = sg a) ∧ ∀ a, (sg' a).selectdone = sd a
  | 0, _, _, _, _, _, _, hfuel => absurd hfuel (Nat.not_lt_zero _)
  | fuel + 1, q, sg, xs, words, h, hsd, hfuel => by
    obtain ⟨q', sg', words', r, pre, rest, hrun, hq', hframe, hsd', hpre, hr⟩ :=
      h.dequeue_spec words hsd hfuel
    rcases hr with ⟨rfl, rfl, rfl, rfl⟩ | ⟨hr0, rfl, hcl, rfl⟩
    · -- every sudog left was a claimed select's, and the queue is empty
      refine ⟨q', sg', ?_, hq', hframe, hsd'⟩
      rw [WaitQ.releaseAll, hrun]
      dsimp only
      rw [if_pos rfl, ← List.append_nil xs, unclaimed_of_claimed [] hpre]
      rfl
    · -- `r` is released, and the loop goes on with the rest
      have hlen : rest.length < fuel := by simp at hfuel; omega
      obtain ⟨q'', sg'', hrun', hq'', hframe', hsd''⟩ :=
        hq'.releaseAll_spec (claimWord words (sd r)) hsd' hlen
      refine ⟨q'', sg'', ?_, hq'', fun a ha => ?_, hsd''⟩
      · rw [WaitQ.releaseAll, hrun]
        dsimp only
        rw [if_neg hr0, hrun', unclaimed_of_claimed _ hpre, unclaimed_cons, if_neg (by simp [hcl])]
        rfl
      · simp only [List.mem_append, List.mem_cons, not_or] at ha
        rw [hframe' a ha.2.2, hframe a (by simp [ha.1, ha.2.1, ha.2.2])]

/-- Both loops of `closechan`, on a `recvq` and a `sendq` holding different sudogs: both queues
end empty, and the sudogs released are `unclaimed` of `recvq`'s then `sendq`'s. -/
theorem closechanRelease_spec {recvq sendq : WaitQ} {sg : ℕ → Sudog} {xr xs : List ℕ}
    (words : ℕ → ℕ) (hr : recvq.IsList sg xr) (hs : sendq.IsList sg xs)
    (hd : ∀ a ∈ xs, a ∉ xr) (hsd : ∀ a, (sg a).selectdone = sd a) {fuel : ℕ}
    (hfr : xr.length < fuel) (hfs : xs.length < fuel) :
    ∃ recvq' sendq' sg', closechanRelease fuel recvq sendq sg words =
        some (recvq', sendq', sg', (unclaimed sd words (xr ++ xs)).2,
          (unclaimed sd words (xr ++ xs)).1) ∧
      recvq'.IsList sg' [] ∧ sendq'.IsList sg' [] := by
  obtain ⟨recvq', sg', hrun, hr', hframe, hsd'⟩ := hr.releaseAll_spec words hsd hfr
  obtain ⟨sendq', sg'', hrun', hs', -, -⟩ :=
    (hs.frame fun a ha => hframe a (hd a ha)).releaseAll_spec (unclaimed sd words xr).2 hsd' hfs
  refine ⟨recvq', sendq', sg'', ?_, hr'.frame fun a ha => absurd ha (List.not_mem_nil _), hs'⟩
  simp only [closechanRelease, hrun, Option.bind_eq_bind, Option.some_bind, hrun',
    Option.pure_def, unclaimed_append]

end Loops

/-- **`closechan`'s loops empty both wait queues and wake each select at most once.**  Take a
`recvq` and a `sendq` that are well-formed doubly linked lists of different sudogs.  For any fuel
above their lengths, the two loops run to their end and leave both queues nil.  The released
sudogs are then the following:
- they come in queue order, readers first, and each was queued;
- none is released twice;
- no two belong to the same select;
- none belongs to a select claimed before the close, and each select of one is claimed after.

With no select waiting, they are exactly `recvq ++ sendq`, and no claim is made.  For a channel
whose wait lists are these queues, `closechanLocked` then readies exactly these calls, in this
order. -/
theorem closechan_releases (sd : ℕ → ℕ) {recvq sendq : WaitQ} {sg : ℕ → Sudog} {xr xs : List ℕ}
    (words : ℕ → ℕ) (hr : recvq.IsList sg xr) (hs : sendq.IsList sg xs)
    (hd : ∀ a ∈ xs, a ∉ xr) (hsd : ∀ a, (sg a).selectdone = sd a) (fuel : ℕ)
    (hfr : xr.length < fuel) (hfs : xs.length < fuel) :
    ∃ recvq' sendq' sg' words' gs,
      closechanRelease fuel recvq sendq sg words = some (recvq', sendq', sg', words', gs) ∧
      recvq'.first = 0 ∧ recvq'.last = 0 ∧ sendq'.first = 0 ∧ sendq'.last = 0 ∧
      List.Sublist gs (xr ++ xs) ∧ gs.Nodup ∧ gs.Pairwise (fun a b => sd a = 0 ∨ sd a ≠ sd b) ∧
      (∀ s ∈ gs, claimed words (sd s) = false ∧ (sd s ≠ 0 → words' (sd s) = 1)) ∧
      ((∀ a ∈ xr ++ xs, sd a = 0) → gs = xr ++ xs ∧ words' = words ∧
        ∀ (st : State) (k : ℕ), st.c.recvq = xr → st.c.sendq = xs → st.c.closed = false →
          closechanLocked st k = ((gs.foldl release st).setC
            { st.c with closed := true, recvq := [], sendq := [] }).finish k .closed) := by
  obtain ⟨recvq', sendq', sg', hrun, hr', hs'⟩ :=
    closechanRelease_spec words hr hs hd hsd hfr hfs
  have hsub : List.Sublist (unclaimed sd words (xr ++ xs)).1 (xr ++ xs) :=
    unclaimed_sublist words _
  have hnodup : (xr ++ xs).Nodup :=
    List.nodup_append.2 ⟨hr.nodup, hs.nodup, fun a ha hb => hd a hb ha⟩
  refine ⟨recvq', sendq', sg', _, _, hrun, hr'.nil_eq.1, hr'.nil_eq.2, hs'.nil_eq.1,
    hs'.nil_eq.2, hsub, hsub.nodup hnodup, unclaimed_pairwise words _,
    unclaimed_claims words _, fun hplain => ?_⟩
  rw [unclaimed_plain words _ hplain]
  refine ⟨rfl, rfl, fun st k hrq hsq hcl => ?_⟩
  rw [closechanLocked, if_neg (by simp [hcl]), hrq, hsq]

/-- Closing a channel whose `recvq` holds sudog `5`, of a select already won elsewhere, then
sudog `7`, and whose `sendq` holds sudog `6`, of the same select as `7`: both queues end nil,
only `7` is released, and its select's word is set. -/
theorem closechan_releases_selects :
    ∃ recvq' sendq' sg' words' gs, closechanRelease 3 ⟨5, 7⟩ ⟨6, 6⟩
        (fun a => if a = 5 then ⟨7, 0, 1⟩ else if a = 7 then ⟨0, 5, 2⟩
          else if a = 6 then ⟨0, 0, 2⟩ else ⟨0, 0, 0⟩)
        (fun w => if w = 1 then 1 else 0) = some (recvq', sendq', sg', words', gs) ∧
      recvq'.first = 0 ∧ sendq'.first = 0 ∧ gs = [7] ∧ words' 2 = 1 := by
  let sgs : ℕ → Sudog := fun a => if a = 5 then ⟨7, 0, 1⟩ else if a = 7 then ⟨0, 5, 2⟩
    else if a = 6 then ⟨0, 0, 2⟩ else ⟨0, 0, 0⟩
  let words : ℕ → ℕ := fun w => if w = 1 then 1 else 0
  obtain ⟨r, s, sg, w, gs, hrun, hr, -, hs, -, -, -, -, hclaim, -⟩ :=
    @closechan_releases (fun a => (sgs a).selectdone) ⟨5, 7⟩ ⟨6, 6⟩ sgs [5, 7] [6] words
      ⟨⟨rfl, by decide, rfl, rfl, by decide, rfl, rfl⟩, rfl, by decide⟩
      ⟨⟨rfl, by decide, rfl, rfl⟩, rfl, by decide⟩ (by decide) (fun _ => rfl) 3 (by decide)
      (by decide)
  have hval : closechanRelease 3 ⟨5, 7⟩ ⟨6, 6⟩ sgs words = some (_, _, _, _, [7]) := rfl
  rw [hval] at hrun
  cases hrun
  exact ⟨_, _, _, _, [7], hval, hr, hs, rfl, (hclaim 7 (List.mem_singleton_self 7)).2 (by decide)⟩

end GoRuntime.Chan
