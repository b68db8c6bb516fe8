/-
**Wait queues: `waitq.enqueue` and `waitq.dequeue`.**

A channel keeps the goroutines blocked on it in two wait queues, doubly linked lists of
`sudog`s threaded through their `next` and `prev` fields, with `first` and `last` at the ends.
A `sudog` that a `select` queued on several channels carries `selectdone`, the address of the
select's done word, and `dequeue` hands such a sudog out only after it wins the compare-and-swap
of that word from `0` to `1`; sudogs whose select another channel has already claimed are
unlinked and skipped.

The queue's contents are ghost data: `GoRuntime.Chan.WaitQ.IsList sg q xs` says that the links of
`q` through the sudogs `sg` hold the list `xs`.  Over it, `enqueue` appends at the tail, and
`dequeue` drops the longest prefix of claimed sudogs and returns the next one.  Over many
queues sharing the sudogs and the done words, any interleaving of enqueues and rounds of
`dequeue` keeps every queue well formed, and returns at most one sudog per done word.

Main definitions:

* `GoRuntime.Chan.Sudog`, `GoRuntime.Chan.WaitQ` — the fields the queues use;
* `GoRuntime.Chan.WaitQ.enqueue`, `GoRuntime.Chan.WaitQ.dequeueRound`,
  `GoRuntime.Chan.WaitQ.dequeue` — the two methods, and one round of `dequeue`'s loop;
* `GoRuntime.Chan.Seg`, `GoRuntime.Chan.WaitQ.IsList` — the links hold a list;
* `GoRuntime.Chan.WaitStep` — enqueues and rounds of `dequeue` on any of many queues.

Main results:

* `GoRuntime.Chan.WaitQ.IsList.enqueue_spec`, `GoRuntime.Chan.WaitQ.IsList.dequeue_spec` — the
  methods on one well-formed queue;
* `GoRuntime.Chan.WaitQ.IsList.wellFormed` — a queue holding a list is a well-formed doubly
  linked list;
* `GoRuntime.Chan.waitInv_reach` — every interleaving keeps every queue well formed and claims
  each done word before the one return it allows;
* `GoRuntime.Chan.waitq_fifo_once` — **wait queues stay well-formed FIFOs, and a select is
  woken at most once**.

Each done word is taken to belong to one select for the whole run: the model does not reuse
the word of a finished select for a new one.
-/

import Mathlib.Data.List.Nodup
import Mathlib.Logic.Function.Basic

set_option autoImplicit false

namespace GoRuntime.Chan

open Function

/-! ### The queue and its methods -/

/-- The fields of a `sudog` that the wait queues use.  Addresses are naturals with `0` for nil;
`selectdone` is the address of the done word of the sudog's select. -/
structure Sudog where
  next : ℕ
  prev : ℕ
  selectdone : ℕ

/-- `waitq`: its first and last sudog. -/
structure WaitQ where
  first : ℕ
  last : ℕ

/-- `q.enqueue(sgp)` on the sudogs `sg`: the queue and the sudogs afterwards. -/
def WaitQ.enqueue (q : WaitQ) (sg : ℕ → Sudog) (sgp : ℕ) : WaitQ × (ℕ → Sudog) :=
  let sg := update sg sgp { sg sgp with next := 0 }
  let x := q.last
  if x = 0 then (⟨sgp, sgp⟩, update sg sgp { sg sgp with prev := 0 })
  else
    let sg := update sg sgp { sg sgp with prev := x }
    (⟨q.first, sgp⟩, update sg x { sg x with next := sgp })

/-- The unlinking that begins each round of `dequeue`'s loop, once `sgp := q.first` is not nil:
`y := sgp.next` becomes the first sudog, or the queue empties. -/
def WaitQ.unlinkFirst (q : WaitQ) (sg : ℕ → Sudog) : WaitQ × (ℕ → Sudog) :=
  let sgp := q.first
  let y := (sg sgp).next
  if y = 0 then (⟨0, 0⟩, sg)
  else
    let sg := update sg y { sg y with prev := 0 }
    (⟨y, q.last⟩, update sg sgp { sg sgp with next := 0 })

/-- The select of a sudog whose `selectdone` is `w` was already claimed:
`w != nil && *w != 0`. -/
def claimed (words : ℕ → ℕ) (w : ℕ) : Bool := w != 0 && words w != 0

/-- The done words after `dequeue` returns a sudog whose `selectdone` is `w`: its successful
`cas(w, 0, 1)`, nothing for nil. -/
def claimWord (words : ℕ → ℕ) (w : ℕ) : ℕ → ℕ := if w ≠ 0 then update words w 1 else words

/-- How one round of `dequeue`'s loop ends. -/
inductive Round where
  /-- `q.first` is nil: `dequeue` returns nil. -/
  | empty
  /-- The sudog `sgp` was unlinked, but its select was claimed: `continue`. -/
  | skip (q : WaitQ) (sg : ℕ → Sudog) (sgp : ℕ)
  /-- The sudog `sgp` was unlinked and is returned, its select's word set by the CAS. -/
  | found (q : WaitQ) (sg : ℕ → Sudog) (words : ℕ → ℕ) (sgp : ℕ)

/-- One round of `dequeue`'s loop, with `words` the memory of done words.  The check
`*sgp.selectdone != 0 || !cas(sgp.selectdone, 0, 1)` is one atomic step here: the CAS succeeds
exactly when the word is `0`, and a word once set never returns to `0`. -/
def WaitQ.dequeueRound (q : WaitQ) (sg : ℕ → Sudog) (words : ℕ → ℕ) : Round :=
  if q.first = 0 then .empty
  else
    let r := q.unlinkFirst sg
    let sd := (r.2 q.first).selectdone
    if claimed words sd then .skip r.1 r.2 q.first
    else .found r.1 r.2 (claimWord words sd) q.first

/-- `q.dequeue()`, its loop run for at most `fuel` rounds: the queue, the sudogs, the done words
and the returned sudog (`0` for nil) afterwards, or `none` when the fuel runs out. -/
def WaitQ.dequeue : ℕ → WaitQ → (ℕ → Sudog) → (ℕ → ℕ) →
    Option (WaitQ × (ℕ → Sudog) × (ℕ → ℕ) × ℕ)
  | 0, _, _, _ => none
  | fuel + 1, q, sg, words =>
    match q.dequeueRound sg words with
    | .empty => some (q, sg, words, 0)
    | .skip q sg _ => dequeue fuel q sg words
    | .found q sg words sgp => some (q, sg, words, sgp)

/-! ### Linked segments -/

/-- `Seg sg back xs p fwd`: from `p` on, the links through `next` visit the sudogs `xs` and then
reach `fwd`, and the `prev` of each names the one before it, `back` for the first. -/
def Seg (sg : ℕ → Sudog) : ℕ → List ℕ → ℕ → ℕ → Prop
  | _, [], p, fwd => p = fwd
  | back, x :: xs, p, fwd => p = x ∧ x ≠ 0 ∧ (sg x).prev = back ∧ Seg sg x xs (sg x).next fwd

@[simp] theorem seg_nil {sg : ℕ → Sudog} {back p fwd : ℕ} : Seg sg back [] p fwd ↔ p = fwd :=
  Iff.rfl

@[simp] theorem seg_cons {sg : ℕ → Sudog} {back x : ℕ} {xs : List ℕ} {p fwd : ℕ} :
    Seg sg back (x :: xs) p fwd ↔
      p = x ∧ x ≠ 0 ∧ (sg x).prev = back ∧ Seg sg x xs (sg x).next fwd :=
  Iff.rfl

/-- A segment reads only the sudogs on it. -/
theorem Seg.frame {sg sg' : ℕ → Sudog} :
    ∀ {back : ℕ} {xs : List ℕ} {p fwd : ℕ}, Seg sg back xs p fwd →
      (∀ a ∈ xs, sg' a = sg a) → Seg sg' back xs p fwd
  | _, [], _, _, h, _ => h
  | _, x :: _, _, _, ⟨hp, hx, hprev, hrest⟩, hsg => by
    have hx' := hsg x (List.mem_cons_self _ _)
    exact ⟨hp, hx, hx' ▸ hprev,
      hx' ▸ hrest.frame fun a ha => hsg a (List.mem_cons_of_mem _ ha)⟩

/-- A segment splits at any point of its list. -/
theorem seg_append {sg : ℕ → Sudog} :
    ∀ {back : ℕ} {xs ys : List ℕ} {p fwd : ℕ}, Seg sg back (xs ++ ys) p fwd ↔
      ∃ m, Seg sg back xs p m ∧ Seg sg (xs.getLastD back) ys m fwd
  | _, [], _, _, _ => by simp
  | _, x :: xs, ys, _, _ => by
    simp only [List.cons_append, seg_cons, seg_append, List.getLastD_cons]
    constructor
    · rintro ⟨hp, hx, hprev, m, h₁, h₂⟩
      exact ⟨m, ⟨hp, hx, hprev, h₁⟩, h₂⟩
    · rintro ⟨m, ⟨hp, hx, hprev, h₁⟩, h₂⟩
      exact ⟨hp, hx, hprev, m, h₁, h₂⟩

/-- A segment from nil is empty. -/
theorem Seg.eq_nil {sg : ℕ → Sudog} {back fwd : ℕ} {xs : List ℕ} (h : Seg sg back xs 0 fwd) :
    xs = [] := by
  cases xs with
  | nil => rfl
  | cons x _ => exact absurd h.1.symm h.2.1

/-- No sudog on a segment is nil. -/
theorem Seg.ne_zero {sg : ℕ → Sudog} :
    ∀ {back : ℕ} {xs : List ℕ} {p fwd : ℕ}, Seg sg back xs p fwd → ∀ x ∈ xs, x ≠ 0
  | _, [], _, _, _, _, hx => absurd hx (List.not_mem_nil _)
  | _, _ :: _, _, _, ⟨_, h0, _, hrest⟩, x, hx => by
    rcases List.mem_cons.1 hx with rfl | hx
    exacts [h0, hrest.ne_zero x hx]

/-- The `prev` of the first sudog of a non-empty segment is the one before the segment. -/
theorem Seg.prev_eq {sg : ℕ → Sudog} {back : ℕ} {xs : List ℕ} {p fwd : ℕ}
    (h : Seg sg back xs p fwd) (hp : p ≠ fwd) : (sg p).prev = back := by
  cases xs with
  | nil => exact absurd h hp
  | cons x _ => obtain ⟨rfl, -, hprev, -⟩ := h; exact hprev

/-- Inside a segment, `x.next.prev = x`. -/
theorem Seg.next_prev {sg : ℕ → Sudog} :
    ∀ {back : ℕ} {xs : List ℕ} {p fwd : ℕ}, Seg sg back xs p fwd →
      ∀ x ∈ xs, (sg x).next ≠ fwd → (sg (sg x).next).prev = x
  | _, [], _, _, _, _, hx, _ => absurd hx (List.not_mem_nil _)
  | _, _ :: _, _, _, ⟨_, _, _, hrest⟩, x, hx, hnext => by
    rcases List.mem_cons.1 hx with rfl | hx
    exacts [hrest.prev_eq hnext, hrest.next_prev x hx hnext]

/-- The last sudog of a non-empty segment links on to the end of the segment. -/
theorem Seg.last_next {sg : ℕ → Sudog} :
    ∀ {back : ℕ} {xs : List ℕ} {p fwd : ℕ}, Seg sg back xs p fwd → xs ≠ [] →
      (sg (xs.getLastD back)).next = fwd
  | _, [], _, _, _, hne => absurd rfl hne
  | _, [_], _, _, ⟨_, _, _, hrest⟩, _ => hrest
  | _, _ :: y :: ys, _, _, ⟨_, _, _, hrest⟩, _ => hrest.last_next (List.cons_ne_nil y ys)

/-- The queue `q` holds the sudogs `xs`, in order: `first` starts a segment of them with no
sudog before it and none after it, `last` is the last of them, and none is queued twice. -/
structure WaitQ.IsList (sg : ℕ → Sudog) (q : WaitQ) (xs : List ℕ) : Prop where
  seg : Seg sg 0 xs q.first 0
  last : q.last = xs.getLastD 0
  nodup : xs.Nodup

/-- A queue holding a list is a well-formed doubly linked list: `first` is nil exactly when
`last` is, `first.prev` and `last.next` are nil, and `x.next.prev = x` for every queued `x`. -/
theorem WaitQ.IsList.wellFormed {sg : ℕ → Sudog} {q : WaitQ} {xs : List ℕ}
    (h : q.IsList sg xs) :
    (q.first = 0 ↔ q.last = 0) ∧ (q.first ≠ 0 → (sg q.first).prev = 0) ∧
      (q.last ≠ 0 → (sg q.last).next = 0) ∧
      ∀ x ∈ xs, (sg x).next ≠ 0 → (sg (sg x).next).prev = x := by
  obtain ⟨hseg, hlast, -⟩ := h
  have hfirst : q.first = 0 ↔ xs = [] :=
    ⟨fun h0 => (h0 ▸ hseg).eq_nil, fun hxs => by subst hxs; exact hseg⟩
  have hlast0 : q.last = 0 ↔ xs = [] := by
    rcases List.eq_nil_or_concat' xs with rfl | ⟨init, z, rfl⟩
    · simpa using hlast
    · simpa [hlast] using hseg.ne_zero z (by simp)
  refine ⟨hfirst.trans hlast0.symm, hseg.prev_eq, fun hl => ?_, hseg.next_prev⟩
  rw [hlast]
  exact hseg.last_next fun hxs => hl (hlast0.2 hxs)

/-! ### The methods on one queue -/

section OneQueue

variable {sg : ℕ → Sudog} {q : WaitQ}

/-- **`enqueue` appends at the tail.**  On a queue holding `xs`, enqueueing a sudog not on it
gives a queue holding `xs ++ [sgp]`; only `sgp` and the old `last` change, and no `selectdone`
does. -/
theorem WaitQ.IsList.enqueue_spec {xs : List ℕ} {sgp : ℕ} (h : q.IsList sg xs) (hs : sgp ≠ 0)
    (hsx : sgp ∉ xs) :
    (q.enqueue sg sgp).1.IsList (q.enqueue sg sgp).2 (xs ++ [sgp]) ∧
      (∀ a ∉ xs, a ≠ sgp → (q.enqueue sg sgp).2 a = sg a) ∧
      ∀ a, ((q.enqueue sg sgp).2 a).selectdone = (sg a).selectdone := by
  obtain ⟨hseg, hlast, hnodup⟩ := h
  rcases List.eq_nil_or_concat' xs with rfl | ⟨init, x, rfl⟩
  · have hu : q.enqueue sg sgp =
        (⟨sgp, sgp⟩, update sg sgp { sg sgp with next := 0, prev := 0 }) := by
      simp only [WaitQ.enqueue, show q.last = 0 from hlast, if_true, update_idem, update_same]
    rw [hu]
    refine ⟨⟨by simp [hs], rfl, List.nodup_singleton _⟩, fun a _ ha => update_noteq ha _ _,
      fun a => ?_⟩
    rcases eq_or_ne a sgp with rfl | ha
    · simp
    · simp [update_noteq ha]
  obtain ⟨m, hinit, hx, hx0, hxprev, -⟩ := seg_append.1 hseg
  subst m
  rw [List.getLastD_concat] at hlast
  obtain ⟨first, last⟩ := q
  dsimp only at hlast
  subst last
  have hxs : x ≠ sgp := fun h => hsx (by simp [h])
  have hu : WaitQ.enqueue ⟨first, x⟩ sg sgp = (⟨first, sgp⟩,
      update (update sg sgp { sg sgp with next := 0, prev := x }) x { sg x with next := sgp }) := by
    simp only [WaitQ.enqueue, hx0, if_false, update_idem, update_same, update_noteq hxs]
  rw [hu]
  have hother : ∀ a, a ≠ x → a ≠ sgp → update (update sg sgp { sg sgp with next := 0, prev := x })
      x { sg x with next := sgp } a = sg a := fun a h₁ h₂ => by
    rw [update_noteq h₁, update_noteq h₂]
  have hinit' : ∀ a ∈ init, a ≠ x ∧ a ≠ sgp := fun a ha =>
    ⟨fun h => (List.nodup_append.1 hnodup).2.2 ha (by simp [h]),
      fun h => hsx (by simp [← h, ha])⟩
  refine ⟨⟨?_, by simp, hnodup.append (List.nodup_singleton _) (by simpa using hsx)⟩,
    fun a ha has => hother a (fun h => ha (by simp [h])) has, fun a => ?_⟩
  · rw [List.append_assoc, List.singleton_append, seg_append]
    refine ⟨x, hinit.frame fun a ha => hother a (hinit' a ha).1 (hinit' a ha).2, ?_⟩
    simp [update_noteq hxs.symm, hx0, hxprev, hs]
  · simp only [update_apply]
    split_ifs <;> subst_vars <;> rfl

/-- Unlinking the first sudog of a queue holding `sgp :: xs` leaves a queue holding `xs`; only
`sgp` and the sudog after it change, and no `selectdone` does. -/
theorem WaitQ.IsList.unlinkFirst_spec {sgp : ℕ} {xs : List ℕ} (h : q.IsList sg (sgp :: xs)) :
    q.first = sgp ∧ sgp ≠ 0 ∧ (q.unlinkFirst sg).1.IsList (q.unlinkFirst sg).2 xs ∧
      (∀ a ∉ sgp :: xs, (q.unlinkFirst sg).2 a = sg a) ∧
      ∀ a, ((q.unlinkFirst sg).2 a).selectdone = (sg a).selectdone := by
  obtain ⟨⟨hfirst, hs, -, hrest⟩, hlast, hnodup⟩ := h
  subst hfirst
  refine ⟨rfl, hs, ?_⟩
  cases xs with
  | nil =>
    simp only [seg_nil] at hrest
    have hu : q.unlinkFirst sg = (⟨0, 0⟩, sg) := by simp [WaitQ.unlinkFirst, hrest]
    rw [hu]
    exact ⟨⟨rfl, rfl, List.nodup_nil⟩, fun _ _ => rfl, fun _ => rfl⟩
  | cons y ys =>
    obtain ⟨hy, hy0, -, hys⟩ := hrest
    obtain ⟨hsy, hsys⟩ : q.first ≠ y ∧ q.first ∉ ys := by simpa using (List.nodup_cons.1 hnodup).1
    have hyys : y ∉ ys := (List.nodup_cons.1 (List.nodup_cons.1 hnodup).2).1
    have hu : q.unlinkFirst sg = (⟨y, q.last⟩,
        update (update sg y { sg y with prev := 0 }) q.first { sg q.first with next := 0 }) := by
      dsimp only [WaitQ.unlinkFirst]
      rw [hy]
      simp only [hy0, if_false, update_noteq hsy]
    rw [hu]
    have hother : ∀ a, a ≠ y → a ≠ q.first → update (update sg y { sg y with prev := 0 }) q.first
        { sg q.first with next := 0 } a = sg a := fun a h₁ h₂ => by
      rw [update_noteq h₂, update_noteq h₁]
    refine ⟨⟨⟨rfl, hy0, by simp [update_noteq hsy.symm], ?_⟩, by simpa using hlast,
      (List.nodup_cons.1 hnodup).2⟩, fun a ha => ?_, fun a => ?_⟩
    · simp only [update_noteq hsy.symm, update_same]
      exact hys.frame fun a ha => hother a (ne_of_mem_of_not_mem ha hyys)
        (ne_of_mem_of_not_mem ha hsys)
    · simp only [List.mem_cons, not_or] at ha
      exact hother a ha.2.1 ha.1
    · simp only [update_apply]
      split_ifs <;> subst_vars <;> rfl

/-- On an empty queue a round of `dequeue` finds nothing. -/
theorem WaitQ.IsList.dequeueRound_nil (h : q.IsList sg []) (words : ℕ → ℕ) :
    q.dequeueRound sg words = .empty := by
  simp [WaitQ.dequeueRound, show q.first = 0 from h.seg]

/-- On a queue holding `sgp :: xs`, a round of `dequeue` unlinks `sgp`, and skips it exactly
when its select was claimed. -/
theorem WaitQ.IsList.dequeueRound_cons {sgp : ℕ} {xs : List ℕ} (h : q.IsList sg (sgp :: xs))
    (words : ℕ → ℕ) :
    q.dequeueRound sg words =
      if claimed words (sg sgp).selectdone then .skip (q.unlinkFirst sg).1 (q.unlinkFirst sg).2 sgp
      else .found (q.unlinkFirst sg).1 (q.unlinkFirst sg).2
        (claimWord words (sg sgp).selectdone) sgp := by
  obtain ⟨hfirst, hs, -, -, hsd⟩ := h.unlinkFirst_spec
  subst hfirst
  simp only [WaitQ.dequeueRound, hs, if_false, hsd]

/-- **`dequeue` skips the claimed prefix and returns the next sudog.**  On a queue holding `xs`,
with `sd` the `selectdone` fields, the loop ends within `xs.length + 1` rounds.  It has dropped
a prefix `pre` of sudogs whose select was claimed, and either the queue is empty and it returns
nil, or it returns the next sudog `r`, whose select was not claimed, claims it, and leaves a
queue holding the rest in order.  Only sudogs of `xs` change, and no `selectdone` does. -/
theorem WaitQ.IsList.dequeue_spec {sd : ℕ → ℕ} :
    ∀ {q : WaitQ} {sg : ℕ → Sudog} {xs : List ℕ} {fuel : ℕ} (words : ℕ → ℕ), q.IsList sg xs →
      (∀ a, (sg a).selectdone = sd a) → xs.length < fuel →
      ∃ q' sg' words' r pre rest, q.dequeue fuel sg words = some (q', sg', words', r) ∧
        q'.IsList sg' rest ∧ (∀ a ∉ xs, sg' a = sg a) ∧ (∀ a, (sg' a).selectdone = sd a) ∧
        (∀ s ∈ pre, claimed words (sd s)) ∧
        (r = 0 ∧ xs = pre ∧ rest = [] ∧ words' = words ∨
          r ≠ 0 ∧ xs = pre ++ r :: rest ∧ claimed words (sd r) = false ∧
            words' = claimWord words (sd r))
  | _, _, _, 0, _, _, _, hfuel => absurd hfuel (Nat.not_lt_zero _)
  | q, sg, [], _ + 1, words, h, hsd, _ =>
    ⟨q, sg, words, 0, [], [], by simp [WaitQ.dequeue, h.dequeueRound_nil], h, fun _ _ => rfl, hsd,
      by simp, Or.inl ⟨rfl, rfl, rfl, rfl⟩⟩
  | q, sg, s :: xs, fuel + 1, words, h, hsd, hfuel => by
    obtain ⟨-, hs, hq, hframe, hsd'⟩ := h.unlinkFirst_spec
    have hround := h.dequeueRound_cons words
    rw [hsd] at hround
    by_cases hc : claimed words (sd s)
    · obtain ⟨q', sg', words', r, pre, rest, hrun, hq', hframe', hsd'', hpre, hr⟩ :=
        hq.dequeue_spec words (fun a => (hsd' a).trans (hsd a))
          (by simpa using hfuel)
      refine ⟨q', sg', words', r, s :: pre, rest, ?_, hq', fun a ha => ?_, hsd'', ?_, ?_⟩
      · simp only [WaitQ.dequeue, hround, hc, if_true, hrun]
      · simp only [List.mem_cons, not_or] at ha
        rw [hframe' a ha.2, hframe a (by simp [ha.1, ha.2])]
      · simpa [hc] using hpre
      · rcases hr with ⟨hr0, rfl, hrest, hw⟩ | ⟨hr0, rfl, hr, hw⟩
        exacts [Or.inl ⟨hr0, rfl, hrest, hw⟩, Or.inr ⟨hr0, rfl, hr, hw⟩]
    · refine ⟨_, _, _, s, [], xs, ?_, hq, hframe, fun a => (hsd' a).trans (hsd a), by simp,
        Or.inr ⟨hs, rfl, by simpa using hc, rfl⟩⟩
      simp only [WaitQ.dequeue, hround, hc, Bool.false_eq_true, if_false]

/-- The queue `[5, 6]`, where sudog `5` belongs to a select whose word `100` is already set:
`dequeue` skips `5` and returns `6`. -/
example :
    let r₁ := (⟨0, 0⟩ : WaitQ).enqueue (fun a => ⟨0, 0, if a = 5 then 100 else 0⟩) 5
    let r₂ := r₁.1.enqueue r₁.2 6
    (r₂.1.dequeue 3 r₂.2 fun w => if w = 100 then 1 else 0).map (·.2.2.2) = some 6 := by
  decide

end OneQueue

/-! ### Many queues -/

/-- The done word of a claimed select stays `1` through another claim. -/
theorem claimWord_of_eq_one {words : ℕ → ℕ} {w w' : ℕ} (h : words w' = 1) :
    claimWord words w w' = 1 := by
  unfold claimWord
  split_ifs
  · rcases eq_or_ne w' w with rfl | hw
    · simp
    · rw [update_noteq hw, h]
  · exact h

/-- The claim of a select sets its word to `1`. -/
theorem claimWord_self {words : ℕ → ℕ} {w : ℕ} (hw : w ≠ 0) : claimWord words w w = 1 := by
  simp [claimWord, hw]

/-- The sudogs, the wait queues of all channels, and the done words, with two ghost fields:
`lists c` is the content of queue `c`, and `returned` the sudogs `dequeue` returned, the
latest first. -/
structure WaitSys where
  sg : ℕ → Sudog
  queues : ℕ → WaitQ
  lists : ℕ → List ℕ
  words : ℕ → ℕ
  returned : List ℕ

/-- The start from the sudogs `sg`: every queue empty, every done word `0`. -/
def WaitSys.init (sg : ℕ → Sudog) : WaitSys :=
  ⟨sg, fun _ => ⟨0, 0⟩, fun _ => [], fun _ => 0, []⟩

/-- One step of a goroutine holding the lock of channel `c`: an enqueue of a sudog that is on
no queue, or one round of `dequeue`'s loop.  `chansend`, `chanrecv` and `closechan` reach the
queues only through these. -/
inductive WaitStep : WaitSys → WaitSys → Prop
  | enqueue (st : WaitSys) (c sgp : ℕ) (hs : sgp ≠ 0) (hfree : ∀ c', sgp ∉ st.lists c') :
      WaitStep st { st with
        sg := ((st.queues c).enqueue st.sg sgp).2
        queues := update st.queues c ((st.queues c).enqueue st.sg sgp).1
        lists := update st.lists c (st.lists c ++ [sgp]) }
  | skip (st : WaitSys) (c : ℕ) {q : WaitQ} {sg : ℕ → Sudog} {sgp : ℕ}
      (h : (st.queues c).dequeueRound st.sg st.words = .skip q sg sgp) :
      WaitStep st { st with
        sg, queues := update st.queues c q, lists := update st.lists c (st.lists c).tail }
  | found (st : WaitSys) (c : ℕ) {q : WaitQ} {sg : ℕ → Sudog} {words : ℕ → ℕ} {sgp : ℕ}
      (h : (st.queues c).dequeueRound st.sg st.words = .found q sg words sgp) :
      WaitStep st { st with
        sg, words, returned := sgp :: st.returned
        queues := update st.queues c q, lists := update st.lists c (st.lists c).tail }

/-- The states reachable from the sudogs `sg₀` by any interleaving of steps on any queues. -/
inductive WaitReach (sg₀ : ℕ → Sudog) : WaitSys → Prop
  | init : WaitReach sg₀ (WaitSys.init sg₀)
  | step {st st' : WaitSys} : WaitReach sg₀ st → WaitStep st st' → WaitReach sg₀ st'

/-- The invariant, with `sd` the `selectdone` fields: every queue holds its list, no sudog is
on two queues, and the word of every returned sudog's select is `1`, with at most one returned
sudog for each word. -/
structure WaitInv (sd : ℕ → ℕ) (st : WaitSys) : Prop where
  selectdone : ∀ a, (st.sg a).selectdone = sd a
  lists : ∀ c, (st.queues c).IsList st.sg (st.lists c)
  apart : ∀ c c' a, a ∈ st.lists c → a ∈ st.lists c' → c = c'
  doneWord : ∀ s ∈ st.returned, sd s ≠ 0 → st.words (sd s) = 1
  once : ∀ w, w ≠ 0 → (st.returned.filter fun s => sd s = w).length ≤ 1

section Inv

variable {sd : ℕ → ℕ} {st : WaitSys}

/-- Changing queue `c` to hold `xs`, through sudogs that agree with the old ones on every other
queue, keeps every queue holding its list. -/
theorem WaitInv.lists_update (hi : WaitInv sd st) {c : ℕ} {q : WaitQ} {sg : ℕ → Sudog}
    {xs : List ℕ} (hq : q.IsList sg xs)
    (hfr : ∀ c', c' ≠ c → ∀ a ∈ st.lists c', sg a = st.sg a) (c' : ℕ) :
    (update st.queues c q c').IsList sg (update st.lists c xs c') := by
  rcases eq_or_ne c' c with rfl | hc
  · simpa using hq
  · simp only [update_noteq hc]
    exact ⟨(hi.lists c').seg.frame (hfr c' hc), (hi.lists c').last, (hi.lists c').nodup⟩

/-- Changing queue `c` to a list of sudogs that were on it or on no queue keeps the queues
apart. -/
theorem WaitInv.apart_update (hi : WaitInv sd st) {c : ℕ} {xs : List ℕ}
    (hxs : ∀ a ∈ xs, a ∈ st.lists c ∨ ∀ c', a ∉ st.lists c') (c₁ c₂ a : ℕ)
    (h₁ : a ∈ update st.lists c xs c₁) (h₂ : a ∈ update st.lists c xs c₂) : c₁ = c₂ := by
  have hout : ∀ {c'}, c' ≠ c → a ∈ xs → a ∉ st.lists c' := fun hc ha hin =>
    (hxs a ha).elim (fun h => hc (hi.apart _ _ a hin h)) fun h => h _ hin
  rcases eq_or_ne c₁ c with rfl | hc₁ <;> rcases eq_or_ne c₂ c₁ with rfl | hc₂ <;>
    try rfl
  · simp only [update_same, update_noteq hc₂] at h₁ h₂
    exact absurd h₂ (hout hc₂ h₁)
  · rcases eq_or_ne c₂ c with rfl | hc
    · simp only [update_same, update_noteq hc₁] at h₁ h₂
      exact absurd h₁ (hout hc₁ h₂)
    · simp only [update_noteq hc₁, update_noteq hc] at h₁ h₂
      exact hi.apart _ _ a h₁ h₂

/-- A round of `dequeue` on queue `c` unlinks its first sudog. -/
theorem WaitInv.round_eq (hi : WaitInv sd st) {c s : ℕ} {xs : List ℕ}
    (hl : st.lists c = s :: xs) :
    (st.queues c).dequeueRound st.sg st.words =
      if claimed st.words (sd s) then
        .skip ((st.queues c).unlinkFirst st.sg).1 ((st.queues c).unlinkFirst st.sg).2 s
      else .found ((st.queues c).unlinkFirst st.sg).1 ((st.queues c).unlinkFirst st.sg).2
        (claimWord st.words (sd s)) s := by
  rw [((hl ▸ hi.lists c : (st.queues c).IsList st.sg (s :: xs))).dequeueRound_cons,
    hi.selectdone]

/-- A round of `dequeue` that does not find the queue empty has a sudog to unlink. -/
theorem WaitInv.exists_cons (hi : WaitInv sd st) {c : ℕ}
    (h : (st.queues c).dequeueRound st.sg st.words ≠ .empty) : ∃ s xs, st.lists c = s :: xs := by
  cases hl : st.lists c with
  | nil => exact absurd ((hl ▸ hi.lists c : (st.queues c).IsList st.sg []).dequeueRound_nil _) h
  | cons s xs => exact ⟨s, xs, rfl⟩

/-- Unlinking the first sudog of queue `c` keeps every `selectdone`, keeps every queue holding
its list, `c` holding the rest of its own, and keeps the queues apart. -/
theorem WaitInv.unlink (hi : WaitInv sd st) {c s : ℕ} {xs : List ℕ} (hl : st.lists c = s :: xs) :
    (∀ a, (((st.queues c).unlinkFirst st.sg).2 a).selectdone = sd a) ∧
    (∀ c', (update st.queues c ((st.queues c).unlinkFirst st.sg).1 c').IsList
      ((st.queues c).unlinkFirst st.sg).2 (update st.lists c (st.lists c).tail c')) ∧
    ∀ c₁ c₂ a, a ∈ update st.lists c (st.lists c).tail c₁ →
      a ∈ update st.lists c (st.lists c).tail c₂ → c₁ = c₂ := by
  obtain ⟨-, -, hq, hframe, hsd⟩ :=
    (hl ▸ hi.lists c : (st.queues c).IsList st.sg (s :: xs)).unlinkFirst_spec
  rw [hl, List.tail_cons]
  exact ⟨fun a => (hsd a).trans (hi.selectdone a),
    hi.lists_update hq fun c' hc a ha => hframe a fun hin => hc (hi.apart _ _ a ha (hl ▸ hin)),
    hi.apart_update fun a ha => Or.inl (by simp [hl, ha])⟩

/-- **Step lemma**: every step keeps the invariant. -/
theorem WaitInv.step (hi : WaitInv sd st) {st' : WaitSys} (hs : WaitStep st st') :
    WaitInv sd st' := by
  cases hs with
  | enqueue c sgp hsgp hfree =>
    obtain ⟨hq, hframe, hsd⟩ := (hi.lists c).enqueue_spec hsgp (hfree c)
    refine ⟨fun a => (hsd a).trans (hi.selectdone a), hi.lists_update hq fun c' hc a ha => ?_,
      hi.apart_update fun a ha => ?_, hi.doneWord, hi.once⟩
    · exact hframe a (fun hin => hc (hi.apart _ _ a ha hin)) fun h => hfree c' (h ▸ ha)
    · rcases List.mem_append.1 ha with ha | ha
      exacts [Or.inl ha, Or.inr ((List.mem_singleton.1 ha) ▸ hfree)]
  | skip c h =>
    obtain ⟨s, xs, hl⟩ := hi.exists_cons (c := c) (by simp [h])
    rw [hi.round_eq hl] at h
    split_ifs at h
    simp only [Round.skip.injEq] at h
    obtain ⟨rfl, rfl, rfl⟩ := h
    obtain ⟨hsd, hlists, hapart⟩ := hi.unlink hl
    exact ⟨hsd, hlists, hapart, hi.doneWord, hi.once⟩
  | found c h =>
    obtain ⟨s, xs, hl⟩ := hi.exists_cons (c := c) (by simp [h])
    rw [hi.round_eq hl] at h
    split_ifs at h with hc
    simp only [Round.found.injEq] at h
    obtain ⟨rfl, rfl, rfl, rfl⟩ := h
    obtain ⟨hsd, hlists, hapart⟩ := hi.unlink hl
    -- the CAS succeeded: the word was `0`, so no sudog of this select was returned before
    have hw : sd s ≠ 0 → st.words (sd s) = 0 := fun h0 => by simpa [claimed, h0] using hc
    refine ⟨hsd, hlists, hapart, fun a ha ha0 => ?_, fun w hw0 => ?_⟩
    · rcases List.mem_cons.1 ha with rfl | ha
      · exact claimWord_self ha0
      · exact claimWord_of_eq_one (hi.doneWord a ha ha0)
    · by_cases hsw : sd s = w
      · subst w
        have hnone : (st.returned.filter fun a => sd a = sd s) = [] :=
          List.filter_eq_nil_iff.2 fun a ha heq => by
            rw [decide_eq_true_eq] at heq
            have h1 := hi.doneWord a ha (by rwa [heq])
            rw [heq, hw hw0] at h1
            exact absurd h1 Nat.zero_ne_one
        simp [List.filter_cons, hnone]
      · simpa [List.filter_cons, hsw] using hi.once w hw0

/-- The invariant holds at the start. -/
theorem waitInv_init (sg : ℕ → Sudog) : WaitInv (fun a => (sg a).selectdone) (WaitSys.init sg) :=
  ⟨fun _ => rfl, fun _ => ⟨rfl, rfl, List.nodup_nil⟩, by simp [WaitSys.init], by
    simp [WaitSys.init], by simp [WaitSys.init]⟩

/-- **Run lemma**: every interleaving keeps the invariant. -/
theorem waitInv_reach {sg₀ : ℕ → Sudog} {st : WaitSys} (h : WaitReach sg₀ st) :
    WaitInv (fun a => (sg₀ a).selectdone) st := by
  induction h with
  | init => exact waitInv_init sg₀
  | step _ hs ih => exact ih.step hs

/-- **Wait queues stay well-formed FIFOs, and a select is woken at most once.**  A queue
holding a list is a well-formed doubly linked list: `first` is nil exactly when `last` is,
`first.prev` and `last.next` are nil, and `x.next.prev = x`.  On a queue holding `xs`, `enqueue` of a sudog not on it gives a queue holding `xs ++ [sgp]`.  `dequeue`
ends within `xs.length + 1` rounds, having dropped a prefix `pre` of sudogs whose select was
claimed; it returns nil with the queue empty, or the next sudog `r`, whose select it claims,
with a queue holding the rest of `xs` in order.  Across any interleaving of enqueues and rounds
of `dequeue` on any queues, every queue holds its list, and for every done word at most one
sudog of its select was returned, after the word was set to `1`. -/
theorem waitq_fifo_once :
    (∀ (sg : ℕ → Sudog) (q : WaitQ) (xs : List ℕ), q.IsList sg xs →
      (q.first = 0 ↔ q.last = 0) ∧ (q.first ≠ 0 → (sg q.first).prev = 0) ∧
      (q.last ≠ 0 → (sg q.last).next = 0) ∧
      ∀ x ∈ xs, (sg x).next ≠ 0 → (sg (sg x).next).prev = x) ∧
    (∀ (sg : ℕ → Sudog) (q : WaitQ) (xs : List ℕ) (sgp : ℕ), q.IsList sg xs → sgp ≠ 0 →
      sgp ∉ xs → (q.enqueue sg sgp).1.IsList (q.enqueue sg sgp).2 (xs ++ [sgp])) ∧
    (∀ (sg : ℕ → Sudog) (q : WaitQ) (xs : List ℕ) (words : ℕ → ℕ) (fuel : ℕ), q.IsList sg xs →
      xs.length < fuel →
      ∃ q' sg' words' r pre rest, q.dequeue fuel sg words = some (q', sg', words', r) ∧
        q'.IsList sg' rest ∧ (∀ s ∈ pre, claimed words (sg s).selectdone) ∧
        (r = 0 ∧ xs = pre ∧ rest = [] ∧ words' = words ∨
          r ≠ 0 ∧ xs = pre ++ r :: rest ∧ claimed words (sg r).selectdone = false ∧
            words' = claimWord words (sg r).selectdone)) ∧
    (∀ (sg₀ : ℕ → Sudog) (st : WaitSys), WaitReach sg₀ st →
      (∀ c, (st.queues c).IsList st.sg (st.lists c)) ∧
      ∀ w, w ≠ 0 → (st.returned.filter fun s => (sg₀ s).selectdone = w).length ≤ 1 ∧
        ∀ s ∈ st.returned, (sg₀ s).selectdone = w → st.words w = 1) := by
  refine ⟨fun sg q xs h => h.wellFormed, fun sg q xs sgp h hs hsx => (h.enqueue_spec hs hsx).1,
    fun sg q xs words fuel h hfuel => ?_, fun sg₀ st h => ?_⟩
  · obtain ⟨q', sg', words', r, pre, rest, hrun, hq', -, -, hpre, hr⟩ :=
      h.dequeue_spec words (fun _ => rfl) hfuel
    exact ⟨q', sg', words', r, pre, rest, hrun, hq', hpre, hr⟩
  · have hi := waitInv_reach h
    exact ⟨hi.lists, fun w hw => ⟨hi.once w hw, fun s hs hsw => hsw ▸ hi.doneWord s hs (hsw ▸ hw)⟩⟩

end Inv

end GoRuntime.Chan
