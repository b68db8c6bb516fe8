/-
**Blocking channel operations never report failure.**

`chansend` returns `false`, and `chanrecv` returns `selected = false`, only on paths that test
`!block`: the fast paths and the locked paths that would otherwise park.  The compiled forms of
`c <- v` and `<-c`, `chansend1`, `chanrecv1` and `chanrecv2`, call them with `block = true` and
drop that result.  The `select` forms `selectnbsend`, `selectnbrecv` and `selectnbrecv2` call
them with `block = false` and return it.

* `GoRuntime.Chan.Pc.nonBlocking` — the pieces of a call that only a non-blocking call reaches;
* `GoRuntime.Chan.BlockOK` — every call standing at such a piece is non-blocking;
* `GoRuntime.Chan.BlockOK.step` — every step of every goroutine keeps `BlockOK`;
* `GoRuntime.Chan.blocking_never_fails` — **on every run, a blocking send only returns `true`
  and a blocking receive only returns `selected = true`**, or they panic or throw.
-/

import GoRuntime.Chan.Machine

set_option autoImplicit false

namespace GoRuntime.Chan

/-! ### The callers -/

/-- `chansend1(t, c, elem)`, the compiled `c <- v`: a blocking `chansend` of `v` by goroutine
`k`, whose result is dropped. -/
def chansend1 (k v e : ℕ) : Action := .call k (.send v) true e

/-- `selectnbsend(t, c, elem)`: a non-blocking `chansend`, whose result is `selected`. -/
def selectnbsend (k v e : ℕ) : Action := .call k (.send v) false e

/-- `chanrecv1(t, c, elem)`, the compiled `<-c`, and `chanrecv2`, the compiled `v, ok := <-c`:
a blocking `chanrecv`.  `chanrecv1` drops the result, `chanrecv2` returns `received`. -/
def chanrecv1 (k e : ℕ) (ep : Bool) : Action := .call k (.recv ep) true e

/-- `selectnbrecv(t, elem, c)` and `selectnbrecv2`: a non-blocking `chanrecv`, whose `selected`
they return. -/
def selectnbrecv (k e : ℕ) (ep : Bool) : Action := .call k (.recv ep) false e

/-! ### The invariant -/

/-- The pieces of a call that only a non-blocking call reaches: the second reads of the fast
paths, and the returns `false` of `chansend` and `(false, _)` of `chanrecv`. -/
def Pc.nonBlocking : Pc → Bool
  | .sendFast => true
  | .recvFast => true
  | .done (.sent false) => true
  | .done (.recvd false _) => true
  | _ => false

/-- Every call that stands at a non-blocking piece is non-blocking. -/
def BlockOK (st : State) : Prop := ∀ g, (st.calls g).pc.nonBlocking → (st.calls g).block = false

section Step

variable {st : State}

theorem blockOK_init (c : HChan) : BlockOK (State.init c) := fun _ h => by
  simp [State.init, Call.idle, Pc.nonBlocking] at h

/-- The invariant reads only the calls. -/
theorem BlockOK.of_calls (h : BlockOK st) {st' : State} (hc : st'.calls = st.calls) :
    BlockOK st' := fun g hg => by
  rw [hc] at hg ⊢; exact h g hg

/-- Changing one call keeps the invariant if the changed call meets it. -/
theorem BlockOK.setCall (h : BlockOK st) {k : ℕ} {f : Call → Call}
    (hf : (f (st.calls k)).pc.nonBlocking → (f (st.calls k)).block = false) :
    BlockOK (st.setCall k f) := fun g hg => by
  by_cases hgk : g = k
  · subst hgk; simp only [State.setCall_calls, Function.update_same] at hg ⊢; exact hf hg
  · simp only [State.setCall_calls, Function.update_noteq hgk] at hg ⊢; exact h g hg

/-- A change that keeps a call's piece and its `block` keeps the invariant. -/
theorem BlockOK.setCall_keep (h : BlockOK st) {k : ℕ} {f : Call → Call}
    (hf : ∀ cl, (f cl).pc = cl.pc ∧ (f cl).block = cl.block) : BlockOK (st.setCall k f) :=
  h.setCall fun hg => by rw [(hf _).2]; rw [(hf _).1] at hg; exact h k hg

/-- Moving a call to a piece any call may stand at keeps the invariant. -/
theorem BlockOK.setPc (h : BlockOK st) {k : ℕ} {pc : Pc} (hpc : pc.nonBlocking = false) :
    BlockOK (st.setPc k pc) :=
  h.setCall fun hg => absurd hg (by simpa using hpc)

/-- Moving a non-blocking call to any piece keeps the invariant. -/
theorem BlockOK.setPc_of_block (h : BlockOK st) {k : ℕ} {pc : Pc}
    (hb : (st.calls k).block = false) : BlockOK (st.setPc k pc) :=
  h.setCall fun _ => hb

/-- `closechan`'s release loops keep the invariant: they only ready goroutines. -/
theorem BlockOK.foldl_release (h : BlockOK st) (l : List ℕ) : BlockOK (l.foldl release st) :=
  fun g hg => by
    rw [foldl_release_calls] at hg ⊢
    split_ifs at hg ⊢ with hl
    · simp [Pc.nonBlocking] at hg
    · exact h g hg

theorem BlockOK.recvclosed (h : BlockOK st) (k : ℕ) (ep : Bool) :
    BlockOK (recvclosed st k ep) := by
  rw [recvclosed_eq]
  exact h.setCall fun hg => by simp [Pc.nonBlocking] at hg

/-- **Every step keeps the invariant.**  Each return of `false` or `(false, false)`, and each
move to a second fast-path read, happens under a test of `!block`, or at a piece that only such a
move reaches. -/
theorem BlockOK.step (h : BlockOK st) {k : ℕ} {st' : State} (hs : st.step k = some st') :
    BlockOK st' := by
  have hkeep : ∀ {g : ℕ} {f : Call → Call}, (∀ cl, (f cl).pc = cl.pc ∧ (f cl).block = cl.block) →
      ∀ {st₀ : State}, BlockOK st₀ → BlockOK (st₀.setCall g f) := fun hf _ h₀ => h₀.setCall_keep hf
  rcases hpc : (st.calls k).pc with _ | _ | _ | _ | _ | r | s | _ | _ | _ | res <;>
    rcases hop : (st.calls k).op with v | e | _ <;>
    simp only [State.step, hpc, hop, reduceCtorEq, Option.some.injEq] at hs <;> subst hs
  · -- `chansendStart`: the fast path is taken only by a non-blocking call
    unfold chansendStart
    split
    · next hb => exact h.setPc_of_block (by simp only [Bool.and_eq_true, Bool.not_eq_true'] at hb; exact hb.1)
    · exact h.setPc (by rfl)
  · unfold chanrecvStart
    split
    · next hb => exact h.setPc_of_block (by simpa using hb.1)
    · exact h.setPc (by rfl)
  · exact h.setPc (by rfl)
  · -- `chansendFast`: a call at the second fast-path read is non-blocking
    have hb := h k (by simp [hpc, Pc.nonBlocking])
    unfold chansendFast
    split
    · exact h.setPc_of_block hb
    · exact h.setPc (by rfl)
  · have hb := h k (by simp [hpc, Pc.nonBlocking])
    unfold chanrecvFast
    split
    · exact h.setPc_of_block hb
    · exact h.setPc (by rfl)
  · -- `chansendLocked`: `false` is returned only `if !block`
    have hC : ∀ c, BlockOK (st.setC c) := fun _ => h.of_calls rfl
    unfold chansendLocked
    dsimp only
    split
    · exact h.setPc (by rfl)
    split
    · split
      · exact hkeep (by intro; exact ⟨rfl, rfl⟩)
          ((hC _).setCall fun hg => by simp [Pc.nonBlocking] at hg)
      · split
        · next hb => exact h.setPc_of_block (by simpa using hb)
        · exact (hC _).setCall fun hg => by simp [Pc.nonBlocking] at hg
    split
    · split
      · next hb => exact h.setPc_of_block (by simpa using hb)
      · exact (hC _).setPc (by rfl)
    · have hput : BlockOK { st with c := st.c.put v, sent := st.sent ++ [v] } := h.of_calls rfl
      split
      · exact ((hput.of_calls rfl).setPc (by rfl)).setPc (by rfl)
      · exact hput.setPc (by rfl)
  · -- `chanrecvLocked`: `(false, false)` is returned only `if !block`
    have hC : ∀ c, BlockOK (st.setC c) := fun _ => h.of_calls rfl
    unfold chanrecvLocked
    dsimp only
    split
    · split
      · exact h.recvclosed k e
      split
      · exact hkeep (by intro; exact ⟨rfl, rfl⟩)
          ((hC _).setCall fun hg => by simp [Pc.nonBlocking] at hg)
      · split
        · next hb => exact h.setPc_of_block (by simpa using hb)
        · exact (hC _).setCall fun hg => by simp [Pc.nonBlocking] at hg
    split
    · split
      · exact h.recvclosed k e
      split
      · next hb => exact h.setPc_of_block (by simpa using hb)
      · exact (hC _).setPc (by rfl)
    · have h₁ : BlockOK (if e = true then st.setCall k fun cl => { cl with ep := st.c.buf st.c.recvx }
          else st) := by
        split
        · exact hkeep (by intro; exact ⟨rfl, rfl⟩) h
        · exact h
      split
      · exact ((h₁.of_calls rfl).setPc (by rfl)).setPc (by rfl)
      · exact (h₁.of_calls rfl).setPc (by rfl)
  · -- `closechanLocked`: the release loops only ready goroutines
    unfold closechanLocked
    split
    · exact h.setPc (by rfl)
    · exact ((h.foldl_release _).of_calls rfl).setPc (by rfl)
  · -- `chansendHandoff`: the sender returns `true`, the receiver is readied
    unfold chansendHandoff
    have h₁ : BlockOK (if (st.calls r).op = .recv true then syncsend st r v else st) := by
      split
      · exact hkeep (by intro; exact ⟨rfl, rfl⟩) h
      · exact h
    exact ((h₁.setCall fun hg => by simp [Pc.nonBlocking] at hg).setPc (by rfl))
  · unfold chanrecvHandoff
    have h₁ : BlockOK (match (st.calls s).op with
        | .send v => if e = true then st.setCall k fun cl => { cl with ep := v } else st
        | _ => st) := by
      split
      · split
        · exact hkeep (by intro; exact ⟨rfl, rfl⟩) h
        · exact h
      · exact h
    exact ((h₁.setCall fun hg => by simp [Pc.nonBlocking] at hg).setPc (by rfl))
  · unfold chansendWoken; split_ifs <;> exact h.setPc (by rfl)
  · unfold chanrecvWoken; split_ifs <;> exact h.setPc (by rfl)
  · unfold chanrecvRelock; split_ifs
    · exact h.setPc (by rfl)
    · exact h.recvclosed k e

/-- Every state reachable from one meeting the invariant meets it: a new call starts at its
entry, and every piece keeps it. -/
theorem blockOK_reachable {st₀ : State} (h₀ : BlockOK st₀) (hr : Reachable st₀ st) :
    BlockOK st := by
  induction hr with
  | init => exact h₀
  | step _ hs ih =>
    cases hs with
    | begin k op block e _ => exact ih.setCall fun hg => by simp [Pc.nonBlocking] at hg
    | run _ k hk => exact ih.step hk

end Step

/-- **Blocking channel operations never report failure.**  On every run from a channel no call
has been made on, in every interleaving, a blocking call never returns failure:
- a blocking `chansend` never returns `false`;
- a blocking `chanrecv` never returns `selected = false`.

It returns success, or it panics or throws.  So `chansend1`, `chanrecv1` and `chanrecv2` lose
nothing when they drop the result, and only the `select` forms see a failed send or receive. -/
theorem blocking_never_fails (c : HChan) {st : State} (hr : Reachable (State.init c) st) (k : ℕ)
    (hb : (st.calls k).block = true) :
    (st.calls k).pc ≠ .done (.sent false) ∧ ∀ b, (st.calls k).pc ≠ .done (.recvd false b) := by
  have h := blockOK_reachable (blockOK_init c) hr k
  refine ⟨fun hpc => ?_, fun b hpc => ?_⟩ <;> simp [hpc, Pc.nonBlocking, hb] at h

/-- `c <- 1` on an unbuffered channel with no receiver parks; it has not failed. -/
theorem blocking_never_fails_parked :
    ∃ st, (State.init ⟨0, 0, fun _ => 0, 8, false, 0, 0, [], []⟩).runActs
        [chansend1 0 1 0, .run 0, .run 0] = some st ∧
      (st.calls 0).pc ≠ .done (.sent false) ∧ ∀ b, (st.calls 0).pc ≠ .done (.recvd false b) := by
  refine ⟨_, rfl, ?_⟩
  exact blocking_never_fails _ (Reachable.init.runActs [chansend1 0 1 0, .run 0, .run 0] rfl) 0 rfl

end GoRuntime.Chan
