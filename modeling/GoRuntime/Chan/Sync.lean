/-
**Hand-offs and `closechan`.**

On an unbuffered channel a value goes from one goroutine to another directly: `chansend` that
finds a parked receiver dequeues it and `syncsend`s the value into its `*ep`; `chanrecv` that
finds a parked sender copies the sender's value out.  `closechan` sets `c.closed` and readies
every parked goroutine with `gp.param = nil`.  Over every run of the machine of
`GoRuntime.Chan.Machine`:

* on an unbuffered channel every `chansend` that returns `true` is matched with exactly one
  `chanrecv` that returns (or is readied to return) `(true, true)` having received its value,
  and the other way round;
* once the channel is closed both wait queues are empty, nothing enters the buffer, nothing is
  handed over, no goroutine parks, an unmatched receive on an empty buffer returns
  `(true, false)` with `*ep` cleared, and every send that started after the close or was
  released by it panics with `"send on closed channel"`;
* neither `"chansend: spurious wakeup"` nor `"chanrecv: spurious wakeup"` is thrown.

The invariant, `GoRuntime.Chan.ChanInv`, says what each call may be doing given its `peer`:
matched calls come in pairs (`GoRuntime.Chan.Matched`) that go through a fixed sequence of
phases; an unmatched call is never between phases of a hand-off, and if readied on an
unbuffered channel it was released by `closechan` (`GoRuntime.Chan.Unmatched`).  A step
changes a few calls, closed under `peer`; every other call keeps its facts
(`GoRuntime.Chan.CallOK.frame`).

Main definitions:

* `GoRuntime.Chan.Matched`, `GoRuntime.Chan.Unmatched`, `GoRuntime.Chan.CallOK`,
  `GoRuntime.Chan.QueuesOK`, `GoRuntime.Chan.ChanInv` — the invariant;
* `GoRuntime.Chan.HandOff`, `GoRuntime.Chan.AfterClose` — what it says about a state, and about
  a step after the close.

Main results:

* `GoRuntime.Chan.chanInv_step`, `GoRuntime.Chan.chanInv_reachable` — every step keeps it;
* `GoRuntime.Chan.chan_handoff` — **every reachable state keeps the hand-off and close
  discipline**.
-/

import GoRuntime.Chan.Machine
import Mathlib.Data.List.Nodup
import Mathlib.Logic.Relation

set_option autoImplicit false

namespace GoRuntime.Chan

open State

/-! ### The invariant -/

/-- A sender that has handed its value over: returned `true`, or readied with `gp.param` set. -/
def SendDone (cl : Call) : Prop := cl.pc = .done (.sent true) ∨ cl.pc = .woken ∧ cl.param = true

/-- A receiver that has received a value: returned `(true, true)`, or readied with `gp.param`
set. -/
def RecvDone (cl : Call) : Prop :=
  cl.pc = .done (.recvd true true) ∨ cl.pc = .woken ∧ cl.param = true

/-- Sender `cs` (call `s`) and receiver `cr` (call `r`) of an unbuffered channel are matched:
the sender has dequeued the parked receiver, or the receiver the parked sender, or the value has
been handed over. -/
structure Matched (s r : ℕ) (cs cr : Call) : Prop where
  peer_s : cs.peer = some r
  peer_r : cr.peer = some s
  phase : ∃ v e, cs.op = .send v ∧ cr.op = .recv e ∧
    (cs.pc = .syncSend r ∧ cr.pc = .parked ∨ cr.pc = .syncRecv s ∧ cs.pc = .parked ∨
      SendDone cs ∧ RecvDone cr ∧ (e = true → cr.ep = v))

/-- What an unmatched call may be doing: it has no `gp.param`, it is not in a hand-off, it has
not returned a value from a hand-off, and if it was readied or relocks on an unbuffered channel
then `closechan` released it. -/
structure Unmatched (dq : ℕ) (closed : Bool) (cl : Call) : Prop where
  param : cl.param = false
  not_sync : ∀ j, cl.pc ≠ .syncSend j ∧ cl.pc ≠ .syncRecv j
  woken : dq = 0 → cl.pc = .woken → closed = true ∧ cl.late = true
  relock : cl.pc = .recvRelock → closed = true
  not_sent : dq = 0 → cl.pc ≠ .done (.sent true)
  not_recvd : dq = 0 → cl.pc ≠ .done (.recvd true true)
  send_fast : cl.pc = .sendFast → ∃ v, cl.op = .send v

/-- Where a send that started after the close, or was released by it, can be. -/
def LateSendPc (p : Pc) : Prop :=
  p = .start ∨ p = .locking ∨ p = .woken ∨ p = .done (.abort (.panic "send on closed channel"))

/-- The facts about call `k`. -/
structure CallOK (st : State) (k : ℕ) : Prop where
  unmatched : (st.calls k).peer = none → Unmatched st.c.dataqsiz st.c.closed (st.calls k)
  matched : ∀ j, (st.calls k).peer = some j → st.c.dataqsiz = 0 ∧
    (Matched k j (st.calls k) (st.calls j) ∨ Matched j k (st.calls j) (st.calls k))
  late : (st.calls k).late = true → st.c.closed = true ∧ (st.calls k).peer = none
  late_send : ∀ v, (st.calls k).op = .send v → (st.calls k).late = true →
    LateSendPc (st.calls k).pc
  parked : (st.calls k).pc = .parked → (st.calls k).peer = none →
    k ∈ st.c.recvq ∨ k ∈ st.c.sendq
  no_throw : ∀ msg, (st.calls k).pc ≠ .done (.abort (.throw msg))

/-- The wait queues hold distinct parked unmatched calls of the right kind, and are empty once
the channel is closed. -/
structure QueuesOK (st : State) : Prop where
  recvq : ∀ k ∈ st.c.recvq, (∃ e, (st.calls k).op = .recv e) ∧ (st.calls k).pc = .parked ∧
    (st.calls k).peer = none
  sendq : ∀ k ∈ st.c.sendq, (∃ v, (st.calls k).op = .send v) ∧ (st.calls k).pc = .parked ∧
    (st.calls k).peer = none
  recvq_nodup : st.c.recvq.Nodup
  sendq_nodup : st.c.sendq.Nodup
  closed : st.c.closed = true → st.c.recvq = [] ∧ st.c.sendq = []

/-- The invariant of the channel machine. -/
structure ChanInv (st : State) : Prop where
  queues : QueuesOK st
  call : ∀ k, CallOK st k

theorem chanInv_init (c : HChan) (hr : c.recvq = []) (hs : c.sendq = []) (hc : c.closed = false) :
    ChanInv (State.init c) := by
  refine ⟨⟨?_, ?_, ?_, ?_, ?_⟩, fun k => ⟨fun _ => ⟨?_, ?_, ?_, ?_, ?_, ?_, ?_⟩, ?_, ?_, ?_, ?_,
    ?_⟩⟩ <;> simp [State.init, Call.idle, hr, hs, hc]

/-! ### Frames -/

/-- The pieces at which a call can have a peer. -/
def Pc.matchable : Pc → Bool
  | .syncSend _ | .syncRecv _ | .parked | .woken | .done _ => true
  | _ => false

/-- A piece at which an unmatched call of operation `op` can be, apart from being parked or
readied. -/
structure FreePc (dq : ℕ) (closed : Bool) (op : Op) (p : Pc) : Prop where
  not_sync : ∀ j, p ≠ .syncSend j ∧ p ≠ .syncRecv j
  not_woken : p ≠ .woken
  not_parked : p ≠ .parked
  relock : p = .recvRelock → closed = true
  not_sent : dq = 0 → p ≠ .done (.sent true)
  not_recvd : dq = 0 → p ≠ .done (.recvd true true)
  no_throw : ∀ msg, p ≠ .done (.abort (.throw msg))
  send_fast : p = .sendFast → ∃ v, op = .send v

/-- The pieces any unmatched call may move to on its own: entry, a receive's second read, the
lock, the relock. -/
def Pc.plain : Pc → Bool
  | .start | .recvFast | .locking | .recvRelock => true
  | _ => false

/-- A matched call that has been readied is past the hand-off. -/
theorem Matched.done_of_woken {s r : ℕ} {cs cr : Call} (hm : Matched s r cs cr)
    (hw : cs.pc = .woken ∨ cr.pc = .woken) : ∃ v e, cs.op = .send v ∧ cr.op = .recv e ∧
      SendDone cs ∧ RecvDone cr ∧ (e = true → cr.ep = v) := by
  obtain ⟨v, e, hs, hr, ⟨h1, h2⟩ | ⟨h1, h2⟩ | hc⟩ := hm.phase
  · simp [h1, h2] at hw
  · simp [h1, h2] at hw
  · exact ⟨v, e, hs, hr, hc⟩

section Frame

variable {st st' : State}

theorem Unmatched.mono {dq : ℕ} {b b' : Bool} {cl : Call} (h : Unmatched dq b cl)
    (hb : b = true → b' = true) : Unmatched dq b' cl :=
  { h with
    woken := fun hd hw => ⟨hb (h.woken hd hw).1, (h.woken hd hw).2⟩
    relock := fun hr => hb (h.relock hr) }

theorem CallOK.peer_symm {k j : ℕ} (h : CallOK st k) (hj : (st.calls k).peer = some j) :
    (st.calls j).peer = some k := by
  rcases (h.matched j hj).2 with hm | hm
  · exact hm.peer_r
  · exact hm.peer_s

/-- A call away from the pieces of a hand-off has no peer. -/
theorem CallOK.peer_eq_none {k : ℕ} (h : CallOK st k) (hpc : (st.calls k).pc.matchable = false) :
    (st.calls k).peer = none := by
  cases hp : (st.calls k).peer with
  | none => rfl
  | some j =>
    obtain ⟨-, hm | hm⟩ := h.matched j hp <;> obtain ⟨v, e, -, -, hph⟩ := hm.phase <;>
      rcases hph with ⟨h1, h2⟩ | ⟨h1, h2⟩ | ⟨h1 | ⟨h1, -⟩, h2 | ⟨h2, -⟩, -⟩ <;>
      simp [h1, h2, Pc.matchable] at hpc

/-- A readied call without `gp.param` has no peer. -/
theorem CallOK.peer_eq_none_of_param {k : ℕ} (h : CallOK st k)
    (hw : (st.calls k).pc = .woken) (hparam : (st.calls k).param = false) :
    (st.calls k).peer = none := by
  cases hp : (st.calls k).peer with
  | none => rfl
  | some j =>
    obtain ⟨-, hm | hm⟩ := h.matched j hp <;> obtain ⟨v, e, -, -, hph⟩ := hm.phase <;>
      rcases hph with ⟨h1, h2⟩ | ⟨h1, h2⟩ | ⟨h1 | ⟨-, h1⟩, h2 | ⟨h2, h3⟩, -⟩ <;>
      simp_all

/-- A call keeps its facts across an update that leaves it and its peer alone, keeps
`dataqsiz`, does not reopen the channel, and keeps the call on its wait queue. -/
theorem CallOK.frame {k : ℕ} (h : CallOK st k) (hk : st'.calls k = st.calls k)
    (hpeer : ∀ j, (st.calls k).peer = some j → st'.calls j = st.calls j)
    (hdq : st'.c.dataqsiz = st.c.dataqsiz) (hcl : st.c.closed = true → st'.c.closed = true)
    (hq : k ∈ st.c.recvq ∨ k ∈ st.c.sendq → k ∈ st'.c.recvq ∨ k ∈ st'.c.sendq) :
    CallOK st' k where
  unmatched hn := by
    rw [hk, hdq] at *
    exact (h.unmatched hn).mono hcl
  matched j hj := by
    rw [hk] at hj ⊢
    rw [hpeer j hj, hdq]
    exact h.matched j hj
  late hl := by
    rw [hk] at hl ⊢
    exact ⟨hcl (h.late hl).1, (h.late hl).2⟩
  late_send v := by rw [hk]; exact h.late_send v
  parked hp hn := by
    rw [hk] at hp hn
    exact hq (h.parked hp hn)
  no_throw := by rw [hk]; exact h.no_throw

/-- The facts of an unmatched call that is not parked or readied follow from its own fields. -/
theorem CallOK.of_free {k : ℕ} {cl : Call} (hk : st.calls k = cl) (hpeer : cl.peer = none)
    (hparam : cl.param = false) (hpc : FreePc st.c.dataqsiz st.c.closed cl.op cl.pc)
    (hlate : cl.late = true → st.c.closed = true)
    (hls : ∀ v, cl.op = .send v → cl.late = true → LateSendPc cl.pc) : CallOK st k := by
  subst hk
  exact ⟨fun _ => ⟨hparam, hpc.not_sync, fun _ hw => absurd hw hpc.not_woken, hpc.relock,
      hpc.not_sent, hpc.not_recvd, hpc.send_fast⟩, by simp [hpeer], fun hl => ⟨hlate hl, hpeer⟩,
    hls,
    fun hp => absurd hp hpc.not_parked, hpc.no_throw⟩

/-- A step that changes the calls `ks`, closed under `peer`, keeps the invariant as soon as the
queues and the changed calls satisfy it, provided it keeps `dataqsiz`, does not reopen the
channel, and takes no other call off a wait queue. -/
theorem ChanInv.touch (h : ChanInv st) (ks : List ℕ)
    (hframe : ∀ i, i ∉ ks → st'.calls i = st.calls i)
    (hdq : st'.c.dataqsiz = st.c.dataqsiz) (hcl : st.c.closed = true → st'.c.closed = true)
    (hpeer : ∀ j ∈ ks, ∀ i, (st.calls j).peer = some i → i ∈ ks)
    (hq : ∀ i, i ∉ ks → i ∈ st.c.recvq ∨ i ∈ st.c.sendq → i ∈ st'.c.recvq ∨ i ∈ st'.c.sendq)
    (hqueues : QueuesOK st') (hks : ∀ i ∈ ks, CallOK st' i) : ChanInv st' := by
  refine ⟨hqueues, fun i => ?_⟩
  by_cases hi : i ∈ ks
  · exact hks i hi
  · refine (h.call i).frame (hframe i hi) (fun j hj => hframe j fun hjk => hi ?_) hdq hcl
      (hq i hi)
    exact hpeer j hjk i ((h.call i).peer_symm hj)

/-- Queue facts survive an update that keeps the queues and leaves their members alone. -/
theorem QueuesOK.frame (h : QueuesOK st) (hr : st'.c.recvq = st.c.recvq)
    (hs : st'.c.sendq = st.c.sendq) (hcl : st'.c.closed = st.c.closed)
    (hmem : ∀ i, i ∈ st.c.recvq ∨ i ∈ st.c.sendq → st'.calls i = st.calls i) : QueuesOK st' where
  recvq i hi := by
    rw [hr] at hi
    rw [hmem i (.inl hi)]
    exact h.recvq i hi
  sendq i hi := by
    rw [hs] at hi
    rw [hmem i (.inr hi)]
    exact h.sendq i hi
  recvq_nodup := hr ▸ h.recvq_nodup
  sendq_nodup := hs ▸ h.sendq_nodup
  closed hc := by rw [hr, hs]; exact h.closed (hcl ▸ hc)

/-- A call not parked is on no wait queue. -/
theorem QueuesOK.not_mem (h : QueuesOK st) {k : ℕ} (hk : (st.calls k).pc ≠ .parked) :
    k ∉ st.c.recvq ∧ k ∉ st.c.sendq :=
  ⟨fun hm => hk (h.recvq k hm).2.1, fun hm => hk (h.sendq k hm).2.1⟩

/-- **Moving one free call.**  Changing only call `k`, which is unmatched and not parked, keeps
the invariant when the new call satisfies it and the queues and the flag stay. -/
theorem ChanInv.move (h : ChanInv st) {k : ℕ} {cl : Call}
    (hcalls : st'.calls = Function.update st.calls k cl) (hdq : st'.c.dataqsiz = st.c.dataqsiz)
    (hcl : st'.c.closed = st.c.closed) (hr : st'.c.recvq = st.c.recvq)
    (hs : st'.c.sendq = st.c.sendq) (hn : (st.calls k).peer = none)
    (hpk : (st.calls k).pc ≠ .parked) (hok : CallOK st' k) : ChanInv st' := by
  have hk := h.queues.not_mem hpk
  have hne : ∀ i, i ∉ [k] → st'.calls i = st.calls i := fun i hi => by
    rw [hcalls, Function.update_noteq (by simpa using hi)]
  refine h.touch [k] hne hdq (fun hc => hcl ▸ hc) ?_ (fun i _ hi => hr ▸ hs ▸ hi)
    (h.queues.frame hr hs hcl fun i hi => hne i ?_) (by simpa using hok)
  · simp [hn]
  · rintro hik
    rw [List.mem_singleton.mp hik] at hi
    tauto

theorem FreePc.of_plain {dq : ℕ} {closed : Bool} {op : Op} {p : Pc} (h : p.plain = true)
    (hr : p = .recvRelock → closed = true) : FreePc dq closed op p := by
  refine ⟨fun j => ⟨?_, ?_⟩, ?_, ?_, hr, fun _ => ?_, fun _ => ?_, fun msg => ?_, ?_⟩ <;>
    rintro rfl <;> simp [Pc.plain] at h

theorem FreePc.sendFast {dq : ℕ} {closed : Bool} {op : Op} {v : ℕ} (hop : op = .send v) :
    FreePc dq closed op .sendFast :=
  ⟨by simp, by simp, by simp, by simp, by simp, by simp, by simp, fun _ => ⟨v, hop⟩⟩

theorem FreePc.done {dq : ℕ} {closed : Bool} {op : Op} {r : Result}
    (h : dq = 0 → r ≠ .sent true ∧ r ≠ .recvd true true) (ht : ∀ msg, r ≠ .abort (.throw msg)) :
    FreePc dq closed op (.done r) :=
  ⟨by simp, by simp, by simp, by simp, fun hd => by simpa using (h hd).1,
    fun hd => by simpa using (h hd).2, by simpa using ht, by simp⟩

theorem CallOK.late_eq_false {k : ℕ} (h : CallOK st k) (hc : st.c.closed = false) :
    (st.calls k).late = false := by
  cases hl : (st.calls k).late
  · rfl
  · simpa [hc] using (h.late hl).1

theorem CallOK.late_eq_false_of_peer {k j : ℕ} (h : CallOK st k)
    (hj : (st.calls k).peer = some j) : (st.calls k).late = false := by
  cases hl : (st.calls k).late
  · rfl
  · simpa [hj] using (h.late hl).2

/-- A matched pair of calls that are not late satisfies the invariant. -/
theorem CallOK.of_matched {s r : ℕ} (hm : Matched s r (st.calls s) (st.calls r))
    (hdq : st.c.dataqsiz = 0) (hls : (st.calls s).late = false)
    (hlr : (st.calls r).late = false) : CallOK st s ∧ CallOK st r := by
  obtain ⟨v, e, hs, hr, hph⟩ := hm.phase
  have hthrow : ∀ msg, (st.calls s).pc ≠ .done (.abort (.throw msg)) ∧
      (st.calls r).pc ≠ .done (.abort (.throw msg)) := fun msg => by
    rcases hph with ⟨h1, h2⟩ | ⟨h1, h2⟩ | ⟨h1 | ⟨h1, -⟩, h2 | ⟨h2, -⟩, -⟩ <;> simp [h1, h2]
  refine ⟨⟨by simp [hm.peer_s], fun j hj => ?_, by simp [hls], by simp [hls],
      by simp [hm.peer_s], fun msg => (hthrow msg).1⟩,
    ⟨by simp [hm.peer_r], fun j hj => ?_, by simp [hlr], by simp [hlr, hr],
      by simp [hm.peer_r], fun msg => (hthrow msg).2⟩⟩
  · obtain rfl : j = r := Option.some_injective _ (hj.symm.trans hm.peer_s)
    exact ⟨hdq, .inl hm⟩
  · obtain rfl : j = s := Option.some_injective _ (hj.symm.trans hm.peer_r)
    exact ⟨hdq, .inr hm⟩

/-- **Moving a free call.**  A call that is unmatched and not parked may change its own
fields, keeping its operation, `late` and no peer, to a free piece. -/
theorem ChanInv.setCall_free (h : ChanInv st) {k : ℕ} (f : Call → Call)
    (hn : (st.calls k).peer = none) (hpk : (st.calls k).pc ≠ .parked)
    (hop : (f (st.calls k)).op = (st.calls k).op) (hpeer : (f (st.calls k)).peer = none)
    (hparam : (f (st.calls k)).param = false) (hlate : (f (st.calls k)).late = (st.calls k).late)
    (hp : FreePc st.c.dataqsiz st.c.closed (st.calls k).op (f (st.calls k)).pc)
    (hls : ∀ v, (st.calls k).op = .send v → (st.calls k).late = true →
      LateSendPc (f (st.calls k)).pc) :
    ChanInv (st.setCall k f) :=
  h.move rfl rfl rfl rfl rfl hn hpk <| CallOK.of_free (by simp) hpeer hparam (hop ▸ hp)
    (fun hl => ((h.call k).late (hlate ▸ hl)).1) (fun v hv hl => hls v (hop ▸ hv) (hlate ▸ hl))

theorem ChanInv.setPc (h : ChanInv st) {k : ℕ} {p : Pc} (hn : (st.calls k).peer = none)
    (hpk : (st.calls k).pc ≠ .parked) (hp : FreePc st.c.dataqsiz st.c.closed (st.calls k).op p)
    (hls : ∀ v, (st.calls k).op = .send v → (st.calls k).late = true → LateSendPc p) :
    ChanInv (st.setPc k p) :=
  h.setCall_free _ hn hpk rfl hn ((h.call k).unmatched hn).param rfl hp hls

/-- Replacing the channel record by one with the same size, flag and queues keeps the
invariant; so do the ghost lists. -/
theorem ChanInv.setC (h : ChanInv st) {c : HChan} (sent recvd : List ℕ)
    (hdq : c.dataqsiz = st.c.dataqsiz) (hcl : c.closed = st.c.closed) (hr : c.recvq = st.c.recvq)
    (hs : c.sendq = st.c.sendq) : ChanInv ⟨c, st.calls, sent, recvd⟩ :=
  h.touch [] (fun _ _ => rfl) hdq (fun h => hcl ▸ h) (by simp)
    (fun _ _ hi => hr ▸ hs ▸ hi) (h.queues.frame hr hs hcl fun _ _ => rfl) (by simp)

/-- A parked unmatched call on a wait queue satisfies the invariant. -/
theorem CallOK.of_parked {k : ℕ} {cl : Call} (hk : st.calls k = cl) (hpeer : cl.peer = none)
    (hparam : cl.param = false) (hpc : cl.pc = .parked) (hlate : cl.late = false)
    (hq : k ∈ st.c.recvq ∨ k ∈ st.c.sendq) : CallOK st k := by
  subst hk
  exact ⟨fun _ => ⟨hparam, by simp [hpc], by simp [hpc], by simp [hpc], by simp [hpc],
      by simp [hpc], by simp [hpc]⟩, by simp [hpeer], by simp [hlate], by simp [hlate],
    fun _ _ => hq, by simp [hpc]⟩

/-- **Replacing a pair.**  A step that changes only calls `s` and `r`, unmatched or matched
with each other, into a matched pair that is not late keeps the invariant, given the queues. -/
theorem ChanInv.pair (h : ChanInv st) {s r : ℕ}
    (hframe : ∀ i, i ≠ s → i ≠ r → st'.calls i = st.calls i)
    (hdq : st'.c.dataqsiz = st.c.dataqsiz) (hcl : st'.c.closed = st.c.closed)
    (hps : ∀ i, (st.calls s).peer = some i → i = r) (hpr : ∀ i, (st.calls r).peer = some i → i = s)
    (hq : ∀ i, i ≠ s → i ≠ r → i ∈ st.c.recvq ∨ i ∈ st.c.sendq →
      i ∈ st'.c.recvq ∨ i ∈ st'.c.sendq)
    (hqueues : QueuesOK st') (hm : Matched s r (st'.calls s) (st'.calls r))
    (hdq0 : st.c.dataqsiz = 0) (hls : (st'.calls s).late = false)
    (hlr : (st'.calls r).late = false) : ChanInv st' := by
  have hok := CallOK.of_matched hm (hdq ▸ hdq0) hls hlr
  have hne : ∀ {i}, i ∉ [s, r] → i ≠ s ∧ i ≠ r := fun hi => by simpa using hi
  refine h.touch [s, r] (fun i hi => hframe i (hne hi).1 (hne hi).2) hdq
    (fun h => hcl ▸ h) ?_ (fun i hi => hq i (hne hi).1 (hne hi).2) hqueues ?_
  · simp only [List.mem_cons, List.mem_singleton, List.not_mem_nil, or_false]
    rintro j (rfl | rfl) i hi
    · exact .inr (hps i hi)
    · exact .inl (hpr i hi)
  · simp only [List.mem_cons, List.mem_singleton, List.not_mem_nil, or_false]
    rintro i (rfl | rfl)
    exacts [hok.1, hok.2]

end Frame

/-! ### Dequeuing -/

section Dequeue

variable {st st' : State} {g : ℕ} {rest : List ℕ}

/-- Queue facts after the head `g` of `recvq` is dequeued and the other queued calls are left
alone. -/
theorem QueuesOK.tail_recv (h : QueuesOK st) (hq : st.c.recvq = g :: rest)
    (hr : st'.c.recvq = rest) (hs : st'.c.sendq = st.c.sendq) (hcl : st'.c.closed = st.c.closed)
    (hmem : ∀ i, i ≠ g → i ∈ st.c.recvq ∨ i ∈ st.c.sendq → st'.calls i = st.calls i) :
    QueuesOK st' := by
  have hnd := h.recvq_nodup
  rw [hq, List.nodup_cons] at hnd
  have hg := h.recvq g (by simp [hq])
  refine ⟨fun i hi => ?_, fun i hi => ?_, hr ▸ hnd.2, hs ▸ h.sendq_nodup, fun hc => ?_⟩
  · rw [hr] at hi
    have hig : i ≠ g := by rintro rfl; exact hnd.1 hi
    rw [hmem i hig (.inl (by simp [hq, hi]))]
    exact h.recvq i (by simp [hq, hi])
  · rw [hs] at hi
    have hig : i ≠ g := by
      rintro rfl
      obtain ⟨⟨e, he⟩, -⟩ := hg
      obtain ⟨⟨v, hv⟩, -⟩ := h.sendq _ hi
      exact Op.noConfusion (he.symm.trans hv)
    rw [hmem i hig (.inr hi)]
    exact h.sendq i hi
  · have := h.closed (hcl ▸ hc)
    simp [hq] at this

/-- Queue facts after the head `g` of `sendq` is dequeued and the other queued calls are left
alone. -/
theorem QueuesOK.tail_send (h : QueuesOK st) (hq : st.c.sendq = g :: rest)
    (hr : st'.c.recvq = st.c.recvq) (hs : st'.c.sendq = rest) (hcl : st'.c.closed = st.c.closed)
    (hmem : ∀ i, i ≠ g → i ∈ st.c.recvq ∨ i ∈ st.c.sendq → st'.calls i = st.calls i) :
    QueuesOK st' := by
  have hnd := h.sendq_nodup
  rw [hq, List.nodup_cons] at hnd
  have hg := h.sendq g (by simp [hq])
  refine ⟨fun i hi => ?_, fun i hi => ?_, hr ▸ h.recvq_nodup, hs ▸ hnd.2, fun hc => ?_⟩
  · rw [hr] at hi
    have hig : i ≠ g := by
      rintro rfl
      obtain ⟨⟨v, hv⟩, -⟩ := hg
      obtain ⟨⟨e, he⟩, -⟩ := h.recvq _ hi
      exact Op.noConfusion (he.symm.trans hv)
    rw [hmem i hig (.inl hi)]
    exact h.recvq i hi
  · rw [hs] at hi
    have hig : i ≠ g := by rintro rfl; exact hnd.1 hi
    rw [hmem i hig (.inr (by simp [hq, hi]))]
    exact h.sendq i (by simp [hq, hi])
  · have := h.closed (hcl ▸ hc)
    simp [hq] at this

/-- A call dequeued and readied by a buffered send or receive satisfies the invariant. -/
theorem CallOK.of_woken (h : CallOK st g) (hn : (st.calls g).peer = none)
    (hg : st'.calls g = { st.calls g with pc := .woken }) (hdq : st'.c.dataqsiz = st.c.dataqsiz)
    (hdq0 : st.c.dataqsiz ≠ 0) (hcl : st'.c.closed = st.c.closed) : CallOK st' g := by
  have hu := h.unmatched hn
  refine ⟨fun _ => ⟨?_, ?_, ?_, ?_, ?_, ?_, ?_⟩, ?_, ?_, ?_, ?_, ?_⟩ <;>
    simp [hg, hn, hdq, hdq0, hcl, hu.param, LateSendPc]
  exact fun hl => (h.late hl).1

/-- A buffered send readies the first parked receiver. -/
theorem ChanInv.wake_recv (h : ChanInv st) (hdq : st.c.dataqsiz ≠ 0) (hq : st.c.recvq = g :: rest) :
    ChanInv ((st.setC { st.c with recvq := rest }).setPc g .woken) := by
  obtain ⟨-, -, hn⟩ := h.queues.recvq g (by simp [hq])
  have hne : ∀ i, i ≠ g → ((st.setC { st.c with recvq := rest }).setPc g .woken).calls i =
      st.calls i := fun i hi => by simp [Function.update_noteq hi]
  refine h.touch [g] (fun i hi => hne i (by simpa using hi)) rfl id (by simp [hn])
    (fun i hi hm => by simp_all) (h.queues.tail_recv hq rfl rfl rfl fun i hi _ => hne i hi)
    fun i hi => by
      obtain rfl : i = g := by simpa using hi
      exact (h.call i).of_woken hn (by simp) rfl hdq rfl

/-- A buffered receive readies the first parked sender. -/
theorem ChanInv.wake_send (h : ChanInv st) (hdq : st.c.dataqsiz ≠ 0) (hq : st.c.sendq = g :: rest) :
    ChanInv ((st.setC { st.c with sendq := rest }).setPc g .woken) := by
  obtain ⟨-, -, hn⟩ := h.queues.sendq g (by simp [hq])
  have hne : ∀ i, i ≠ g → ((st.setC { st.c with sendq := rest }).setPc g .woken).calls i =
      st.calls i := fun i hi => by simp [Function.update_noteq hi]
  refine h.touch [g] (fun i hi => hne i (by simpa using hi)) rfl id (by simp [hn])
    (fun i hi hm => by simp_all) (h.queues.tail_send hq rfl rfl rfl fun i hi _ => hne i hi)
    fun i hi => by
      obtain rfl : i = g := by simpa using hi
      exact (h.call i).of_woken hn (by simp) rfl hdq rfl

end Dequeue

/-! ### Parking, matching and closing -/

section Locked

variable {st : State} {k : ℕ}

/-- A receive with no value to take parks on `recvq`. -/
theorem ChanInv.park_recv (h : ChanInv st) (hpc : (st.calls k).pc = .locking) {e : Bool}
    (hop : (st.calls k).op = .recv e) (hcl : st.c.closed = false) (f : Call → Call)
    (hf : f (st.calls k) = { st.calls k with param := false, pc := .parked }) :
    ChanInv ((st.setC { st.c with recvq := st.c.recvq ++ [k] }).setCall k f) := by
  have hn := (h.call k).peer_eq_none (by simp [hpc, Pc.matchable])
  have hk := h.queues.not_mem (k := k) (by simp [hpc])
  have hne : ∀ i, i ≠ k → ((st.setC { st.c with recvq := st.c.recvq ++ [k] }).setCall k f).calls i
      = st.calls i := fun i hi => by simp [Function.update_noteq hi]
  have hl := (h.call k).late_eq_false hcl
  refine h.touch [k] (fun i hi => hne i (by simpa using hi)) rfl id (by simp [hn])
    (fun i _ hi => by simp_all) ⟨fun i hi => ?_, fun i hi => ?_, ?_, h.queues.sendq_nodup,
      by simp [hcl]⟩ fun i hi => ?_
  · by_cases hik : i = k
    · subst hik
      simp [hf, hop, hn]
    · rw [hne i hik]
      exact h.queues.recvq i (by simpa [hik] using hi)
  · rw [hne i fun hik => hk.2 (hik ▸ hi)]
    exact h.queues.sendq i hi
  · exact h.queues.recvq_nodup.append (List.nodup_singleton k) (by simpa using hk.1)
  · obtain rfl : i = k := by simpa using hi
    exact @CallOK.of_parked _ i { st.calls i with param := false, pc := .parked } (by simp [hf])
      hn rfl rfl hl (.inl (by simp))

/-- A send with no receiver or no room parks on `sendq`. -/
theorem ChanInv.park_send (h : ChanInv st) (hpc : (st.calls k).pc = .locking) {v : ℕ}
    (hop : (st.calls k).op = .send v) (hcl : st.c.closed = false) (f : Call → Call)
    (hf : f (st.calls k) = { st.calls k with param := false, pc := .parked }) :
    ChanInv ((st.setC { st.c with sendq := st.c.sendq ++ [k] }).setCall k f) := by
  have hn := (h.call k).peer_eq_none (by simp [hpc, Pc.matchable])
  have hk := h.queues.not_mem (k := k) (by simp [hpc])
  have hne : ∀ i, i ≠ k → ((st.setC { st.c with sendq := st.c.sendq ++ [k] }).setCall k f).calls i
      = st.calls i := fun i hi => by simp [Function.update_noteq hi]
  have hl := (h.call k).late_eq_false hcl
  refine h.touch [k] (fun i hi => hne i (by simpa using hi)) rfl id (by simp [hn])
    (fun i _ hi => by simp_all) ⟨fun i hi => ?_, fun i hi => ?_, h.queues.recvq_nodup, ?_,
      by simp [hcl]⟩ fun i hi => ?_
  · rw [hne i fun hik => hk.1 (hik ▸ hi)]
    exact h.queues.recvq i hi
  · by_cases hik : i = k
    · subst hik
      simp [hf, hop, hn]
    · rw [hne i hik]
      exact h.queues.sendq i (by simpa [hik] using hi)
  · exact h.queues.sendq_nodup.append (List.nodup_singleton k) (by simpa using hk.2)
  · obtain rfl : i = k := by simpa using hi
    exact @CallOK.of_parked _ i { st.calls i with param := false, pc := .parked } (by simp [hf])
      hn rfl rfl hl (.inr (by simp))

/-- An unbuffered send that finds a parked receiver dequeues it: the two are matched. -/
theorem ChanInv.match_recv (h : ChanInv st) (hpc : (st.calls k).pc = .locking) {v : ℕ}
    (hop : (st.calls k).op = .send v) (hdq : st.c.dataqsiz = 0) (hcl : st.c.closed = false)
    {r : ℕ} {rest : List ℕ} (hq : st.c.recvq = r :: rest) :
    ChanInv (((st.setC { st.c with recvq := rest }).setCall k fun cl =>
      { cl with pc := .syncSend r, peer := some r }).setCall r fun cl =>
      { cl with peer := some k }) := by
  have hn := (h.call k).peer_eq_none (by simp [hpc, Pc.matchable])
  obtain ⟨⟨e, hre⟩, hrp, hrn⟩ := h.queues.recvq r (by simp [hq])
  have hrk : r ≠ k := by rintro rfl; simp [hpc] at hrp
  have hne : ∀ i, i ≠ k → i ≠ r → (((st.setC { st.c with recvq := rest }).setCall k fun cl =>
      { cl with pc := .syncSend r, peer := some r }).setCall r fun cl =>
      { cl with peer := some k }).calls i = st.calls i := fun i hik hir => by
    simp [Function.update_noteq hik, Function.update_noteq hir]
  have hk := h.queues.not_mem (k := k) (by simp [hpc])
  refine h.pair (s := k) (r := r) hne rfl rfl (by simp [hn]) (by simp [hrn])
    (fun i hik hir hi => by simp_all)
    (h.queues.tail_recv hq rfl rfl rfl fun i hi hm => hne i (by rintro rfl; tauto) hi) ?_ hdq ?_ ?_
  · have hrk' := hrk.symm
    exact ⟨by simp [hrk'], by simp, v, e, by simp [hrk', hop], by simp [hrk, hre],
      .inl ⟨by simp [hrk'], by simp [hrk, hrp]⟩⟩
  · simp [hrk.symm, (h.call k).late_eq_false hcl]
  · simp [hrk, (h.call r).late_eq_false hcl]

/-- An unbuffered receive that finds a parked sender dequeues it: the two are matched. -/
theorem ChanInv.match_send (h : ChanInv st) (hpc : (st.calls k).pc = .locking) {e : Bool}
    (hop : (st.calls k).op = .recv e) (hdq : st.c.dataqsiz = 0) (hcl : st.c.closed = false)
    {s : ℕ} {rest : List ℕ} (hq : st.c.sendq = s :: rest) :
    ChanInv (((st.setC { st.c with sendq := rest }).setCall k fun cl =>
      { cl with pc := .syncRecv s, peer := some s }).setCall s fun cl =>
      { cl with peer := some k }) := by
  have hn := (h.call k).peer_eq_none (by simp [hpc, Pc.matchable])
  obtain ⟨⟨v, hsv⟩, hsp, hsn⟩ := h.queues.sendq s (by simp [hq])
  have hsk : s ≠ k := by rintro rfl; simp [hpc] at hsp
  have hne : ∀ i, i ≠ s → i ≠ k → (((st.setC { st.c with sendq := rest }).setCall k fun cl =>
      { cl with pc := .syncRecv s, peer := some s }).setCall s fun cl =>
      { cl with peer := some k }).calls i = st.calls i := fun i his hik => by
    simp [Function.update_noteq hik, Function.update_noteq his]
  have hk := h.queues.not_mem (k := k) (by simp [hpc])
  refine h.pair (s := s) (r := k) hne rfl rfl (by simp [hsn]) (by simp [hn])
    (fun i his hik hi => by simp_all)
    (h.queues.tail_send hq rfl rfl rfl fun i hi hm => hne i hi (by rintro rfl; tauto)) ?_ hdq ?_ ?_
  · have hsk' := hsk.symm
    exact ⟨by simp, by simp [hsk'], v, e, by simp [hsk, hsv], by simp [hsk', hop],
      .inr (.inl ⟨by simp [hsk'], by simp [hsk, hsp]⟩)⟩
  · simp [hsk, (h.call s).late_eq_false hcl]
  · simp [hsk.symm, (h.call k).late_eq_false hcl]

/-- `closechan` on an open channel: every queued call is released, late and without
`gp.param`, and both queues are emptied. -/
theorem ChanInv.closechan (h : ChanInv st) (hpc : (st.calls k).pc = .locking)
    (hop : (st.calls k).op = .close) :
    ChanInv ((((st.c.recvq ++ st.c.sendq).foldl release st).setC
      { st.c with closed := true, recvq := [], sendq := [] }).finish k .closed) := by
  have hn := (h.call k).peer_eq_none (by simp [hpc, Pc.matchable])
  have hk := h.queues.not_mem (k := k) (by simp [hpc])
  have hkl : k ∉ st.c.recvq ++ st.c.sendq := by simp [hk.1, hk.2]
  have hcalls : ∀ i, ((((st.c.recvq ++ st.c.sendq).foldl release st).setC
      { st.c with closed := true, recvq := [], sendq := [] }).finish k .closed).calls i =
      if i = k then { st.calls k with pc := .done .closed }
      else if i ∈ st.c.recvq ++ st.c.sendq then
        { st.calls i with param := false, pc := .woken, late := true }
      else st.calls i := fun i => by
    by_cases hik : i = k
    · subst hik
      simp only [finish_eq, setPc_eq, setCall_calls, setC_calls, Function.update_same,
        foldl_release_calls, if_neg hkl, if_true]
    · simp only [finish_eq, setPc_eq, setCall_calls, setC_calls, Function.update_noteq hik,
        foldl_release_calls, if_neg hik]
  refine h.touch (k :: (st.c.recvq ++ st.c.sendq)) (fun i hi => ?_) rfl (fun _ => rfl) ?_
    (fun i hi hm => by simp_all) ⟨by simp, by simp, by simp, by simp, by simp⟩ ?_
  · simp only [List.mem_cons, not_or] at hi
    rw [hcalls, if_neg hi.1, if_neg hi.2]
  · simp only [List.mem_cons, List.mem_append]
    rintro j (rfl | hj | hj) i hi
    · simp [hn] at hi
    · simp [(h.queues.recvq j hj).2.2] at hi
    · simp [(h.queues.sendq j hj).2.2] at hi
  · simp only [List.mem_cons]
    rintro i (rfl | hi)
    · exact CallOK.of_free ((hcalls i).trans (if_pos rfl)) hn ((h.call i).unmatched hn).param
        (.done (by simp) (by simp)) (by simp) (by simp [hop])
    · have hik : i ≠ k := fun hik => hkl (hik ▸ hi)
      have hpi : (st.calls i).peer = none := by
        rcases List.mem_append.mp hi with hi | hi
        exacts [(h.queues.recvq i hi).2.2, (h.queues.sendq i hi).2.2]
      refine ⟨fun _ => ⟨?_, ?_, ?_, ?_, ?_, ?_, ?_⟩, ?_, ?_, ?_, ?_, ?_⟩ <;>
        simp only [hcalls] <;> simp [hik, hi, hpi, LateSendPc]

end Locked

/-! ### Hand-offs -/

section Handoff

variable {st : State} {k : ℕ}

/-- A sender in the hand-off holds the parked receiver it dequeued. -/
theorem ChanInv.matched_of_syncSend (h : ChanInv st) {r : ℕ} (hpc : (st.calls k).pc = .syncSend r) :
    st.c.dataqsiz = 0 ∧ Matched k r (st.calls k) (st.calls r) ∧ (st.calls r).pc = .parked := by
  cases hp : (st.calls k).peer with
  | none => exact absurd hpc (((h.call k).unmatched hp).not_sync r).1
  | some j =>
    obtain ⟨hdq, hm | hm⟩ := (h.call k).matched j hp <;> obtain ⟨v, e, -, -, hph⟩ := hm.phase
    · rcases hph with ⟨h1, h2⟩ | ⟨-, h1⟩ | ⟨h1 | ⟨h1, -⟩, -⟩ <;> simp [hpc] at h1
      obtain rfl := h1
      exact ⟨hdq, hm, h2⟩
    · rcases hph with ⟨-, h1⟩ | ⟨h1, -⟩ | ⟨-, h1 | ⟨h1, -⟩, -⟩ <;> simp [hpc] at h1

/-- A receiver in the hand-off holds the parked sender it dequeued. -/
theorem ChanInv.matched_of_syncRecv (h : ChanInv st) {s : ℕ} (hpc : (st.calls k).pc = .syncRecv s) :
    st.c.dataqsiz = 0 ∧ Matched s k (st.calls s) (st.calls k) ∧ (st.calls s).pc = .parked := by
  cases hp : (st.calls k).peer with
  | none => exact absurd hpc (((h.call k).unmatched hp).not_sync s).2
  | some j =>
    obtain ⟨hdq, hm | hm⟩ := (h.call k).matched j hp <;> obtain ⟨v, e, -, -, hph⟩ := hm.phase
    · rcases hph with ⟨h1, -⟩ | ⟨-, h1⟩ | ⟨h1 | ⟨h1, -⟩, -⟩ <;> simp [hpc] at h1
    · rcases hph with ⟨-, h1⟩ | ⟨h1, h2⟩ | ⟨-, h1 | ⟨h1, -⟩, -⟩ <;> simp [hpc] at h1
      obtain rfl := h1
      exact ⟨hdq, hm, h2⟩

/-- A call with `gp.param` set is matched, on an unbuffered channel. -/
theorem ChanInv.matched_of_param (h : ChanInv st)
    (hparam : (st.calls k).param = true) : ∃ j, (st.calls k).peer = some j ∧
      st.c.dataqsiz = 0 ∧ (Matched k j (st.calls k) (st.calls j) ∨
        Matched j k (st.calls j) (st.calls k)) := by
  cases hp : (st.calls k).peer with
  | none => simp [((h.call k).unmatched hp).param] at hparam
  | some j => exact ⟨j, rfl, (h.call k).matched j hp⟩

/-- The queues do not mention a matched call. -/
theorem QueuesOK.not_mem_of_peer (h : QueuesOK st) {j : ℕ} (hj : (st.calls k).peer = some j) :
    k ∉ st.c.recvq ∧ k ∉ st.c.sendq :=
  ⟨fun hm => by simp [(h.recvq k hm).2.2] at hj, fun hm => by simp [(h.sendq k hm).2.2] at hj⟩

/-- A step that changes only a matched pair, leaving the queues and the flag, keeps the
invariant if the pair stays matched. -/
theorem ChanInv.repair {st' : State} (h : ChanInv st) {s r : ℕ}
    (hm : Matched s r (st.calls s) (st.calls r))
    (hframe : ∀ i, i ≠ s → i ≠ r → st'.calls i = st.calls i) (hdq : st'.c.dataqsiz = st.c.dataqsiz)
    (hcl : st'.c.closed = st.c.closed) (hrq : st'.c.recvq = st.c.recvq)
    (hsq : st'.c.sendq = st.c.sendq) (hm' : Matched s r (st'.calls s) (st'.calls r))
    (hls : (st'.calls s).late = (st.calls s).late) (hlr : (st'.calls r).late = (st.calls r).late) :
    ChanInv st' := by
  have hs := h.queues.not_mem_of_peer hm.peer_s
  have hr := h.queues.not_mem_of_peer hm.peer_r
  refine h.pair hframe hdq hcl (fun i hi => ?_) (fun i hi => ?_) (fun i _ _ hi => hrq ▸ hsq ▸ hi)
    (h.queues.frame hrq hsq hcl fun i hi => hframe i ?_ ?_) hm' ?_ ?_ ?_
  · exact Option.some_injective _ (hi.symm.trans hm.peer_s)
  · exact Option.some_injective _ (hi.symm.trans hm.peer_r)
  · rintro rfl; tauto
  · rintro rfl; tauto
  · exact ((h.call s).matched r hm.peer_s).1
  · rw [hls]; exact (h.call s).late_eq_false_of_peer hm.peer_s
  · rw [hlr]; exact (h.call r).late_eq_false_of_peer hm.peer_r

/-- `chansend` after dequeuing a receiver: the value is in the receiver's `*ep` and the
receiver is readied with `gp.param` set. -/
theorem ChanInv.sendHandoff (h : ChanInv st) {r v : ℕ} (hpc : (st.calls k).pc = .syncSend r)
    (hop : (st.calls k).op = .send v) : ChanInv (chansendHandoff st k r v) := by
  obtain ⟨-, hm, hrp⟩ := h.matched_of_syncSend hpc
  obtain ⟨-, e, -, he, -⟩ := hm.phase
  have hrk : r ≠ k := by rintro rfl; simp [hpc] at hrp
  have hcr : (chansendHandoff st k r v).calls r =
      { st.calls r with ep := if e then v else (st.calls r).ep, param := true, pc := .woken } := by
    cases e <;> simp [chansendHandoff, syncsend, he, hrk]
  have hck : (chansendHandoff st k r v).calls k = { st.calls k with pc := .done (.sent true) } := by
    unfold chansendHandoff; split_ifs <;> simp [syncsend, hrk.symm]
  refine h.repair hm (fun i hik hir => ?_) (by simp) (by simp) (by simp) (by simp) ?_ (by rw [hck])
    (by rw [hcr])
  · unfold chansendHandoff; split_ifs <;> simp [syncsend, hik, hir]
  · rw [hck, hcr]
    exact ⟨hm.peer_s, hm.peer_r, v, e, hop, he, .inr (.inr ⟨.inl rfl, .inr ⟨rfl, rfl⟩,
      fun he' => by simp [he']⟩)⟩

/-- `chanrecv` after dequeuing a sender: its value is in `*ep` and the sender is readied with
`gp.param` set. -/
theorem ChanInv.recvHandoff (h : ChanInv st) {s : ℕ} {e : Bool}
    (hpc : (st.calls k).pc = .syncRecv s) (hop : (st.calls k).op = .recv e) :
    ChanInv (chanrecvHandoff st k s e) := by
  obtain ⟨-, hm, hsp⟩ := h.matched_of_syncRecv hpc
  obtain ⟨v, -, hsv, -, -⟩ := hm.phase
  have hsk : s ≠ k := by rintro rfl; simp [hpc] at hsp
  have hcs : (chanrecvHandoff st k s e).calls s =
      { st.calls s with param := true, pc := .woken } := by
    cases e <;> simp [chanrecvHandoff, hsv, hsk]
  have hck : (chanrecvHandoff st k s e).calls k =
      { st.calls k with
        ep := if e then v else (st.calls k).ep, pc := .done (.recvd true true) } := by
    cases e <;> simp [chanrecvHandoff, hsv, hsk.symm]
  refine h.repair hm (fun i his hik => ?_) (by simp) (by simp) (by simp) (by simp) ?_ (by rw [hcs])
    (by rw [hck])
  · unfold chanrecvHandoff; rw [hsv]; split_ifs <;> simp [his, hik]
  · rw [hck, hcs]
    exact ⟨hm.peer_s, hm.peer_r, v, e, hsv, hop, .inr (.inr ⟨.inr ⟨rfl, rfl⟩, .inl rfl,
      fun he => by simp [he]⟩)⟩

end Handoff

/-! ### Each piece keeps the invariant -/

section Pieces

variable {st : State} {k : ℕ}

theorem ChanInv.begin (h : ChanInv st) (hidle : (st.calls k).pc = .idle) (op : Op) (block : Bool)
    (e : ℕ) : ChanInv (st.begin k op block e) := by
  have hn := (h.call k).peer_eq_none (by simp [hidle, Pc.matchable])
  exact h.move rfl rfl rfl rfl rfl hn (by simp [hidle]) <|
    @CallOK.of_free _ k ⟨op, block, .start, false, e, none, st.c.closed⟩ (by simp) rfl rfl
      (.of_plain rfl (by simp)) id fun _ _ _ => .inl rfl

theorem ChanInv.sendStart (h : ChanInv st) (hpc : (st.calls k).pc = .start) {v : ℕ}
    (hop : (st.calls k).op = .send v) (block : Bool) : ChanInv (chansendStart st k block) := by
  have hn := (h.call k).peer_eq_none (by simp [hpc, Pc.matchable])
  have hpk : (st.calls k).pc ≠ .parked := by simp [hpc]
  unfold chansendStart
  split_ifs with hb
  · refine h.setPc hn hpk (.sendFast hop) fun _ _ hl => ?_
    simp only [Bool.and_eq_true, Bool.not_eq_true'] at hb
    simpa [hb.2] using ((h.call k).late hl).1
  · exact h.setPc hn hpk (.of_plain rfl (by simp)) fun _ _ _ => .inr (.inl rfl)

theorem ChanInv.sendFast (h : ChanInv st) (hpc : (st.calls k).pc = .sendFast) :
    ChanInv (chansendFast st k) := by
  have hn := (h.call k).peer_eq_none (by simp [hpc, Pc.matchable])
  have hpk : (st.calls k).pc ≠ .parked := by simp [hpc]
  have hls : ∀ p v, (st.calls k).op = .send v → (st.calls k).late = true → LateSendPc p :=
    fun _ v hv hl => by simpa [LateSendPc, hpc] using (h.call k).late_send v hv hl
  unfold chansendFast
  split_ifs
  · exact h.setPc hn hpk (.done (by simp) (by simp)) (hls _)
  · exact h.setPc hn hpk (.of_plain rfl (by simp)) (hls _)

/-- A piece of a receive or of `closechan` has nothing to keep for late sends. -/
theorem lateSend_of_not_send {cl : Call} (hop : ∀ v, cl.op ≠ .send v) (p : Pc) :
    ∀ v, cl.op = .send v → cl.late = true → LateSendPc p := fun v hv _ => absurd hv (hop v)

theorem ChanInv.recvStart (h : ChanInv st) (hpc : (st.calls k).pc = .start) {e : Bool}
    (hop : (st.calls k).op = .recv e) (block : Bool) : ChanInv (chanrecvStart st k block) := by
  have hn := (h.call k).peer_eq_none (by simp [hpc, Pc.matchable])
  have hpk : (st.calls k).pc ≠ .parked := by simp [hpc]
  unfold chanrecvStart
  split_ifs <;> exact h.setPc hn hpk (.of_plain rfl (by simp))
    (lateSend_of_not_send (by simp [hop]) _)

theorem ChanInv.recvFast (h : ChanInv st) (hpc : (st.calls k).pc = .recvFast) {e : Bool}
    (hop : (st.calls k).op = .recv e) : ChanInv (chanrecvFast st k) := by
  have hn := (h.call k).peer_eq_none (by simp [hpc, Pc.matchable])
  have hpk : (st.calls k).pc ≠ .parked := by simp [hpc]
  unfold chanrecvFast
  split_ifs
  · exact h.setPc hn hpk (.done (by simp) (by simp)) (lateSend_of_not_send (by simp [hop]) _)
  · exact h.setPc hn hpk (.of_plain rfl (by simp)) (lateSend_of_not_send (by simp [hop]) _)

theorem ChanInv.closeStart (h : ChanInv st) (hpc : (st.calls k).pc = .start)
    (hop : (st.calls k).op = .close) : ChanInv (st.setPc k .locking) :=
  h.setPc ((h.call k).peer_eq_none (by simp [hpc, Pc.matchable])) (by simp [hpc])
    (.of_plain rfl (by simp)) (lateSend_of_not_send (by simp [hop]) _)

theorem ChanInv.recvclosed (h : ChanInv st) (hn : (st.calls k).peer = none)
    (hpk : (st.calls k).pc ≠ .parked) {e : Bool} (hop : (st.calls k).op = .recv e) (ep : Bool) :
    ChanInv (recvclosed st k ep) := by
  rw [recvclosed_eq]
  exact h.setCall_free _ hn hpk rfl hn ((h.call k).unmatched hn).param rfl
    (.done (by simp) (by simp)) (lateSend_of_not_send (by simp [hop]) _)

theorem ChanInv.sendLocked (h : ChanInv st) (hpc : (st.calls k).pc = .locking) {v : ℕ}
    (hop : (st.calls k).op = .send v) (block : Bool) : ChanInv (chansendLocked st k v block) := by
  have hn := (h.call k).peer_eq_none (by simp [hpc, Pc.matchable])
  have hpk : (st.calls k).pc ≠ .parked := by simp [hpc]
  unfold chansendLocked
  dsimp only
  split
  · exact h.setPc hn hpk (.done (by simp) (by simp)) fun _ _ _ => .inr (.inr (.inr rfl))
  rename_i hcl
  simp only [Bool.not_eq_true] at hcl
  have hls : ∀ p v, (st.calls k).op = .send v → (st.calls k).late = true → LateSendPc p :=
    fun _ _ _ hl => by simp [(h.call k).late_eq_false hcl] at hl
  have hparam := ((h.call k).unmatched hn).param
  split
  · split
    · exact h.match_recv hpc hop ‹_› hcl ‹_›
    · split
      · exact h.setPc hn hpk (.done (by simp) (by simp)) (hls _)
      · exact h.park_send hpc hop hcl _ rfl
  · split
    · split
      · exact h.setPc hn hpk (.done (by simp) (by simp)) (hls _)
      · exact h.park_send hpc hop hcl _ (by simp [hparam])
    · rename_i hdq _
      have h₁ := h.setC (c := st.c.put v) (st.sent ++ [v]) st.recvd rfl rfl rfl rfl
      split
      · rename_i r rest hq
        have h₂ := h₁.wake_recv hdq hq
        have hrk : k ≠ r := by
          rintro rfl
          exact (h.queues.not_mem hpk).1 (by simp [HChan.put] at hq; simp [hq])
        exact h₂.setPc (by simp [hrk, hn]) (by simp [hrk, hpc])
          (.done (by simp [HChan.put, hdq]) (by simp)) (by simpa [hrk] using hls _)
      · exact h₁.setPc hn hpk (.done (by simp [HChan.put, hdq]) (by simp)) (hls _)

theorem ChanInv.recvLocked (h : ChanInv st) (hpc : (st.calls k).pc = .locking) {e : Bool}
    (hop : (st.calls k).op = .recv e) (block : Bool) : ChanInv (chanrecvLocked st k e block) := by
  have hn := (h.call k).peer_eq_none (by simp [hpc, Pc.matchable])
  have hpk : (st.calls k).pc ≠ .parked := by simp [hpc]
  have hls := @lateSend_of_not_send (st.calls k) (by simp [hop])
  have hparam := ((h.call k).unmatched hn).param
  unfold chanrecvLocked
  dsimp only
  split
  · split
    · exact h.recvclosed hn hpk hop e
    rename_i hcl
    simp only [Bool.not_eq_true] at hcl
    split
    · exact h.match_send hpc hop ‹_› hcl ‹_›
    · split
      · exact h.setPc hn hpk (.done (by simp) (by simp)) (hls _)
      · exact h.park_recv hpc hop hcl _ rfl
  · rename_i hdq
    split
    · split
      · exact h.recvclosed hn hpk hop e
      rename_i hcl
      simp only [Bool.not_eq_true] at hcl
      split
      · exact h.setPc hn hpk (.done (by simp) (by simp)) (hls _)
      · exact h.park_recv hpc hop hcl _ (by simp [hparam])
    · set st₀ := if e then st.setCall k (fun cl => { cl with ep := st.c.buf st.c.recvx }) else st
        with hst₀
      have h₀ : ChanInv st₀ := by
        rw [hst₀]
        split
        · exact h.setCall_free _ hn hpk rfl hn hparam rfl (.of_plain
            (by simp [hpc, Pc.plain]) (by simp [hpc])) (hls _)
        · exact h
      have hc₀ : st₀.c = st.c := by rw [hst₀]; split <;> rfl
      obtain ⟨hn₀, hpc₀, hop₀⟩ : (st₀.calls k).peer = none ∧ (st₀.calls k).pc = .locking ∧
          (st₀.calls k).op = .recv e := by
        rw [hst₀]; split <;> simp [hn, hpc, hop]
      have h₁ := h₀.setC (c := st.c.take) st₀.sent (st.recvd ++ [st.c.buf st.c.recvx])
        (by simp [hc₀, HChan.take]) (by simp [hc₀, HChan.take]) (by simp [hc₀, HChan.take])
        (by simp [hc₀, HChan.take])
      split
      · rename_i s rest hq
        have h₂ := h₁.wake_send hdq hq
        have hsk : k ≠ s := by
          rintro rfl
          exact (h₀.queues.not_mem (k := k) (by simp [hpc₀])).2
            (by simp [HChan.take] at hq; simp [hc₀, hq])
        exact h₂.setPc (by simp [hsk, hn₀]) (by simp [hsk, hpc₀])
          (.done (by simp [HChan.take, hdq]) (by simp))
          (lateSend_of_not_send (by simp [hsk, hop₀]) _)
      · exact h₁.setPc hn₀ (by simp [hpc₀]) (.done (by simp [HChan.take, hdq]) (by simp))
          (lateSend_of_not_send (by simp [hop₀]) _)

theorem ChanInv.closeLocked (h : ChanInv st) (hpc : (st.calls k).pc = .locking)
    (hop : (st.calls k).op = .close) : ChanInv (closechanLocked st k) := by
  unfold closechanLocked
  split
  · exact h.setPc ((h.call k).peer_eq_none (by simp [hpc, Pc.matchable])) (by simp [hpc])
      (.done (by simp) (by simp)) (lateSend_of_not_send (by simp [hop]) _)
  · exact h.closechan hpc hop

theorem ChanInv.sendWoken (h : ChanInv st) (hpc : (st.calls k).pc = .woken) {v : ℕ}
    (hop : (st.calls k).op = .send v) : ChanInv (chansendWoken st k) := by
  unfold chansendWoken
  by_cases hdq : st.c.dataqsiz = 0
  · cases hparam : (st.calls k).param
    · have hn := (h.call k).peer_eq_none_of_param hpc hparam
      have hcl := (((h.call k).unmatched hn).woken hdq hpc).1
      simp only [hdq, hparam, hcl, if_true, Bool.false_eq_true, if_false, Bool.not_true]
      exact h.setPc hn (by simp [hpc]) (.done (by simp) (by simp))
        fun _ _ _ => .inr (.inr (.inr rfl))
    · simp only [hdq, hparam, if_true]
      obtain ⟨j, -, -, hm | hm⟩ := h.matched_of_param hparam
      · obtain ⟨v', e, h1, h2, -, hr, hep⟩ := hm.done_of_woken (.inl hpc)
        have hjk : j ≠ k := by rintro rfl; simp [h1] at h2
        refine h.repair hm (fun i hik _ => by simp [hik]) rfl rfl rfl rfl
          ⟨by simp [hm.peer_s], by simp [hjk, hm.peer_r], v', e, by simp [h1], by simp [hjk, h2],
            .inr (.inr ⟨.inl (by simp), by simpa [hjk] using hr, by simpa [hjk] using hep⟩)⟩
          (by simp) (by simp [hjk])
      · obtain ⟨_, _, -, h2, -⟩ := hm.phase
        simp [hop] at h2
  · have hn : (st.calls k).peer = none := by
      cases hp : (st.calls k).peer with
      | none => rfl
      | some j => exact absurd ((h.call k).matched j hp).1 hdq
    simp only [hdq, if_false]
    exact h.setPc hn (by simp [hpc]) (.of_plain rfl (by simp))
      fun _ _ _ => .inr (.inl rfl)

theorem ChanInv.recvWoken (h : ChanInv st) (hpc : (st.calls k).pc = .woken) {e : Bool}
    (hop : (st.calls k).op = .recv e) : ChanInv (chanrecvWoken st k) := by
  unfold chanrecvWoken
  by_cases hdq : st.c.dataqsiz = 0
  · cases hparam : (st.calls k).param
    · have hn := (h.call k).peer_eq_none_of_param hpc hparam
      simp only [hdq, hparam, if_true, Bool.false_eq_true, if_false]
      exact h.setPc hn (by simp [hpc]) (.of_plain rfl
        fun _ => (((h.call k).unmatched hn).woken hdq hpc).1)
        (lateSend_of_not_send (by simp [hop]) _)
    · simp only [hdq, hparam, if_true]
      obtain ⟨j, -, -, hm | hm⟩ := h.matched_of_param hparam
      · obtain ⟨_, _, h1, -, -⟩ := hm.phase
        simp [hop] at h1
      · obtain ⟨v, e', h1, h2, hs, -, hep⟩ := hm.done_of_woken (.inr hpc)
        have hjk : j ≠ k := by rintro rfl; simp [h1] at h2
        refine h.repair hm (fun i _ hik => by simp [hik]) rfl rfl rfl rfl
          ⟨by simp [hjk, hm.peer_s], by simp [hm.peer_r], v, e', by simp [hjk, h1], by simp [h2],
            .inr (.inr ⟨by simpa [hjk] using hs, .inl (by simp), by simpa using hep⟩)⟩
          (by simp [hjk]) (by simp)
  · have hn : (st.calls k).peer = none := by
      cases hp : (st.calls k).peer with
      | none => rfl
      | some j => exact absurd ((h.call k).matched j hp).1 hdq
    simp only [hdq, if_false]
    exact h.setPc hn (by simp [hpc]) (.of_plain rfl (by simp))
      (lateSend_of_not_send (by simp [hop]) _)

theorem ChanInv.recvRelock (h : ChanInv st) (hpc : (st.calls k).pc = .recvRelock) {e : Bool}
    (hop : (st.calls k).op = .recv e) : ChanInv (chanrecvRelock st k e) := by
  have hn := (h.call k).peer_eq_none (by simp [hpc, Pc.matchable])
  have hcl := ((h.call k).unmatched hn).relock hpc
  unfold chanrecvRelock
  rw [hcl]
  exact h.recvclosed hn (by simp [hpc]) hop e

end Pieces

/-! ### Every run keeps the invariant -/

/-- **Every step keeps the invariant.** -/
theorem chanInv_step {st st' : State} (h : ChanInv st) (hs : Step st st') : ChanInv st' := by
  cases hs with
  | begin k op block e hidle => exact h.begin hidle op block e
  | run _ k hstep =>
    rcases hpc : (st.calls k).pc with _ | _ | _ | _ | _ | r | s | _ | _ | _ | res <;>
      rcases hop : (st.calls k).op with v | e | _ <;>
      simp only [State.step, hpc, hop, reduceCtorEq, Option.some.injEq] at hstep <;>
      subst hstep
    · exact h.sendStart hpc hop _
    · exact h.recvStart hpc hop _
    · exact h.closeStart hpc hop
    · exact h.sendFast hpc
    · exact h.recvFast hpc hop
    · exact h.sendLocked hpc hop _
    · exact h.recvLocked hpc hop _
    · exact h.closeLocked hpc hop
    · exact h.sendHandoff hpc hop
    · exact h.recvHandoff hpc hop
    · exact h.sendWoken hpc hop
    · exact h.recvWoken hpc hop
    · exact h.recvRelock hpc hop

/-- Every state reachable from an open channel with empty queues satisfies the invariant. -/
theorem chanInv_reachable {c : HChan} (hr : c.recvq = []) (hs : c.sendq = [])
    (hc : c.closed = false) {st : State} (h : Reachable (State.init c) st) : ChanInv st := by
  induction h with
  | init => exact chanInv_init c hr hs hc
  | step _ hstep ih => exact chanInv_step ih hstep

/-! ### After the close -/

/-- What a step taken once the channel is closed does: the channel stays closed, nothing enters
the buffer, the buffer does not grow, no hand-off starts, and no call parks. -/
structure AfterClose (st st' : State) : Prop where
  closed : st'.c.closed = st.c.closed
  sent : st'.sent = st.sent
  qcount : st'.c.qcount ≤ st.c.qcount
  peer : ∀ k, (st'.calls k).peer = (st.calls k).peer
  no_park : ∀ k, (st'.calls k).pc = .parked → (st.calls k).pc = .parked

section AfterClose

variable {st st' st'' : State} {k : ℕ}

theorem AfterClose.trans (h : AfterClose st st') (h' : AfterClose st' st'') :
    AfterClose st st'' :=
  ⟨h'.closed.trans h.closed, h'.sent.trans h.sent, h'.qcount.trans h.qcount,
    fun k => (h'.peer k).trans (h.peer k), fun k hk => h.no_park k (h'.no_park k hk)⟩

theorem AfterClose.refl : AfterClose st st := ⟨rfl, rfl, le_rfl, fun _ => rfl, fun _ => id⟩

/-- A call changing its own fields, but not its peer, and not parking. -/
theorem afterClose_setCall (f : Call → Call) (hpeer : (f (st.calls k)).peer = (st.calls k).peer)
    (hpk : (f (st.calls k)).pc = .parked → (st.calls k).pc = .parked) :
    AfterClose st (st.setCall k f) := by
  refine ⟨rfl, rfl, le_rfl, fun i => ?_, fun i hi => ?_⟩ <;> by_cases hik : i = k
  · subst hik; simpa using hpeer
  · simp [hik]
  · subst hik; simp at hi; exact hpk hi
  · simpa [hik] using hi

theorem afterClose_setPc {p : Pc} (hp : p ≠ .parked) : AfterClose st (st.setPc k p) :=
  afterClose_setCall _ rfl fun h => absurd h hp

theorem afterClose_recvclosed (ep : Bool) : AfterClose st (recvclosed st k ep) := by
  rw [recvclosed_eq]; exact afterClose_setCall _ rfl (by simp)

theorem afterClose_step (h : ChanInv st) (hcl : st.c.closed = true) (hs : Step st st') :
    AfterClose st st' := by
  cases hs with
  | begin k op block e hidle =>
    have hn := (h.call k).peer_eq_none (by simp [hidle, Pc.matchable])
    exact afterClose_setCall _ hn.symm (by simp)
  | run _ k hstep =>
    have hsq := (h.queues.closed hcl).2
    rcases hpc : (st.calls k).pc with _ | _ | _ | _ | _ | r | s | _ | _ | _ | res <;>
      rcases hop : (st.calls k).op with v | e | _ <;>
      simp only [State.step, hpc, hop, reduceCtorEq, Option.some.injEq] at hstep <;>
      subst hstep
    · unfold chansendStart; split_ifs <;> exact afterClose_setPc (by simp)
    · unfold chanrecvStart; split_ifs <;> exact afterClose_setPc (by simp)
    · exact afterClose_setPc (by simp)
    · unfold chansendFast; split_ifs <;> exact afterClose_setPc (by simp)
    · unfold chanrecvFast; split_ifs <;> exact afterClose_setPc (by simp)
    · simp only [chansendLocked, hcl, if_true]; exact afterClose_setPc (by simp)
    · simp only [chanrecvLocked, hcl, if_true, HChan.take, hsq]
      split
      · exact afterClose_recvclosed e
      split
      · exact afterClose_recvclosed e
      have hmid : AfterClose st (if e then st.setCall k fun cl =>
          { cl with ep := st.c.buf st.c.recvx } else st) := by
        split
        · exact afterClose_setCall _ rfl fun h => h
        · exact .refl
      refine hmid.trans ?_
      have hc : (if e then st.setCall k fun cl => { cl with ep := st.c.buf st.c.recvx }
          else st).c = st.c := by split <;> rfl
      refine ⟨by simp [hc, hcl], rfl, by simp [hc], fun i => ?_, fun i hi => ?_⟩ <;>
        by_cases hik : i = k <;> simp_all
    · simp only [closechanLocked, hcl, if_true]; exact afterClose_setPc (by simp)
    · unfold chansendHandoff
      refine AfterClose.trans ?_ (AfterClose.trans (afterClose_setCall _ rfl (by simp))
        (afterClose_setPc (by simp)))
      split
      · exact afterClose_setCall _ rfl fun h => h
      · exact .refl
    · unfold chanrecvHandoff
      refine AfterClose.trans ?_ (AfterClose.trans (afterClose_setCall _ rfl (by simp))
        (afterClose_setPc (by simp)))
      split
      · split
        · exact afterClose_setCall _ rfl fun h => h
        · exact .refl
      · exact .refl
    · unfold chansendWoken; split_ifs <;> exact afterClose_setPc (by simp)
    · unfold chanrecvWoken; split_ifs <;> exact afterClose_setPc (by simp)
    · simp only [chanrecvRelock, hcl, Bool.not_true, Bool.false_eq_true, if_false]
      exact afterClose_recvclosed e

end AfterClose

/-! ### The hand-off and close discipline -/

/-- What `chan.go` promises about hand-offs and `closechan`, read off one state. -/
structure HandOff (st : State) : Prop where
  /-- On an unbuffered channel a send that returned `true` is matched with a receive, and with
  no other, that has received its value. -/
  send_true : st.c.dataqsiz = 0 → ∀ s v, (st.calls s).op = .send v →
    (st.calls s).pc = .done (.sent true) → ∃ r e, (st.calls s).peer = some r ∧
      (st.calls r).peer = some s ∧ (st.calls r).op = .recv e ∧ RecvDone (st.calls r) ∧
      (e = true → (st.calls r).ep = v)
  /-- On an unbuffered channel a receive that returned `(true, true)` is matched with a send,
  and with no other, whose value it received. -/
  recv_true : st.c.dataqsiz = 0 → ∀ r e, (st.calls r).op = .recv e →
    (st.calls r).pc = .done (.recvd true true) → ∃ s v, (st.calls r).peer = some s ∧
      (st.calls s).peer = some r ∧ (st.calls s).op = .send v ∧ SendDone (st.calls s) ∧
      (e = true → (st.calls r).ep = v)
  /-- Both wait queues are empty once the channel is closed. -/
  closed_queues : st.c.closed = true → st.c.recvq = [] ∧ st.c.sendq = []
  /-- A send that started after the close, or was parked when it came, can only panic. -/
  late_send : ∀ k v, (st.calls k).op = .send v → (st.calls k).late = true →
    st.c.closed = true ∧ ∀ r, (st.calls k).pc = .done r →
      r = .abort (.panic "send on closed channel")
  /-- ... and it gets there by its own steps, whatever the other calls do. -/
  late_panics : ∀ k v, (st.calls k).op = .send v → (st.calls k).late = true →
    ∃ st', Relation.ReflTransGen (fun a b => a.step k = some b) st st' ∧
      (st'.calls k).pc = .done (.abort (.panic "send on closed channel"))
  /-- Once the channel is closed and its buffer empty, a receive that is not in a hand-off
  returns `(true, false)` from its next step if it returns, with `*ep` cleared. -/
  recv_closed : st.c.closed = true → st.c.qcount = 0 → ∀ k e st', (st.calls k).op = .recv e →
    (st.calls k).peer = none → st.step k = some st' → ∀ r, (st'.calls k).pc = .done r →
      r = .recvd true false ∧ (e = true → (st'.calls k).ep = 0)
  /-- ... and such a receive, once called, does return, by its own steps. -/
  recv_returns : st.c.closed = true → st.c.qcount = 0 → ∀ k e, (st.calls k).op = .recv e →
    (st.calls k).peer = none → (st.calls k).pc ≠ .idle → (∀ r, (st.calls k).pc ≠ .done r) →
    ∃ st', Relation.ReflTransGen (fun a b => a.step k = some b) st st' ∧
      (st'.calls k).pc = .done (.recvd true false) ∧ (e = true → (st'.calls k).ep = 0)
  /-- Neither spurious-wakeup `throw` is reached. -/
  no_spurious : ∀ k msg, (st.calls k).pc ≠ .done (.abort (.throw msg))

section HandOff

variable {st : State}

theorem ChanInv.send_true (h : ChanInv st) (hdq : st.c.dataqsiz = 0) {s v : ℕ}
    (hop : (st.calls s).op = .send v) (hpc : (st.calls s).pc = .done (.sent true)) :
    ∃ r e, (st.calls s).peer = some r ∧ (st.calls r).peer = some s ∧
      (st.calls r).op = .recv e ∧ RecvDone (st.calls r) ∧ (e = true → (st.calls r).ep = v) := by
  cases hp : (st.calls s).peer with
  | none => exact absurd hpc (((h.call s).unmatched hp).not_sent hdq)
  | some r =>
    obtain ⟨-, hm | hm⟩ := (h.call s).matched r hp
    · obtain ⟨v', e, h1, h2, ⟨h3, -⟩ | ⟨-, h3⟩ | ⟨-, hr, hep⟩⟩ := hm.phase
      · simp [hpc] at h3
      · simp [hpc] at h3
      · obtain rfl : v' = v := by simpa [hop] using h1.symm
        exact ⟨r, e, rfl, hm.peer_r, h2, hr, hep⟩
    · obtain ⟨_, _, -, h2, -⟩ := hm.phase
      simp [hop] at h2

theorem ChanInv.recv_true (h : ChanInv st) (hdq : st.c.dataqsiz = 0) {r : ℕ} {e : Bool}
    (hop : (st.calls r).op = .recv e) (hpc : (st.calls r).pc = .done (.recvd true true)) :
    ∃ s v, (st.calls r).peer = some s ∧ (st.calls s).peer = some r ∧
      (st.calls s).op = .send v ∧ SendDone (st.calls s) ∧ (e = true → (st.calls r).ep = v) := by
  cases hp : (st.calls r).peer with
  | none => exact absurd hpc (((h.call r).unmatched hp).not_recvd hdq)
  | some s =>
    obtain ⟨-, hm | hm⟩ := (h.call r).matched s hp
    · obtain ⟨_, _, h1, -, -⟩ := hm.phase
      simp [hop] at h1
    · obtain ⟨v, e', h1, h2, ⟨-, h3⟩ | ⟨h3, -⟩ | ⟨hs, -, hep⟩⟩ := hm.phase
      · simp [hpc] at h3
      · simp [hpc] at h3
      · obtain rfl : e' = e := by simpa [hop] using h2.symm
        exact ⟨s, v, rfl, hm.peer_s, h1, hs, hep⟩

/-- On a closed channel the locked section of a send panics at once. -/
theorem step_locking_send (hcl : st.c.closed = true) {k v : ℕ} (hpc : (st.calls k).pc = .locking)
    (hop : (st.calls k).op = .send v) :
    st.step k = some (st.finish k (.abort (.panic "send on closed channel"))) := by
  simp [State.step, hpc, hop, chansendLocked, hcl]

theorem ChanInv.late_panics (h : ChanInv st) {k v : ℕ} (hop : (st.calls k).op = .send v)
    (hl : (st.calls k).late = true) :
    ∃ st', Relation.ReflTransGen (fun a b => a.step k = some b) st st' ∧
      (st'.calls k).pc = .done (.abort (.panic "send on closed channel")) := by
  obtain ⟨hcl, hn⟩ := (h.call k).late hl
  have hlock : ∀ st₁ : State, st₁.c = st.c → (st₁.calls k).pc = .locking →
      (st₁.calls k).op = .send v → ∃ st', Relation.ReflTransGen (fun a b => a.step k = some b)
        st₁ st' ∧ (st'.calls k).pc = .done (.abort (.panic "send on closed channel")) :=
    fun st₁ hc hpc hop => ⟨_, .single (step_locking_send (hc ▸ hcl) hpc hop), by simp⟩
  rcases (h.call k).late_send v hop hl with hpc | hpc | hpc | hpc
  · obtain ⟨st', h₂, hst'⟩ := hlock (st.setPc k .locking) rfl (by simp) (by simp [hop])
    refine ⟨st', .head ?_ h₂, hst'⟩
    simp [State.step, hpc, hop, chansendStart, hcl]
  · exact hlock st rfl hpc hop
  · by_cases hdq : st.c.dataqsiz = 0
    · refine ⟨_, .single ?_,
        (by simp : ((st.finish k (.abort (.panic "send on closed channel"))).calls k).pc = _)⟩
      simp [State.step, hpc, hop, chansendWoken, hdq, ((h.call k).unmatched hn).param, hcl]
    · obtain ⟨st', h₂, hst'⟩ := hlock (st.setPc k .locking) rfl (by simp) (by simp [hop])
      refine ⟨st', .head ?_ h₂, hst'⟩
      simp [State.step, hpc, hop, chansendWoken, hdq]
  · exact ⟨st, .refl, hpc⟩

theorem ChanInv.recv_closed (h : ChanInv st) (hcl : st.c.closed = true) (hq : st.c.qcount = 0)
    {k : ℕ} {e : Bool} {st' : State} (hop : (st.calls k).op = .recv e)
    (hn : (st.calls k).peer = none) (hs : st.step k = some st') {r : Result}
    (hr : (st'.calls k).pc = .done r) :
    r = .recvd true false ∧ (e = true → (st'.calls k).ep = 0) := by
  have hu := (h.call k).unmatched hn
  have hparam := hu.param
  have hclosed : ∀ st₁ : State, st₁ = Chan.recvclosed st k e → (st₁.calls k).pc = .done r →
      r = .recvd true false ∧ (e = true → (st₁.calls k).ep = 0) := by
    rintro _ rfl hr
    rw [recvclosed_eq] at hr ⊢
    simp at hr
    exact ⟨hr.symm, fun he => by simp [he]⟩
  rcases hpc : (st.calls k).pc with _ | _ | _ | _ | _ | j | j | _ | _ | _ | res <;>
    simp only [State.step, hpc, hop, reduceCtorEq, Option.some.injEq] at hs <;> subst hs
  · unfold chanrecvStart at hr; split_ifs at hr <;> simp at hr
  · simp [chanrecvFast, hcl] at hr
  · simp only [chanrecvLocked, hcl, if_true, hq, ite_self] at hr ⊢
    exact hclosed _ rfl hr
  · exact absurd hpc (hu.not_sync j).2
  · unfold chanrecvWoken at hr; split_ifs at hr with hdq hparam <;> simp_all
  · simp only [chanrecvRelock, hcl, Bool.not_true, Bool.false_eq_true, if_false] at hr ⊢
    exact hclosed _ rfl hr

theorem ChanInv.recv_returns (h : ChanInv st) (hcl : st.c.closed = true) (hq : st.c.qcount = 0)
    {k : ℕ} {e : Bool} (hop : (st.calls k).op = .recv e) (hn : (st.calls k).peer = none)
    (hidle : (st.calls k).pc ≠ .idle) (hdone : ∀ r, (st.calls k).pc ≠ .done r) :
    ∃ st', Relation.ReflTransGen (fun a b => a.step k = some b) st st' ∧
      (st'.calls k).pc = .done (.recvd true false) ∧ (e = true → (st'.calls k).ep = 0) := by
  have hu := (h.call k).unmatched hn
  have hlast : ∀ st₁ : State, st₁.c = st.c → (st₁.calls k).op = .recv e →
      (st₁.calls k).pc = .locking ∨ (st₁.calls k).pc = .recvRelock →
      ∃ st', Relation.ReflTransGen (fun a b => a.step k = some b) st₁ st' ∧
        (st'.calls k).pc = .done (.recvd true false) ∧ (e = true → (st'.calls k).ep = 0) := by
    intro st₁ hc hop₁ hpc₁
    refine ⟨Chan.recvclosed st₁ k e, .single ?_, by rw [recvclosed_eq]; simp, fun he => ?_⟩
    · rcases hpc₁ with hpc₁ | hpc₁ <;>
        simp [State.step, hpc₁, hop₁, chanrecvLocked, chanrecvRelock, hc, hcl, hq]
    · rw [recvclosed_eq]; simp [he]
  have hfast : ∀ st₁ : State, st₁.c = st.c → (st₁.calls k).op = .recv e →
      (st₁.calls k).pc = .recvFast →
      ∃ st', Relation.ReflTransGen (fun a b => a.step k = some b) st₁ st' ∧
        (st'.calls k).pc = .done (.recvd true false) ∧ (e = true → (st'.calls k).ep = 0) := by
    intro st₁ hc hop₁ hpc₁
    obtain ⟨st', h', hr⟩ := hlast (st₁.setPc k .locking) hc (by simp [hop₁]) (by simp)
    exact ⟨st', .head (by simp [State.step, hpc₁, hop₁, chanrecvFast, hc, hcl]) h', hr⟩
  rcases hpc : (st.calls k).pc with _ | _ | _ | _ | _ | j | j | _ | _ | _ | r
  · exact absurd hpc hidle
  · have hstep : st.step k = some (chanrecvStart st k (st.calls k).block) := by
      simp [State.step, hpc, hop]
    unfold chanrecvStart at hstep
    split_ifs at hstep
    · obtain ⟨st', h', hr⟩ := hfast (st.setPc k .recvFast) rfl (by simp [hop]) (by simp)
      exact ⟨st', .head hstep h', hr⟩
    · obtain ⟨st', h', hr⟩ := hlast (st.setPc k .locking) rfl (by simp [hop]) (by simp)
      exact ⟨st', .head hstep h', hr⟩
  · obtain ⟨v, hv⟩ := hu.send_fast hpc
    simp [hop] at hv
  · exact hfast st rfl hop hpc
  · exact hlast st rfl hop (.inl hpc)
  · exact absurd hpc (hu.not_sync j).1
  · exact absurd hpc (hu.not_sync j).2
  · have := (h.call k).parked hpc hn
    simp [(h.queues.closed hcl).1, (h.queues.closed hcl).2] at this
  · by_cases hdq : st.c.dataqsiz = 0
    · obtain ⟨st', h', hr⟩ := hlast (st.setPc k .recvRelock) rfl (by simp [hop]) (by simp)
      exact ⟨st', .head (by simp [State.step, hpc, hop, chanrecvWoken, hdq, hu.param]) h', hr⟩
    · obtain ⟨st', h', hr⟩ := hlast (st.setPc k .locking) rfl (by simp [hop]) (by simp)
      exact ⟨st', .head (by simp [State.step, hpc, hop, chanrecvWoken, hdq]) h', hr⟩
  · exact hlast st rfl hop (.inr hpc)
  · exact absurd hpc (hdone r)

theorem ChanInv.handOff (h : ChanInv st) : HandOff st where
  send_true hdq _ _ hop hpc := h.send_true hdq hop hpc
  recv_true hdq _ _ hop hpc := h.recv_true hdq hop hpc
  closed_queues := h.queues.closed
  late_send k v hop hl := ⟨((h.call k).late hl).1, fun r hr => by
    rcases (h.call k).late_send v hop hl with hpc | hpc | hpc | hpc <;> rw [hpc] at hr <;>
      cases hr
    rfl⟩
  late_panics _ _ hop hl := h.late_panics hop hl
  recv_closed hcl hq _ _ _ hop hn hs _ hr := h.recv_closed hcl hq hop hn hs hr
  recv_returns hcl hq _ _ hop hn hidle hdone := h.recv_returns hcl hq hop hn hidle hdone
  no_spurious k := (h.call k).no_throw

end HandOff

/-- **Hand-offs and `closechan`.**  On every state reachable from a channel that `makechan`
returned: every unbuffered send that returned `true` and every unbuffered receive that returned
`(true, true)` are matched one to one, each receive holding its sender's value; once the channel
is closed its wait queues are empty, late sends can only panic and do, an unmatched receive on
an empty buffer returns `(true, false)` with `*ep` cleared, and every further step adds nothing
to the buffer, starts no hand-off and parks no call; no spurious-wakeup `throw` is reached. -/
theorem chan_handoff {elem : ElemType} {size : ℤ} {c : HChan} (hmk : makechan elem size = .ok c)
    {st : State} (hr : Reachable (State.init c) st) :
    HandOff st ∧ (st.c.closed = true → ∀ st', Step st st' → AfterClose st st') := by
  obtain ⟨-, -, -, -, rfl⟩ := makechan_eq_ok hmk
  have h := chanInv_reachable rfl rfl rfl hr
  exact ⟨h.handOff, fun hcl _ hs => afterClose_step h hcl hs⟩

/-- A hand-off whose receiver was dequeued before `closechan` completes after it.  On an
unbuffered channel, receiver `0` parks with `*ep = 5`, sender `1` dequeues it and releases the
lock, and `closechan` runs to its end; then the sender copies `7` into the receiver's `*ep` and
readies it, and the receiver returns `(true, true)` from a closed channel with an empty buffer. -/
theorem handoff_after_close : ∃ c₀, makechan ⟨8, 8⟩ 0 = .ok c₀ ∧
    ∃ st st' st'', Reachable (State.init c₀) st ∧ st.c.closed = true ∧ st.c.qcount = 0 ∧
      (st.calls 0).op = .recv true ∧ (st.calls 0).ep = 5 ∧ st.step 1 = some st' ∧
      (st'.calls 0).ep = 7 ∧ st'.step 0 = some st'' ∧
      (st''.calls 0).pc = .done (.recvd true true) :=
  ⟨_, rfl, _, _, _, Reachable.runActs .init [.call 0 (.recv true) true 5, .run 0, .run 0,
    .call 1 (.send 7) true 0, .run 1, .run 1, .call 2 .close true 0, .run 2, .run 2] rfl,
    rfl, rfl, rfl, rfl, rfl, rfl, rfl, rfl⟩

/-- The hand-off of `handoff_after_close`, run to its end: the receiver returns `(true, true)`
with the sender's `7` in `*ep`, the sender returns `true`, and the channel is closed.  The
state meets the hand-off and close discipline. -/
theorem chan_handoff_matched_then_closed :
    ∃ c₀ st, makechan ⟨8, 8⟩ 0 = .ok c₀ ∧ Reachable (State.init c₀) st ∧
      st.c.closed = true ∧ (st.calls 0).pc = .done (.recvd true true) ∧ (st.calls 0).ep = 7 ∧
      (st.calls 1).pc = .done (.sent true) ∧ (st.calls 1).peer = some 0 ∧
      (HandOff st ∧ (st.c.closed = true → ∀ st', Step st st' → AfterClose st st')) := by
  have hr := @Reachable.runActs (State.init ⟨0, 0, fun _ => 0, 8, false, 0, 0, [], []⟩) _ _
    .init [.call 0 (.recv true) true 5, .run 0, .run 0, .call 1 (.send 7) true 0, .run 1, .run 1,
      .call 2 .close true 0, .run 2, .run 2, .run 1, .run 0] rfl
  exact ⟨_, _, rfl, hr, rfl, rfl, rfl, rfl, rfl, @chan_handoff ⟨8, 8⟩ 0 _ rfl _ hr⟩

end GoRuntime.Chan
