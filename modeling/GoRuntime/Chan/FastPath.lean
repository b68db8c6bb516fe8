/-
**The fast paths of non-blocking `chansend` and `chanrecv`.**

A non-blocking send first reads `c.closed` and then, without the lock, `c.recvq.first` (on an
unbuffered channel) or `c.qcount`; if the channel was open and not ready it returns `false`.
The comment in `chansend` argues that the two reads "imply a moment between the two when the
channel was both not yet closed and not ready for sending", because a closed channel cannot
become not ready.  A non-blocking receive reads readiness first and `c.closed` second.

Over every run of the machine of `GoRuntime.Chan.Machine`, with each read its own step:

* a receive that fails on its fast path saw, at its first read, an open channel with no
  waiting sender or an empty buffer (`GoRuntime.Chan.recvFastOK`);
* on a buffered channel, a send that fails on its fast path saw an open full buffer at some
  moment between its reads (`GoRuntime.Chan.sendFastOK_buffered`): a full buffer can only
  shrink once the channel is closed;
* on an unbuffered channel this fails: `closechan` empties `recvq` in the same step that sets
  `closed`, so a send can see the channel open while a receiver waits, and then see no
  receiver after the close, with no moment at which the locked path would have returned
  `false` (`GoRuntime.Chan.not_sendFastOK_unbuffered`).

Main definitions:

* `GoRuntime.Chan.Path` — a run through a list of states;
* `GoRuntime.Chan.SendFastOK`, `GoRuntime.Chan.RecvFastOK` — the two fast paths agree with
  the locked paths on every run from a state.
-/

import GoRuntime.Chan.Ring

set_option autoImplicit false

namespace GoRuntime.Chan

open State

/-! ### Runs through states -/

/-- `Path st sts st'`: a run from `st` through the states `sts`, the last of which is `st'`. -/
inductive Path : State → List State → State → Prop where
  | nil (st : State) : Path st [] st
  | cons {st st₁ st' : State} {sts : List State} : Step st st₁ → Path st₁ sts st' →
      Path st (st₁ :: sts) st'

theorem Path.reachable {st₀ st st' : State} {sts : List State} (hr : Reachable st₀ st)
    (hp : Path st sts st') : Reachable st₀ st' := by
  induction hp with
  | nil => exact hr
  | cons hs _ ih => exact ih (hr.step hs)

/-! ### What the fast paths promise -/

/-- The locked section of a non-blocking send of `v` by call `k` would return `false`. -/
def LockedSendFails (st : State) (k v : ℕ) : Prop :=
  ((chansendLocked st k v false).calls k).pc = .done (.sent false)

instance (st : State) (k v : ℕ) : Decidable (LockedSendFails st k v) :=
  inferInstanceAs (Decidable (_ = _))

/-- The fast path of non-blocking sends is linearizable on every run from `st₀`: when call `k`
reads `c.closed` in `st`, moves to its second read, and after the run `sts` that read returns
`false`, then at some state between the two reads the channel was open and the locked path
would have returned `false`. -/
def SendFastOK (st₀ : State) : Prop :=
  ∀ st k v st₁ sts stₙ st', Reachable st₀ st → (st.calls k).op = .send v →
    (st.calls k).block = false → (st.calls k).pc = .start → st.step k = some st₁ →
    (st₁.calls k).pc = .sendFast → Path st₁ sts stₙ → (stₙ.calls k).pc = .sendFast →
    stₙ.step k = some st' → (st'.calls k).pc = .done (.sent false) →
    ∃ s ∈ st₁ :: sts, s.c.closed = false ∧ LockedSendFails s k v

/-- The fast path of non-blocking receives is linearizable on every run from `st₀`: when call
`k` reads readiness in `st`, moves to its second read, and after the run `sts` that read returns
`(false, false)`, then at some state between the two reads the channel was open with no waiting
sender, or with an empty buffer. -/
def RecvFastOK (st₀ : State) : Prop :=
  ∀ st k e st₁ sts stₙ st', Reachable st₀ st → (st.calls k).op = .recv e →
    (st.calls k).block = false → (st.calls k).pc = .start → st.step k = some st₁ →
    (st₁.calls k).pc = .recvFast → Path st₁ sts stₙ → (stₙ.calls k).pc = .recvFast →
    stₙ.step k = some st' → (st'.calls k).pc = .done (.recvd false false) →
    ∃ s ∈ st₁ :: sts, s.c.closed = false ∧
      (s.c.dataqsiz = 0 ∧ s.c.sendq = [] ∨ 0 < s.c.dataqsiz ∧ s.c.qcount = 0)

/-! ### The two reads -/

section Reads

variable {st st' : State} {k : ℕ}

/-- The first read of a non-blocking send moves on to the second only if `c.closed` was unset,
and changes nothing but the call's piece. -/
theorem step_sendStart {v : ℕ} (hop : (st.calls k).op = .send v) (hpc : (st.calls k).pc = .start)
    (hs : st.step k = some st') (hpc' : (st'.calls k).pc = .sendFast) :
    st'.c = st.c ∧ st.c.closed = false := by
  simp only [State.step, hpc, hop, Option.some.injEq] at hs
  subst hs
  unfold chansendStart at hpc' ⊢
  split_ifs at hpc' ⊢ with h
  · simp only [Bool.and_eq_true, Bool.not_eq_true'] at h
    exact ⟨rfl, h.2⟩
  · simp at hpc'

/-- The second read of a send's fast path returns `false` only if an unbuffered channel had no
waiting receiver or a buffered one was full. -/
theorem step_sendFast (hpc : (st.calls k).pc = .sendFast) (hs : st.step k = some st')
    (hpc' : (st'.calls k).pc = .done (.sent false)) :
    st.c.dataqsiz = 0 ∧ st.c.recvq = [] ∨ 0 < st.c.dataqsiz ∧ st.c.qcount = st.c.dataqsiz := by
  rcases hop : (st.calls k).op with v | e | _ <;>
    simp only [State.step, hpc, hop, reduceCtorEq, Option.some.injEq] at hs
  subst hs
  unfold chansendFast at hpc'
  split_ifs at hpc' with h
  · exact h
  · simp at hpc'

/-- The first read of a non-blocking receive moves on to the second only if the channel had no
waiting sender or an empty buffer, and changes nothing but the call's piece. -/
theorem step_recvStart {e : Bool} (hop : (st.calls k).op = .recv e)
    (hpc : (st.calls k).pc = .start) (hs : st.step k = some st')
    (hpc' : (st'.calls k).pc = .recvFast) :
    st'.c = st.c ∧ (st.c.dataqsiz = 0 ∧ st.c.sendq = [] ∨ 0 < st.c.dataqsiz ∧ st.c.qcount = 0) := by
  simp only [State.step, hpc, hop, Option.some.injEq] at hs
  subst hs
  unfold chanrecvStart at hpc' ⊢
  split_ifs at hpc' ⊢ with h
  · exact ⟨rfl, h.2⟩
  · simp at hpc'

/-- The second read of a receive's fast path returns `(false, false)` only on an open channel. -/
theorem step_recvFast (hpc : (st.calls k).pc = .recvFast) (hs : st.step k = some st')
    (hpc' : (st'.calls k).pc = .done (.recvd false false)) : st.c.closed = false := by
  rcases hop : (st.calls k).op with v | e | _ <;>
    simp only [State.step, hpc, hop, reduceCtorEq, Option.some.injEq] at hs
  subst hs
  unfold chanrecvFast at hpc'
  split_ifs at hpc' with h
  · simpa using h
  · simp at hpc'

/-- On an open channel with a full buffer, the locked path of a non-blocking send returns
`false`. -/
theorem lockedSendFails_of_full {v : ℕ} (hcl : st.c.closed = false) (hdq : st.c.dataqsiz ≠ 0)
    (hfull : st.c.dataqsiz ≤ st.c.qcount) : LockedSendFails st k v := by
  unfold LockedSendFails chansendLocked
  simp [hcl, hdq, hfull]

end Reads

/-- On a buffered channel a step keeps `dataqsiz`, and a step that leaves the channel closed
does not grow the buffer: only a send that returns `true` writes, and it finds the channel
open. -/
theorem step_buffered {st st' : State} (h : ChanInv st) (hdq : st.c.dataqsiz ≠ 0)
    (hs : Step st st') :
    st'.c.dataqsiz = st.c.dataqsiz ∧ (st'.c.closed = true → st'.c.qcount ≤ st.c.qcount) := by
  cases hs with
  | begin => exact ⟨rfl, fun _ => le_rfl⟩
  | run _ k hstep =>
    rcases ringStep h hdq hstep with ⟨hring, -⟩ | ⟨v, -, -, hring, -, -, -, hcl⟩ |
      ⟨e, -, -, hring, -⟩
    · obtain ⟨hq, hd, -⟩ := HChan.ring_eq_iff.mp hring
      exact ⟨hd, fun _ => hq.le⟩
    · exact ⟨(HChan.ring_eq_iff.mp hring).2.1, fun h' => by simp [hcl] at h'⟩
    · obtain ⟨hq, hd, -⟩ := HChan.ring_eq_iff.mp hring
      exact ⟨hd, fun _ => by simp [hq]⟩

/-! ### Runs from a channel `makechan` returned -/

section Runs

variable {c₀ : HChan} (hr₀ : c₀.recvq = []) (hs₀ : c₀.sendq = []) (hc₀ : c₀.closed = false)
include hr₀ hs₀ hc₀

/-- Along a run from a reachable state, a closed channel stays closed and its buffer does not
grow. -/
theorem Path.closed {st st' : State} {sts : List State} (hr : Reachable (State.init c₀) st)
    (hp : Path st sts st') (hcl : st.c.closed = true) :
    st'.c.closed = true ∧ st'.c.qcount ≤ st.c.qcount := by
  induction hp with
  | nil => exact ⟨hcl, le_rfl⟩
  | cons hs _ ih =>
    have ha := afterClose_step (chanInv_reachable hr₀ hs₀ hc₀ hr) hcl hs
    obtain ⟨h1, h2⟩ := ih (hr.step hs) (ha.closed.trans hcl)
    exact ⟨h1, h2.trans ha.qcount⟩

theorem Path.dataqsiz {st st' : State} {sts : List State} (hr : Reachable (State.init c₀) st)
    (hp : Path st sts st') (hdq : st.c.dataqsiz ≠ 0) : st'.c.dataqsiz = st.c.dataqsiz := by
  induction hp with
  | nil => rfl
  | cons hs _ ih =>
    have h := (step_buffered (chanInv_reachable hr₀ hs₀ hc₀ hr) hdq hs).1
    rw [ih (hr.step hs) (h ▸ hdq), h]

/-- If a buffered channel open at the start of a run is full at its end, it was open and full
at some state of the run: once closed it cannot fill up. -/
theorem Path.full {st st' : State} {sts : List State} (hr : Reachable (State.init c₀) st)
    (hp : Path st sts st') (hdq : st.c.dataqsiz ≠ 0) (hcl : st.c.closed = false)
    (hfull : st'.c.dataqsiz ≤ st'.c.qcount) :
    ∃ s ∈ st :: sts, s.c.closed = false ∧ s.c.dataqsiz ≠ 0 ∧ s.c.dataqsiz ≤ s.c.qcount := by
  induction hp with
  | nil => exact ⟨_, List.mem_cons_self _ _, hcl, hdq, hfull⟩
  | cons hs hp ih =>
    obtain ⟨hdq₁, hq₁⟩ := step_buffered (chanInv_reachable hr₀ hs₀ hc₀ hr) hdq hs
    cases hcl₁ : (State.c _).closed
    · obtain ⟨s, hmem, h⟩ := ih (hr.step hs) (hdq₁ ▸ hdq) hcl₁ hfull
      exact ⟨s, List.mem_cons_of_mem _ hmem, h⟩
    · have hdqₙ := Path.dataqsiz hr₀ hs₀ hc₀ (hr.step hs) hp (hdq₁ ▸ hdq)
      have hqₙ := (Path.closed hr₀ hs₀ hc₀ (hr.step hs) hp hcl₁).2
      exact ⟨_, List.mem_cons_self _ _, hcl, hdq, by have := hq₁ hcl₁; omega⟩

end Runs

/-! ### Receives -/

/-- **The receive fast path agrees with the locked path** on every channel `makechan`
returns: its first read already saw an open channel that was not ready, since a channel that
was closed then would still be closed at the second read. -/
theorem recvFastOK {elem : ElemType} {size : ℤ} {c₀ : HChan} (hmk : makechan elem size = .ok c₀) :
    RecvFastOK (State.init c₀) := by
  obtain ⟨-, -, -, -, rfl⟩ := makechan_eq_ok hmk
  intro st k e st₁ sts stₙ st' hr hop _ hpc hs hpc₁ hp hpcₙ hsₙ hpc'
  obtain ⟨hc, hready⟩ := step_recvStart hop hpc hs hpc₁
  refine ⟨st₁, List.mem_cons_self _ _, ?_, hc ▸ hready⟩
  cases hcl : st₁.c.closed
  · rfl
  · have hclₙ := (Path.closed rfl rfl rfl (hr.step (.run _ _ k hs)) hp hcl).1
    simp [step_recvFast hpcₙ hsₙ hpc'] at hclₙ

theorem recvFastOK_unbuffered :
    makechan ⟨8, 8⟩ 0 = .ok ⟨0, 0, fun _ => 0, 8, false, 0, 0, [], []⟩ ∧
      RecvFastOK (State.init ⟨0, 0, fun _ => 0, 8, false, 0, 0, [], []⟩) :=
  ⟨rfl, @recvFastOK ⟨8, 8⟩ 0 _ rfl⟩

/-! ### Sends -/

/-- **On a buffered channel the send fast path agrees with the locked path**: a send that
fails on it saw the channel open and full at some state between its reads.  It rests on what
every run from a channel `makechan` returns does: once the channel is closed it stays closed,
and its buffer never grows. -/
theorem sendFastOK_buffered {elem : ElemType} {size : ℤ} {c₀ : HChan}
    (hmk : makechan elem size = .ok c₀) (hpos : 0 < size) :
    SendFastOK (State.init c₀) ∧
      ∀ st sts st', Reachable (State.init c₀) st → Path st sts st' → st.c.closed = true →
        st'.c.closed = true ∧ st'.c.qcount ≤ st.c.qcount := by
  have hring := fun st (hr : Reachable (State.init c₀) st) => (RingInv.reachable hmk hpos hr).ring
  obtain ⟨-, -, -, -, rfl⟩ := makechan_eq_ok hmk
  refine ⟨fun st k v st₁ sts stₙ st' hr hop _ hpc hs hpc₁ hp hpcₙ hsₙ hpc' => ?_,
    fun st sts st' hr hp hcl => Path.closed rfl rfl rfl hr hp hcl⟩
  obtain ⟨hc, hopen⟩ := step_sendStart hop hpc hs hpc₁
  have hr₁ := hr.step (.run _ _ k hs)
  have hposₙ := (hring _ (hp.reachable hr₁)).pos
  have hfull : stₙ.c.dataqsiz ≤ stₙ.c.qcount := by
    rcases step_sendFast hpcₙ hsₙ hpc' with h | h <;> omega
  obtain ⟨s, hmem, hcl, hdq, hq⟩ :=
    Path.full rfl rfl rfl hr₁ hp (hring _ hr₁).pos.ne' (hc ▸ hopen) hfull
  exact ⟨s, hmem, hcl, lockedSendFails_of_full hcl hdq hq⟩

theorem sendFastOK_two_slots :
    makechan ⟨8, 8⟩ 2 = .ok ⟨0, 2, fun _ => 0, 8, false, 0, 0, [], []⟩ ∧ (0 : ℤ) < 2 ∧
      SendFastOK (State.init ⟨0, 2, fun _ => 0, 8, false, 0, 0, [], []⟩) ∧
      ∀ st sts st', Reachable (State.init ⟨0, 2, fun _ => 0, 8, false, 0, 0, [], []⟩) st →
        Path st sts st' → st.c.closed = true → st'.c.closed = true ∧ st'.c.qcount ≤ st.c.qcount :=
  ⟨rfl, by decide, @sendFastOK_buffered ⟨8, 8⟩ 2 _ rfl (by decide)⟩

/-- **On an unbuffered channel the send fast path is not linearizable.**  Receiver `0` parks;
sender `1` starts a non-blocking send of `7` and reads `c.closed == 0` while `0` waits; call `2`
runs `closechan`, which sets `closed`, readies `0` and empties `recvq`; the sender then reads
`recvq.first == nil` and returns `false`.  At every state between its two reads the channel was
either closed, or open with `0` waiting, where the locked path would have handed `7` to `0`. -/
theorem not_sendFastOK_unbuffered :
    ∃ c₀, makechan ⟨8, 8⟩ 0 = .ok c₀ ∧ ¬SendFastOK (State.init c₀) := by
  refine ⟨_, rfl, fun h => ?_⟩
  obtain ⟨s, hmem, hcl, hfail⟩ := h _ 1 7 _ _ _ _
    (Reachable.runActs .init
      [.call 0 (.recv true) true 5, .run 0, .run 0, .call 1 (.send 7) false 0] rfl)
    rfl rfl rfl rfl rfl
    (.cons (.of_act (a := .call 2 .close true 0) rfl)
      (.cons (.of_act (a := .run 2) rfl) (.cons (.of_act (a := .run 2) rfl) (.nil _))))
    rfl rfl rfl
  simp only [List.mem_cons, List.mem_singleton, List.not_mem_nil, or_false] at hmem
  rcases hmem with rfl | rfl | rfl | rfl <;> revert hcl hfail <;> decide

end GoRuntime.Chan
