/-
**The buffer of a channel is a bounded FIFO queue.**

A channel made with `size > 0` keeps its elements in a ring of `dataqsiz` slots: `chansend`
writes at `chanbuf(c, c.sendx)` and advances `sendx`, `chanrecv` reads and clears
`chanbuf(c, c.recvx)` and advances `recvx`, both wrapping at `dataqsiz`, and `qcount` counts
the elements between them.  Over every run of the machine of `GoRuntime.Chan.Machine`:

* `qcount ≤ dataqsiz`, `recvx < dataqsiz` and `sendx = (recvx + qcount) % dataqsiz`, so every
  slot the code touches lies inside the buffer;
* the window of `qcount` slots from `recvx` (`GoRuntime.Chan.HChan.window`) is a FIFO queue of
  capacity `dataqsiz` (`GoRuntime.Chan.Fifo`): each step of a call pushes the value of a send
  that returns `true`, pops the value a receive returns with `(true, true)`, or leaves it alone;
* the values sent are the values received followed by the window, so none is lost, reordered
  or duplicated, and every slot outside the window is zero.

Slots are counted from `recvx` by `GoRuntime.Chan.HChan.slot`, which wraps with a comparison as
the code does; `GoRuntime.Chan.HChan.slot_eq_mod` relates it to `%`.

Main definitions:

* `GoRuntime.Chan.HChan.window`, `GoRuntime.Chan.RingOK` — the window and the ring invariant;
* `GoRuntime.Chan.Fifo` — the bounded FIFO queue, the buffer's abstract model;
* `GoRuntime.Chan.RingStep` — what one step does to the ring.

Main results:

* `GoRuntime.Chan.RingOK.put`, `GoRuntime.Chan.RingOK.take` — a write and a read keep the ring
  and push and pop the window;
* `GoRuntime.Chan.ringStep` — every step of a call is one of those or leaves the ring alone;
* `GoRuntime.Chan.ring_fifo` — **the ring refines a bounded FIFO queue**.
-/

import GoRuntime.Chan.Sync

set_option autoImplicit false

namespace GoRuntime.Chan

open State

/-! ### Slots and the window -/

namespace HChan

variable (c : HChan)

/-- The slot `i` places after `recvx`, wrapping at `dataqsiz`. -/
def slot (i : ℕ) : ℕ := if c.recvx + i < c.dataqsiz then c.recvx + i else c.recvx + i - c.dataqsiz

/-- The buffered elements, oldest first: the slots `recvx, …, recvx + qcount - 1`, wrapping. -/
def window : List ℕ := (List.range c.qcount).map fun i => c.buf (c.slot i)

/-- The fields of the ring. -/
def ring : ℕ × ℕ × (ℕ → ℕ) × ℕ × ℕ := (c.qcount, c.dataqsiz, c.buf, c.sendx, c.recvx)

@[simp] theorem window_length : c.window.length = c.qcount := by simp [window]

variable {c}

theorem slot_lt (hr : c.recvx < c.dataqsiz) {i : ℕ} (hi : i < c.dataqsiz) :
    c.slot i < c.dataqsiz := by
  unfold slot; split_ifs <;> omega

theorem slot_inj {i j : ℕ} (hi : i < c.dataqsiz) (hj : j < c.dataqsiz) :
    c.slot i = c.slot j ↔ i = j := by
  unfold slot; split_ifs <;> omega

theorem slot_zero (hr : c.recvx < c.dataqsiz) : c.slot 0 = c.recvx := by
  unfold slot; split_ifs <;> omega

@[simp] theorem slot_put (v : ℕ) : (c.put v).slot = c.slot := rfl

theorem slot_eq_mod (hr : c.recvx < c.dataqsiz) {i : ℕ} (hi : i ≤ c.dataqsiz) :
    c.slot i = (c.recvx + i) % c.dataqsiz := by
  unfold slot
  split_ifs with h
  · exact (Nat.mod_eq_of_lt h).symm
  · rw [Nat.mod_eq_sub_mod (by omega), Nat.mod_eq_of_lt (by omega)]

/-- Stepping past slot `i` reaches slot `i + 1`. -/
theorem wrap_slot (hr : c.recvx < c.dataqsiz) {i : ℕ} (hi : i < c.dataqsiz) :
    c.wrap (c.slot i) = c.slot (i + 1) := by
  unfold wrap slot; split_ifs <;> omega

/-- The element at a slot below `dataqsiz` lies in the `dataqsiz * elemsize` bytes of the
buffer. -/
theorem chanbuf_add_le {i : ℕ} (hi : i < c.dataqsiz) :
    chanbuf c i + c.elemsize ≤ c.dataqsiz * c.elemsize := by
  unfold chanbuf
  calc i * c.elemsize + c.elemsize = (i + 1) * c.elemsize := (Nat.succ_mul i _).symm
    _ ≤ c.dataqsiz * c.elemsize := Nat.mul_le_mul_right _ hi

theorem ring_eq_iff {c' : HChan} : c'.ring = c.ring ↔ c'.qcount = c.qcount ∧
    c'.dataqsiz = c.dataqsiz ∧ c'.buf = c.buf ∧ c'.sendx = c.sendx ∧ c'.recvx = c.recvx := by
  simp [ring]

theorem window_congr {c' : HChan} (h : c'.ring = c.ring) : c'.window = c.window := by
  obtain ⟨h1, h2, h3, -, h5⟩ := ring_eq_iff.mp h
  simp [window, slot, h1, h2, h3, h5]

end HChan

/-! ### The ring invariant -/

/-- The ring of a buffered channel: the counters are in range, `sendx` is `qcount` slots
after `recvx`, and every slot outside the window is zero. -/
structure RingOK (c : HChan) : Prop where
  pos : 0 < c.dataqsiz
  qcount_le : c.qcount ≤ c.dataqsiz
  recvx_lt : c.recvx < c.dataqsiz
  sendx_eq : c.sendx = (c.recvx + c.qcount) % c.dataqsiz
  zero : ∀ i, (∀ j < c.qcount, c.slot j ≠ i) → c.buf i = 0

namespace RingOK

variable {c : HChan} (h : RingOK c)
include h

theorem sendx_eq_slot : c.sendx = c.slot c.qcount := by
  rw [h.sendx_eq, HChan.slot_eq_mod h.recvx_lt h.qcount_le]

theorem sendx_lt : c.sendx < c.dataqsiz := by
  rw [h.sendx_eq]; exact Nat.mod_lt _ h.pos

theorem congr {c' : HChan} (hc : c'.ring = c.ring) : RingOK c' := by
  obtain ⟨h1, h2, h3, h4, h5⟩ := HChan.ring_eq_iff.mp hc
  have hs : c'.slot = c.slot := by funext i; simp [HChan.slot, h2, h5]
  exact ⟨h2 ▸ h.pos, h1 ▸ h2 ▸ h.qcount_le, h2 ▸ h5 ▸ h.recvx_lt,
    by rw [h1, h2, h4, h5]; exact h.sendx_eq,
    fun i hi => by rw [h3]; exact h.zero i (by simpa [hs, h1] using hi)⟩

/-- **A buffered write** keeps the ring and appends its value to the window. -/
theorem put (hlt : c.qcount < c.dataqsiz) (v : ℕ) :
    RingOK (c.put v) ∧ (c.put v).window = c.window ++ [v] := by
  have hsx := h.sendx_eq_slot
  have hne : ∀ j < c.qcount, c.slot j ≠ c.sendx := fun j hj => by
    rw [hsx, Ne, HChan.slot_inj (by omega) hlt]; omega
  refine ⟨⟨h.pos, by simp; omega, h.recvx_lt, ?_, fun i hi => ?_⟩, ?_⟩
  · rw [HChan.put_sendx, hsx, HChan.wrap_slot h.recvx_lt hlt, HChan.slot_eq_mod h.recvx_lt hlt]
    rfl
  · simp only [HChan.put_qcount, HChan.slot_put, HChan.put_buf] at hi ⊢
    have hi' : i ≠ c.sendx := fun he => hi c.qcount (by omega) (hsx ▸ he).symm
    rw [Function.update_noteq hi']
    exact h.zero i fun j hj => hi j (by omega)
  · simp only [HChan.window, HChan.put_qcount, List.range_succ, List.map_append, List.map_cons,
      List.map_nil, HChan.slot_put, HChan.put_buf, ← hsx, Function.update_same]
    congr 1
    · exact List.map_congr_left fun j hj => Function.update_noteq (hne j (List.mem_range.mp hj)) _ _
    · rw [← hsx, Function.update_same]

/-- **A buffered read** keeps the ring and removes the head of the window, the element at
`recvx`. -/
theorem take (hpos : 0 < c.qcount) : RingOK c.take ∧ c.window = c.buf c.recvx :: c.take.window := by
  have hr := h.recvx_lt
  have hq := h.qcount_le
  have hs : ∀ j, j + 1 < c.dataqsiz → c.take.slot j = c.slot (j + 1) := fun j hj => by
    simp only [HChan.slot, HChan.take_recvx, HChan.take_dataqsiz, HChan.wrap]; split_ifs <;> omega
  have hne : ∀ j, j + 1 < c.qcount → c.slot (j + 1) ≠ c.recvx := fun j hj => by
    rw [← HChan.slot_zero hr, Ne, HChan.slot_inj (by omega) (by omega)]; omega
  refine ⟨⟨h.pos, by simp; omega, ?_, ?_, fun i hi => ?_⟩, ?_⟩
  · simp only [HChan.take_recvx, HChan.take_dataqsiz, HChan.wrap]; split_ifs <;> omega
  · rw [HChan.take_sendx, HChan.take_recvx, HChan.take_qcount, HChan.take_dataqsiz,
      h.sendx_eq_slot, ← HChan.slot_zero hr, HChan.wrap_slot hr h.pos,
      HChan.slot_eq_mod hr (by omega), HChan.slot_eq_mod hr (by omega), Nat.mod_add_mod]
    congr 1
    omega
  · by_cases hir : i = c.recvx
    · simp [hir]
    · simp only [HChan.take_buf, Function.update_noteq hir]
      refine h.zero i fun j hj hji => ?_
      rcases j with _ | j
      · exact hir (HChan.slot_zero hr ▸ hji).symm
      · exact hi j (by simp; omega) (by rw [hs j (by omega)]; exact hji)
  · obtain ⟨q, hq'⟩ : ∃ q, c.qcount = q + 1 := ⟨c.qcount - 1, by omega⟩
    simp only [HChan.window, hq', List.range_succ_eq_map, List.map_cons, List.map_map,
      HChan.slot_zero hr, HChan.take_qcount, Nat.add_sub_cancel, HChan.take_buf]
    congr 1
    refine List.map_congr_left fun j hj => ?_
    have hj' := List.mem_range.mp hj
    rw [Function.comp_apply, hs j (by omega), Function.update_noteq (hne j (by omega))]

end RingOK

/-! ### The bounded FIFO queue -/

/-- A FIFO queue of at most `cap` items, oldest first: what the buffer of a channel is for. -/
structure Fifo where
  cap : ℕ
  items : List ℕ
  le_cap : items.length ≤ cap

namespace Fifo

/-- Append `v` if there is room. -/
def push (q : Fifo) (v : ℕ) : Option Fifo :=
  if h : q.items.length < q.cap then some ⟨q.cap, q.items ++ [v], by simp; omega⟩ else none

/-- Remove and return the oldest item, if there is one. -/
def pop : Fifo → Option (ℕ × Fifo)
  | ⟨cap, x :: xs, h⟩ => some (x, ⟨cap, xs, by simp at h; omega⟩)
  | ⟨_, [], _⟩ => none

theorem push_eq_some {q q' : Fifo} {v : ℕ} (hcap : q'.cap = q.cap)
    (hlt : q.items.length < q.cap) (hitems : q'.items = q.items ++ [v]) : q.push v = some q' := by
  obtain ⟨cap, items, _⟩ := q'
  simp only at hcap hitems
  subst hcap hitems
  simp [push, hlt]

theorem pop_eq_some {q q' : Fifo} {x : ℕ} (hcap : q'.cap = q.cap)
    (hitems : q.items = x :: q'.items) : q.pop = some (x, q') := by
  obtain ⟨cap, items, _⟩ := q
  obtain ⟨cap', items', _⟩ := q'
  simp only at hcap hitems
  subst hcap hitems
  rfl

end Fifo

/-- The queue a ring stands for: its window, with room for `dataqsiz` items. -/
def RingOK.fifo {c : HChan} (h : RingOK c) : Fifo := ⟨c.dataqsiz, c.window, by simpa using h.qcount_le⟩

/-! ### What a step does to the ring -/

/-- What one step of call `k` does to the ring: nothing, or the write of a send that returns
`true`, or the read of a receive that returns `(true, true)` with the element in `*ep`. -/
inductive RingStep (st st' : State) (k : ℕ) : Prop where
  | keep (hring : st'.c.ring = st.c.ring) (hsent : st'.sent = st.sent)
      (hrecvd : st'.recvd = st.recvd) (hs : (st'.calls k).pc ≠ .done (.sent true))
      (hr : (st'.calls k).pc ≠ .done (.recvd true true))
  | put (v : ℕ) (hop : (st.calls k).op = .send v) (hlt : st.c.qcount < st.c.dataqsiz)
      (hring : st'.c.ring = (st.c.put v).ring) (hsent : st'.sent = st.sent ++ [v])
      (hrecvd : st'.recvd = st.recvd) (hpc : (st'.calls k).pc = .done (.sent true))
      (hcl : st'.c.closed = false)
  | take (e : Bool) (hop : (st.calls k).op = .recv e) (hpos : 0 < st.c.qcount)
      (hring : st'.c.ring = st.c.take.ring) (hsent : st'.sent = st.sent)
      (hrecvd : st'.recvd = st.recvd ++ [st.c.buf st.c.recvx])
      (hpc : (st'.calls k).pc = .done (.recvd true true))
      (hep : e = true → (st'.calls k).ep = st.c.buf st.c.recvx)

section RingStep

variable {st : State} {k : ℕ}

/-- A call that only moves to another piece, not a successful return, leaves the ring alone. -/
theorem ringStep_setCall (f : Call → Call) (hs : (f (st.calls k)).pc ≠ .done (.sent true))
    (hr : (f (st.calls k)).pc ≠ .done (.recvd true true)) : RingStep st (st.setCall k f) k :=
  .keep rfl rfl rfl (by simpa using hs) (by simpa using hr)

theorem ringStep_setPc {p : Pc} (hs : p ≠ .done (.sent true)) (hr : p ≠ .done (.recvd true true)) :
    RingStep st (st.setPc k p) k :=
  ringStep_setCall _ hs hr

theorem ringStep_recvclosed (ep : Bool) : RingStep st (recvclosed st k ep) k := by
  rw [recvclosed_eq]; exact ringStep_setCall _ (by simp) (by simp)

/-- **Every step of a call on a buffered channel is a write, a read, or leaves the ring
alone.** -/
theorem ringStep {st' : State} (h : ChanInv st) (hdq : st.c.dataqsiz ≠ 0)
    (hs : st.step k = some st') : RingStep st st' k := by
  rcases hpc : (st.calls k).pc with _ | _ | _ | _ | _ | r | s | _ | _ | _ | res <;>
    rcases hop : (st.calls k).op with v | e | _ <;>
    simp only [State.step, hpc, hop, reduceCtorEq, Option.some.injEq] at hs <;> subst hs
  · unfold chansendStart; split_ifs <;> exact ringStep_setPc (by simp) (by simp)
  · unfold chanrecvStart; split_ifs <;> exact ringStep_setPc (by simp) (by simp)
  · exact ringStep_setPc (by simp) (by simp)
  · unfold chansendFast; split_ifs <;> exact ringStep_setPc (by simp) (by simp)
  · unfold chanrecvFast; split_ifs <;> exact ringStep_setPc (by simp) (by simp)
  · unfold chansendLocked
    simp only [hdq, if_false]
    split_ifs with hcl hfull hb
    · exact ringStep_setPc (by simp) (by simp)
    · exact ringStep_setPc (by simp) (by simp)
    · exact .keep rfl rfl rfl (by simp) (by simp)
    · have hlt : st.c.qcount < st.c.dataqsiz := by omega
      split
      · exact .put v hop hlt rfl rfl rfl (by simp) (by simpa using hcl)
      · exact .put v hop hlt rfl rfl rfl (by simp) (by simpa using hcl)
  · unfold chanrecvLocked
    simp only [hdq, if_false]
    by_cases hq : st.c.qcount = 0
    · simp only [hq, if_true]
      split_ifs
      · exact ringStep_recvclosed e
      · exact ringStep_setPc (by simp) (by simp)
      · exact .keep (by simp [HChan.ring, hq]) rfl rfl (by simp) (by simp)
    simp only [hq, if_false]
    have hc₀ : (if e = true then st.setCall k fun cl => { cl with ep := st.c.buf st.c.recvx }
        else st).c = st.c := by split <;> rfl
    have hs₀ : (if e = true then st.setCall k fun cl => { cl with ep := st.c.buf st.c.recvx }
        else st).sent = st.sent := by split <;> rfl
    have hep : e = true → ((if e = true then st.setCall k fun cl =>
        { cl with ep := st.c.buf st.c.recvx } else st).calls k).ep = st.c.buf st.c.recvx := by
      intro he; simp [he]
    split
    · rename_i s rest hsq
      have hsk : s ≠ k := by
        rintro rfl
        exact (h.queues.not_mem (k := s) (by simp [hpc])).2
          (by rw [← HChan.take_sendq, hsq]; simp)
      refine .take e hop (by omega) (by simp [hc₀, HChan.ring]) (by simp [hs₀]) rfl (by simp)
        fun he => ?_
      simpa [hsk.symm] using hep he
    · exact .take e hop (by omega) (by simp [hc₀, HChan.ring]) (by simp [hs₀]) rfl (by simp)
        fun he => by simpa using hep he
  · unfold closechanLocked
    split_ifs
    · exact ringStep_setPc (by simp) (by simp)
    · exact .keep (by simp [HChan.ring]) (by simp) (by simp) (by simp) (by simp)
  · exact absurd (h.matched_of_syncSend hpc).1 hdq
  · exact absurd (h.matched_of_syncRecv hpc).1 hdq
  · simp only [chansendWoken, hdq, if_false]; exact ringStep_setPc (by simp) (by simp)
  · simp only [chanrecvWoken, hdq, if_false]; exact ringStep_setPc (by simp) (by simp)
  · unfold chanrecvRelock; split_ifs
    · exact ringStep_setPc (by simp) (by simp)
    · exact ringStep_recvclosed e

end RingStep

/-! ### Every run keeps the ring -/

/-- The ring invariant with the ghost lists: the values sent are the values received followed
by the window. -/
structure RingInv (st : State) : Prop where
  ring : RingOK st.c
  fifo : st.sent = st.recvd ++ st.c.window

theorem RingOK.fifo_congr {c c' : HChan} (h : RingOK c) (h' : RingOK c') (hc : c'.ring = c.ring) :
    h'.fifo = h.fifo := by
  simp [RingOK.fifo, HChan.window_congr hc, (HChan.ring_eq_iff.mp hc).2.1]

theorem RingInv.step {st st' : State} (hinv : ChanInv st) (h : RingInv st) (hs : Step st st') :
    RingInv st' := by
  cases hs with
  | begin k op block e hidle => exact ⟨h.ring, h.fifo⟩
  | run _ k hstep =>
    rcases ringStep hinv (Nat.pos_iff_ne_zero.mp h.ring.pos) hstep with
      ⟨hring, hsent, hrecvd, -, -⟩ | ⟨v, -, hlt, hring, hsent, hrecvd, -, -⟩ |
      ⟨e, -, hpos, hring, hsent, hrecvd, -, -⟩
    · exact ⟨h.ring.congr hring, by rw [hsent, hrecvd, HChan.window_congr hring]; exact h.fifo⟩
    · obtain ⟨hr, hw⟩ := h.ring.put hlt v
      exact ⟨hr.congr hring, by
        rw [hsent, hrecvd, HChan.window_congr hring, hw, h.fifo, List.append_assoc]⟩
    · obtain ⟨hr, hw⟩ := h.ring.take hpos
      exact ⟨hr.congr hring, by
        rw [hsent, hrecvd, HChan.window_congr hring, h.fifo, hw, List.append_assoc]; rfl⟩

/-- A channel `makechan` returns for `size > 0` starts with an empty ring. -/
theorem ringInv_init {elem : ElemType} {size : ℤ} {c : HChan} (hmk : makechan elem size = .ok c)
    (hpos : 0 < size) : RingInv (State.init c) := by
  obtain ⟨-, -, -, -, rfl⟩ := makechan_eq_ok hmk
  exact ⟨⟨by simp [State.init]; omega, by simp [State.init], by simp [State.init]; omega,
    by simp [State.init], fun _ _ => rfl⟩, by simp [State.init, HChan.window]⟩

/-- Every state reachable from a channel `makechan` returned for `size > 0` keeps the ring
invariant. -/
theorem RingInv.reachable {elem : ElemType} {size : ℤ} {c : HChan}
    (hmk : makechan elem size = .ok c) (hpos : 0 < size) {st : State}
    (hr : Reachable (State.init c) st) : RingInv st := by
  obtain ⟨-, -, -, -, hc⟩ := makechan_eq_ok hmk
  induction hr with
  | init => exact ringInv_init hmk hpos
  | step hr' hs ih =>
    exact ih.step (chanInv_reachable (by simp [hc]) (by simp [hc]) (by simp [hc]) hr') hs

/-- **The ring refines a bounded FIFO queue.**  On every state reachable from a channel that
`makechan` returned for `size > 0`: the ring invariant holds, so `chanbuf(c, sendx)` and
`chanbuf(c, recvx)` lie inside the buffer; the values sent are the values received followed by
the window; and every step of a call is a step of the queue of capacity `dataqsiz` the window
stands for: a send that returns `true` pushes its value, a receive that returns `(true, true)`
pops the head into `*ep`, and any other step leaves the queue as it is. -/
theorem ring_fifo {elem : ElemType} {size : ℤ} {c₀ : HChan} (hmk : makechan elem size = .ok c₀)
    (hpos : 0 < size) {st : State} (hr : Reachable (State.init c₀) st) :
    ∃ h : RingOK st.c,
      chanbuf st.c st.c.sendx + st.c.elemsize ≤ st.c.dataqsiz * st.c.elemsize ∧
      chanbuf st.c st.c.recvx + st.c.elemsize ≤ st.c.dataqsiz * st.c.elemsize ∧
      st.sent = st.recvd ++ st.c.window ∧
      ∀ k st', st.step k = some st' → ∃ h' : RingOK st'.c,
        (∀ v, (st.calls k).op = .send v → (st'.calls k).pc = .done (.sent true) →
          h.fifo.push v = some h'.fifo) ∧
        (∀ e, (st.calls k).op = .recv e → (st'.calls k).pc = .done (.recvd true true) →
          h.fifo.pop = some (st.c.buf st.c.recvx, h'.fifo) ∧
            (e = true → (st'.calls k).ep = st.c.buf st.c.recvx)) ∧
        ((st'.calls k).pc ≠ .done (.sent true) → (st'.calls k).pc ≠ .done (.recvd true true) →
          h'.fifo = h.fifo) := by
  obtain ⟨-, -, -, -, hc⟩ := makechan_eq_ok hmk
  have hinv : ChanInv st := chanInv_reachable (by simp [hc]) (by simp [hc]) (by simp [hc]) hr
  obtain ⟨h, hfifo⟩ := RingInv.reachable hmk hpos hr
  refine ⟨h, HChan.chanbuf_add_le h.sendx_lt, HChan.chanbuf_add_le h.recvx_lt, hfifo,
    fun k st' hs => ?_⟩
  rcases ringStep hinv (Nat.pos_iff_ne_zero.mp h.pos) hs with
    ⟨hc', -, -, hs', hr'⟩ | ⟨v, hop, hlt, hc', -, -, hpc, -⟩ | ⟨e, hop, hq, hc', -, -, hpc, hep⟩
  · exact ⟨h.congr hc', fun _ _ hpc => absurd hpc hs', fun _ _ hpc => absurd hpc hr',
      fun _ _ => h.fifo_congr _ hc'⟩
  · obtain ⟨hp, hw⟩ := h.put hlt v
    refine ⟨hp.congr hc', fun v' hop' _ => ?_, fun _ _ hpc' => by simp [hpc] at hpc',
      fun hpc' => absurd hpc hpc'⟩
    obtain rfl : v' = v := by simpa [hop] using hop'.symm
    exact Fifo.push_eq_some (by simp [RingOK.fifo, (HChan.ring_eq_iff.mp hc').2.1])
      (by simpa [RingOK.fifo] using hlt) (by simp [RingOK.fifo, HChan.window_congr hc', hw])
  · obtain ⟨ht, hw⟩ := h.take hq
    refine ⟨ht.congr hc', fun _ _ hpc' => by simp [hpc] at hpc', fun e' hop' _ => ?_,
      fun _ hpc' => absurd hpc hpc'⟩
    obtain rfl : e' = e := by simpa [hop] using hop'.symm
    exact ⟨Fifo.pop_eq_some (by simp [RingOK.fifo, (HChan.ring_eq_iff.mp hc').2.1])
      (by simp [RingOK.fifo, HChan.window_congr hc', hw]), hep⟩

/-- On a channel of two slots, `1` and `2` are sent, `1` is received, and `3` is sent into the
slot `1` left, so `sendx` has wrapped: the window is `[2, 3]` and the next receive pops `2`. -/
theorem ring_fifo_wrapped :
    ∃ c₀ st st', makechan ⟨8, 8⟩ 2 = .ok c₀ ∧ Reachable (State.init c₀) st ∧
      st.c.sendx = 1 ∧ st.c.recvx = 1 ∧ st.step 4 = some st' ∧
      (st'.calls 4).pc = .done (.recvd true true) ∧ (st'.calls 4).ep = 2 ∧
      ∃ (h : RingOK st.c) (h' : RingOK st'.c), h.fifo.items = [2, 3] ∧
        h.fifo.pop = some (2, h'.fifo) ∧ st.sent = st.recvd ++ st.c.window := by
  have hr := @Reachable.runActs (State.init ⟨0, 2, fun _ => 0, 8, false, 0, 0, [], []⟩) _ _
    .init [.call 0 (.send 1) true 0, .run 0, .run 0, .call 1 (.send 2) true 0, .run 1, .run 1,
      .call 2 (.recv true) true 0, .run 2, .run 2, .call 3 (.send 3) true 0, .run 3, .run 3,
      .call 4 (.recv true) true 0, .run 4] rfl
  obtain ⟨h, -, -, hsent, hstep⟩ := @ring_fifo ⟨8, 8⟩ 2 _ rfl (by decide) _ hr
  obtain ⟨h', -, hpop, -⟩ := hstep 4 _ rfl
  exact ⟨_, _, _, rfl, hr, rfl, rfl, rfl, rfl, rfl, h, h', rfl, (hpop true rfl rfl).1, hsent⟩

end GoRuntime.Chan
