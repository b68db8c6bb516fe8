/-
**Channels as a machine of concurrent calls.**

`chan.go` implements a channel as an `hchan` record guarded by `c.lock`: a ring buffer of
`dataqsiz` slots (`buf`, `sendx`, `recvx`, `qcount`), the flag `closed`, and two wait queues of
parked goroutines, `recvq` and `sendq`.  `chansend`, `chanrecv` and `closechan` run
concurrently, and what one call does at once is one of:

* one unlocked read of the fast path (`c.closed`, then `c.recvq.first` or `c.qcount` for a
  send; the same reads the other way round for a receive);
* a whole critical section between `lock(&c.lock)` and `unlock(&c.lock)`, which ends by
  returning, by parking on a wait queue (`goparkunlock`), or, on an unbuffered channel, by
  dequeuing a partner;
* the hand-off after the lock is released: `syncsend` into a parked receiver's `*ep`, or a
  receiver's copy of a parked sender's value, then `goready` of the partner;
* what a readied call does before its next lock or return.

A call is a `GoRuntime.Chan.Call`: its operation, `block`, a program counter
(`GoRuntime.Chan.Pc`) naming the piece that comes next, its `gp.param`, and the word its `ep`
points to.  Two ghost fields hold what the proofs talk about: `peer`, the call it exchanged a
value with on an unbuffered channel, and `late`, set when the call started after `closechan`
or was released by it.  The ghost lists `sent` and `recvd` of the state record the values that
entered and left the buffer.  Elements are natural numbers; `0` is a cleared element.

Main definitions:

* `GoRuntime.Chan.makechan` — the checks of `makechan` and the channel it returns;
* `GoRuntime.Chan.chansendLocked`, `GoRuntime.Chan.chanrecvLocked`,
  `GoRuntime.Chan.closechanLocked` — the critical sections;
* `GoRuntime.Chan.State.step` — the next piece of one call;
* `GoRuntime.Chan.Step`, `GoRuntime.Chan.Reachable` — some call takes its next piece, or a new
  call starts.

Main results: the field lemmas of the updates, and `GoRuntime.Chan.foldl_release_calls`, what
the release loops of `closechan` do to the calls.
-/

import GoRuntime.SizeClass
import Mathlib.Data.List.Basic
import Mathlib.Logic.Function.Basic

set_option autoImplicit false

namespace GoRuntime.Chan

/-! ### Channels and `makechan` -/

/-- `maxAlign` of `chan.go`. -/
def maxAlign : ℕ := 8

/-- `unsafe.Sizeof(hchan{})` on a 64-bit platform: twelve words (seven for the scalar fields,
with `elemsize` and `closed` sharing one, four for the two wait queues, one for the lock). -/
def hchanBytes : ℕ := 96

/-- `hchanSize`: the size of `hchan` rounded up to a multiple of `maxAlign`. -/
def hchanSize : ℕ := hchanBytes + (maxAlign - hchanBytes % maxAlign) % maxAlign

/-- The fields of `t.elem` that `makechan` reads. -/
structure ElemType where
  size : ℕ
  align : ℕ
deriving DecidableEq, Repr

/-- The fields of `hchan` other than the lock and `elemtype`; `buf i` is the element in slot
`i`, the one at `chanbuf(c, i)`. -/
structure HChan where
  qcount : ℕ
  dataqsiz : ℕ
  buf : ℕ → ℕ
  elemsize : ℕ
  closed : Bool
  sendx : ℕ
  recvx : ℕ
  recvq : List ℕ
  sendq : List ℕ

/-- A `panic` or a `throw`, with its message. -/
inductive Abort where
  | panic (msg : String)
  | throw (msg : String)
deriving DecidableEq, Repr

/-- `makechan(t, size)`.  The buffer comes from `mallocgc` without `flagNoZero`, so it is
zeroed.  The check `int64(uintptr(size)) != size` never fails on a 64-bit platform and is left
out. -/
def makechan (elem : ElemType) (size : ℤ) : Except Abort HChan :=
  if 2 ^ 16 ≤ elem.size then .error (.throw "makechan: invalid channel element type")
  else if hchanSize % maxAlign ≠ 0 ∨ maxAlign < elem.align then
    .error (.throw "makechan: bad alignment")
  else if size < 0 ∨ (0 < elem.size ∧ (maxMem - hchanSize) / elem.size < size.toNat) then
    .error (.panic "makechan: size out of range")
  else .ok ⟨0, size.toNat, fun _ => 0, elem.size, false, 0, 0, [], []⟩

/-- `chanbuf(c, i)`: the offset of slot `i` from `c.buf`. -/
def chanbuf (c : HChan) (i : ℕ) : ℕ := i * c.elemsize

/-- `x++; if x == c.dataqsiz { x = 0 }`, the step of `sendx` and `recvx`. -/
def HChan.wrap (c : HChan) (x : ℕ) : ℕ := if x + 1 = c.dataqsiz then 0 else x + 1

/-- The buffered write of `chansend`: `v` goes to `chanbuf(c, c.sendx)`, then `c.sendx++`
(wrapping) and `c.qcount++`. -/
def HChan.put (c : HChan) (v : ℕ) : HChan :=
  { c with
    buf := Function.update c.buf c.sendx v
    sendx := c.wrap c.sendx
    qcount := c.qcount + 1 }

/-- The buffered read of `chanrecv` after the element at `chanbuf(c, c.recvx)` is copied out:
`memclr` of that slot, then `c.recvx++` (wrapping) and `c.qcount--`. -/
def HChan.take (c : HChan) : HChan :=
  { c with
    buf := Function.update c.buf c.recvx 0
    recvx := c.wrap c.recvx
    qcount := c.qcount - 1 }

section RingFields

variable (c : HChan) (v : ℕ)

@[simp] theorem HChan.put_qcount : (c.put v).qcount = c.qcount + 1 := rfl
@[simp] theorem HChan.put_dataqsiz : (c.put v).dataqsiz = c.dataqsiz := rfl
@[simp] theorem HChan.put_buf : (c.put v).buf = Function.update c.buf c.sendx v := rfl
@[simp] theorem HChan.put_sendx : (c.put v).sendx = c.wrap c.sendx := rfl
@[simp] theorem HChan.put_recvx : (c.put v).recvx = c.recvx := rfl
@[simp] theorem HChan.put_closed : (c.put v).closed = c.closed := rfl
@[simp] theorem HChan.put_sendq : (c.put v).sendq = c.sendq := rfl
@[simp] theorem HChan.take_qcount : c.take.qcount = c.qcount - 1 := rfl
@[simp] theorem HChan.take_dataqsiz : c.take.dataqsiz = c.dataqsiz := rfl
@[simp] theorem HChan.take_buf : c.take.buf = Function.update c.buf c.recvx 0 := rfl
@[simp] theorem HChan.take_sendx : c.take.sendx = c.sendx := rfl
@[simp] theorem HChan.take_recvx : c.take.recvx = c.wrap c.recvx := rfl
@[simp] theorem HChan.take_closed : c.take.closed = c.closed := rfl
@[simp] theorem HChan.take_recvq : c.take.recvq = c.recvq := rfl
@[simp] theorem HChan.take_sendq : c.take.sendq = c.sendq := rfl

end RingFields

/-- `makechan` succeeds exactly when the element type passes its checks and `size` is in
range, and it returns an empty open channel of `size` zeroed slots. -/
theorem makechan_eq_ok {elem : ElemType} {size : ℤ} {c : HChan}
    (h : makechan elem size = .ok c) :
    elem.size < 2 ^ 16 ∧ elem.align ≤ maxAlign ∧ 0 ≤ size ∧
      (0 < elem.size → size.toNat ≤ (maxMem - hchanSize) / elem.size) ∧
      c = ⟨0, size.toNat, fun _ => 0, elem.size, false, 0, 0, [], []⟩ := by
  have hal : hchanSize % maxAlign = 0 := by decide
  unfold makechan at h
  split_ifs at h with h₁ h₂ h₃
  cases h
  push_neg at h₁ h₂ h₃
  exact ⟨h₁, h₂.2, by omega, h₃.2, rfl⟩

/-! ### Calls -/

/-- The operation a call performs; `send v` sends `v`, `recv ep` receives into `*ep` when `ep`
is non-nil. -/
inductive Op where
  | send (v : ℕ)
  | recv (ep : Bool)
  | close
deriving DecidableEq, Repr

/-- What a call returns: `chansend`'s `bool`, `chanrecv`'s `(selected, received)`, the return
of `closechan`, or the `panic` or `throw` it stops with. -/
inductive Result where
  | sent (ok : Bool)
  | recvd (selected received : Bool)
  | closed
  | abort (a : Abort)
deriving DecidableEq, Repr

/-- The piece of a call that runs next. -/
inductive Pc where
  /-- Not called yet. -/
  | idle
  /-- Entry: the first read of the fast path, or `lock(&c.lock)`. -/
  | start
  /-- `chansend`'s second fast-path read, of `c.recvq.first` or `c.qcount`. -/
  | sendFast
  /-- `chanrecv`'s second fast-path read, of `c.closed`. -/
  | recvFast
  /-- `lock(&c.lock)` and the critical section. -/
  | locking
  /-- `chansend` has dequeued receiver `r` and released the lock. -/
  | syncSend (r : ℕ)
  /-- `chanrecv` has dequeued sender `s` and released the lock. -/
  | syncRecv (s : ℕ)
  /-- Parked by `goparkunlock`. -/
  | parked
  /-- Readied by `goready`, not yet running. -/
  | woken
  /-- An unbuffered `chanrecv` readied without data, about to relock. -/
  | recvRelock
  /-- Returned, panicked or threw. -/
  | done (r : Result)
deriving DecidableEq, Repr

/-- One call of `chansend`, `chanrecv` or `closechan`; `peer` and `late` are ghost fields. -/
structure Call where
  op : Op
  block : Bool
  pc : Pc
  param : Bool
  ep : ℕ
  peer : Option ℕ
  late : Bool
deriving DecidableEq, Repr

/-- A call slot no goroutine has used yet. -/
def Call.idle : Call := ⟨.close, false, .idle, false, 0, none, false⟩

/-- The channel, the calls made on it, and the ghost lists of buffered values sent and
received. -/
structure State where
  c : HChan
  calls : ℕ → Call
  sent : List ℕ
  recvd : List ℕ

/-- A channel just returned by `makechan`, with no call made on it. -/
def State.init (c : HChan) : State := ⟨c, fun _ => Call.idle, [], []⟩

/-! ### Updates -/

namespace State

variable (st : State)

/-- Change call `k`. -/
def setCall (k : ℕ) (f : Call → Call) : State :=
  { st with calls := Function.update st.calls k (f (st.calls k)) }

/-- Move call `k` to `pc`. -/
def setPc (k : ℕ) (pc : Pc) : State := st.setCall k fun cl => { cl with pc := pc }

/-- Call `k` returns `r`. -/
def finish (k : ℕ) (r : Result) : State := st.setPc k (.done r)

/-- Replace the channel record. -/
def setC (c : HChan) : State := { st with c := c }

/-- A goroutine calls `chansend`, `chanrecv` or `closechan`; `e` is the word its `ep` points
to, and the call is late if the channel is already closed. -/
def begin (k : ℕ) (op : Op) (block : Bool) (e : ℕ) : State :=
  st.setCall k fun _ => ⟨op, block, .start, false, e, none, st.c.closed⟩

variable (k : ℕ)

@[simp] theorem setCall_c (f : Call → Call) : (st.setCall k f).c = st.c := rfl
@[simp] theorem setCall_sent (f : Call → Call) : (st.setCall k f).sent = st.sent := rfl
@[simp] theorem setCall_recvd (f : Call → Call) : (st.setCall k f).recvd = st.recvd := rfl
@[simp] theorem setCall_calls (f : Call → Call) :
    (st.setCall k f).calls = Function.update st.calls k (f (st.calls k)) := rfl
@[simp] theorem setC_c (c : HChan) : (st.setC c).c = c := rfl
@[simp] theorem setC_calls (c : HChan) : (st.setC c).calls = st.calls := rfl
@[simp] theorem setC_sent (c : HChan) : (st.setC c).sent = st.sent := rfl
@[simp] theorem setC_recvd (c : HChan) : (st.setC c).recvd = st.recvd := rfl
@[simp] theorem setPc_eq (pc : Pc) : st.setPc k pc = st.setCall k fun cl => { cl with pc := pc } :=
  rfl
@[simp] theorem finish_eq (r : Result) : st.finish k r = st.setPc k (.done r) := rfl
@[simp] theorem begin_eq (op : Op) (block : Bool) (e : ℕ) :
    st.begin k op block e =
      st.setCall k fun _ => ⟨op, block, .start, false, e, none, st.c.closed⟩ :=
  rfl

end State

/-! ### The pieces of `chansend` -/

open State

/-- Entry of `chansend`: a non-blocking send first reads `c.closed`; otherwise, or if it is
set, the call goes for the lock. -/
def chansendStart (st : State) (k : ℕ) (block : Bool) : State :=
  if !block && !st.c.closed then st.setPc k .sendFast else st.setPc k .locking

/-- The second read of `chansend`'s fast path: fail if an unbuffered channel has no waiting
receiver or a buffered one is full. -/
def chansendFast (st : State) (k : ℕ) : State :=
  if (st.c.dataqsiz = 0 ∧ st.c.recvq = []) ∨ (0 < st.c.dataqsiz ∧ st.c.qcount = st.c.dataqsiz)
  then st.finish k (.sent false) else st.setPc k .locking

/-- `chansend`'s critical section for call `k` sending `v`. -/
def chansendLocked (st : State) (k v : ℕ) (block : Bool) : State :=
  let c := st.c
  if c.closed then st.finish k (.abort (.panic "send on closed channel"))
  else if c.dataqsiz = 0 then
    match c.recvq with
    | r :: rest =>
        (((st.setC { c with recvq := rest }).setCall k fun cl =>
          { cl with pc := .syncSend r, peer := some r }).setCall r fun cl =>
          { cl with peer := some k })
    | [] =>
        if !block then st.finish k (.sent false)
        else (st.setC { c with sendq := c.sendq ++ [k] }).setCall k fun cl =>
          { cl with param := false, pc := .parked }
  else if c.dataqsiz ≤ c.qcount then
    if !block then st.finish k (.sent false)
    else (st.setC { c with sendq := c.sendq ++ [k] }).setPc k .parked
  else
    let c' := c.put v
    let st' : State := { st with c := c', sent := st.sent ++ [v] }
    match c'.recvq with
    | r :: rest => ((st'.setC { c' with recvq := rest }).setPc r .woken).finish k (.sent true)
    | [] => st'.finish k (.sent true)

/-- `syncsend`: copy the sent value into the receiver's `*ep`. -/
def syncsend (st : State) (r v : ℕ) : State := st.setCall r fun cl => { cl with ep := v }

/-- `chansend` after dequeuing receiver `r`: `syncsend` if `sg.elem != nil`, then
`recvg.param = sg`, `goready(recvg)` and return `true`. -/
def chansendHandoff (st : State) (k r v : ℕ) : State :=
  let st := if (st.calls r).op = .recv true then syncsend st r v else st
  (st.setCall r fun cl => { cl with param := true, pc := .woken }).finish k (.sent true)

@[simp] theorem chansendHandoff_c (st : State) (k r v : ℕ) :
    (chansendHandoff st k r v).c = st.c := by
  unfold chansendHandoff; split_ifs <;> rfl

/-- `chansend` once readied: an unbuffered send checks `gp.param`; a buffered one relocks and
tries again. -/
def chansendWoken (st : State) (k : ℕ) : State :=
  if st.c.dataqsiz = 0 then
    if (st.calls k).param then st.finish k (.sent true)
    else if !st.c.closed then st.finish k (.abort (.throw "chansend: spurious wakeup"))
    else st.finish k (.abort (.panic "send on closed channel"))
  else st.setPc k .locking

/-! ### The pieces of `chanrecv` -/

/-- Entry of `chanrecv`: a non-blocking receive first reads whether a value is ready; if none
is, it goes on to read `c.closed`, and otherwise for the lock. -/
def chanrecvStart (st : State) (k : ℕ) (block : Bool) : State :=
  if !block = true ∧ ((st.c.dataqsiz = 0 ∧ st.c.sendq = []) ∨ (0 < st.c.dataqsiz ∧ st.c.qcount = 0))
  then st.setPc k .recvFast else st.setPc k .locking

/-- The second read of `chanrecv`'s fast path: fail if the channel is open. -/
def chanrecvFast (st : State) (k : ℕ) : State :=
  if !st.c.closed then st.finish k (.recvd false false) else st.setPc k .locking

/-- `recvclosed`: clear `*ep` if it is non-nil and return `(true, false)`. -/
def recvclosed (st : State) (k : ℕ) (ep : Bool) : State :=
  (if ep then st.setCall k fun cl => { cl with ep := 0 } else st).finish k (.recvd true false)

theorem recvclosed_eq (st : State) (k : ℕ) (ep : Bool) :
    recvclosed st k ep = st.setCall k fun cl =>
      { cl with ep := if ep then 0 else cl.ep, pc := .done (.recvd true false) } := by
  cases ep
  · rfl
  · simp [recvclosed, setCall, Function.update_idem]

/-- `chanrecv`'s critical section for call `k`. -/
def chanrecvLocked (st : State) (k : ℕ) (ep block : Bool) : State :=
  let c := st.c
  if c.dataqsiz = 0 then
    if c.closed then recvclosed st k ep
    else match c.sendq with
    | s :: rest =>
        (((st.setC { c with sendq := rest }).setCall k fun cl =>
          { cl with pc := .syncRecv s, peer := some s }).setCall s fun cl =>
          { cl with peer := some k })
    | [] =>
        if !block then st.finish k (.recvd false false)
        else (st.setC { c with recvq := c.recvq ++ [k] }).setCall k fun cl =>
          { cl with param := false, pc := .parked }
  else if c.qcount = 0 then
    if c.closed then recvclosed st k ep
    else if !block then st.finish k (.recvd false false)
    else (st.setC { c with recvq := c.recvq ++ [k] }).setPc k .parked
  else
    let x := c.buf c.recvx
    let c' := c.take
    let st₁ := if ep then st.setCall k fun cl => { cl with ep := x } else st
    let st' : State := { st₁ with c := c', recvd := st.recvd ++ [x] }
    match c'.sendq with
    | s :: rest => ((st'.setC { c' with sendq := rest }).setPc s .woken).finish k (.recvd true true)
    | [] => st'.finish k (.recvd true true)

/-- `chanrecv` after dequeuing sender `s` of an unbuffered channel: copy its value into `*ep`
if `ep` is non-nil, then `gp.param = sg`, `goready(gp)` and return `(true, true)`. -/
def chanrecvHandoff (st : State) (k s : ℕ) (ep : Bool) : State :=
  let st := match (st.calls s).op with
    | .send v => if ep then st.setCall k fun cl => { cl with ep := v } else st
    | _ => st
  (st.setCall s fun cl => { cl with param := true, pc := .woken }).finish k (.recvd true true)

@[simp] theorem chanrecvHandoff_c (st : State) (k s : ℕ) (ep : Bool) :
    (chanrecvHandoff st k s ep).c = st.c := by
  unfold chanrecvHandoff; split <;> (try split_ifs) <;> rfl

/-- `chanrecv` once readied: an unbuffered receive returns `(true, true)` if `gp.param` is set
and relocks otherwise; a buffered one relocks and tries again. -/
def chanrecvWoken (st : State) (k : ℕ) : State :=
  if st.c.dataqsiz = 0 then
    if (st.calls k).param then st.finish k (.recvd true true) else st.setPc k .recvRelock
  else st.setPc k .locking

/-- An unbuffered `chanrecv` readied without data relocks: the channel must be closed. -/
def chanrecvRelock (st : State) (k : ℕ) (ep : Bool) : State :=
  if !st.c.closed then st.finish k (.abort (.throw "chanrecv: spurious wakeup"))
  else recvclosed st k ep

/-! ### `closechan` -/

/-- What `closechan` does to the goroutine of each sudog it dequeues:
`gp.param = nil; goready(gp)`. -/
def release (st : State) (g : ℕ) : State :=
  st.setCall g fun cl => { cl with param := false, pc := .woken, late := true }

/-- `closechan`'s critical section: set `c.closed`, then release all readers and all writers. -/
def closechanLocked (st : State) (k : ℕ) : State :=
  if st.c.closed then st.finish k (.abort (.panic "close of closed channel"))
  else
    let st' := (st.c.recvq ++ st.c.sendq).foldl release st
    (st'.setC { st.c with closed := true, recvq := [], sendq := [] }).finish k .closed

@[simp] theorem foldl_release_c (l : List ℕ) (st : State) : (l.foldl release st).c = st.c := by
  induction l generalizing st with
  | nil => rfl
  | cons g l ih => exact ih _

@[simp] theorem foldl_release_sent (l : List ℕ) (st : State) :
    (l.foldl release st).sent = st.sent := by
  induction l generalizing st with
  | nil => rfl
  | cons g l ih => exact ih _

@[simp] theorem foldl_release_recvd (l : List ℕ) (st : State) :
    (l.foldl release st).recvd = st.recvd := by
  induction l generalizing st with
  | nil => rfl
  | cons g l ih => exact ih _

/-- The release loops ready every listed goroutine, clearing its `param`, and leave every
other call alone. -/
theorem foldl_release_calls (l : List ℕ) (st : State) (g : ℕ) :
    (l.foldl release st).calls g =
      if g ∈ l then { st.calls g with param := false, pc := .woken, late := true }
      else st.calls g := by
  induction l generalizing st with
  | nil => simp
  | cons a l ih =>
    rw [List.foldl_cons, ih]
    by_cases hg : g = a
    · subst hg
      simp [release]
    · simp [release, Function.update_noteq hg, hg]

/-! ### Steps -/

/-- The next piece of call `k`, if it has one. -/
def State.step (st : State) (k : ℕ) : Option State :=
  match (st.calls k).pc, (st.calls k).op with
  | .start, .send _ => some (chansendStart st k (st.calls k).block)
  | .sendFast, .send _ => some (chansendFast st k)
  | .locking, .send v => some (chansendLocked st k v (st.calls k).block)
  | .syncSend r, .send v => some (chansendHandoff st k r v)
  | .woken, .send _ => some (chansendWoken st k)
  | .start, .recv _ => some (chanrecvStart st k (st.calls k).block)
  | .recvFast, .recv _ => some (chanrecvFast st k)
  | .locking, .recv ep => some (chanrecvLocked st k ep (st.calls k).block)
  | .syncRecv s, .recv ep => some (chanrecvHandoff st k s ep)
  | .woken, .recv _ => some (chanrecvWoken st k)
  | .recvRelock, .recv ep => some (chanrecvRelock st k ep)
  | .start, .close => some (st.setPc k .locking)
  | .locking, .close => some (closechanLocked st k)
  | _, _ => none

/-- One step of the system: a goroutine makes a new call, or a call takes its next piece. -/
inductive Step : State → State → Prop where
  | begin (st : State) (k : ℕ) (op : Op) (block : Bool) (e : ℕ) (h : (st.calls k).pc = .idle) :
      Step st (st.begin k op block e)
  | run (st st' : State) (k : ℕ) (h : st.step k = some st') : Step st st'

/-- The states reachable from `st₀`. -/
inductive Reachable (st₀ : State) : State → Prop where
  | init : Reachable st₀ st₀
  | step {st st' : State} : Reachable st₀ st → Step st st' → Reachable st₀ st'

/-! ### Runs -/

/-- What the scheduler does next: goroutine `k` makes a call, or call `k` takes its next
piece. -/
inductive Action where
  | call (k : ℕ) (op : Op) (block : Bool) (e : ℕ)
  | run (k : ℕ)

/-- Take one action, if it can be taken. -/
def State.act (st : State) : Action → Option State
  | .call k op block e => if (st.calls k).pc = .idle then some (st.begin k op block e) else none
  | .run k => st.step k

/-- Take the actions in turn; `none` if one of them cannot be taken. -/
def State.runActs : State → List Action → Option State
  | st, [] => some st
  | st, a :: as => (st.act a).bind fun st' => st'.runActs as

theorem Step.of_act {st st' : State} {a : Action} (h : st.act a = some st') : Step st st' := by
  cases a with
  | call k op block e =>
    simp only [State.act] at h
    split_ifs at h with hidle
    cases h
    exact .begin st k op block e hidle
  | run k => exact .run st st' k h

/-- The actions of a run lead from a reachable state to reachable states. -/
theorem Reachable.runActs {st₀ st st' : State} (hr : Reachable st₀ st) (as : List Action)
    (h : st.runActs as = some st') : Reachable st₀ st' := by
  induction as generalizing st with
  | nil => cases h; exact hr
  | cons a as ih =>
    simp only [State.runActs, Option.bind_eq_some] at h
    obtain ⟨st₁, h₁, h₂⟩ := h
    exact ih (hr.step (Step.of_act h₁)) h₂

end GoRuntime.Chan
