/-
**Lock balance.**

The runtime brackets its critical sections with `lock` and `unlock` calls spread over `goto`s,
loops, early returns and parks.  This module writes the control flow of each function that
takes one of the locks `c.lock`, `ifaceLock`, `mcentral.lock` and `globalAlloc.mutex` as a
relation between program points whose edges record the lock operations on them: `chansend`,
`chanrecv` with `recvclosed`, `closechan`, `getitab`, `mCentral_CacheSpan`,
`mCentral_UncacheSpan`, `mCentral_FreeSpan` and `persistentalloc1`.  A condition that decides no
lock operation is a choice, so every path of the code is a path of its relation; a condition
that does decide one is kept as data (`locked` of `getitab`, whether `persistentalloc1` took the
global allocator).  A call into another of these functions runs the callee's paths.  A `throw`
ends the program: it is a point with no way out, and not a return, park or panic.

Balance is proved by a lock typing (`GoRuntime.Locks.Typing`): the locks held at each program
point, such that the operations of every edge are legal from the locks held before it and leave
the locks held after it.

Main definitions:

* `GoRuntime.Locks.applyEvs` — lock operations run on the locks held;
* `GoRuntime.Locks.Path`, `GoRuntime.Locks.LockBalanced` — the paths of a control-flow relation,
  and balance along all of them.

Main results:

* `GoRuntime.Locks.LockBalanced.of_typing` — a typing with no lock held at the entry and at the
  exits gives balance;
* `GoRuntime.Locks.lock_balance` — **the eight functions are balanced**.
-/

import Mathlib.Data.List.Basic

set_option autoImplicit false

namespace GoRuntime.Locks

/-! ### Lock operations and paths -/

/-- The locks: `c.lock` of a channel, `ifaceLock`, `mcentral.lock` and `globalAlloc.mutex`. -/
inductive Lock where
  | chan
  | iface
  | central
  | globalAlloc
deriving DecidableEq

/-- `lock(&l)`, or `unlock(&l)` (`goparkunlock(&l, ...)` releases as `unlock` does). -/
inductive LockEv where
  | acquire (l : Lock)
  | release (l : Lock)
deriving DecidableEq

/-- The lock an operation is on. -/
def LockEv.lock : LockEv → Lock
  | .acquire l => l
  | .release l => l

/-- Lock operations run from the locks `held`: `none` at the first one that acquires a lock
already held or releases a lock not held. -/
def applyEvs : List Lock → List LockEv → Option (List Lock)
  | held, [] => some held
  | held, .acquire l :: es => if l ∈ held then none else applyEvs (l :: held) es
  | held, .release l :: es => if l ∈ held then applyEvs (held.erase l) es else none

theorem applyEvs_append (held : List Lock) (es es' : List LockEv) :
    applyEvs held (es ++ es') = (applyEvs held es).bind fun h => applyEvs h es' := by
  induction es generalizing held with
  | nil => rfl
  | cons e es ih => cases e <;> simp only [List.cons_append, applyEvs] <;> split_ifs <;> simp [ih]

/-- Operations on other locks leave a lock `x` held. -/
theorem applyEvs_append_held {x : Lock} {held held' : List Lock} {es : List LockEv}
    (hx : ∀ e ∈ es, e.lock ≠ x) (h : applyEvs held es = some held') :
    applyEvs (held ++ [x]) es = some (held' ++ [x]) := by
  induction es generalizing held with
  | nil => cases h; rfl
  | cons e es ih =>
    have hes : ∀ e ∈ es, e.lock ≠ x := fun e he => hx e (List.mem_cons_of_mem _ he)
    have hmem : e.lock ∈ held ++ [x] ↔ e.lock ∈ held := by
      rw [List.mem_append, List.mem_singleton]; exact or_iff_left (hx e (List.mem_cons_self _ _))
    cases e with
    | acquire l =>
      simp only [LockEv.lock] at hmem
      simp only [applyEvs, hmem] at h ⊢
      split_ifs at h ⊢
      exact ih hes h
    | release l =>
      simp only [LockEv.lock] at hmem
      simp only [applyEvs, hmem] at h ⊢
      split_ifs at h ⊢ with hl
      rw [List.erase_append_left _ hl]
      exact ih hes h

variable {P : Type} {step : P → List LockEv → P → Prop}

/-- The paths through a control-flow relation, with the lock operations along them. -/
inductive Path (step : P → List LockEv → P → Prop) : P → List LockEv → P → Prop
  | refl (p : P) : Path step p [] p
  | cons {p q r : P} {es es' : List LockEv} : step p es q → Path step q es' r →
      Path step p (es ++ es') r

theorem Path.single {p q : P} {es : List LockEv} (h : step p es q) : Path step p es q := by
  simpa using Path.cons h (.refl q)

theorem Path.trans {p q r : P} {es es' : List LockEv} (h : Path step p es q)
    (h' : Path step q es' r) : Path step p (es ++ es') r := by
  induction h with
  | refl => exact h'
  | cons hs _ ih =>
    rw [List.append_assoc]
    exact .cons hs (ih h')

/-- A property of every operation of every edge holds of every operation of every path. -/
theorem Path.forall_mem {Q : LockEv → Prop} (hstep : ∀ p es q, step p es q → ∀ e ∈ es, Q e)
    {p q : P} {es : List LockEv} (h : Path step p es q) : ∀ e ∈ es, Q e := by
  induction h with
  | refl => simp
  | cons hs _ ih =>
    intro e he
    rcases List.mem_append.1 he with he | he
    exacts [hstep _ _ _ hs e he, ih e he]

/-- A lock typing: the locks `held` at each point, such that every edge's operations are legal
from the locks held before it and leave the locks held after it. -/
def Typing (step : P → List LockEv → P → Prop) (held : P → List Lock) : Prop :=
  ∀ p es q, step p es q → applyEvs (held p) es = some (held q)

theorem Path.applyEvs_eq {held : P → List Lock} (ht : Typing step held) {p q : P}
    {es : List LockEv} (h : Path step p es q) : applyEvs (held p) es = some (held q) := by
  induction h with
  | refl => rfl
  | cons hs _ ih => rw [applyEvs_append, ht _ _ _ hs]; exact ih

/-- **Lock balance** from `entry`: no path acquires a lock it holds or releases one it does not
hold, and a path that ends where the function returns, parks or panics (`exit`) holds no lock. -/
def LockBalanced (step : P → List LockEv → P → Prop) (entry : P) (exit : P → Bool) : Prop :=
  ∀ es q, Path step entry es q → ∃ held, applyEvs [] es = some held ∧ (exit q = true → held = [])

theorem LockBalanced.of_typing {held : P → List Lock} {entry : P} {exit : P → Bool}
    (ht : Typing step held) (h₀ : held entry = []) (hexit : ∀ q, exit q = true → held q = []) :
    LockBalanced step entry exit := fun _ q hp => ⟨held q, h₀ ▸ hp.applyEvs_eq ht, hexit q⟩

/-- A path between two points where no lock is held is balanced. -/
theorem Path.balanced {held : P → List Lock} (ht : Typing step held) {p q : P}
    {es : List LockEv} (h : Path step p es q) (hp : held p = []) (hq : held q = []) :
    applyEvs [] es = some [] := by
  have := h.applyEvs_eq ht
  rwa [hp, hq] at this

/-- What a piece of a machine that runs the function of `step` does to the point it stands at:
from `p`, a path reaches a point that `R` relates to the piece `pc` the machine moves to. -/
def Moves {Q : Type} (step : P → List LockEv → P → Prop) (R : Q → P → Prop) (p : P) (pc : Q) :
    Prop :=
  ∃ es q, Path step p es q ∧ R pc q

/-- A piece that runs no edge stays at its point. -/
theorem Moves.stay {Q : Type} {R : Q → P → Prop} {p : P} {pc : Q} (h : R pc p) :
    Moves step R p pc :=
  ⟨[], p, .refl p, h⟩

/-- A piece that starts with an edge. -/
theorem Moves.cons {Q : Type} {R : Q → P → Prop} {p q : P} {es : List LockEv} {pc : Q}
    (hs : step p es q) (h : Moves step R q pc) : Moves step R p pc :=
  let ⟨_, r, hp, hr⟩ := h
  ⟨_, r, .cons hs hp, hr⟩

/-! ### `chansend` -/

/-- Program points of `chansend`. -/
inductive ChansendPt where
  | start
  /-- In `gopark` on a nil channel. -/
  | parkedNil
  /-- After `lock(&c.lock)`. -/
  | locked
  /-- In `goparkunlock` on an unbuffered channel, and after the wake-up. -/
  | parkedSync
  /-- At the test of `for futile := byte(0); c.qcount >= c.dataqsiz; ...`, `c.lock` held. -/
  | loop
  /-- In `goparkunlock` in that loop, and after the wake-up. -/
  | parkedBuf
  /-- After `lock(&c.lock)` on the wake-up in the loop. -/
  | relocked
  | ret
  | panic
  | throw
deriving DecidableEq

/-- The control flow of `chansend`. -/
inductive chansendCfg : ChansendPt → List LockEv → ChansendPt → Prop
  /-- `if c == nil { if !block { return false }`. -/
  | nilNoBlock : chansendCfg .start [] .ret
  /-- `gopark(nil, nil, "chan send (nil chan)", ...)`. -/
  | nilPark : chansendCfg .start [] .parkedNil
  /-- `throw("unreachable")`. -/
  | nilWoken : chansendCfg .parkedNil [] .throw
  /-- The fast path's `return false`. -/
  | fast : chansendCfg .start [] .ret
  | lock : chansendCfg .start [.acquire .chan] .locked
  /-- `if c.closed != 0 { unlock(&c.lock); panic("send on closed channel") }`. -/
  | closed : chansendCfg .locked [.release .chan] .panic
  /-- A receiver dequeued: `unlock(&c.lock)`, then the hand-off and `return true`. -/
  | syncRecv : chansendCfg .locked [.release .chan] .ret
  /-- `if !block { unlock(&c.lock); return false }`. -/
  | syncNoBlock : chansendCfg .locked [.release .chan] .ret
  /-- `goparkunlock(&c.lock, "chan send", ...)`. -/
  | syncPark : chansendCfg .locked [.release .chan] .parkedSync
  /-- `throw("G waiting list is corrupted!")`, or `throw("chansend: spurious wakeup")`. -/
  | syncThrow : chansendCfg .parkedSync [] .throw
  /-- Woken by `closechan`: `panic("send on closed channel")`. -/
  | syncClosed : chansendCfg .parkedSync [] .panic
  /-- `return true`. -/
  | syncDone : chansendCfg .parkedSync [] .ret
  /-- A buffered channel: into the loop. -/
  | buffered : chansendCfg .locked [] .loop
  /-- `if !block { unlock(&c.lock); return false }`. -/
  | loopNoBlock : chansendCfg .loop [.release .chan] .ret
  /-- `goparkunlock(&c.lock, "chan send", ...)`. -/
  | loopPark : chansendCfg .loop [.release .chan] .parkedBuf
  /-- `releaseSudog(mysg); lock(&c.lock)`. -/
  | loopRelock : chansendCfg .parkedBuf [.acquire .chan] .relocked
  /-- `if c.closed != 0 { unlock(&c.lock); panic("send on closed channel") }`. -/
  | loopClosed : chansendCfg .relocked [.release .chan] .panic
  /-- Back to the loop's test. -/
  | loopAgain : chansendCfg .relocked [] .loop
  /-- Out of the loop: the element is stored, a receiver may be dequeued, and either branch runs
  `unlock(&c.lock)` before `return true`. -/
  | put : chansendCfg .loop [.release .chan] .ret

/-- The locks `chansend` holds at each point. -/
def ChansendPt.held : ChansendPt → List Lock
  | .locked | .loop | .relocked => [.chan]
  | _ => []

/-- Where `chansend` returns, parks or panics. -/
def ChansendPt.exit : ChansendPt → Bool
  | .ret | .panic | .parkedNil | .parkedSync | .parkedBuf => true
  | _ => false

theorem chansend_typing : Typing chansendCfg ChansendPt.held := by
  intro p es q h; cases h <;> decide

/-! ### `chanrecv` -/

/-- Program points of `chanrecv`, with `recvclosed` inline. -/
inductive ChanrecvPt where
  | start
  /-- In `gopark` on a nil channel. -/
  | parkedNil
  /-- After `lock(&c.lock)`. -/
  | locked
  /-- In `goparkunlock` on an unbuffered channel, and after the wake-up. -/
  | parkedSync
  /-- After `lock(&c.lock)` on a wake-up without data. -/
  | relocked
  /-- At the test of `for futile := byte(0); c.qcount <= 0; ...`, `c.lock` held. -/
  | loop
  /-- In `goparkunlock` in that loop, and after the wake-up. -/
  | parkedBuf
  | ret
  | throw
  /-- `throw("chanrecv: spurious wakeup")`, reached with `c.lock` held. -/
  | throwLocked
deriving DecidableEq

/-- The control flow of `chanrecv`; `recvclosed` starts with `unlock(&c.lock)`. -/
inductive chanrecvCfg : ChanrecvPt → List LockEv → ChanrecvPt → Prop
  /-- `if c == nil { if !block { return }`. -/
  | nilNoBlock : chanrecvCfg .start [] .ret
  /-- `gopark(nil, nil, "chan receive (nil chan)", ...)`. -/
  | nilPark : chanrecvCfg .start [] .parkedNil
  /-- `throw("unreachable")`. -/
  | nilWoken : chanrecvCfg .parkedNil [] .throw
  /-- The fast path's `return`. -/
  | fast : chanrecvCfg .start [] .ret
  | lock : chanrecvCfg .start [.acquire .chan] .locked
  /-- `if c.closed != 0 { return recvclosed(c, ep) }`. -/
  | syncClosed : chanrecvCfg .locked [.release .chan] .ret
  /-- A sender dequeued: `unlock(&c.lock)`, the copy, `goready`, `return`. -/
  | syncSend : chanrecvCfg .locked [.release .chan] .ret
  /-- `if !block { unlock(&c.lock); return }`. -/
  | syncNoBlock : chanrecvCfg .locked [.release .chan] .ret
  /-- `goparkunlock(&c.lock, "chan receive", ...)`. -/
  | syncPark : chanrecvCfg .locked [.release .chan] .parkedSync
  /-- `throw("G waiting list is corrupted!")`. -/
  | syncCorrupt : chanrecvCfg .parkedSync [] .throw
  /-- `if haveData { ...; return }`. -/
  | syncData : chanrecvCfg .parkedSync [] .ret
  /-- `lock(&c.lock)`. -/
  | syncRelock : chanrecvCfg .parkedSync [.acquire .chan] .relocked
  /-- `if c.closed == 0 { throw("chanrecv: spurious wakeup") }`. -/
  | syncSpurious : chanrecvCfg .relocked [] .throwLocked
  /-- `return recvclosed(c, ep)`. -/
  | syncClosedAfter : chanrecvCfg .relocked [.release .chan] .ret
  /-- A buffered channel: into the loop. -/
  | buffered : chanrecvCfg .locked [] .loop
  /-- `if c.closed != 0 { selected, received = recvclosed(c, ep); return }`. -/
  | loopClosed : chanrecvCfg .loop [.release .chan] .ret
  /-- `if !block { unlock(&c.lock); return }`. -/
  | loopNoBlock : chanrecvCfg .loop [.release .chan] .ret
  /-- `goparkunlock(&c.lock, "chan receive", ...)`. -/
  | loopPark : chanrecvCfg .loop [.release .chan] .parkedBuf
  /-- `releaseSudog(mysg); lock(&c.lock)`, back to the loop's test. -/
  | loopRelock : chanrecvCfg .parkedBuf [.acquire .chan] .loop
  /-- Out of the loop: the element is taken, a sender may be dequeued, and either branch runs
  `unlock(&c.lock)` before the `return`. -/
  | take : chanrecvCfg .loop [.release .chan] .ret

/-- The locks `chanrecv` holds at each point. -/
def ChanrecvPt.held : ChanrecvPt → List Lock
  | .locked | .relocked | .loop | .throwLocked => [.chan]
  | _ => []

/-- Where `chanrecv` returns or parks; it never panics. -/
def ChanrecvPt.exit : ChanrecvPt → Bool
  | .ret | .parkedNil | .parkedSync | .parkedBuf => true
  | _ => false

theorem chanrecv_typing : Typing chanrecvCfg ChanrecvPt.held := by
  intro p es q h; cases h <;> decide

/-! ### `closechan` -/

/-- Program points of `closechan`. -/
inductive ClosechanPt where
  | start
  /-- After `lock(&c.lock)`. -/
  | locked
  /-- In the two loops that release every reader and every writer. -/
  | drain
  | ret
  | panic
deriving DecidableEq

/-- The control flow of `closechan`. -/
inductive closechanCfg : ClosechanPt → List LockEv → ClosechanPt → Prop
  /-- `panic("close of nil channel")`. -/
  | nilPanic : closechanCfg .start [] .panic
  | lock : closechanCfg .start [.acquire .chan] .locked
  /-- `if c.closed != 0 { unlock(&c.lock); panic("close of closed channel") }`. -/
  | closed : closechanCfg .locked [.release .chan] .panic
  /-- `c.closed = 1`. -/
  | setClosed : closechanCfg .locked [] .drain
  /-- One round of a loop: dequeue a waiter and `goready` it. -/
  | ready : closechanCfg .drain [] .drain
  /-- `unlock(&c.lock)`. -/
  | done : closechanCfg .drain [.release .chan] .ret

def ClosechanPt.held : ClosechanPt → List Lock
  | .locked | .drain => [.chan]
  | _ => []

def ClosechanPt.exit : ClosechanPt → Bool
  | .ret | .panic => true
  | _ => false

theorem closechan_typing : Typing closechanCfg ClosechanPt.held := by
  intro p es q h; cases h <;> decide

/-! ### `persistentalloc1` -/

/-- Program points of `persistentalloc1`. -/
inductive Persistentalloc1Pt where
  | start
  /-- The allocator chosen; `global` when it is `&globalAlloc.persistentAlloc`, taken under
  `lock(&globalAlloc.mutex)`, and not a P's `palloc`. -/
  | chosen (global : Bool)
  | ret
  | throw
deriving DecidableEq

/-- The control flow of `persistentalloc1`.  `persistent == &globalAlloc.persistentAlloc` holds
exactly on the branch that took `globalAlloc.mutex`, a P's `palloc` being another object. -/
inductive persistentalloc1Cfg : Persistentalloc1Pt → List LockEv → Persistentalloc1Pt → Prop
  /-- `throw("persistentalloc: size == 0")`, or a bad alignment's throw. -/
  | badArgs : persistentalloc1Cfg .start [] .throw
  /-- `if size >= maxBlock { return sysAlloc(size, sysStat) }`. -/
  | large : persistentalloc1Cfg .start [] .ret
  /-- `persistent = &mp.p.ptr().palloc`. -/
  | perP : persistentalloc1Cfg .start [] (.chosen false)
  /-- `lock(&globalAlloc.mutex); persistent = &globalAlloc.persistentAlloc`. -/
  | global : persistentalloc1Cfg .start [.acquire .globalAlloc] (.chosen true)
  /-- `sysAlloc` failed: `if persistent == &globalAlloc.persistentAlloc { unlock(...) }`, then
  `throw("runtime: cannot allocate memory")`. -/
  | oom (g : Bool) : persistentalloc1Cfg (.chosen g)
      (if g then [.release .globalAlloc] else []) .throw
  /-- `releasem(mp); if persistent == &globalAlloc.persistentAlloc { unlock(...) }; return p`. -/
  | done (g : Bool) : persistentalloc1Cfg (.chosen g)
      (if g then [.release .globalAlloc] else []) .ret

def Persistentalloc1Pt.held : Persistentalloc1Pt → List Lock
  | .chosen true => [.globalAlloc]
  | _ => []

def Persistentalloc1Pt.exit : Persistentalloc1Pt → Bool
  | .ret => true
  | _ => false

theorem persistentalloc1_typing : Typing persistentalloc1Cfg Persistentalloc1Pt.held := by
  intro p es q h; cases h with
  | oom g | done g => cases g <;> decide
  | _ => decide

/-- `persistentalloc1` takes no lock but `globalAlloc.mutex`. -/
theorem persistentalloc1_lock {p q : Persistentalloc1Pt} {es : List LockEv}
    (h : Path persistentalloc1Cfg p es q) : ∀ e ∈ es, e.lock = .globalAlloc := by
  refine h.forall_mem fun p es q hs => ?_
  cases hs with
  | oom g | done g => cases g <;> decide
  | _ => decide

/-! ### `getitab` -/

/-- Program points of `getitab`; `locked` is the loop variable, `2` after the loop. -/
inductive GetitabPt where
  | start
  /-- At the test `locked < 2` of `for locked = 0; locked < 2; locked++`. -/
  | top (locked : ℕ)
  /-- Walking the bucket `hash[h]`. -/
  | scan (locked : ℕ)
  /-- After the loop, at `m = persistentalloc(...)`. -/
  | alloc (locked : ℕ)
  /-- At `search:`, the lock-step scan of the methods. -/
  | search (locked : ℕ)
  /-- After the scan. -/
  | searched (locked : ℕ)
  | ret
  | panic
  | throw
deriving DecidableEq

/-- The control flow of `getitab` for one value of `canfail`. -/
inductive getitabCfg (canfail : Bool) : GetitabPt → List LockEv → GetitabPt → Prop
  /-- `throw("internal error - misuse of itab")`. -/
  | misuse : getitabCfg canfail .start [] .throw
  /-- `if x == nil { if canfail { return nil }`. -/
  | nilCanfail (h : canfail = true) : getitabCfg canfail .start [] .ret
  /-- `panic(&TypeAssertionError{...})`. -/
  | nilPanic (h : canfail = false) : getitabCfg canfail .start [] .panic
  | enter : getitabCfg canfail .start [] (.top 0)
  /-- `if locked != 0 { lock(&ifaceLock) }`, then the bucket. -/
  | body (l : ℕ) (hl : l < 2) :
      getitabCfg canfail (.top l) (if l ≠ 0 then [.acquire .iface] else []) (.scan l)
  /-- `m = m.link`. -/
  | next (l : ℕ) : getitabCfg canfail (.scan l) [] (.scan l)
  /-- A cached bad itab and `!canfail`: `goto search`. -/
  | badGoto (l : ℕ) (h : canfail = false) : getitabCfg canfail (.scan l) [] (.search l)
  /-- Found, good or bad with `canfail`: `if locked != 0 { unlock(&ifaceLock) }; return m`. -/
  | found (l : ℕ) :
      getitabCfg canfail (.scan l) (if l ≠ 0 then [.release .iface] else []) .ret
  /-- End of the bucket: `locked++`. -/
  | endBucket (l : ℕ) : getitabCfg canfail (.scan l) [] (.top (l + 1))
  /-- `locked < 2` fails. -/
  | exitLoop (l : ℕ) (hl : 2 ≤ l) : getitabCfg canfail (.top l) [] (.alloc l)
  /-- `m = (*itab)(persistentalloc(...))`: a path of `persistentalloc1` that returns. -/
  | persistent (l : ℕ) (es : List LockEv) (hp : Path persistentalloc1Cfg .start es .ret) :
      getitabCfg canfail (.alloc l) es (.search l)
  /-- A step of the method scan. -/
  | step (l : ℕ) : getitabCfg canfail (.search l) [] (.search l)
  /-- A missing method and `!canfail`: `if locked != 0 { unlock(&ifaceLock) }; panic(...)`. -/
  | missingPanic (l : ℕ) (h : canfail = false) :
      getitabCfg canfail (.search l) (if l ≠ 0 then [.release .iface] else []) .panic
  /-- A missing method and `canfail`: `m.bad = 1; break`. -/
  | missingBad (l : ℕ) (h : canfail = true) : getitabCfg canfail (.search l) [] (.searched l)
  /-- Every method found. -/
  | allFound (l : ℕ) : getitabCfg canfail (.search l) [] (.searched l)
  /-- `if locked == 0 { throw("invalid itab locking") }`. -/
  | invalid : getitabCfg canfail (.searched 0) [] .throw
  /-- `m.link = hash[h]; atomicstorep(...); unlock(&ifaceLock)`, then the `return`. -/
  | publish (l : ℕ) (hl : l ≠ 0) : getitabCfg canfail (.searched l) [.release .iface] .ret

/-- The locks `getitab` holds: `ifaceLock` once the second pass has taken it. -/
def GetitabPt.held : GetitabPt → List Lock
  | .top l => if 2 ≤ l then [.iface] else []
  | .scan l | .alloc l | .search l | .searched l => if l = 0 then [] else [.iface]
  | _ => []

def GetitabPt.exit : GetitabPt → Bool
  | .ret | .panic => true
  | _ => false

theorem getitab_typing (canfail : Bool) : Typing (getitabCfg canfail) GetitabPt.held := by
  intro p es q h
  cases h with
  | body l hl => by_cases h0 : l = 0 <;> simp [GetitabPt.held, applyEvs, h0, hl, Nat.not_le.2 hl]
  | found l | missingPanic l _ => by_cases h0 : l = 0 <;> simp [GetitabPt.held, applyEvs, h0]
  | endBucket l =>
    by_cases h0 : l = 0
    · simp [GetitabPt.held, applyEvs, h0]
    · simp [GetitabPt.held, applyEvs, h0, (by omega : 2 ≤ l + 1)]
  | exitLoop l hl => simp [GetitabPt.held, applyEvs, hl, Nat.ne_of_gt (by omega : 0 < l)]
  | persistent l es hp =>
    have hbal := hp.balanced persistentalloc1_typing rfl rfl
    by_cases h0 : l = 0
    · simpa [GetitabPt.held, h0] using hbal
    · simpa [GetitabPt.held, h0] using applyEvs_append_held
        (fun e he => by rw [persistentalloc1_lock hp e he]; decide) hbal
  | publish l hl => simp [GetitabPt.held, applyEvs, hl]
  | _ => rfl

/-! ### `mCentral_FreeSpan`, `mCentral_CacheSpan` and `mCentral_UncacheSpan` -/

/-- Program points of `mCentral_FreeSpan`. -/
inductive MCentralFreeSpanPt where
  | start
  /-- After the splice `end.ptr().next = s.freelist; s.freelist = start; s.ref -= uint16(n)`. -/
  | spliced
  /-- After `lock(&c.lock)`. -/
  | locked
  | ret
  | throw
deriving DecidableEq

/-- The control flow of `mCentral_FreeSpan` for one value of `preserve`. -/
inductive mCentralFreeSpanCfg (preserve : Bool) :
    MCentralFreeSpanPt → List LockEv → MCentralFreeSpanPt → Prop
  /-- `throw("freespan into cached span")`. -/
  | incache : mCentralFreeSpanCfg preserve .start [] .throw
  | splice : mCentralFreeSpanCfg preserve .start [] .spliced
  /-- `if s.next == nil { throw("can't preserve unlinked span") }`. -/
  | unlinked (h : preserve = true) : mCentralFreeSpanCfg preserve .spliced [] .throw
  /-- `atomicstore(&s.sweepgen, mheap_.sweepgen); return false`. -/
  | preserved (h : preserve = true) : mCentralFreeSpanCfg preserve .spliced [] .ret
  | lock (h : preserve = false) : mCentralFreeSpanCfg preserve .spliced [.acquire .central] .locked
  /-- `if s.ref != 0 { unlock(&c.lock); return false }`. -/
  | inUse : mCentralFreeSpanCfg preserve .locked [.release .central] .ret
  /-- The span is freed: `unlock(&c.lock)`, `mHeap_Free`, `return true`. -/
  | freed : mCentralFreeSpanCfg preserve .locked [.release .central] .ret

def MCentralFreeSpanPt.held : MCentralFreeSpanPt → List Lock
  | .locked => [.central]
  | _ => []

def MCentralFreeSpanPt.exit : MCentralFreeSpanPt → Bool
  | .ret => true
  | _ => false

theorem mCentralFreeSpan_typing (preserve : Bool) :
    Typing (mCentralFreeSpanCfg preserve) MCentralFreeSpanPt.held := by
  intro p es q h; cases h <;> decide

/-- Program points of `mCentral_CacheSpan`. -/
inductive MCentralCacheSpanPt where
  | start
  /-- At `retry:`, `c.lock` held. -/
  | retry
  /-- In the scan of `c.nonempty`. -/
  | nonempty
  /-- Sweeping a span claimed from `c.nonempty`. -/
  | sweepNonempty
  /-- In the scan of `c.empty`. -/
  | empty
  /-- Sweeping a span claimed from `c.empty`. -/
  | sweepEmpty
  /-- After `unlock(&c.lock)`, at `s = mCentral_Grow(c)`. -/
  | grow
  /-- After `lock(&c.lock)` to insert the grown span. -/
  | insert
  /-- At `havespan:`. -/
  | havespan
  | ret
  | throw
deriving DecidableEq

/-- `mSpan_Sweep(s, true)` (mgcsweep.go, not in the source): a sweep frees nothing, or calls
`mCentral_FreeSpan` with `preserve = true`. -/
def SweepEvs (es : List LockEv) : Prop :=
  es = [] ∨ Path (mCentralFreeSpanCfg true) .start es .ret

/-- The control flow of `mCentral_CacheSpan`. -/
inductive mCentralCacheSpanCfg : MCentralCacheSpanPt → List LockEv → MCentralCacheSpanPt → Prop
  /-- `lock(&c.lock); sg := mheap_.sweepgen`. -/
  | lock : mCentralCacheSpanCfg .start [.acquire .central] .retry
  /-- `for s = c.nonempty.next; ...`. -/
  | scanNonempty : mCentralCacheSpanCfg .retry [] .nonempty
  /-- `continue`, past a span another sweeper holds or one whose claim failed. -/
  | skipNonempty : mCentralCacheSpanCfg .nonempty [] .nonempty
  /-- A claim: `mSpanList_Remove(s); mSpanList_InsertBack(&c.empty, s); unlock(&c.lock)`. -/
  | claimNonempty : mCentralCacheSpanCfg .nonempty [.release .central] .sweepNonempty
  /-- `mSpan_Sweep(s, true); goto havespan`. -/
  | sweptNonempty (es : List LockEv) (hs : SweepEvs es) :
      mCentralCacheSpanCfg .sweepNonempty es .havespan
  /-- A span that needs no sweep: moved to `c.empty`, `unlock(&c.lock); goto havespan`. -/
  | takeNonempty : mCentralCacheSpanCfg .nonempty [.release .central] .havespan
  /-- `for s = c.empty.next; ...`. -/
  | scanEmpty : mCentralCacheSpanCfg .nonempty [] .empty
  | skipEmpty : mCentralCacheSpanCfg .empty [] .empty
  /-- A claim: `mSpanList_Remove(s); mSpanList_InsertBack(&c.empty, s); unlock(&c.lock)`. -/
  | claimEmpty : mCentralCacheSpanCfg .empty [.release .central] .sweepEmpty
  /-- `mSpan_Sweep(s, true); if s.freelist.ptr() != nil { goto havespan }`. -/
  | sweptEmpty (es : List LockEv) (hs : SweepEvs es) :
      mCentralCacheSpanCfg .sweepEmpty es .havespan
  /-- Still empty: `lock(&c.lock); goto retry`. -/
  | retryEmpty (es : List LockEv) (hs : SweepEvs es) :
      mCentralCacheSpanCfg .sweepEmpty (es ++ [.acquire .central]) .retry
  /-- `break`, or the end of `c.empty`: `unlock(&c.lock)`. -/
  | noSpan : mCentralCacheSpanCfg .empty [.release .central] .grow
  /-- `if s == nil { return nil }`. -/
  | growNil : mCentralCacheSpanCfg .grow [] .ret
  /-- `lock(&c.lock)`. -/
  | grown : mCentralCacheSpanCfg .grow [.acquire .central] .insert
  /-- `mSpanList_InsertBack(&c.empty, s); unlock(&c.lock)`. -/
  | inserted : mCentralCacheSpanCfg .insert [.release .central] .havespan
  /-- `throw("empty span")`, or `throw("freelist empty")`. -/
  | emptySpan : mCentralCacheSpanCfg .havespan [] .throw
  /-- `s.incache = true; return s`. -/
  | done : mCentralCacheSpanCfg .havespan [] .ret

def MCentralCacheSpanPt.held : MCentralCacheSpanPt → List Lock
  | .retry | .nonempty | .empty | .insert => [.central]
  | _ => []

def MCentralCacheSpanPt.exit : MCentralCacheSpanPt → Bool
  | .ret => true
  | _ => false

/-- A sweep starts and ends with no lock of the four held. -/
theorem SweepEvs.balanced {es : List LockEv} (h : SweepEvs es) : applyEvs [] es = some [] := by
  rcases h with rfl | hp
  · rfl
  · exact hp.balanced (mCentralFreeSpan_typing true) rfl rfl

theorem mCentralCacheSpan_typing : Typing mCentralCacheSpanCfg MCentralCacheSpanPt.held := by
  intro p es q h
  cases h with
  | sweptNonempty es hs | sweptEmpty es hs => exact hs.balanced
  | retryEmpty es hs => simp only [applyEvs_append, MCentralCacheSpanPt.held, hs.balanced]; rfl
  | _ => decide

/-- Program points of `mCentral_UncacheSpan`. -/
inductive MCentralUncacheSpanPt where
  | start
  | locked
  | ret
  /-- `throw("uncaching full span")`, reached with `c.lock` held. -/
  | throwLocked
deriving DecidableEq

/-- The control flow of `mCentral_UncacheSpan`. -/
inductive mCentralUncacheSpanCfg :
    MCentralUncacheSpanPt → List LockEv → MCentralUncacheSpanPt → Prop
  | lock : mCentralUncacheSpanCfg .start [.acquire .central] .locked
  /-- `s.incache = false; if s.ref == 0 { throw("uncaching full span") }`. -/
  | full : mCentralUncacheSpanCfg .locked [] .throwLocked
  /-- The move to `c.nonempty` when it has free slots, then `unlock(&c.lock)`. -/
  | done : mCentralUncacheSpanCfg .locked [.release .central] .ret

def MCentralUncacheSpanPt.held : MCentralUncacheSpanPt → List Lock
  | .locked | .throwLocked => [.central]
  | _ => []

def MCentralUncacheSpanPt.exit : MCentralUncacheSpanPt → Bool
  | .ret => true
  | _ => false

theorem mCentralUncacheSpan_typing :
    Typing mCentralUncacheSpanCfg MCentralUncacheSpanPt.held := by
  intro p es q h; cases h <;> decide

/-! ### Balance -/

/-- **Lock balance on every path.**  In `chansend`, `chanrecv` with `recvclosed`, `closechan`,
`getitab` (for either `canfail`), `mCentral_CacheSpan`, `mCentral_UncacheSpan`,
`mCentral_FreeSpan` (for either `preserve`) and `persistentalloc1`, no path acquires a lock it
already holds or releases one it does not hold, and every path that returns, parks
(`goparkunlock` releasing its lock) or panics has released every lock it acquired.  The paths
include the `goto retry` and `goto havespan` of `CacheSpan`, the `goto search` of `getitab` from
either pass, and the wake-ups of `chansend` and `chanrecv`. -/
theorem lock_balance :
    LockBalanced chansendCfg .start ChansendPt.exit ∧
    LockBalanced chanrecvCfg .start ChanrecvPt.exit ∧
    LockBalanced closechanCfg .start ClosechanPt.exit ∧
    (∀ canfail, LockBalanced (getitabCfg canfail) .start GetitabPt.exit) ∧
    LockBalanced mCentralCacheSpanCfg .start MCentralCacheSpanPt.exit ∧
    LockBalanced mCentralUncacheSpanCfg .start MCentralUncacheSpanPt.exit ∧
    (∀ preserve, LockBalanced (mCentralFreeSpanCfg preserve) .start MCentralFreeSpanPt.exit) ∧
    LockBalanced persistentalloc1Cfg .start Persistentalloc1Pt.exit :=
  ⟨.of_typing chansend_typing (by rfl) fun q => by cases q <;> decide,
    .of_typing chanrecv_typing (by rfl) fun q => by cases q <;> decide,
    .of_typing closechan_typing (by rfl) fun q => by cases q <;> decide,
    fun canfail => .of_typing (getitab_typing canfail) (by rfl) fun q => by
      cases q <;> simp [GetitabPt.exit, GetitabPt.held],
    .of_typing mCentralCacheSpan_typing (by rfl) fun q => by cases q <;> decide,
    .of_typing mCentralUncacheSpan_typing (by rfl) fun q => by cases q <;> decide,
    fun preserve => .of_typing (mCentralFreeSpan_typing preserve) (by rfl) fun q => by
      cases q <;> decide,
    .of_typing persistentalloc1_typing (by rfl) fun q => by
      cases q <;> simp [Persistentalloc1Pt.exit, Persistentalloc1Pt.held]⟩

end GoRuntime.Locks
