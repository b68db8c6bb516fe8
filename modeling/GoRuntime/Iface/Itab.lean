/-
**The itab cache of `getitab`.**

`getitab(inter, typ, canfail)` finds the itab of an interface type and a concrete type in a
hash table of `hashSize` buckets, each a list linked through `m.link`.  It looks twice: once
without `ifaceLock`, once with it; when both miss it builds a new itab, runs the method scan of
`GoRuntime.Iface.Scan`, and publishes the itab at the head of its bucket.  An itab whose scan
failed is published with `bad = 1` when `canfail` is set, so later `, ok` conversions fail fast;
a later conversion without `canfail` that meets it jumps to `search` to find the missing method
for its panic.

A call takes three steps: its start, the whole unlocked pass, and the whole locked section.
The unlocked pass is one step because the itab published at a bucket's head has its `link` and
its fields set before `atomicstorep`, and nothing is changed once published, so the walk reads
the list as it was when it loaded the head.

* `GoRuntime.Iface.getitabSpec` — what the scan decides, with no cache;
* `GoRuntime.Iface.ItabInv` — the table holds at most one itab a pair, in its bucket, each the
  scan's answer for its pair, and every finished call returned `getitabSpec`;
* `GoRuntime.Iface.getitab_coherent` — the invariant holds on every run, hence the `, ok` and the
  panicking forms agree and the `tab.inter == inter` fast paths of `convI2I`, `assertI2I` and
  `assertI2I2` return what `getitab` would.
-/

import GoRuntime.Iface.Scan
import Mathlib.Logic.Function.Basic

set_option autoImplicit false

namespace GoRuntime.Iface

/-! ### Types, itabs and calls -/

/-- `hashSize`, the number of buckets. -/
def hashSize : ℕ := 1009

/-- The fields of a `_type` that `getitab` reads: `hash`, `*_string`, and the methods
`x.mhdr` of its `uncommontype`, `none` when `x == nil`. -/
structure RType where
  hash : ℕ
  str : String
  x : Option (List Method)
deriving DecidableEq, Repr

/-- An `interfacetype`: its own `_type`, `inter.typ`, and its methods `inter.mhdr`. -/
structure InterfaceType where
  typ : RType
  mhdr : List IMethod
deriving DecidableEq, Repr

/-- The type descriptors of a program, by address; they never change. -/
structure Types where
  inter : ℕ → InterfaceType
  type : ℕ → RType

/-- An `itab`: the addresses of its interface and concrete types, `bad`, and `fun`.  The
entries of `fun` written before the scan of a bad itab fails are never read and are left
out. -/
structure Itab where
  inter : ℕ
  typ : ℕ
  bad : Bool
  fns : List ℕ
deriving DecidableEq, Repr

/-- `TypeAssertionError{interfaceString, concreteString, assertedString, missingMethod}`. -/
structure TypeAssertionError where
  iface : String
  concrete : String
  asserted : String
  missingMethod : String
deriving DecidableEq, Repr

/-- How a call of `getitab` ends: an itab, `nil`, a panic, a `throw`, or the nil dereference
of `m.bad = 1` or `m.link = hash[h]` with `m == nil`. -/
inductive Result where
  | tab (m : Itab)
  | nil
  | panic (e : TypeAssertionError)
  | throw (msg : String)
  | nilDeref
deriving DecidableEq, Repr

/-- The piece of a call that runs next; `locking xs` waits for `ifaceLock` with `x.mhdr = xs`
in hand. -/
inductive Pc where
  | idle
  | start
  | locking (xs : List Method)
  | done (r : Result)
deriving DecidableEq, Repr

/-- One call `getitab(inter, typ, canfail)`. -/
structure Call where
  inter : ℕ
  typ : ℕ
  canfail : Bool
  pc : Pc
deriving DecidableEq, Repr

/-- The hash table, bucket by bucket, and the calls. -/
structure State where
  hash : ℕ → List Itab
  calls : ℕ → Call

/-- No itab and no call yet. -/
def State.init : State := ⟨fun _ => [], fun _ => ⟨0, 0, false, .idle⟩⟩

namespace State

variable (st : State)

/-- Move call `k` to `pc`. -/
def setPc (k : ℕ) (pc : Pc) : State :=
  { st with calls := Function.update st.calls k { st.calls k with pc := pc } }

@[simp] theorem setPc_hash (k : ℕ) (pc : Pc) : (st.setPc k pc).hash = st.hash := rfl

theorem setPc_calls (k j : ℕ) (pc : Pc) :
    (st.setPc k pc).calls j = if j = k then { st.calls k with pc := pc } else st.calls j := by
  by_cases h : j = k
  · subst h; simp [setPc]
  · simp [setPc, Function.update_noteq h, h]

end State

/-- `m.link = hash[h]; atomicstorep(&hash[h], m)`, when there is an itab to publish. -/
def pushItab (hash : ℕ → List Itab) (h : ℕ) : Option Itab → ℕ → List Itab
  | none => hash
  | some m => Function.update hash h (m :: hash h)

/-- Publishing only adds an itab at the head of its bucket. -/
theorem mem_pushItab {hash : ℕ → List Itab} {h b : ℕ} {m : Option Itab} {m' : Itab}
    (hm : m' ∈ hash b) : m' ∈ pushItab hash h m b := by
  cases m with
  | none => exact hm
  | some m =>
    by_cases hb : b = h
    · subst hb; simp [pushItab, hm]
    · simpa [pushItab, Function.update_noteq hb] using hm

/-! ### `getitab` -/

section Getitab

variable (tys : Types)

/-- The bucket of a pair: `h := inter.typ.hash; h += 17 * typ.hash; h %= hashSize`, on
`uint32`. -/
def itabHash (inter typ : ℕ) : ℕ :=
  ((tys.inter inter).typ.hash + 17 * (tys.type typ).hash) % 2 ^ 32 % hashSize

/-- The walk `for m = hash[h]; m != nil; m = m.link` looking for `m.inter == inter &&
m._type == typ`. -/
def findItab (bucket : List Itab) (inter typ : ℕ) : Option Itab :=
  bucket.find? fun m => m.inter == inter && m.typ == typ

/-- The end of `getitab` after the scan: `if locked == 0 { throw }`, publish `m`, unlock, and
return `nil` for a bad itab. -/
def publishItab (locked : Bool) (m : Itab) : Result × Option Itab :=
  if !locked then (.throw "invalid itab locking", none)
  else (if m.bad then .nil else .tab m, some m)

/-- From the label `search` to the end of `getitab`, for call `cl` with `x.mhdr = xs`, the itab
`m` (`none` for `nil`) and the lock held or not: the result, and the itab to publish. -/
def search (cl : Call) (xs : List Method) (m : Option Itab) (locked : Bool) :
    Result × Option Itab :=
  match lockstep (tys.inter cl.inter).mhdr xs 0 with
  | .error i =>
    if !cl.canfail then
      (.panic ⟨"", (tys.type cl.typ).str, (tys.inter cl.inter).typ.str, i.name⟩, none)
    else match m with
      | none => (.nilDeref, none)
      | some m => publishItab locked { m with bad := true }
  | .ok ps =>
    match m with
    | none => if !locked then (.throw "invalid itab locking", none) else (.nilDeref, none)
    | some m => publishItab locked { m with fns := ps.map Prod.snd }

/-- What a pass over the bucket returns when it finds `m` for its pair: `m`, or for a bad `m`
`nil` with `canfail` and otherwise the end of `goto search` with `m == nil`. -/
def found (cl : Call) (xs : List Method) (m : Itab) (locked : Bool) : Result :=
  if m.bad then (if cl.canfail then .nil else (search tys cl xs none locked).1) else .tab m

/-- `getitab` from its entry to the end of its first pass over the bucket, without the lock:
where it leaves call `cl`. -/
def startPc (hash : ℕ → List Itab) (cl : Call) : Pc :=
  match (tys.inter cl.inter).mhdr, (tys.type cl.typ).x with
  | [], _ => .done (.throw "internal error - misuse of itab")
  | i :: _, none => .done (if cl.canfail then .nil else
      .panic ⟨"", (tys.type cl.typ).str, (tys.inter cl.inter).typ.str, i.name⟩)
  | _, some xs =>
    match findItab (hash (itabHash tys cl.inter cl.typ)) cl.inter cl.typ with
    | some m => .done (found tys cl xs m false)
    | none => .locking xs

/-- `lock(&ifaceLock)` and the second pass over the bucket; when it misses too, a new itab, the
scan, and the itab to publish at the head of the bucket, up to `unlock(&ifaceLock)`. -/
def lockedSection (hash : ℕ → List Itab) (cl : Call) (xs : List Method) : Result × Option Itab :=
  match findItab (hash (itabHash tys cl.inter cl.typ)) cl.inter cl.typ with
  | some m => (found tys cl xs m true, none)
  | none => search tys cl xs (some ⟨cl.inter, cl.typ, false, []⟩) true

/-- The unlocked pass of call `k`. -/
def getitabStart (st : State) (k : ℕ) : State := st.setPc k (startPc tys st.hash (st.calls k))

/-- The locked section of call `k`, with its itab published. -/
def getitabLocked (st : State) (k : ℕ) (xs : List Method) : State :=
  let r := lockedSection tys st.hash (st.calls k) xs
  let hash := pushItab st.hash (itabHash tys (st.calls k).inter (st.calls k).typ) r.2
  ({ st with hash := hash } : State).setPc k (.done r.1)

/-- One step: a goroutine calls `getitab`, or a call takes its next piece. -/
inductive Step : State → State → Prop where
  | begin (st : State) (k inter typ : ℕ) (canfail : Bool) (h : (st.calls k).pc = .idle) :
      Step st { st with calls := Function.update st.calls k ⟨inter, typ, canfail, .start⟩ }
  | start (st : State) (k : ℕ) (h : (st.calls k).pc = .start) : Step st (getitabStart tys st k)
  | locked (st : State) (k : ℕ) (xs : List Method) (h : (st.calls k).pc = .locking xs) :
      Step st (getitabLocked tys st k xs)

/-- The states some run from the empty table reaches. -/
inductive Reachable : State → Prop where
  | init : Reachable State.init
  | step {st st' : State} : Reachable st → Step tys st st' → Reachable st'

/-! ### What the scan decides -/

/-- The specification side of `getitab_coherent`: what `getitab` returns for a type with
`x.mhdr = xs`, decided by the scan alone. -/
def scanResult (inter typ : ℕ) (canfail : Bool) (xs : List Method) : Result :=
  match lockstep (tys.inter inter).mhdr xs 0 with
  | .ok ps => .tab ⟨inter, typ, false, ps.map Prod.snd⟩
  | .error i => if canfail then .nil else
      .panic ⟨"", (tys.type typ).str, (tys.inter inter).typ.str, i.name⟩

/-- The specification side of `getitab_coherent`: what `getitab(inter, typ, canfail)` returns
with no cache, which every call of the cached code is proved to return. -/
def getitabSpec (inter typ : ℕ) (canfail : Bool) : Result :=
  match (tys.inter inter).mhdr, (tys.type typ).x with
  | [], _ => .throw "internal error - misuse of itab"
  | i :: _, none => if canfail then .nil else
      .panic ⟨"", (tys.type typ).str, (tys.inter inter).typ.str, i.name⟩
  | _, some xs => scanResult tys inter typ canfail xs

theorem getitabSpec_of_x {inter typ : ℕ} {xs : List Method} (canfail : Bool)
    (hm : (tys.inter inter).mhdr ≠ []) (hx : (tys.type typ).x = some xs) :
    getitabSpec tys inter typ canfail = scanResult tys inter typ canfail xs := by
  unfold getitabSpec
  split
  · contradiction
  · simp_all
  · simp_all

/-- The `, ok` form and the panicking form decide alike: without `canfail` the scan panics
exactly where with it it returns `nil`, and a found itab does not depend on `canfail`. -/
theorem scanResult_canfail {inter typ : ℕ} {xs : List Method} (canfail : Bool) :
    (scanResult tys inter typ true xs = .nil ↔ ∃ e, scanResult tys inter typ false xs = .panic e) ∧
      ∀ m, scanResult tys inter typ true xs = .tab m →
        scanResult tys inter typ canfail xs = .tab m := by
  unfold scanResult
  split <;> simp

end Getitab

/-! ### The invariant -/

section Invariant

variable {tys : Types}

/-- What the hash table holds: each itab in the bucket of its pair, at most one itab a pair in a
bucket, and each itab the scan's answer for its pair, with `bad` set exactly when the scan
fails. -/
structure TableOK (tys : Types) (hash : ℕ → List Itab) : Prop where
  placed : ∀ b, ∀ m ∈ hash b, b = itabHash tys m.inter m.typ
  nodup : ∀ b, ((hash b).map fun m => (m.inter, m.typ)).Nodup
  sound : ∀ b, ∀ m ∈ hash b, (tys.inter m.inter).mhdr ≠ [] ∧ ∃ xs, (tys.type m.typ).x = some xs ∧
    scanResult tys m.inter m.typ true xs = if m.bad then .nil else .tab m

/-- What a call has done so far: it waits for the lock with its type's methods in hand, or it
returned what `getitabSpec` says, and an itab it returned is in the table. -/
structure PcOK (tys : Types) (hash : ℕ → List Itab) (cl : Call) (pc : Pc) : Prop where
  locking : ∀ xs, pc = .locking xs → (tys.type cl.typ).x = some xs ∧ (tys.inter cl.inter).mhdr ≠ []
  done : ∀ r, pc = .done r → r = getitabSpec tys cl.inter cl.typ cl.canfail
  cached : ∀ m, pc = .done (.tab m) → m ∈ hash (itabHash tys m.inter m.typ)

/-- **The invariant of the itab cache.** -/
structure ItabInv (tys : Types) (st : State) : Prop where
  table : TableOK tys st.hash
  call : ∀ k, PcOK tys st.hash (st.calls k) (st.calls k).pc

theorem itabInv_init : ItabInv tys State.init :=
  ⟨⟨fun _ _ h => by simp [State.init] at h, fun _ => List.nodup_nil, fun _ _ h => by
    simp [State.init] at h⟩, fun _ => ⟨by simp [State.init], by simp [State.init], by
    simp [State.init]⟩⟩

theorem PcOK.mono {hash hash' : ℕ → List Itab} {cl : Call} {pc : Pc} (h : PcOK tys hash cl pc)
    (hmono : ∀ b m, m ∈ hash b → m ∈ hash' b) : PcOK tys hash' cl pc :=
  ⟨h.locking, h.done, fun m hm => hmono _ _ (h.cached m hm)⟩

theorem findItab_some {bucket : List Itab} {inter typ : ℕ} {m : Itab}
    (h : findItab bucket inter typ = some m) : m ∈ bucket ∧ m.inter = inter ∧ m.typ = typ := by
  have := List.find?_some h
  simp only [Bool.and_eq_true, beq_iff_eq] at this
  exact ⟨List.mem_of_find?_eq_some h, this⟩

theorem findItab_none {bucket : List Itab} {inter typ : ℕ}
    (h : findItab bucket inter typ = none) :
    (inter, typ) ∉ bucket.map fun m => (m.inter, m.typ) := by
  simp only [List.mem_map, Prod.mk.injEq, not_exists, not_and]
  intro m hm hi ht
  simpa [hi, ht] using List.find?_eq_none.mp h m hm

/-- A bucket pass that finds `m` returns what the scan decides: `m` is the scan's answer, and a
bad `m` means the scan fails, so `goto search` ends in the panic. -/
theorem found_eq {cl : Call} {xs : List Method} {m : Itab} (locked : Bool)
    (hs : scanResult tys cl.inter cl.typ true xs = if m.bad then .nil else .tab m) :
    found tys cl xs m locked = scanResult tys cl.inter cl.typ cl.canfail xs := by
  unfold found search
  unfold scanResult at hs ⊢
  rcases hl : lockstep (tys.inter cl.inter).mhdr xs 0 with i | ps <;> cases hb : m.bad <;>
    cases cl.canfail <;> simp_all

/-- `goto search` with `m == nil` never returns an itab. -/
theorem search_none_ne_tab (cl : Call) (xs : List Method) (locked : Bool) (m : Itab) :
    (search tys cl xs none locked).1 ≠ .tab m := by
  unfold search
  rcases lockstep (tys.inter cl.inter).mhdr xs 0 with i | ps <;> cases cl.canfail <;>
    cases locked <;> simp

theorem found_tab {cl : Call} {xs : List Method} {m m' : Itab} {locked : Bool}
    (h : found tys cl xs m locked = .tab m') : m' = m := by
  unfold found at h
  split_ifs at h
  · exact absurd h (search_none_ne_tab cl xs locked m')
  · exact (Result.tab.inj h).symm

/-- The new itab of the locked section: the result is what the scan decides, an itab is
published only for its pair, as the scan's answer, and an itab returned is the one
published. -/
theorem search_fresh (cl : Call) (xs : List Method) :
    (search tys cl xs (some ⟨cl.inter, cl.typ, false, []⟩) true).1 =
        scanResult tys cl.inter cl.typ cl.canfail xs ∧
      (∀ m, (search tys cl xs (some ⟨cl.inter, cl.typ, false, []⟩) true).2 = some m →
        m.inter = cl.inter ∧ m.typ = cl.typ ∧
          scanResult tys cl.inter cl.typ true xs = if m.bad then .nil else .tab m) ∧
      ∀ m, (search tys cl xs (some ⟨cl.inter, cl.typ, false, []⟩) true).1 = .tab m →
        (search tys cl xs (some ⟨cl.inter, cl.typ, false, []⟩) true).2 = some m := by
  unfold search scanResult publishItab
  rcases lockstep (tys.inter cl.inter).mhdr xs 0 with i | ps <;> cases cl.canfail <;> simp

/-- Publishing the itab of a missed pair keeps the table. -/
theorem TableOK.publish {hash : ℕ → List Itab} (ht : TableOK tys hash) {cl : Call}
    {xs : List Method} (hx : (tys.type cl.typ).x = some xs) (hm : (tys.inter cl.inter).mhdr ≠ [])
    (hmiss : findItab (hash (itabHash tys cl.inter cl.typ)) cl.inter cl.typ = none) :
    TableOK tys (pushItab hash (itabHash tys cl.inter cl.typ)
      (search tys cl xs (some ⟨cl.inter, cl.typ, false, []⟩) true).2) := by
  cases hr : (search tys cl xs (some ⟨cl.inter, cl.typ, false, []⟩) true).2 with
  | none => exact ht
  | some m =>
    obtain ⟨hi, hty, hs⟩ := (search_fresh cl xs).2.1 m hr
    simp only [pushItab]
    refine ⟨fun b m' hm' => ?_, fun b => ?_, fun b m' hm' => ?_⟩
    · by_cases hb : b = itabHash tys cl.inter cl.typ
      · subst hb
        simp only [Function.update_same, List.mem_cons] at hm'
        rcases hm' with rfl | hm'
        · rw [hi, hty]
        · exact ht.placed _ _ hm'
      · simpa [Function.update_noteq hb] using
          ht.placed b m' (by simpa [Function.update_noteq hb] using hm')
    · by_cases hb : b = itabHash tys cl.inter cl.typ
      · subst hb
        simp only [Function.update_same, List.map_cons, List.nodup_cons]
        exact ⟨by rw [hi, hty]; exact findItab_none hmiss, ht.nodup _⟩
      · simpa [Function.update_noteq hb] using ht.nodup b
    · by_cases hb : b = itabHash tys cl.inter cl.typ
      · subst hb
        simp only [Function.update_same, List.mem_cons] at hm'
        rcases hm' with rfl | hm'
        · exact ⟨by rw [hi]; exact hm, xs, by rw [hty]; exact hx, by rw [hi, hty]; exact hs⟩
        · exact ht.sound _ _ hm'
      · exact ht.sound b m' (by simpa [Function.update_noteq hb] using hm')

/-! ### Every step keeps the invariant -/

theorem getitabSpec_of_found {hash : ℕ → List Itab} {cl : Call} {xs : List Method} {m : Itab}
    (ht : TableOK tys hash) (hx : (tys.type cl.typ).x = some xs)
    (hm : (tys.inter cl.inter).mhdr ≠ [])
    (hf : findItab (hash (itabHash tys cl.inter cl.typ)) cl.inter cl.typ = some m)
    (locked : Bool) : PcOK tys hash cl (.done (found tys cl xs m locked)) := by
  obtain ⟨hmem, hi, hty⟩ := findItab_some hf
  obtain ⟨-, xs', hx', hs⟩ := ht.sound _ m hmem
  rw [hty, hx] at hx'
  cases hx'
  refine ⟨(fun _ h => by cases h), (fun r hr => ?_), (fun m' hm' => ?_)⟩
  · cases hr
    rw [getitabSpec_of_x tys _ hm hx, found_eq locked (by rw [← hi, ← hty]; exact hs)]
  · cases found_tab (Pc.done.inj hm')
    rwa [hi, hty]

/-- A call moved to a piece whose facts hold keeps the invariant; no other call moves. -/
theorem ItabInv.setPc {st : State} (h : ItabInv tys st) {k : ℕ} {pc : Pc}
    (hpc : PcOK tys st.hash (st.calls k) pc) : ItabInv tys (st.setPc k pc) := by
  refine ⟨h.table, fun j => ?_⟩
  rw [State.setPc_calls]
  split_ifs with hj
  · exact ⟨hpc.locking, hpc.done, hpc.cached⟩
  · exact h.call j

/-- The unlocked pass leaves a call waiting for the lock with its type's methods, or returns
what the scan decides. -/
theorem startPc_ok {hash : ℕ → List Itab} (ht : TableOK tys hash) (cl : Call) :
    PcOK tys hash cl (startPc tys hash cl) := by
  unfold startPc
  rcases hm : (tys.inter cl.inter).mhdr with _ | ⟨i, is⟩ <;>
    rcases hx : (tys.type cl.typ).x with _ | xs <;> dsimp only
  · exact ⟨(fun _ h => by cases h), (fun r hr => by cases hr; simp [getitabSpec, hm]),
      (fun _ h => by cases h)⟩
  · exact ⟨(fun _ h => by cases h), (fun r hr => by cases hr; simp [getitabSpec, hm]),
      (fun _ h => by cases h)⟩
  · exact ⟨(fun _ h => by cases h), (fun r hr => by cases hr; simp [getitabSpec, hm, hx]),
      (fun _ h => by cases hc : cl.canfail <;> simp [hc] at h)⟩
  · cases hf : findItab (hash (itabHash tys cl.inter cl.typ)) cl.inter cl.typ with
    | some m => exact getitabSpec_of_found ht hx (by simp [hm]) hf false
    | none => exact ⟨(fun _ h => by cases h; exact ⟨hx, by simp [hm]⟩), (fun _ h => by cases h),
        (fun _ h => by cases h)⟩

/-- The locked section publishes only the itab of a missed pair, keeping the table, and
returns what the scan decides. -/
theorem lockedSection_ok {hash : ℕ → List Itab} (ht : TableOK tys hash) {cl : Call}
    {xs : List Method} (hx : (tys.type cl.typ).x = some xs) (hm : (tys.inter cl.inter).mhdr ≠ []) :
    TableOK tys (pushItab hash (itabHash tys cl.inter cl.typ) (lockedSection tys hash cl xs).2) ∧
      PcOK tys (pushItab hash (itabHash tys cl.inter cl.typ) (lockedSection tys hash cl xs).2) cl
        (.done (lockedSection tys hash cl xs).1) := by
  unfold lockedSection
  cases hf : findItab (hash (itabHash tys cl.inter cl.typ)) cl.inter cl.typ with
  | some m => exact ⟨ht, getitabSpec_of_found ht hx hm hf true⟩
  | none =>
    obtain ⟨hr, hpub, htab⟩ := @search_fresh tys cl xs
    refine ⟨ht.publish hx hm hf, (fun _ h => by cases h), (fun r h => ?_), (fun m h => ?_)⟩
    · cases h
      rw [hr, getitabSpec_of_x tys _ hm hx]
    · have hm' := htab m (Pc.done.inj h)
      obtain ⟨hi, hty, -⟩ := hpub m hm'
      rw [hm', hi, hty]
      simp [pushItab]

/-- **Every step keeps the invariant of the itab cache.** -/
theorem ItabInv.step {st st' : State} (h : ItabInv tys st) (hs : Step tys st st') :
    ItabInv tys st' := by
  cases hs with
  | begin k inter typ canfail hidle =>
    refine ⟨h.table, fun j => ?_⟩
    by_cases hj : j = k
    · subst hj
      simpa using (⟨(fun _ h => by cases h), (fun _ h => by cases h), (fun _ h => by cases h)⟩ :
        PcOK tys st.hash ⟨inter, typ, canfail, .start⟩ .start)
    · simpa [Function.update_noteq hj] using h.call j
  | start k _ => exact h.setPc (startPc_ok h.table _)
  | locked k xs hpc =>
    obtain ⟨hx, hm⟩ := (h.call k).locking xs hpc
    obtain ⟨ht, hpc'⟩ := lockedSection_ok h.table hx hm
    exact @ItabInv.setPc tys ⟨_, st.calls⟩ ⟨ht, fun j => (h.call j).mono fun _ _ => mem_pushItab⟩
      k _ hpc'

theorem itabInv_reachable {st : State} (hr : Reachable tys st) : ItabInv tys st := by
  induction hr with
  | init => exact itabInv_init
  | step _ hs ih => exact ih.step hs

end Invariant

/-! ### What the cache answers -/

section Answers

variable {tys : Types}

theorem getitabSpec_tab_bad {inter typ : ℕ} {canfail : Bool} {m : Itab}
    (h : getitabSpec tys inter typ canfail = .tab m) : m.bad = false := by
  unfold getitabSpec scanResult at h
  split at h
  · cases h
  · cases canfail <;> cases h
  · split at h
    · cases h; rfl
    · cases canfail <;> cases h

/-- No call of `getitab` that the scan decides ends in the nil dereference or in "invalid itab
locking". -/
theorem getitabSpec_ne {inter typ : ℕ} {canfail : Bool} :
    getitabSpec tys inter typ canfail ≠ .nilDeref ∧
      getitabSpec tys inter typ canfail ≠ .throw "invalid itab locking" := by
  unfold getitabSpec scanResult
  split
  · simp
  · cases canfail <;> simp
  · split <;> (try cases canfail) <;> simp

/-- A good itab of the table is what `getitab` returns for its pair, with or without
`canfail`. -/
theorem TableOK.getitabSpec_eq {hash : ℕ → List Itab} (ht : TableOK tys hash) {b : ℕ} {m : Itab}
    (hm : m ∈ hash b) (hbad : m.bad = false) (canfail : Bool) :
    getitabSpec tys m.inter m.typ canfail = .tab m := by
  obtain ⟨hne, xs, hx, hs⟩ := ht.sound b m hm
  rw [getitabSpec_of_x tys canfail hne hx]
  exact (scanResult_canfail tys canfail).2 m (by simpa [hbad] using hs)

/-- `convI2I(inter, i)`: the itab of the result, for `i.tab` (`none` for a nil `i`), with
`getitab` the call the slow path makes. -/
def convI2I (getitab : ℕ → ℕ → Bool → Result) (inter : ℕ) : Option Itab → Result
  | none => .nil
  | some tab => if tab.inter = inter then .tab tab else getitab inter tab.typ false

/-- `assertI2I(inter, i, r)`: the itab stored in `*r`; a nil `i` panics. -/
def assertI2I (tys : Types) (getitab : ℕ → ℕ → Bool → Result) (inter : ℕ) :
    Option Itab → Result
  | none => .panic ⟨"", "", (tys.inter inter).typ.str, ""⟩
  | some tab => if tab.inter = inter then .tab tab else getitab inter tab.typ false

/-- `assertI2I2(inter, i, r)`: the itab stored in `*r`, `nil` when it returns `false`. -/
def assertI2I2 (getitab : ℕ → ℕ → Bool → Result) (inter : ℕ) : Option Itab → Result
  | none => .nil
  | some tab => if tab.inter ≠ inter then getitab inter tab.typ true else .tab tab

/-- The `tab.inter == inter` fast paths return what `getitab` would, for a good itab of the
table; the slow paths call it. -/
theorem fastPaths_eq {hash : ℕ → List Itab} (ht : TableOK tys hash) {b : ℕ} {m : Itab}
    (hm : m ∈ hash b) (hbad : m.bad = false) (inter : ℕ) :
    convI2I (getitabSpec tys) inter (some m) = getitabSpec tys inter m.typ false ∧
      assertI2I tys (getitabSpec tys) inter (some m) = getitabSpec tys inter m.typ false ∧
      assertI2I2 (getitabSpec tys) inter (some m) = getitabSpec tys inter m.typ true := by
  by_cases hi : m.inter = inter
  · subst hi
    simp only [convI2I, assertI2I, assertI2I2, if_true, ne_eq, not_true_eq_false, if_false,
      ht.getitabSpec_eq hm hbad, and_self]
  · simp [convI2I, assertI2I, assertI2I2, hi]

end Answers

/-- **The itab cache is coherent.**  On every state some interleaving of `getitab` calls
reaches: each itab lies in the bucket of its pair and no bucket holds two itabs for one pair;
a cached itab has `bad = 1` exactly when the method scan fails for its pair; every call that
returned returned what the scan decides with no cache (an itab, not bad and in the table, or
`nil`, or the panic naming the first missing method), never the nil dereference or "invalid
itab locking" of the `goto search` path; `getitab(inter, typ, true)` is `nil` exactly when
`getitab(inter, typ, false)` panics; and the `tab.inter == inter` fast paths of `convI2I`,
`assertI2I` and `assertI2I2` on a cached itab return what `getitab` would. -/
theorem getitab_coherent (tys : Types) {st : State} (hr : Reachable tys st) :
    (∀ b, ∀ m ∈ st.hash b, b = itabHash tys m.inter m.typ) ∧
      (∀ b, ((st.hash b).map fun m => (m.inter, m.typ)).Nodup) ∧
      (∀ b, ∀ m ∈ st.hash b, ∃ xs, (tys.type m.typ).x = some xs ∧
        (m.bad = true ↔ ∃ i, lockstep (tys.inter m.inter).mhdr xs 0 = .error i)) ∧
      (∀ k r, (st.calls k).pc = .done r →
        r = getitabSpec tys (st.calls k).inter (st.calls k).typ (st.calls k).canfail ∧
        r ≠ .nilDeref ∧ r ≠ .throw "invalid itab locking" ∧
        ∀ m, r = .tab m → m.bad = false ∧ m ∈ st.hash (itabHash tys m.inter m.typ)) ∧
      (∀ inter typ, (tys.inter inter).mhdr ≠ [] →
        (getitabSpec tys inter typ true = .nil ↔ ∃ e, getitabSpec tys inter typ false = .panic e)) ∧
      (∀ b, ∀ m ∈ st.hash b, m.bad = false → ∀ inter,
        convI2I (getitabSpec tys) inter (some m) = getitabSpec tys inter m.typ false ∧
        assertI2I tys (getitabSpec tys) inter (some m) = getitabSpec tys inter m.typ false ∧
        assertI2I2 (getitabSpec tys) inter (some m) = getitabSpec tys inter m.typ true) := by
  have h := itabInv_reachable hr
  refine ⟨h.table.placed, h.table.nodup, fun b m hm => ?_, fun k r hk => ?_,
    fun inter typ hne => ?_, fun b m hm hbad inter => fastPaths_eq h.table hm hbad inter⟩
  · obtain ⟨-, xs, hx, hs⟩ := h.table.sound b m hm
    refine ⟨xs, hx, ?_⟩
    unfold scanResult at hs
    split at hs <;> cases hb : m.bad <;> simp_all
  · have hspec := (h.call k).done r hk
    refine ⟨hspec, hspec ▸ getitabSpec_ne.1, hspec ▸ getitabSpec_ne.2, fun m hm => ?_⟩
    subst hm
    exact ⟨getitabSpec_tab_bad hspec.symm, (h.call k).cached m hk⟩
  · rcases hm : (tys.inter inter).mhdr with _ | ⟨i, is⟩
    · exact absurd hm hne
    rcases hx : (tys.type typ).x with _ | xs
    · simp [getitabSpec, hm, hx]
    · rw [getitabSpec_of_x tys _ hne hx, getitabSpec_of_x tys _ hne hx]
      exact (scanResult_canfail tys true).1

/-- A `, ok` conversion caches a negative itab, then a panicking conversion of the same pair
meets it, jumps to `search`, and panics naming the missing method `Read`. -/
theorem getitab_coherent_cached_bad :
    ∃ tys : Types, tys = ⟨fun _ => ⟨⟨1, "Reader", none⟩, [⟨"Read", 0, 7⟩]⟩,
        fun _ => ⟨2, "T", some []⟩⟩ ∧
      ∃ st, Reachable tys st ∧ (st.calls 1).pc = .done (.panic ⟨"", "T", "Reader", "Read"⟩) ∧
        ∀ k r, (st.calls k).pc = .done r →
          r = getitabSpec tys (st.calls k).inter (st.calls k).typ (st.calls k).canfail :=
  let tys : Types := ⟨fun _ => ⟨⟨1, "Reader", none⟩, [⟨"Read", 0, 7⟩]⟩, fun _ => ⟨2, "T", some []⟩⟩
  have hr : Reachable tys _ :=
    .step (.step (.step (.step (.step .init (.begin _ 0 0 0 true rfl)) (.start _ 0 rfl))
      (.locked _ 0 [] rfl)) (.begin _ 1 0 0 false rfl)) (.start _ 1 rfl)
  ⟨tys, rfl, _, hr, rfl, fun k r hk => ((getitab_coherent tys hr).2.2.2.1 k r hk).1⟩

/-! ### `iterate_itabs` -/

/-- `iterate_itabs(fn)`: the itabs `fn` is called with, in order.  It visits the buckets
`hash[0]`, `hash[1]`, … in turn, each along its `link` chain from the head. -/
def iterateItabs (hash : ℕ → List Itab) : List Itab := (List.range hashSize).flatMap hash

theorem itabHash_lt (tys : Types) (inter typ : ℕ) : itabHash tys inter typ < hashSize :=
  Nat.mod_lt _ (by decide)

/-- **`iterate_itabs` visits every cached itab, and each pair once.**  Take any state that some
interleaving of `getitab` calls reaches.  The itabs `iterate_itabs` hands to `fn` are exactly
those in the table, and no two are for the same interface and concrete type. -/
theorem iterate_itabs_once (tys : Types) {st : State} (hr : Reachable tys st) :
    (∀ m, m ∈ iterateItabs st.hash ↔ ∃ b, m ∈ st.hash b) ∧
      ((iterateItabs st.hash).map fun m => (m.inter, m.typ)).Nodup := by
  have ht := (itabInv_reachable hr).table
  refine ⟨fun m => ⟨fun hm => ?_, fun ⟨b, hm⟩ => ?_⟩, ?_⟩
  · obtain ⟨b, -, hb⟩ := List.mem_flatMap.1 hm
    exact ⟨b, hb⟩
  · refine List.mem_flatMap.2 ⟨b, List.mem_range.2 ?_, hm⟩
    rw [ht.placed b m hm]
    exact itabHash_lt tys _ _
  · rw [iterateItabs, List.map_flatMap]
    refine List.nodup_flatMap.2 ⟨fun b _ => ht.nodup b, (List.nodup_range hashSize).imp ?_⟩
    -- a pair lies only in its own bucket, so two buckets share no pair
    intro a b hab p hpa hpb
    obtain ⟨m, hm, rfl⟩ := List.mem_map.1 hpa
    obtain ⟨m', hm', hpair⟩ := List.mem_map.1 hpb
    simp only [Prod.mk.injEq] at hpair
    exact hab (by rw [ht.placed a m hm, ht.placed b m' hm', hpair.1, hpair.2])

/-- A panicking conversion caches a good itab for type `0`, which has `Read`, and a `, ok`
conversion a bad one for type `1`, which lacks it: `iterate_itabs` visits both, once each. -/
theorem iterate_itabs_good_and_bad :
    ∃ tys : Types, tys = ⟨fun _ => ⟨⟨1, "Reader", none⟩, [⟨"Read", 0, 7⟩]⟩,
        fun t => if t = 0 then ⟨2, "T", some [⟨"Read", 7, 100, 0⟩]⟩ else ⟨3, "U", some []⟩⟩ ∧
      ∃ st, Reachable tys st ∧ ⟨0, 0, false, [100]⟩ ∈ iterateItabs st.hash ∧
        ⟨0, 1, true, []⟩ ∈ iterateItabs st.hash ∧
        ((iterateItabs st.hash).map fun m => (m.inter, m.typ)).Nodup :=
  let tys : Types := ⟨fun _ => ⟨⟨1, "Reader", none⟩, [⟨"Read", 0, 7⟩]⟩,
    fun t => if t = 0 then ⟨2, "T", some [⟨"Read", 7, 100, 0⟩]⟩ else ⟨3, "U", some []⟩⟩
  have hr : Reachable tys _ :=
    .step (.step (.step (.step (.step (.step .init (.begin _ 0 0 0 false rfl)) (.start _ 0 rfl))
      (.locked _ 0 _ rfl)) (.begin _ 1 0 1 true rfl)) (.start _ 1 rfl)) (.locked _ 1 _ rfl)
  have hit := iterate_itabs_once tys hr
  ⟨tys, rfl, _, hr, (hit.1 _).2 ⟨35, by decide⟩, (hit.1 _).2 ⟨52, by decide⟩, hit.2⟩

end GoRuntime.Iface
