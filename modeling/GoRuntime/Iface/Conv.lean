/-
**Interface conversions and type assertions.**

An `interface{}` value (`eface`) is a type pointer and a data word.  A non-empty interface value
(`iface`) is an itab pointer and a data word.

`convT2E` and `convT2I` box a value of a concrete type `t`:
- a direct type (`isDirectIface`, a pointer-shaped type) is copied into the data word itself;
- any other type is copied into an object, and the object's address becomes the data word.  The
  object is `x` when the caller passes one, otherwise a fresh zeroed one from `newobject`.

The assertions `assertE2T` and `assertI2T` check the dynamic type, then unbox:
- for a direct type, the data word itself is stored to `r`;
- otherwise, the object the word points to is copied to `r`.

Every assertion has a `, ok` form that returns `false` where the plain form panics.  The
assertions to an interface type take their itab from `getitab`, which is a parameter here.  It is
instantiated with `GoRuntime.Iface.getitabSpec`, the answer that `GoRuntime.Iface.getitab_coherent`
proves every call of the cache returns.

* `GoRuntime.Iface.Mem` — memory as bytes, with `memmove`, `memclr` and little-endian words;
* `GoRuntime.Iface.box`, `GoRuntime.Iface.unbox` — the halves the conversions and the
  assertions share;
* `GoRuntime.Iface.box_unbox` — unboxing writes back the boxed bytes and nothing outside the
  destination and the boxed object;
* `GoRuntime.Iface.conv_roundtrip` — **a value converted to an interface and asserted back to
  its type comes back byte for byte**, and asserting any other type panics with the error that
  names both types;
-/

import GoRuntime.Iface.Itab
import GoRuntime.Arena

set_option autoImplicit false

namespace GoRuntime.Iface

/-! ### Memory -/

/-- Memory: a byte at every address. -/
structure Mem where
  byte : ℕ → ℕ
  lt : ∀ a, byte a < 256

namespace Mem

/-- `memmove(dst, src, n)`: the `n` bytes at `src`, all read before any is written, copied to
`dst`. -/
def move (m : Mem) (dst src n : ℕ) : Mem where
  byte a := if dst ≤ a ∧ a < dst + n then m.byte (src + (a - dst)) else m.byte a
  lt a := by dsimp only; split <;> exact m.lt _

/-- `memclr(p, n)`. -/
def clr (m : Mem) (p n : ℕ) : Mem where
  byte a := if p ≤ a ∧ a < p + n then 0 else m.byte a
  lt a := by dsimp only; split <;> first | decide | exact m.lt a

/-- The `n` bytes at `a`, read as a little-endian word. -/
def load (m : Mem) : ℕ → ℕ → ℕ
  | _, 0 => 0
  | a, n + 1 => m.byte a + 256 * m.load (a + 1) n

/-- The word `w` stored at `a` as `n` little-endian bytes. -/
def store (m : Mem) (a w n : ℕ) : Mem where
  byte b := if a ≤ b ∧ b < a + n then w / 256 ^ (b - a) % 256 else m.byte b
  lt b := by dsimp only; split <;> first | exact Nat.mod_lt _ (by decide) | exact m.lt b

@[simp] theorem move_byte (m : Mem) (dst src n a : ℕ) : (m.move dst src n).byte a =
    if dst ≤ a ∧ a < dst + n then m.byte (src + (a - dst)) else m.byte a := rfl

@[simp] theorem clr_byte (m : Mem) (p n a : ℕ) :
    (m.clr p n).byte a = if p ≤ a ∧ a < p + n then 0 else m.byte a := rfl

@[simp] theorem store_byte (m : Mem) (a w n b : ℕ) : (m.store a w n).byte b =
    if a ≤ b ∧ b < a + n then w / 256 ^ (b - a) % 256 else m.byte b := rfl

/-- Byte `i` of a loaded word is the byte at offset `i`. -/
theorem load_div_mod (m : Mem) : ∀ (a n i : ℕ), i < n → m.load a n / 256 ^ i % 256 = m.byte (a + i)
  | a, n + 1, 0, _ => by
    have := m.lt a
    simp only [load, pow_zero, Nat.div_one, Nat.add_zero]
    omega
  | a, n + 1, i + 1, h => by
    have := m.lt a
    have hdiv : (m.byte a + 256 * m.load (a + 1) n) / 256 = m.load (a + 1) n := by omega
    rw [load, pow_succ', ← Nat.div_div_eq_div_mul, hdiv, load_div_mod m (a + 1) n i (by omega),
      Nat.add_right_comm, Nat.add_assoc]

/-- **Storing a loaded word copies its bytes**: a word read at `a` and written back at `r` is
`memmove` from the memory it was read in. -/
theorem store_load (m m' : Mem) (r a n b : ℕ) : (m.store r (m'.load a n) n).byte b =
    if r ≤ b ∧ b < r + n then m'.byte (a + (b - r)) else m.byte b := by
  rw [store_byte]
  split_ifs with h
  · exact m'.load_div_mod a n (b - r) (by omega)
  · rfl

end Mem

/-! ### Interface values and the conversions -/

/-- The fields of a `_type` the conversions read besides `*_string`: `size`, and
`isDirectIface(t)`, `t.kind&kindDirectIface != 0`. -/
structure Layout where
  size : ℕ
  direct : Bool

/-- An `interface{}` value: its `_type`, `none` for nil, and its data word. -/
structure EFace where
  type : Option ℕ
  data : ℕ
deriving DecidableEq, Repr

/-- A non-empty interface value: its `tab`, `none` for nil, and its data word. -/
structure IFace where
  tab : Option Itab
  data : ℕ
deriving DecidableEq, Repr

/-- How a conversion fails: the `panic` of a `TypeAssertionError`, a `throw`, or the nil
dereference of `getitab`'s `goto search` path. -/
inductive Fault where
  | panic (e : TypeAssertionError)
  | throw (msg : String)
  | nilDeref
deriving DecidableEq, Repr

/-- A call of `getitab`, as the itab pointer it returns or the way it fails. -/
def Result.toExcept : Result → Except Fault (Option Itab)
  | .tab m => .ok (some m)
  | .nil => .ok none
  | .panic e => .error (.panic e)
  | .throw msg => .error (.throw msg)
  | .nilDeref => .error .nilDeref

section Conversions

variable (tys : Types) (lay : ℕ → Layout)

/-- `typedmemmove(t, dst, src)`: the `t.size` bytes at `src` copied to `dst`.  Its write
barriers change no byte. -/
def typedmemmove (t dst src : ℕ) (m : Mem) : Mem := m.move dst src (lay t).size

/-- `newobject(t)`, where the heap hands out the object at `fresh`: `fresh`, with the object
zeroed. -/
def newobject (t fresh : ℕ) (m : Mem) : ℕ × Mem := (fresh, m.clr fresh (lay t).size)

/-- The boxing that `convT2E` and `convT2I` share, for a value of type `t` at `elem`: the data
word, and memory after.  A direct type, which is pointer-sized, has its `t.size` bytes copied
into the zeroed data word.  Any other value is copied into `x`, or into a new object when
`x == nil`, and that address is the data word. -/
def box (t elem x fresh : ℕ) (m : Mem) : ℕ × Mem :=
  if (lay t).direct then (m.load elem (lay t).size, m)
  else
    let p := if x = 0 then newobject lay t fresh m else (x, m)
    (p.1, typedmemmove lay t p.1 elem p.2)

/-- `convT2E(t, elem, x)`. -/
def convT2E (t elem x fresh : ℕ) (m : Mem) : EFace × Mem :=
  let b := box lay t elem x fresh m
  (⟨some t, b.1⟩, b.2)

/-- `convT2I(t, inter, cache, elem, x)`, with `cache` the content of `*cache`: the interface
value, the new `*cache`, and memory.  On an empty cache the itab comes from
`getitab(inter, t, false)` and is stored in the cache. -/
def convT2I (getitab : ℕ → ℕ → Bool → Result) (t inter : ℕ) (cache : Option Itab)
    (elem x fresh : ℕ) (m : Mem) : Except Fault (IFace × Option Itab × Mem) := do
  let tab ← match cache with
    | some tab => pure (some tab)
    | none => (getitab inter t false).toExcept
  let b := box lay t elem x fresh m
  pure (⟨tab, b.1⟩, tab, b.2)

/-- `typ2Itab(t, inter, cache)`: the itab of `getitab(inter, t, false)`, which is also the new
`*cache`. -/
def typ2Itab (getitab : ℕ → ℕ → Bool → Result) (t inter : ℕ) : Except Fault (Option Itab) :=
  (getitab inter t false).toExcept

/-- The unboxing that the assertions to a concrete type share: the value of type `t` with data
word `d` written to `r`.  For a direct type the word itself is written (`writebarrierptr`);
otherwise the `t.size` bytes it points to are copied. -/
def unbox (t d r : ℕ) (m : Mem) : Mem :=
  if (lay t).direct then m.store r d ptrSize else typedmemmove lay t r d m

/-- `assertI2T(t, i, r)`: memory after the value is written to `*r` (nothing when `r == nil`),
or the panic. -/
def assertI2T (t : ℕ) (i : IFace) (r : ℕ) (m : Mem) : Except Fault Mem :=
  match i.tab with
  | none => .error (.panic ⟨"", "", (tys.type t).str, ""⟩)
  | some tab =>
    if tab.typ ≠ t then
      .error (.panic ⟨(tys.inter tab.inter).typ.str, (tys.type tab.typ).str, (tys.type t).str, ""⟩)
    else .ok (if r ≠ 0 then unbox lay t i.data r m else m)

/-- `assertI2T2(t, i, r)`: whether `i` holds a `t`, and memory.  On `false`, `*r` is cleared. -/
def assertI2T2 (t : ℕ) (i : IFace) (r : ℕ) (m : Mem) : Bool × Mem :=
  if i.tab.map Itab.typ ≠ some t then (false, if r ≠ 0 then m.clr r (lay t).size else m)
  else (true, if r ≠ 0 then unbox lay t i.data r m else m)

/-- `assertE2T(t, e, r)`. -/
def assertE2T (t : ℕ) (e : EFace) (r : ℕ) (m : Mem) : Except Fault Mem :=
  match e.type with
  | none => .error (.panic ⟨"", "", (tys.type t).str, ""⟩)
  | some t' =>
    if t' ≠ t then .error (.panic ⟨"", (tys.type t').str, (tys.type t).str, ""⟩)
    else .ok (if r ≠ 0 then unbox lay t e.data r m else m)

/-- `assertE2T2(t, e, r)`, where the compiler passes a non-nil `r`. -/
def assertE2T2 (t : ℕ) (e : EFace) (r : ℕ) (m : Mem) : Bool × Mem :=
  if e.type ≠ some t then (false, m.clr r (lay t).size) else (true, unbox lay t e.data r m)

/-- `convI2E(i)`. -/
def convI2E (i : IFace) : EFace :=
  match i.tab with
  | none => ⟨none, 0⟩
  | some tab => ⟨some tab.typ, i.data⟩

/-- `assertI2E(inter, i, r)`: the value written to `*r`, or the panic of a nil `i`. -/
def assertI2E (inter : ℕ) (i : IFace) : Except Fault EFace :=
  match i.tab with
  | none => .error (.panic ⟨"", "", (tys.inter inter).typ.str, ""⟩)
  | some tab => .ok ⟨some tab.typ, i.data⟩

/-- `assertI2E2(inter, i, r)`, with `old` the value in `*r`: the result and the new `*r`.  A nil
`i` returns `false` and leaves `*r` as it was. -/
def assertI2E2 (i : IFace) (old : EFace) : Bool × EFace :=
  match i.tab with
  | none => (false, old)
  | some tab => (true, ⟨some tab.typ, i.data⟩)

/-- `assertE2I(inter, e, r)`: the value written to `*r`. -/
def assertE2I (getitab : ℕ → ℕ → Bool → Result) (inter : ℕ) (e : EFace) : Except Fault IFace :=
  match e.type with
  | none => .error (.panic ⟨"", "", (tys.inter inter).typ.str, ""⟩)
  | some t => do
    let tab ← (getitab inter t false).toExcept
    pure ⟨tab, e.data⟩

/-- `assertE2I2(inter, e, r)`, with `r` as `none` for nil and as `some` of the value in `*r`
otherwise: the result and the new `*r`. -/
def assertE2I2 (getitab : ℕ → ℕ → Bool → Result) (inter : ℕ) (e : EFace) (r : Option IFace) :
    Except Fault (Bool × Option IFace) :=
  match e.type with
  | none => .ok (false, r.map fun _ => ⟨none, 0⟩)
  | some t => do
    match ← (getitab inter t true).toExcept with
    | none => pure (false, r.map fun _ => ⟨none, 0⟩)
    | some tab => pure (true, r.map fun _ => ⟨some tab, e.data⟩)

/-- `assertE2E(inter, e, r)`: the value written to `*r`. -/
def assertE2E (inter : ℕ) (e : EFace) : Except Fault EFace :=
  if e.type = none then .error (.panic ⟨"", "", (tys.inter inter).typ.str, ""⟩) else .ok e

/-- `assertE2E2(inter, e, r)`: the result and the value written to `*r`. -/
def assertE2E2 (e : EFace) : Bool × EFace :=
  if e.type = none then (false, ⟨none, 0⟩) else (true, e)

/-- `ifacethash(i)`: the hash of the dynamic type, `0` for nil. -/
def ifacethash (i : IFace) : ℕ :=
  match i.tab with
  | none => 0
  | some tab => (tys.type tab.typ).hash

/-- `efacethash(e)`: the hash of the dynamic type, `0` for nil. -/
def efacethash (e : EFace) : ℕ :=
  match e.type with
  | none => 0
  | some t => (tys.type t).hash

end Conversions

/-! ### Boxing and unboxing -/

/-- What an unboxing to `r` of a value boxed from `elem` with data word `d` should leave in
memory, from `m` to `m'`:
- the `t.size` bytes at `r` are those that were at `elem`;
- every other byte is as it was, except those of the object `d` points to when `t` is not
  direct. -/
def Unboxed (lay : ℕ → Layout) (t elem r d : ℕ) (m m' : Mem) : Prop :=
  (∀ i < (lay t).size, m'.byte (r + i) = m.byte (elem + i)) ∧
    ∀ a, ¬(r ≤ a ∧ a < r + (lay t).size) →
      ((lay t).direct = false → ¬(d ≤ a ∧ a < d + (lay t).size)) → m'.byte a = m.byte a

section Roundtrip

variable {lay : ℕ → Layout}

theorem box_of_direct {t : ℕ} (elem x fresh : ℕ) (m : Mem) (hd : (lay t).direct = true) :
    box lay t elem x fresh m = (m.load elem (lay t).size, m) := by
  simp only [box, hd, if_true]

/-- A value of a type that is not direct is copied into `x`, or into the zeroed new object, and
that address is the data word. -/
theorem box_of_indirect {t : ℕ} (elem x fresh : ℕ) (m : Mem) (hd : (lay t).direct = false) :
    box lay t elem x fresh m =
      (if x = 0 then fresh else x, (if x = 0 then m.clr fresh (lay t).size else m).move
        (if x = 0 then fresh else x) elem (lay t).size) := by
  unfold box newobject typedmemmove
  split_ifs <;> simp_all

/-- **Unboxing writes back the boxed bytes**, and nothing outside the destination `r` and the
object the boxed value was copied to.  A direct type must be pointer-sized.  A new object must
not overlap the value it receives. -/
theorem box_unbox {t : ℕ} (elem x fresh r : ℕ) (m : Mem)
    (hdir : (lay t).direct → (lay t).size = ptrSize)
    (hfresh : x = 0 → (lay t).direct = false →
      GoRuntime.Apart (fresh, (lay t).size) (elem, (lay t).size)) :
    let b := box lay t elem x fresh m
    Unboxed lay t elem r b.1 m (unbox lay t b.1 r b.2) := by
  intro b
  unfold Unboxed
  cases hd : (lay t).direct
  · -- the value was copied into an object: `x`, or the new one at `fresh`
    have hfresh := fun hx => hfresh hx hd
    simp only [b, box_of_indirect elem x fresh m hd, unbox, hd, typedmemmove,
      Bool.false_eq_true, if_false]
    refine ⟨fun i hi => ?_, fun a ha hobj => ?_⟩
    · rw [Mem.move_byte, if_pos (by omega), Nat.add_sub_cancel_left, Mem.move_byte,
        if_pos (by omega), Nat.add_sub_cancel_left]
      split_ifs with hx
      · have hap := hfresh hx
        simp only [GoRuntime.Apart] at hap
        rw [Mem.clr_byte, if_neg (by omega)]
      · rfl
    · have hobj := hobj trivial
      rw [Mem.move_byte, if_neg ha, Mem.move_byte, if_neg hobj]
      split_ifs with hx
      · rw [Mem.clr_byte, if_neg (by simpa [hx] using hobj)]
      · rfl
  · -- the value is the data word itself
    have hsize := hdir hd
    simp only [b, box_of_direct elem x fresh m hd, unbox, hd, if_true]
    refine ⟨fun i hi => ?_, fun a ha _ => ?_⟩
    · rw [hsize, Mem.store_load, if_pos (by omega), Nat.add_sub_cancel_left]
    · rw [hsize, Mem.store_load, if_neg (by rw [← hsize]; exact ha)]

end Roundtrip

/-! ### What `getitab` answers -/

section Getitab

variable {tys : Types}

/-- An itab that `getitab` returns belongs to the pair it was asked for. -/
theorem getitabSpec_tab {inter typ : ℕ} {canfail : Bool} {m : Itab}
    (h : getitabSpec tys inter typ canfail = .tab m) : m.inter = inter ∧ m.typ = typ := by
  unfold getitabSpec scanResult at h
  split at h
  · cases h
  · cases canfail <;> cases h
  · split at h
    · cases h; exact ⟨rfl, rfl⟩
    · cases canfail <;> cases h

/-- Without `canfail`, `getitab` never returns `nil`. -/
theorem getitabSpec_false_ne_nil (inter typ : ℕ) : getitabSpec tys inter typ false ≠ .nil := by
  unfold getitabSpec scanResult
  split
  · simp
  · simp
  · split <;> simp

end Getitab

/-! ### The conversions -/

section Conv

variable (tys : Types) (lay : ℕ → Layout)

/-- What `convT2I` does with `getitab` answering as the scan decides, and a cache that is empty
or holds the itab of the pair.  It fails only on an empty cache, as `getitab` does.  Otherwise it
returns an itab of the pair, also as the new cache, with the data boxed. -/
theorem convT2I_spec {t inter : ℕ} {cache : Option Itab} (elem x fresh : ℕ) (m : Mem)
    (hcache : ∀ tab, cache = some tab → tab.inter = inter ∧ tab.typ = t) :
    match convT2I lay (getitabSpec tys) t inter cache elem x fresh m with
    | .ok (i, c, m₁) => ∃ tab, tab.inter = inter ∧ tab.typ = t ∧
        i = ⟨some tab, (box lay t elem x fresh m).1⟩ ∧ c = some tab ∧
        m₁ = (box lay t elem x fresh m).2
    | .error f => cache = none ∧ (getitabSpec tys inter t false).toExcept = .error f := by
  rcases cache with _ | tab
  · cases h : getitabSpec tys inter t false with
    | tab tab =>
      obtain ⟨h1, h2⟩ := getitabSpec_tab h
      simp only [convT2I, h, Result.toExcept]
      exact ⟨tab, h1, h2, rfl, rfl, rfl⟩
    | nil => exact absurd h (getitabSpec_false_ne_nil inter t)
    | panic _ | throw _ | nilDeref => simp [convT2I, h, Result.toExcept]
  · obtain ⟨h1, h2⟩ := hcache tab rfl
    exact ⟨tab, h1, h2, rfl, rfl, rfl⟩

/-- **A value converted to an interface and asserted back to its type comes back byte for
byte.**  This holds for `interface{}` and for a non-empty interface.  The bytes at `r` are
those at `elem`.  No byte changes outside `r` and, for a type that is not direct, the object
that holds the boxed value.  Asserting any other type panics with the `TypeAssertionError` that
names the dynamic and the asserted types, and the interface for a non-empty one.

The hypotheses:
- a direct type is pointer-sized, as the compiler makes it;
- the heap's new object does not overlap the value copied into it;
- `convT2I`'s cache is empty or holds the itab of its pair.

The conversion to a non-empty interface fails only on an empty cache, exactly as
`getitab(inter, t, false)` does. -/
theorem conv_roundtrip (t elem x fresh r : ℕ) (m : Mem) (hr : r ≠ 0)
    (hdir : (lay t).direct → (lay t).size = ptrSize)
    (hfresh : x = 0 → (lay t).direct = false →
      GoRuntime.Apart (fresh, (lay t).size) (elem, (lay t).size)) :
    (∃ m', assertE2T tys lay t (convT2E lay t elem x fresh m).1 r
          (convT2E lay t elem x fresh m).2 = .ok m' ∧
        Unboxed lay t elem r (convT2E lay t elem x fresh m).1.data m m' ∧
        ∀ t', t' ≠ t → assertE2T tys lay t' (convT2E lay t elem x fresh m).1 r
          (convT2E lay t elem x fresh m).2 =
            .error (.panic ⟨"", (tys.type t).str, (tys.type t').str, ""⟩)) ∧
      ∀ inter cache, (∀ tab, cache = some tab → tab.inter = inter ∧ tab.typ = t) →
        match convT2I lay (getitabSpec tys) t inter cache elem x fresh m with
        | .ok (i, _, m₁) => ∃ m', assertI2T tys lay t i r m₁ = .ok m' ∧
            Unboxed lay t elem r i.data m m' ∧
            ∀ t', t' ≠ t → assertI2T tys lay t' i r m₁ =
              .error (.panic ⟨(tys.inter inter).typ.str, (tys.type t).str, (tys.type t').str, ""⟩)
        | .error f => cache = none ∧ (getitabSpec tys inter t false).toExcept = .error f := by
  have hbox := box_unbox elem x fresh r m hdir hfresh
  refine ⟨⟨_, by simp only [convT2E, assertE2T, ne_eq, not_true_eq_false, if_false, hr,
    not_false_eq_true, if_true], hbox, fun t' ht' => ?_⟩, fun inter cache hcache => ?_⟩
  · simp only [convT2E, assertE2T, if_pos (Ne.symm ht')]
  · have hspec := convT2I_spec tys lay elem x fresh m hcache
    split at hspec
    · next i c m₁ heq =>
      obtain ⟨tab, h1, h2, rfl, rfl, rfl⟩ := hspec
      refine ⟨_, by simp only [assertI2T, h2, ne_eq, not_true_eq_false, if_false, hr,
        not_false_eq_true, if_true], hbox, fun t' ht' => ?_⟩
      simp only [assertI2T, h1, h2, if_pos (Ne.symm ht')]
    · exact hspec

theorem conv_roundtrip_boxed :
    ∃ m', assertE2T ⟨fun _ => ⟨⟨1, "Stringer", none⟩, []⟩, fun _ => ⟨2, "T", none⟩⟩
      (fun _ => ⟨16, false⟩) 1
      (convT2E (fun _ => ⟨16, false⟩) 1 0 0 64 ⟨fun _ => 0, fun _ => Nat.succ_pos _⟩).1 128
      (convT2E (fun _ => ⟨16, false⟩) 1 0 0 64 ⟨fun _ => 0, fun _ => Nat.succ_pos _⟩).2 = .ok m' :=
  (conv_roundtrip _ _ 1 0 0 64 128 _ (by decide) (fun h => absurd h (by decide))
    (fun _ _ => by decide)).1.imp fun _ h => h.1

end Conv

end GoRuntime.Iface
