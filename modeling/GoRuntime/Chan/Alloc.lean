/-
**Allocation sizes of `newarray` and `makechan` do not wrap.**

Both functions multiply a count by an element size in `uintptr` and hand the product to
`mallocgc`; both guard the product with a floor division by the element size before they
multiply.  `newarray` checks `n ≤ _MaxMem / typ.size`, and `makechan` checks
`size ≤ (_MaxMem - hchanSize) / elem.size`, so the product, and `makechan`'s header added to it,
stays at most `_MaxMem` and never wraps (`GoRuntime.Chan.alloc_sizes_no_wrap`).  `makechan`'s
bound is the tighter one, so the `newarray` call it makes for a buffer with pointers passes
`newarray`'s own check.

Main definitions:

* `GoRuntime.newarray` — the byte count `newarray` asks `mallocgc` for, or its panic;
* `GoRuntime.Chan.makechanAlloc` — what `makechan` allocates once its checks pass.

Main results:

* `GoRuntime.newarray_ok` — the product passes the check exactly below `_MaxMem`;
* `GoRuntime.Chan.alloc_sizes_no_wrap` — **allocation size computations cannot wrap**.
-/

import GoRuntime.Chan.Machine

set_option autoImplicit false

namespace GoRuntime

/-- `newarray(typ, n)` for a `uintptr` count `n`: the byte count `uintptr(typ.size)*n` it asks
`mallocgc` for, or its panic.  `int(n) < 0` is `n ≥ 2^63`. -/
def newarray (typSize n : ℕ) : Except String ℕ :=
  if 2 ^ 63 ≤ n ∨ (0 < typSize ∧ maxMem / typSize < n) then
    .error "runtime: allocation size out of range"
  else .ok (typSize * n % 2 ^ 64)

/-- Under the floor-division bound the product is at most the bound's numerator. -/
theorem mul_le_of_le_div {size n m : ℕ} (h : 0 < size → n ≤ m / size) : size * n ≤ m := by
  rcases Nat.eq_zero_or_pos size with rfl | hs
  · simp
  · calc size * n ≤ size * (m / size) := Nat.mul_le_mul_left _ (h hs)
      _ ≤ m := Nat.mul_div_le m size

/-- **`newarray` passes its range check with a product of at most `_MaxMem`**, computed without
wrapping. -/
theorem newarray_ok {typSize n b : ℕ} (h : newarray typSize n = .ok b) :
    n < 2 ^ 63 ∧ typSize * n ≤ maxMem ∧ b = typSize * n := by
  unfold newarray at h
  split_ifs at h with hc
  cases h
  push_neg at hc
  have hle := mul_le_of_le_div hc.2
  exact ⟨hc.1, hle, Nat.mod_eq_of_lt (by simp only [maxMem] at hle; omega)⟩

namespace Chan

/-- What `makechan(t, size)` allocates once its checks pass. -/
inductive ChanAlloc where
  /-- One `mallocgc` block of this many bytes, the header and the buffer. -/
  | block (bytes : ℕ)
  /-- `new(hchan)`, and the buffer from `newarray`. -/
  | hchanAndArray (array : Except String ℕ)

/-- The allocation of `makechan(t, size)`: one block of
`hchanSize+uintptr(size)*uintptr(elem.size)` bytes when the element type has no pointers
(`elem.kind&kindNoPointers != 0`) or `size == 0`, else `new(hchan)` and
`newarray(elem, uintptr(size))`. -/
def makechanAlloc (elem : ElemType) (noPointers : Bool) (size : ℤ) : ChanAlloc :=
  if noPointers ∨ size = 0 then .block ((hchanSize + size.toNat * elem.size % 2 ^ 64) % 2 ^ 64)
  else .hchanAndArray (newarray elem.size size.toNat)

/-- **Allocation size computations cannot wrap.**  Whenever `newarray` passes its range check,
`typ.size * n` does not wrap and is at most `_MaxMem`.  Whenever `makechan` admits an element
type and a size, `hchanSize + size * elem.size` is at most `_MaxMem`, and it is the byte count
of the one-block allocation, computed without wrapping.  For an `int64` size, the
`newarray(elem, size)` call `makechan` makes for a buffer with pointers passes `newarray`'s
check, with the product of the two. -/
theorem alloc_sizes_no_wrap :
    (∀ typSize n b, newarray typSize n = .ok b → b = typSize * n ∧ typSize * n ≤ maxMem) ∧
    (∀ elem size c, makechan elem size = .ok c →
      hchanSize + size.toNat * elem.size ≤ maxMem ∧
      ∀ noPointers, (noPointers = true ∨ size = 0) →
        makechanAlloc elem noPointers size = .block (hchanSize + size.toNat * elem.size)) ∧
    (∀ elem size c, makechan elem size = .ok c → size < 2 ^ 63 → size ≠ 0 →
      makechanAlloc elem false size = .hchanAndArray (.ok (elem.size * size.toNat))) := by
  refine ⟨fun _ _ _ h => ⟨(newarray_ok h).2.2, (newarray_ok h).2.1⟩, fun elem size c h => ?_,
    fun elem size c h h63 h0 => ?_⟩
  · obtain ⟨-, -, -, hbound, -⟩ := makechan_eq_ok h
    have hle := mul_le_of_le_div hbound
    have hh : hchanSize ≤ maxMem := by decide
    have hsum : hchanSize + size.toNat * elem.size ≤ maxMem := by
      rw [Nat.mul_comm]; omega
    refine ⟨hsum, fun noPointers hnp => ?_⟩
    have hlt : hchanSize + size.toNat * elem.size < 2 ^ 64 := by
      simp only [maxMem] at hsum; omega
    have hprod : size.toNat * elem.size < 2 ^ 64 := by omega
    simp only [makechanAlloc, hnp, if_true, Nat.mod_eq_of_lt hprod, Nat.mod_eq_of_lt hlt]
  · obtain ⟨-, -, hpos, hbound, -⟩ := makechan_eq_ok h
    have hcheck :
        ¬(2 ^ 63 ≤ size.toNat ∨ (0 < elem.size ∧ maxMem / elem.size < size.toNat)) := by
      push_neg
      refine ⟨by omega, fun hs => le_trans (hbound hs) (Nat.div_le_div_right (by decide))⟩
    have hle := mul_le_of_le_div fun hs => le_trans (hbound hs)
      (Nat.div_le_div_right (Nat.sub_le maxMem hchanSize))
    simp only [makechanAlloc, Bool.false_eq_true, h0, or_self, if_false, newarray, hcheck,
      Nat.mod_eq_of_lt (by simp only [maxMem] at hle; omega : elem.size * size.toNat < 2 ^ 64)]

/-- A channel of 100 eight-byte elements: with pointers in the element type, `newarray` is asked
for 800 bytes and passes its check; without, `makechan` takes one block of `hchanSize + 800`
bytes. -/
theorem alloc_sizes_no_wrap_buffered :
    makechan ⟨8, 8⟩ 100 = .ok ⟨0, 100, fun _ => 0, 8, false, 0, 0, [], []⟩ ∧
      makechanAlloc ⟨8, 8⟩ false 100 = .hchanAndArray (.ok 800) ∧
      newarray 8 100 = .ok 800 ∧ 8 * 100 ≤ maxMem ∧
      makechanAlloc ⟨8, 8⟩ true 100 = .block (hchanSize + 800) ∧ hchanSize + 800 ≤ maxMem := by
  have h := alloc_sizes_no_wrap
  obtain ⟨hsum, hblock⟩ := h.2.1 ⟨8, 8⟩ 100 _ rfl
  exact ⟨rfl, h.2.2 ⟨8, 8⟩ 100 _ rfl (by decide) (by decide), rfl, (h.1 8 100 800 rfl).2,
    hblock true (.inl rfl), hsum⟩

end Chan

end GoRuntime
