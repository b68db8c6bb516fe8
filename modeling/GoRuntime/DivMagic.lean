/-
**Magic division by a size class.**

`initSizes` ends by computing, for every class, `class_to_divmagic[i] =
computeDivMagic(uint32(class_to_size[i]))`: constants that turn `n / d` into a shift, a 32-bit
multiply and a shift, `((n>>m.shift) * m.mul) >> m.shift2`, and, for a power of two, a mask.
`computeDivMagic` factors `d = 2^shift * q` with `q` odd by a loop that runs while `d` is even,
then searches down from `k = 63` for the largest `k` with `⌈2^k / q⌉ < 2^32` and takes
`mul = ⌈2^k / q⌉`.

The quotient is exact because the rounding error of `mul`, below `q / 2^k` per unit, stays
below one step for every dividend of 31 bits: the search rejected `k + 1`, so
`2^(k+1) > q * (2^32 - 1)` (`GoRuntime.mul_shift_exact`, `GoRuntime.divMagic_err`).

The first loop never ends when `d = 0` (`GoRuntime.divMagicStrip_zero`), and the model returns
`none` there; for a `uint32` divisor that is not zero it ends within 32 rounds.

Main definitions:

* `GoRuntime.DivMagic`, `GoRuntime.computeDivMagic` — the constants and their computation;
* `GoRuntime.DivMagic.div` — the division they stand for, in 64-bit arithmetic.

Main results:

* `GoRuntime.divMagicStrip_spec`, `GoRuntime.divMagicK_spec` — what the two loops compute;
* `GoRuntime.divMagic_exact` — **the magic division is exact** for every `uint32` divisor
  and every dividend below `2^31`, and so is the mask of a power of two.
-/

import Mathlib.Tactic.Ring
import Mathlib.Data.Nat.Defs

set_option autoImplicit false

namespace GoRuntime

/-! ### The constants and the two loops -/

/-- `divMagic`: `shift` and `shift2` are `uint8`, `mul` a `uint32`, `baseMask` a `uintptr`. -/
structure DivMagic where
  shift : ℕ
  mul : ℕ
  shift2 : ℕ
  baseMask : ℕ
deriving DecidableEq, Repr

/-- `^x` on a `uintptr`: the complement of the 64 bits of `x`. -/
def uintptrNot (x : ℕ) : ℕ := x ^^^ (2 ^ 64 - 1)

/-- The loop `for d&1 == 0 { m.shift++; d >>= 1 }` from `shift` and `d`, with `fuel` rounds:
`(shift, d)` at its exit, or `none` if it has not exited.  `shift` cannot wrap its `uint8`
within the 32 rounds `computeDivMagic` gives it. -/
def divMagicStrip : ℕ → ℕ → ℕ → Option (ℕ × ℕ)
  | 0, _, _ => none
  | fuel + 1, shift, d =>
      if d &&& 1 = 0 then divMagicStrip fuel (shift + 1) (d >>> 1) else some (shift, d)

/-- The loop `for ((1<<k)+d64-1)/d64 >= 1<<32 { k-- }` from `k`, on the odd part `d64`.  The
test fails at `k = 0` for `d64 ≥ 1` (`GoRuntime.divMagicK_spec`), so `k--` never wraps its
`uint8`; and `(1<<k)+d64-1 < 2^64` for `k ≤ 63` and a `uint32` `d64`, so the sum does not wrap. -/
def divMagicK (d64 : ℕ) : ℕ → ℕ
  | 0 => 0
  | k + 1 => if (2 ^ (k + 1) + d64 - 1) / d64 ≥ 2 ^ 32 then divMagicK d64 k else k + 1

/-- `computeDivMagic(d)` for a `uint32` `d`: the mask of a power of two, the pre-shift, and the
multiplier and shift of the odd part; `none` when the pre-shift loop does not end (`d = 0`). -/
def computeDivMagic (d : ℕ) : Option DivMagic :=
  let baseMask :=
    if d &&& ((d + 2 ^ 32 - 1) % 2 ^ 32) = 0 then uintptrNot ((d + 2 ^ 64 - 1) % 2 ^ 64) else 0
  (divMagicStrip 32 0 d).map fun (shift, d64) =>
    let k := divMagicK d64 63
    { shift, mul := (2 ^ k + d64 - 1) / d64 % 2 ^ 32, shift2 := k, baseMask }

/-- The division the constants stand for, as the comment of `divMagic` writes it:
`((n>>m.shift) * m.mul) >> m.shift2`, the product taken in 64 bits. -/
def DivMagic.div (m : DivMagic) (n : ℕ) : ℕ := ((n >>> m.shift) * m.mul % 2 ^ 64) >>> m.shift2

/-! ### The loops -/

/-- The pre-shift loop never exits on `d = 0`. -/
theorem divMagicStrip_zero : ∀ fuel shift, divMagicStrip fuel shift 0 = none
  | 0, _ => rfl
  | fuel + 1, shift => by
    simp only [divMagicStrip, Nat.zero_and, Nat.zero_shiftRight, if_true]
    exact divMagicStrip_zero fuel (shift + 1)

/-- **The pre-shift loop strips the factors of two**: on `0 < d < 2^fuel` it exits with the
shift raised by `s` and the odd part `q` of `d = 2^s * q`. -/
theorem divMagicStrip_spec : ∀ fuel shift d, 0 < d → d < 2 ^ fuel →
    ∃ s q, divMagicStrip fuel shift d = some (shift + s, q) ∧ d = 2 ^ s * q ∧ q % 2 = 1
  | 0, _, _, hd, hd' => by simp at hd'; omega
  | fuel + 1, shift, d, hd, hd' => by
    simp only [divMagicStrip, Nat.and_one_is_mod, Nat.shiftRight_eq_div_pow, pow_one]
    split_ifs with hev
    · obtain ⟨s, q, hrun, hq, hodd⟩ :=
        divMagicStrip_spec fuel (shift + 1) (d / 2) (by omega) (by rw [pow_succ] at hd'; omega)
      refine ⟨s + 1, q, by rw [hrun]; congr 2; omega, ?_, hodd⟩
      rw [pow_succ, Nat.mul_comm _ 2, Nat.mul_assoc, ← hq]; omega
    · exact ⟨0, d, rfl, by simp, by omega⟩

/-- **The multiplier search** from `k₀` on an odd part `q ≥ 1` stops at the largest `k ≤ k₀`
whose `⌈2^k / q⌉` is below `2^32`. -/
theorem divMagicK_spec {q : ℕ} (hq : 0 < q) : ∀ k₀,
    divMagicK q k₀ ≤ k₀ ∧ (2 ^ divMagicK q k₀ + q - 1) / q < 2 ^ 32 ∧
      ∀ k, divMagicK q k₀ < k → k ≤ k₀ → 2 ^ 32 ≤ (2 ^ k + q - 1) / q
  | 0 => ⟨le_rfl, by simp [divMagicK, Nat.add_sub_cancel_left, Nat.div_self hq],
      fun k h h' => by simp only [divMagicK] at h; omega⟩
  | k₀ + 1 => by
    simp only [divMagicK]
    split_ifs with ht
    · obtain ⟨hle, hlt, hmax⟩ := divMagicK_spec hq k₀
      refine ⟨by omega, hlt, fun k h h' => ?_⟩
      rcases Nat.lt_or_ge k (k₀ + 1) with hk | hk
      · exact hmax k h (by omega)
      · exact (show k = k₀ + 1 by omega) ▸ ht
    · exact ⟨le_rfl, by omega, fun k h h' => absurd h' (by omega)⟩

/-! ### Exactness -/

/-- `⌈a / q⌉` lies within `q - 1` above `a / q`. -/
theorem ceilDiv_bounds (a q : ℕ) (hq : 0 < q) :
    a ≤ q * ((a + q - 1) / q) ∧ q * ((a + q - 1) / q) < a + q := by
  have h := Nat.div_add_mod (a + q - 1) q
  have hm := Nat.mod_lt (a + q - 1) hq
  omega

/-- **Multiply and shift divide exactly** when `mul` approximates `K / q` from above within
`q` and the dividend times the rounding error stays below `K`. -/
theorem mul_shift_exact {n q K mul : ℕ} (hq : 0 < q) (hlo : K ≤ q * mul) (hhi : q * mul < K + q)
    (herr : n * (q - 1) < K) : n * mul / K = n / q := by
  obtain ⟨q, rfl⟩ : ∃ q', q = q' + 1 := ⟨q - 1, by omega⟩
  rw [Nat.add_sub_cancel] at herr
  have hn := Nat.div_add_mod n (q + 1)
  have hb := Nat.mod_lt n hq
  apply Nat.div_eq_of_lt_le
  · calc n / (q + 1) * K ≤ n / (q + 1) * ((q + 1) * mul) := Nat.mul_le_mul_left _ hlo
      _ = n / (q + 1) * (q + 1) * mul := by ring
      _ ≤ n * mul := Nat.mul_le_mul_right _ (Nat.div_mul_le_self n (q + 1))
  · apply Nat.lt_of_mul_lt_mul_left (a := q + 1)
    calc (q + 1) * (n * mul) = n * ((q + 1) * mul) := by ring
      _ ≤ n * (K + q) := Nat.mul_le_mul_left _ (by omega)
      _ = n * K + n * q := by ring
      _ < n * K + K := by omega
      _ = ((q + 1) * (n / (q + 1)) + n % (q + 1) + 1) * K := by rw [hn]; ring
      _ ≤ ((q + 1) * (n / (q + 1)) + (q + 1)) * K := Nat.mul_le_mul_right _ (by omega)
      _ = (q + 1) * ((n / (q + 1) + 1) * K) := by ring

/-- The rounding error stays below one step: for a dividend below `2^31` and the `k` the search
stops at, either `k = 63` with an odd part below `2^32`, or the search rejected `k + 1`. -/
theorem divMagic_err {n q k : ℕ} (hn : n < 2 ^ 31) (hq : 0 < q) (hq' : q < 2 ^ 32)
    (hk : k = 63 ∨ 2 ^ 32 ≤ (2 ^ (k + 1) + q - 1) / q) : n * (q - 1) < 2 ^ k := by
  obtain ⟨q, rfl⟩ : ∃ q', q = q' + 1 := ⟨q - 1, by omega⟩
  rw [Nat.add_sub_cancel]
  rcases hk with rfl | hk
  · calc n * q < 2 ^ 31 * 2 ^ 32 := Nat.mul_lt_mul'' hn (by omega)
      _ = 2 ^ 63 := by norm_num
  · rw [Nat.le_div_iff_mul_le hq, pow_succ] at hk
    have h1 : n * q ≤ (2 ^ 31 - 1) * q := Nat.mul_le_mul_right _ (by omega)
    norm_num at hk h1 ⊢
    omega

/-- `d = 2^j` passes the test `d&(d-1) == 0`, and its mask clears the low `j` bits of any
`uintptr`. -/
theorem and_baseMask {n j : ℕ} (hj : j ≤ 64) (hn : n < 2 ^ 64) :
    n &&& uintptrNot (2 ^ j - 1) = n - n % 2 ^ j := by
  have h : n - n % 2 ^ j = 2 ^ j * (n >>> j) := by
    rw [Nat.shiftRight_eq_div_pow]; have := Nat.div_add_mod n (2 ^ j); omega
  rw [h]
  apply Nat.eq_of_testBit_eq
  intro i
  simp only [uintptrNot, Nat.testBit_and, Nat.testBit_xor, Nat.testBit_two_pow_sub_one,
    Nat.testBit_mul_pow_two, Nat.testBit_shiftRight]
  by_cases hij : i < j
  · simp [hij, (by omega : i < 64), (by omega : ¬j ≤ i)]
  · have hji : j + (i - j) = i := by omega
    by_cases hi : i < 64
    · simp [hij, hi, hji, (by omega : j ≤ i)]
    · have : n.testBit i = false :=
        Nat.testBit_lt_two_pow (lt_of_lt_of_le hn (Nat.pow_le_pow_right (by norm_num) (by omega)))
      simp [hij, hi, hji, this]

/-- **Magic division is exact.**  For every `uint32` divisor `d ≠ 0`, `computeDivMagic(d)`
terminates; its first loop leaves `d = 2^m.shift * q` with `q` odd; its second stops at the
largest `k ≤ 63` with `⌈2^k / q⌉ < 2^32`, which is `m.mul`; for every `n < 2^31` the product
`(n >> m.shift) * m.mul` does not overflow 64 bits and the result is `n / d`; and when `d` is a
power of two, `n & m.baseMask = n - n % d` for every `uintptr` `n`. -/
theorem divMagic_exact (d : ℕ) (hd : 0 < d) (hd' : d < 2 ^ 32) :
    ∃ m q, computeDivMagic d = some m ∧ d = 2 ^ m.shift * q ∧ q % 2 = 1 ∧
      m.shift2 ≤ 63 ∧ m.mul = (2 ^ m.shift2 + q - 1) / q ∧ m.mul < 2 ^ 32 ∧
      (∀ k, m.shift2 < k → k ≤ 63 → 2 ^ 32 ≤ (2 ^ k + q - 1) / q) ∧
      (∀ n < 2 ^ 31, (n >>> m.shift) * m.mul < 2 ^ 64 ∧ m.div n = n / d) ∧
      (∀ j, d = 2 ^ j → ∀ n < 2 ^ 64, n &&& m.baseMask = n - n % d) := by
  obtain ⟨s, q, hrun, hdq, hodd⟩ := divMagicStrip_spec 32 0 d hd hd'
  have hq : 0 < q := by omega
  have hq' : q < 2 ^ 32 := by have := Nat.le_mul_of_pos_left q (Nat.two_pow_pos s); omega
  obtain ⟨hk63, hmul, hmax⟩ := divMagicK_spec hq 63
  set k := divMagicK q 63
  have hc := ceilDiv_bounds (2 ^ k) q hq
  refine ⟨_, q, by simp only [computeDivMagic, hrun, Option.map_some', zero_add]; rfl, hdq, hodd,
    hk63, Nat.mod_eq_of_lt hmul, Nat.mod_lt _ (Nat.two_pow_pos 32), hmax,
    fun n hn => ?_, fun j hj n hn => ?_⟩
  · simp only [DivMagic.div, Nat.mod_eq_of_lt hmul, Nat.shiftRight_eq_div_pow]
    have hn' : n / 2 ^ s < 2 ^ 31 := lt_of_le_of_lt (Nat.div_le_self n _) hn
    have hprod : n / 2 ^ s * ((2 ^ k + q - 1) / q) < 2 ^ 64 :=
      calc _ < 2 ^ 31 * 2 ^ 32 := Nat.mul_lt_mul'' hn' hmul
        _ < 2 ^ 64 := by omega
    have herr := divMagic_err hn' hq hq' <| by
      rcases Nat.lt_or_ge k 63 with h | h
      · exact .inr (hmax (k + 1) (by omega) (by omega))
      · exact .inl (by omega)
    refine ⟨hprod, ?_⟩
    rw [Nat.mod_eq_of_lt hprod, mul_shift_exact hq hc.1 hc.2 herr, Nat.div_div_eq_div_mul, ← hdq]
  · have hj32 : j < 32 := (Nat.pow_lt_pow_iff_right (by norm_num)).1 (hj ▸ hd')
    have hpow : d &&& ((d + 2 ^ 32 - 1) % 2 ^ 32) = 0 := by
      rw [show (d + 2 ^ 32 - 1) % 2 ^ 32 = 2 ^ j - 1 by omega, hj,
        Nat.and_pow_two_sub_one_eq_mod, Nat.mod_self]
    simp only [computeDivMagic, hrun, hpow, if_true, Option.map_some']
    rw [show (d + 2 ^ 64 - 1) % 2 ^ 64 = 2 ^ j - 1 by omega, hj]
    exact and_baseMask (by omega) hn

theorem divMagic_exact_size48 :
    ∃ m q, computeDivMagic 48 = some m ∧ 48 = 2 ^ m.shift * q ∧ q % 2 = 1 ∧
      m.shift2 ≤ 63 ∧ m.mul = (2 ^ m.shift2 + q - 1) / q ∧ m.mul < 2 ^ 32 ∧
      (∀ k, m.shift2 < k → k ≤ 63 → 2 ^ 32 ≤ (2 ^ k + q - 1) / q) ∧
      (∀ n < 2 ^ 31, (n >>> m.shift) * m.mul < 2 ^ 64 ∧ m.div n = n / 48) ∧
      (∀ j, 48 = 2 ^ j → ∀ n < 2 ^ 64, n &&& m.baseMask = n - n % 48) :=
  divMagic_exact 48 (by decide) (by decide)

example : computeDivMagic 48 = some ⟨4, 2863311531, 33, 0⟩ := by decide

end GoRuntime
