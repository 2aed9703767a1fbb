import Mathlib.Algebra.Order.Floor
import Mathlib.Data.Rat.Cast.Order
import Mathlib.Data.Rat.Floor
import Mathlib.Tactic.FieldSimp
import Mathlib.Tactic.Linarith
import Mathlib.Tactic.Positivity
import Mathlib.Tactic.Ring

/-!
# Go's float64 arithmetic

`TokenBucket.refill` computes `int64(elapsed.Seconds() * float64(tb.refillRate))`, and
`Duration.Seconds` is `float64(sec) + float64(nsec)/1e9`. Each float64 operation rounds its
exact result to the nearest binary64 value, ties to even. This module models the non-negative
values these operations take.

* A value is a fraction of natural numbers (`Float64.Frac`), kept unreduced, so that every
  operation is `Nat` arithmetic and can be evaluated.
* `Float64.round` scales the value by powers of two until its integer part has 53 binary
  digits (`Float64.scale`, from the bit lengths of numerator and denominator, found by binary
  search, `Float64.bitLength`), and rounds the scaled value to the nearest integer, ties to even
  (`Float64.roundDiv`).
* The exponent range is not bounded. Every value the refill computes lies between `10⁻⁹` and
  `2^97`, where binary64 has neither subnormal numbers nor overflow.

What is proved of `round`:

* `round_le`, `le_round`: the relative error is at most `2^-53`.
* `round_mono`: rounding is monotone. The proof compares the scales of the two values first;
  at one scale it is the monotonicity of rounding to the nearest integer, ties to even
  (`roundDiv_mono`).
* `round_ofNat`: a natural number below `2^53` rounds to itself.

For `Seconds` the three roundings give a relative error of at most `(1 + 2^-53)^3 - 1`
(`seconds_le`, `le_seconds`), and `Seconds` is monotone up to `2^53` seconds
(`seconds_mono`).
-/

namespace AdsTxtAnalyzer

namespace Float64

/-! ### Rounding to the nearest integer -/

/-- `a / b` rounded to the nearest natural number, ties to the even one. -/
def roundDiv (a b : Nat) : Nat :=
  if 2 * (a % b) < b then a / b
  else if 2 * (a % b) = b then a / b + a / b % 2
  else a / b + 1

/-- `roundDiv a b` is within half of `a / b`, and even on a tie. -/
theorem roundDiv_spec (a : Nat) {b : Nat} (hb : 0 < b) :
    2 * a ≤ 2 * (roundDiv a b * b) + b ∧ 2 * (roundDiv a b * b) ≤ 2 * a + b ∧
      (2 * a + b = 2 * (roundDiv a b * b) ∨ 2 * (roundDiv a b * b) + b = 2 * a →
        roundDiv a b % 2 = 0) := by
  have h := Nat.div_add_mod a b
  have hr := Nat.mod_lt a hb
  rw [Nat.mul_comm] at h
  unfold roundDiv
  split_ifs with h₁ h₂
  · omega
  · rcases Nat.mod_two_eq_zero_or_one (a / b) with h₃ | h₃ <;> rw [h₃, Nat.add_mul] <;> omega
  · rw [Nat.add_mul]
    omega

/-- `roundDiv a b` as a rational: within half of `a / b`, and even when exactly half away. -/
theorem roundDiv_near (a : Nat) {b : Nat} (hb : 0 < b) :
    |(roundDiv a b : ℚ) - a / b| ≤ 1 / 2 ∧
      (|(roundDiv a b : ℚ) - a / b| = 1 / 2 → roundDiv a b % 2 = 0) := by
  obtain ⟨h₁, h₂, h₃⟩ := roundDiv_spec a hb
  have hb' : (0 : ℚ) < b := by exact_mod_cast hb
  have key : (roundDiv a b : ℚ) - a / b = (2 * (roundDiv a b * b : Nat) - 2 * a : ℚ) / (2 * b) := by
    push_cast
    field_simp
    ring
  rw [key, abs_div, abs_of_pos (by positivity : (0 : ℚ) < 2 * b), div_le_iff₀ (by positivity),
    div_eq_iff (by positivity), abs_le]
  have c₁ : (2 * a : ℚ) ≤ 2 * (roundDiv a b * b : Nat) + b := by exact_mod_cast h₁
  have c₂ : (2 * (roundDiv a b * b : Nat) : ℚ) ≤ 2 * a + b := by exact_mod_cast h₂
  refine ⟨⟨by linarith, by linarith⟩, fun h => h₃ ?_⟩
  rcases abs_eq (by positivity : (0 : ℚ) ≤ 1 / 2 * (2 * b)) |>.mp h with h | h
  · exact .inl (by exact_mod_cast (by linarith : (2 * a + b : ℚ) = 2 * (roundDiv a b * b : Nat)))
  · exact .inr (by exact_mod_cast (by linarith : (2 * (roundDiv a b * b : Nat) + b : ℚ) = 2 * a))

/-- Rounding to the nearest integer, ties to even, is monotone. -/
theorem roundDiv_mono {a b a' b' : Nat} (hb : 0 < b) (hb' : 0 < b')
    (h : (a / b : ℚ) ≤ a' / b') : roundDiv a b ≤ roundDiv a' b' := by
  obtain ⟨h₁, e₁⟩ := roundDiv_near a hb
  obtain ⟨h₂, e₂⟩ := roundDiv_near a' hb'
  by_contra hlt
  have hm : (roundDiv a' b' : ℚ) + 1 ≤ roundDiv a b := by exact_mod_cast (by omega : _ + 1 ≤ _)
  rw [abs_le] at h₁ h₂
  have t₁ : |(roundDiv a b : ℚ) - a / b| = 1 / 2 := by
    rw [abs_of_nonneg (by linarith)]
    linarith
  have t₂ : |(roundDiv a' b' : ℚ) - a' / b'| = 1 / 2 := by
    rw [abs_of_nonpos (by linarith)]
    linarith
  have hm' : (roundDiv a' b' : ℚ) + 1 = roundDiv a b := by linarith
  have := e₁ t₁
  have := e₂ t₂
  have : roundDiv a' b' + 1 = roundDiv a b := by exact_mod_cast hm'
  omega

theorem roundDiv_le_of_lt {a b n : Nat} (hb : 0 < b) (h : (a / b : ℚ) < n) : roundDiv a b ≤ n := by
  have := (abs_le.mp (roundDiv_near a hb).1).2
  have : (roundDiv a b : ℚ) < (n + 1 : Nat) := by push_cast; linarith
  exact Nat.lt_succ_iff.mp (by exact_mod_cast this)

theorem le_roundDiv_of_le {a b n : Nat} (hb : 0 < b) (h : (n : ℚ) ≤ a / b) : n ≤ roundDiv a b := by
  have := (abs_le.mp (roundDiv_near a hb).1).1
  have : (n : ℚ) < roundDiv a b + 1 := by linarith
  exact Nat.lt_succ_iff.mp (by exact_mod_cast this)

/-- A quotient that is exact rounds to itself. -/
theorem roundDiv_of_dvd {a b : Nat} (hb : 0 < b) (h : b ∣ a) : roundDiv a b = a / b := by
  simp [roundDiv, Nat.mod_eq_zero_of_dvd h, hb]

/-! ### Bit lengths and scales -/

/-- The least `k' ≥ k`, within `fuel` steps, with `n < 2^(2^k')`: a bound for the bit length
of `n` that the binary search of `bitsFrom` starts from. -/
def expBound : Nat → Nat → Nat → Nat
  | 0, k, _ => k
  | fuel + 1, k, n => if n < 2 ^ 2 ^ k then k else expBound fuel (k + 1) n

/-- The bit length of `n`, searched in `[b, b + 2^k]` by halving the interval `k` times. -/
def bitsFrom : Nat → Nat → Nat → Nat
  | 0, b, n => if n < 2 ^ b then b else b + 1
  | k + 1, b, n => if n < 2 ^ (b + 2 ^ k) then bitsFrom k b n else bitsFrom k (b + 2 ^ k) n

/-- The number of binary digits of `n`. -/
def bitLength (n : Nat) : Nat := bitsFrom (expBound n 0 n) 0 n

theorem lt_expBound (fuel : Nat) {k n : Nat} (h : n < 2 ^ 2 ^ (k + fuel)) :
    n < 2 ^ 2 ^ expBound fuel k n := by
  induction fuel generalizing k with
  | zero => exact h
  | succ fuel ih =>
    unfold expBound
    split
    · assumption
    · exact ih (by rwa [Nat.add_right_comm, Nat.add_assoc])

/-- The binary search keeps `2^b ≤ 2n` and `n < 2^(b + 2^k)`, and ends on the bit length. -/
theorem bitsFrom_spec (k : Nat) {b n : Nat} (h₁ : 2 ^ b ≤ 2 * n) (h₂ : n < 2 ^ (b + 2 ^ k)) :
    n < 2 ^ bitsFrom k b n ∧ 2 ^ bitsFrom k b n ≤ 2 * n := by
  induction k generalizing b with
  | zero =>
    unfold bitsFrom
    split
    · exact ⟨‹_›, h₁⟩
    · rw [Nat.pow_zero] at h₂
      exact ⟨h₂, by rw [Nat.pow_succ]; omega⟩
  | succ k ih =>
    unfold bitsFrom
    split
    · exact ih h₁ ‹_›
    · refine ih (by omega) ?_
      rwa [Nat.pow_succ, Nat.mul_two, ← Nat.add_assoc] at h₂

/-- `2^(bitLength n) / 2 ≤ n < 2^(bitLength n)` for a positive `n`. -/
theorem bitLength_spec {n : Nat} (h : 0 < n) :
    n < 2 ^ bitLength n ∧ 2 ^ bitLength n ≤ 2 * n := by
  refine bitsFrom_spec _ (by rw [Nat.pow_zero]; omega) ?_
  rw [Nat.zero_add]
  exact lt_expBound n (by
    rw [Nat.zero_add]
    exact (Nat.lt_two_pow n).trans (Nat.pow_lt_pow_right (by decide) (Nat.lt_two_pow n)))

/-- The powers of two `(p, q)` that bring `num / den` between `2^52` and `2^53`. -/
def scale (num den : Nat) : Nat × Nat :=
  let p := 53 + bitLength den - bitLength num
  let q := bitLength num - (53 + bitLength den)
  if 2 ^ 53 * (den * 2 ^ q) ≤ num * 2 ^ p then (p, q + 1) else (p, q)

/-- `num · 2^p / (den · 2^q)` lies in `[2^52, 2^53)`. -/
theorem scale_spec {num den : Nat} (hn : 0 < num) (hd : 0 < den) :
    2 ^ 52 * (den * 2 ^ (scale num den).2) ≤ num * 2 ^ (scale num den).1 ∧
      num * 2 ^ (scale num den).1 < 2 ^ 53 * (den * 2 ^ (scale num den).2) := by
  obtain ⟨hn₁, hn₂⟩ := bitLength_spec hn
  obtain ⟨hd₁, hd₂⟩ := bitLength_spec hd
  unfold scale
  dsimp only
  have hsum : bitLength num + (53 + bitLength den - bitLength num) =
      53 + bitLength den + (bitLength num - (53 + bitLength den)) := by omega
  generalize 53 + bitLength den - bitLength num = p at *
  generalize bitLength num - (53 + bitLength den) = q at *
  have hpow : 2 ^ bitLength num * 2 ^ p = 2 ^ 53 * (2 ^ bitLength den * 2 ^ q) := by
    rw [← Nat.pow_add, ← Nat.pow_add, ← Nat.pow_add, hsum, Nat.add_assoc]
  have hq := Nat.two_pow_pos q
  have hp := Nat.two_pow_pos p
  -- `num · 2^p` and `den · 2^q` against the powers of their bit lengths
  have b₁ : num * 2 ^ p < 2 ^ bitLength num * 2 ^ p := Nat.mul_lt_mul_of_pos_right hn₁ hp
  have b₂ : 2 ^ bitLength num * 2 ^ p ≤ 2 * (num * 2 ^ p) := by
    rw [← Nat.mul_assoc]; exact Nat.mul_le_mul_right _ hn₂
  have b₃ : den * 2 ^ q < 2 ^ bitLength den * 2 ^ q := Nat.mul_lt_mul_of_pos_right hd₁ hq
  have b₄ : 2 ^ bitLength den * 2 ^ q ≤ 2 * (den * 2 ^ q) := by
    rw [← Nat.mul_assoc]; exact Nat.mul_le_mul_right _ hd₂
  split <;> dsimp only
  · rw [Nat.pow_succ 2 q]
    constructor <;> linarith
  · constructor <;> linarith

/-! ### Values -/

/-- A non-negative rational `num / den`, unreduced. -/
structure Frac where
  num : Nat
  den : Nat
  den_pos : 0 < den

namespace Frac

/-- The value of the fraction. -/
def val (x : Frac) : ℚ := x.num / x.den

/-- `float64(n)` before rounding: the natural number `n`. -/
def ofNat (n : Nat) : Frac := ⟨n, 1, Nat.one_pos⟩

/-- The exact sum. -/
def add (x y : Frac) : Frac := ⟨x.num * y.den + y.num * x.den, x.den * y.den, Nat.mul_pos x.den_pos y.den_pos⟩

/-- The exact product. -/
def mul (x y : Frac) : Frac := ⟨x.num * y.num, x.den * y.den, Nat.mul_pos x.den_pos y.den_pos⟩

/-- The exact quotient by a positive value. -/
def div (x y : Frac) (h : 0 < y.num) : Frac := ⟨x.num * y.den, x.den * y.num, Nat.mul_pos x.den_pos h⟩

/-- The integer part, which the conversion to an integer keeps for a non-negative value. -/
def floor (x : Frac) : Nat := x.num / x.den

variable (x y : Frac)

theorem den_pos' : (0 : ℚ) < x.den := by exact_mod_cast x.den_pos

@[simp] theorem val_ofNat (n : Nat) : (ofNat n).val = n := by simp [val, ofNat]

@[simp] theorem val_add : (x.add y).val = x.val + y.val := by
  have := x.den_pos'
  have := y.den_pos'
  simp only [val, add]
  push_cast
  field_simp

@[simp] theorem val_mul : (x.mul y).val = x.val * y.val := by
  simp only [val, mul]
  push_cast
  rw [div_mul_div_comm]

@[simp] theorem val_div (h : 0 < y.num) : (x.div y h).val = x.val / y.val := by
  have := x.den_pos'
  have := y.den_pos'
  have : (0 : ℚ) < y.num := by exact_mod_cast h
  simp only [val, div]
  push_cast
  field_simp

theorem val_nonneg : 0 ≤ x.val := by
  have := x.den_pos'
  unfold val
  positivity

theorem floor_eq : x.floor = ⌊x.val⌋₊ := (Nat.floor_div_eq_div x.num x.den).symm

end Frac

/-! ### Rounding to binary64 -/

/-- Dividing out the smaller of two powers of two. -/
theorem pow_div_pow_of_le {p q : Nat} (h : q ≤ p) : (1 / 2 ^ (p - q) : ℚ) = 2 ^ q / 2 ^ p := by
  obtain ⟨k, rfl⟩ := Nat.exists_eq_add_of_le h
  rw [Nat.add_sub_cancel_left, pow_add]
  field_simp

theorem pow_div_pow_of_ge {p q : Nat} (h : p ≤ q) : (2 ^ (q - p) : ℚ) = 2 ^ q / 2 ^ p := by
  obtain ⟨k, rfl⟩ := Nat.exists_eq_add_of_le h
  rw [Nat.add_sub_cancel_left, pow_add]
  field_simp

/-- Rounding to the nearest binary64 value, ties to even: the value scaled into `[2^52, 2^53)`,
rounded to an integer `m`, and scaled back, `m · 2^q / 2^p`, kept with the smaller power of
two (and zero as `0 / 1`). -/
def round (x : Frac) : Frac :=
  let s := scale x.num x.den
  let m := roundDiv (x.num * 2 ^ s.1) (x.den * 2 ^ s.2)
  if m = 0 then ⟨0, 1, Nat.one_pos⟩
  else if s.2 ≤ s.1 then ⟨m, 2 ^ (s.1 - s.2), Nat.two_pow_pos _⟩
  else ⟨m * 2 ^ (s.2 - s.1), 1, Nat.one_pos⟩

/-- The scaled value and its rounding, `round x = m · 2^q / 2^p` for `x = v · 2^q / 2^p`. -/
theorem val_round (x : Frac) :
    let s := scale x.num x.den
    (round x).val = roundDiv (x.num * 2 ^ s.1) (x.den * 2 ^ s.2) * (2 ^ s.2 / 2 ^ s.1 : ℚ) ∧
      x.val = (x.num * 2 ^ s.1 : Nat) / (x.den * 2 ^ s.2 : Nat) * (2 ^ s.2 / 2 ^ s.1 : ℚ) := by
  have := x.den_pos'
  refine ⟨?_, ?_⟩
  · simp only [round, Frac.val]
    split_ifs with h₀ h₁
    · rw [h₀]
      simp
    · rw [← pow_div_pow_of_le h₁]
      push_cast
      ring
    · rw [← pow_div_pow_of_ge (Nat.le_of_not_le h₁)]
      push_cast
      ring
  · simp only [Frac.val]
    push_cast
    field_simp
    ring

theorem round_zero {x : Frac} (h : x.num = 0) : (round x).val = 0 := by
  rw [(val_round x).1, h]
  simp [roundDiv]

/-- The scaled value of a positive fraction lies in `[2^52, 2^53)`. -/
theorem scaled_mem {x : Frac} (h : 0 < x.num) :
    let s := scale x.num x.den
    (2 ^ 52 : ℚ) ≤ (x.num * 2 ^ s.1 : Nat) / (x.den * 2 ^ s.2 : Nat) ∧
      ((x.num * 2 ^ s.1 : Nat) : ℚ) / (x.den * 2 ^ s.2 : Nat) < 2 ^ 53 := by
  obtain ⟨h₁, h₂⟩ := scale_spec h x.den_pos
  have hd : (0 : ℚ) < (x.den * 2 ^ (scale x.num x.den).2 : Nat) := by
    exact_mod_cast Nat.mul_pos x.den_pos (Nat.two_pow_pos _)
  dsimp only
  rw [le_div_iff₀ hd, div_lt_iff₀ hd]
  exact ⟨by exact_mod_cast h₁, by exact_mod_cast h₂⟩

/-- The rounding error is at most half the unit of the scale, `2^q / 2^p / 2`. -/
theorem abs_round_sub (x : Frac) :
    let s := scale x.num x.den
    |(round x).val - x.val| ≤ (2 ^ s.2 / 2 ^ s.1 : ℚ) / 2 := by
  obtain ⟨hr, hx⟩ := val_round x
  dsimp only at hr hx ⊢
  rw [hr, hx, ← sub_mul, abs_mul, abs_of_pos (by positivity : (0 : ℚ) < 2 ^ _ / 2 ^ _)]
  have := (roundDiv_near (x.num * 2 ^ (scale x.num x.den).1)
    (Nat.mul_pos x.den_pos (Nat.two_pow_pos (scale x.num x.den).2))).1
  push_cast at this ⊢
  nlinarith [(by positivity : (0 : ℚ) < 2 ^ (scale x.num x.den).2 / 2 ^ (scale x.num x.den).1)]

/-- **The relative error of rounding** is at most `2^-53`. -/
theorem abs_round_sub_le (x : Frac) : |(round x).val - x.val| ≤ x.val / 2 ^ 53 := by
  rcases Nat.eq_zero_or_pos x.num with h | h
  · rw [round_zero h, show x.val = 0 by simp [Frac.val, h]]
    simp
  · have he := abs_round_sub x
    obtain ⟨-, hx⟩ := val_round x
    obtain ⟨hlo, -⟩ := scaled_mem h
    dsimp only at he hx hlo
    have hc : (0 : ℚ) < 2 ^ (scale x.num x.den).2 / 2 ^ (scale x.num x.den).1 := by positivity
    refine he.trans ?_
    rw [hx, mul_div_right_comm]
    nlinarith

theorem round_le (x : Frac) : (round x).val ≤ x.val * (1 + 1 / 2 ^ 53) := by
  have := (abs_le.mp (abs_round_sub_le x)).2
  linarith

theorem le_round (x : Frac) : x.val * (1 - 1 / 2 ^ 53) ≤ (round x).val := by
  have := (abs_le.mp (abs_round_sub_le x)).1
  linarith

/-- Two scales, powers of two, that differ differ by a factor of two at least. -/
theorem two_mul_le_of_lt {a b c d : Nat} (h : (2 ^ a / 2 ^ b : ℚ) < 2 ^ c / 2 ^ d) :
    2 * (2 ^ a / 2 ^ b : ℚ) ≤ 2 ^ c / 2 ^ d := by
  rw [div_lt_div_iff₀ (by positivity) (by positivity)] at h
  rw [← mul_div_assoc, div_le_div_iff₀ (by positivity) (by positivity)]
  have h' : 2 ^ (a + d) < 2 ^ (c + b) := by
    rw [Nat.pow_add, Nat.pow_add]
    exact_mod_cast h
  have h'' : 2 ^ (a + d + 1) ≤ 2 ^ (c + b) :=
    Nat.pow_le_pow_right (by decide) ((Nat.pow_lt_pow_iff_right (by decide)).mp h')
  rw [Nat.pow_succ, Nat.pow_add, Nat.pow_add] at h''
  have : ((2 ^ a * 2 ^ d * 2 : Nat) : ℚ) ≤ (2 ^ c * 2 ^ b : Nat) := by exact_mod_cast h''
  push_cast at this
  linarith

/-- **Rounding is monotone.** Two values at one scale round as their scaled values do; at
different scales the smaller value is below the larger one's scale, and rounds to at most the
power of two that the larger one rounds to at least. -/
theorem round_mono {x y : Frac} (h : x.val ≤ y.val) : (round x).val ≤ (round y).val := by
  rcases Nat.eq_zero_or_pos x.num with hx | hx
  · rw [round_zero hx]
    exact Frac.val_nonneg _
  have hxv : 0 < x.val := by have := x.den_pos'; unfold Frac.val; positivity
  have hy : 0 < y.num := Nat.pos_of_ne_zero fun h0 => by
    have : y.val = 0 := by simp [Frac.val, h0]
    linarith
  obtain ⟨rx, vx⟩ := val_round x
  obtain ⟨ry, vy⟩ := val_round y
  obtain ⟨lx, ux⟩ := scaled_mem hx
  obtain ⟨ly, uy⟩ := scaled_mem hy
  have hdx := Nat.mul_pos x.den_pos (Nat.two_pow_pos (scale x.num x.den).2)
  have hdy := Nat.mul_pos y.den_pos (Nat.two_pow_pos (scale y.num y.den).2)
  have bx := roundDiv_le_of_lt (a := x.num * 2 ^ (scale x.num x.den).1) (n := 2 ^ 53) hdx
    (by exact_mod_cast ux)
  have bY := le_roundDiv_of_le (a := y.num * 2 ^ (scale y.num y.den).1) (n := 2 ^ 52) hdy
    (by exact_mod_cast ly)
  have hm := @roundDiv_mono (x.num * 2 ^ (scale x.num x.den).1) _ (y.num * 2 ^ (scale y.num y.den).1)
    _ hdx hdy
  have hcx : (0 : ℚ) < 2 ^ (scale x.num x.den).2 / 2 ^ (scale x.num x.den).1 := by positivity
  have hcy : (0 : ℚ) < 2 ^ (scale y.num y.den).2 / 2 ^ (scale y.num y.den).1 := by positivity
  have hc : 2 * (2 ^ (scale x.num x.den).2 / 2 ^ (scale x.num x.den).1 : ℚ) ≤
        2 ^ (scale y.num y.den).2 / 2 ^ (scale y.num y.den).1 ∨
      (2 ^ (scale x.num x.den).2 / 2 ^ (scale x.num x.den).1 : ℚ) =
        2 ^ (scale y.num y.den).2 / 2 ^ (scale y.num y.den).1 ∨
      2 * (2 ^ (scale y.num y.den).2 / 2 ^ (scale y.num y.den).1 : ℚ) ≤
        2 ^ (scale x.num x.den).2 / 2 ^ (scale x.num x.den).1 := by
    rcases lt_trichotomy (2 ^ (scale x.num x.den).2 / 2 ^ (scale x.num x.den).1 : ℚ)
      (2 ^ (scale y.num y.den).2 / 2 ^ (scale y.num y.den).1) with h | h | h
    · exact .inl (two_mul_le_of_lt h)
    · exact .inr (.inl h)
    · exact .inr (.inr (two_mul_le_of_lt h))
  rw [rx, ry]
  rw [vx, vy] at h
  -- the scales `cx`, `cy`, the scaled values `sx`, `sy`, and their roundings `mx`, `my`
  generalize roundDiv (x.num * 2 ^ (scale x.num x.den).1) (x.den * 2 ^ (scale x.num x.den).2) = mx
    at *
  generalize roundDiv (y.num * 2 ^ (scale y.num y.den).1) (y.den * 2 ^ (scale y.num y.den).2) = my
    at *
  generalize ((x.num * 2 ^ (scale x.num x.den).1 : Nat) : ℚ) /
    ((x.den * 2 ^ (scale x.num x.den).2 : Nat) : ℚ) = sx at *
  generalize ((y.num * 2 ^ (scale y.num y.den).1 : Nat) : ℚ) /
    ((y.den * 2 ^ (scale y.num y.den).2 : Nat) : ℚ) = sy at *
  generalize (2 ^ (scale x.num x.den).2 / 2 ^ (scale x.num x.den).1 : ℚ) = cx at *
  generalize (2 ^ (scale y.num y.den).2 / 2 ^ (scale y.num y.den).1 : ℚ) = cy at *
  have bx' : (mx : ℚ) ≤ 2 ^ 53 := by exact_mod_cast bx
  have bY' : (2 ^ 52 : ℚ) ≤ my := by exact_mod_cast bY
  rcases hc with hlt | rfl | hgt
  · -- `x` rounds to at most `2^53` units of its scale, `y` to at least `2^52` of its own
    calc (mx : ℚ) * cx ≤ 2 ^ 53 * cx := mul_le_mul_of_nonneg_right bx' hcx.le
      _ = 2 ^ 52 * (2 * cx) := by ring
      _ ≤ 2 ^ 52 * cy := by linarith
      _ ≤ my * cy := mul_le_mul_of_nonneg_right bY' hcy.le
  · -- one scale: the scaled values are ordered, and so are their roundings
    have hm' : (mx : ℚ) ≤ my := by exact_mod_cast hm (le_of_mul_le_mul_right h hcy)
    exact mul_le_mul_of_nonneg_right hm' hcy.le
  · -- a larger scale for `x` would put it above `y`
    have h₁ : 2 ^ 52 * cx ≤ sx * cx := mul_le_mul_of_nonneg_right lx hcx.le
    have h₂ : sy * cy < 2 ^ 53 * cy := mul_lt_mul_of_pos_right uy hcy
    linarith

/-- A natural number below `2^53` is a binary64 value: it rounds to itself. -/
theorem round_ofNat {n : Nat} (h : n < 2 ^ 53) : (round (.ofNat n)).val = n := by
  rcases Nat.eq_zero_or_pos n with rfl | hn
  · exact round_zero rfl
  obtain ⟨r, -⟩ := val_round (.ofNat n)
  obtain ⟨h₁, -⟩ := @scale_spec n 1 hn Nat.one_pos
  simp only [Frac.ofNat] at r h₁ ⊢
  -- the scale divides out: `q ≤ p`, as `2^52 · 2^q ≤ n · 2^p < 2^53 · 2^p`
  have hqp : (scale n 1).2 ≤ (scale n 1).1 := by
    have : 2 ^ (52 + (scale n 1).2) < 2 ^ (53 + (scale n 1).1) := by
      rw [Nat.pow_add, Nat.pow_add]
      calc 2 ^ 52 * 2 ^ (scale n 1).2 ≤ n * 2 ^ (scale n 1).1 := by simpa using h₁
        _ < 2 ^ 53 * 2 ^ (scale n 1).1 := Nat.mul_lt_mul_of_pos_right h (Nat.two_pow_pos _)
    have := (Nat.pow_lt_pow_iff_right (by decide)).mp this
    omega
  have hdvd : 1 * 2 ^ (scale n 1).2 ∣ n * 2 ^ (scale n 1).1 :=
    (Nat.one_mul _).symm ▸ Dvd.dvd.mul_left (Nat.pow_dvd_pow 2 hqp) n
  rw [r, roundDiv_of_dvd (Nat.mul_pos Nat.one_pos (Nat.two_pow_pos _)) hdvd,
    Nat.cast_div hdvd (by positivity)]
  push_cast
  field_simp

/-! ### `Duration.Seconds` -/

/-- `Duration.Seconds` of `d` nanoseconds: `float64(sec) + float64(nsec)/1e9` with
`sec = d / Second` and `nsec = d % Second`. The constant `1e9` is a float64 exactly. -/
def seconds (d : Nat) : Frac :=
  round ((round (.ofNat (d / 1000000000))).add
    (round ((round (.ofNat (d % 1000000000))).div (.ofNat 1000000000) (by decide))))

theorem cast_eq_seconds (d : Nat) :
    (d : ℚ) / 1000000000 = (d / 1000000000 : Nat) + (d % 1000000000 : Nat) / 1000000000 := by
  have : (d : ℚ) = 1000000000 * (d / 1000000000 : Nat) + (d % 1000000000 : Nat) := by
    exact_mod_cast (Nat.div_add_mod d 1000000000).symm
  rw [this]
  ring

/-- `Seconds` overestimates by a relative error of at most `(1 + 2^-53)^3 - 1`. -/
theorem seconds_le (d : Nat) : (seconds d).val ≤ d / 1000000000 * (1 + 1 / 2 ^ 53) ^ 3 := by
  have h₁ := round_le (.ofNat (d % 1000000000))
  have h₂ := round_le ((round (.ofNat (d % 1000000000))).div (.ofNat 1000000000) (by decide))
  have h₃ := round_le (.ofNat (d / 1000000000))
  have h₄ := round_le ((round (.ofNat (d / 1000000000))).add
    (round ((round (.ofNat (d % 1000000000))).div (.ofNat 1000000000) (by decide))))
  simp only [Frac.val_add, Frac.val_div, Frac.val_ofNat] at h₁ h₂ h₃ h₄
  rw [cast_eq_seconds]
  unfold seconds
  linarith

/-- `Seconds` underestimates by a relative error of at most `1 - (1 - 2^-53)^3`. -/
theorem le_seconds (d : Nat) : d / 1000000000 * (1 - 1 / 2 ^ 53) ^ 3 ≤ (seconds d).val := by
  have h₁ := le_round (.ofNat (d % 1000000000))
  have h₂ := le_round ((round (.ofNat (d % 1000000000))).div (.ofNat 1000000000) (by decide))
  have h₃ := le_round (.ofNat (d / 1000000000))
  have h₄ := le_round ((round (.ofNat (d / 1000000000))).add
    (round ((round (.ofNat (d % 1000000000))).div (.ofNat 1000000000) (by decide))))
  simp only [Frac.val_add, Frac.val_div, Frac.val_ofNat] at h₁ h₂ h₃ h₄
  rw [cast_eq_seconds]
  unfold seconds
  have : (0 : ℚ) ≤ (d % 1000000000 : Nat) := Nat.cast_nonneg _
  have : (0 : ℚ) ≤ (d / 1000000000 : Nat) := Nat.cast_nonneg _
  nlinarith

/-- **`Seconds` is monotone** while the seconds are below `2^53`: within one second the
fraction grows, and across seconds the whole seconds are exact and the fraction is at most
`1`. -/
theorem seconds_mono {d d' : Nat} (h : d ≤ d') (h' : d' / 1000000000 < 2 ^ 53) :
    (seconds d).val ≤ (seconds d').val := by
  unfold seconds
  apply round_mono
  simp only [Frac.val_add, Frac.val_div, Frac.val_ofNat]
  have hq' := Frac.val_nonneg (round ((round (.ofNat (d' % 1000000000))).div (.ofNat 1000000000)
    (by decide)))
  rcases Nat.lt_or_ge (d / 1000000000) (d' / 1000000000) with hs | hs
  · -- across seconds: `sec + fraction ≤ sec + 1 ≤ sec'`
    have hq : (round ((round (.ofNat (d % 1000000000))).div (.ofNat 1000000000) (by decide))).val ≤
        1 := by
      have := round_mono (x := (round (.ofNat (d % 1000000000))).div (.ofNat 1000000000) (by decide))
        (y := .ofNat 1) (by
          rw [Frac.val_div, round_ofNat (by omega)]
          simp only [Frac.val_ofNat, Nat.cast_one, Nat.cast_ofNat]
          rw [div_le_one (by norm_num)]
          exact_mod_cast (Nat.mod_lt d (by decide)).le)
      rwa [round_ofNat (by decide), Nat.cast_one] at this
    rw [round_ofNat (by omega), round_ofNat h']
    have : ((d / 1000000000 + 1 : Nat) : ℚ) ≤ (d' / 1000000000 : Nat) := by exact_mod_cast hs
    push_cast at this
    linarith
  · -- within one second: the same whole seconds, and a larger fraction
    have hsec : d / 1000000000 = d' / 1000000000 := by omega
    rw [hsec]
    have hn : d % 1000000000 ≤ d' % 1000000000 := by omega
    have := round_mono (x := (round (.ofNat (d % 1000000000))).div (.ofNat 1000000000) (by decide))
      (y := (round (.ofNat (d' % 1000000000))).div (.ofNat 1000000000) (by decide)) (by
        simp only [Frac.val_div, Frac.val_ofNat]
        exact div_le_div_of_nonneg_right (round_mono (by simpa using hn)) (by norm_num))
    linarith

end Float64

end AdsTxtAnalyzer
