import AdsTxtAnalyzer.GoFloat
import Mathlib.Data.Nat.GCD.Basic
import Mathlib.Data.Nat.Prime.Basic

/-!
# Token buckets

`TokenBucket` (`internal/domainAnalysis/analysis.go`) holds a `capacity`, a count of
`tokens` and a `refillRate`, all `int64`, and the time `lastRefill`. `Allow` runs, under the
bucket's mutex, `refill` and then takes a token if there is one. `refill` adds
`int64(elapsed.Seconds() * float64(refillRate))` whole tokens, capped at the capacity, and
moves `lastRefill` only when it adds some.

Modelling choices:

* Times are nanoseconds of the monotonic clock. A `TokenBucket` is read and written under its
  mutex, so its own times never go back. `now.Sub(lastRefill)` is their difference, saturated
  at `MaxInt64` nanoseconds, some 292 years (`timeSub`).
* `int64` values are `Int`s. The one operation of the bucket that can leave the `int64` range
  is the sum `tb.tokens + tokensToAdd`, which Go wraps: it is `wrap64` of the exact sum.
* The refill is computed in float64 (`AdsTxtAnalyzer.GoFloat`): `Seconds()`, the conversion of
  the rate and their product are each rounded to the nearest binary64 value, and the
  conversion to `int64` truncates toward zero. A product outside the `int64` range converts, on
  amd64, to `math.MinInt64`, so such a refill adds nothing.

Every bucket carries `tokens ≤ capacity` and `min capacity MinInt64 ≤ tokens`: the second
says the count stays an `int64` whenever the capacity is one. The count can still go
negative: a sum that wraps past `MaxInt64` is capped to itself.

What the float64 refill adds, against the exact credit `elapsed · refillRate / 10⁹`:

* at most the credit times `1 + 2^-50`, which covers its six roundings (`tokensToAdd_mul_le`);
* nothing while the credit is below one token, and something once it reaches one
  (`tokensToAdd_eq_zero`, `mul_lt_second_of_tokensToAdd_eq_zero`). At exactly one token the
  credit is `d · r = 10⁹` for a divisor `r` of `10⁹`, and each of the hundred divisors is
  evaluated (`one_le_floor_secondsTimes_divisor`);
* once out of the `int64` range, out of it for every longer time (`tokensToAdd_nonneg_of_le`).

While less than a token of credit has accrued since the last refill, a refill adds nothing,
so a burst of calls on a bucket takes its tokens one by one and is then denied
(`allowAll_of_mul_lt`). On a new bucket of capacity `C` and rate `r`, every burst within
`1/r` seconds of its creation grants its first `C` calls and denies the rest
(`allowAll_new_within_refill_period`).

The second half of the module is the bucket's **potential** `TokenBucket.potential t`: its
tokens, `2^50` parts each, plus the credit accrued since `lastRefill` at `refillRate · (2^50 + 1)`
parts a nanosecond, capped so that refilling never adds more than it. A successful `Allow`
lowers it by a whole token, a refill never raises it, a returned token raises it by at most one,
and time raises it by at most `refillRate · (1 + 2^-50)` tokens a second. The window bounds of
the rate limiter are read off these facts.
-/

namespace AdsTxtAnalyzer

/-! ### `int64` arithmetic -/

/-- `math.MinInt64`, `-2^63`. -/
def minInt64 : Int := -9223372036854775808

/-- `math.MaxInt64`, `2^63 - 1`. -/
def maxInt64 : Int := 9223372036854775807

/-- The `int64` that Go's wrapping arithmetic gives for the exact value `x`: its residue
modulo `2^64` in `[-2^63, 2^63)`. -/
def wrap64 (x : Int) : Int := (x + 9223372036854775808) % 18446744073709551616 - 9223372036854775808

theorem minInt64_le_wrap64 (x : Int) : minInt64 ≤ wrap64 x := by
  unfold wrap64 minInt64
  omega

theorem wrap64_le_maxInt64 (x : Int) : wrap64 x ≤ maxInt64 := by
  unfold wrap64 maxInt64
  omega

/-- Wrapping only ever subtracts from a value that is not below `MinInt64`. -/
theorem wrap64_le {x : Int} (hx : minInt64 ≤ x) : wrap64 x ≤ x := by
  unfold wrap64 minInt64 at *
  omega

/-- A value of the `int64` range is its own wrap. -/
theorem wrap64_of_le {x : Int} (h₁ : minInt64 ≤ x) (h₂ : x ≤ maxInt64) : wrap64 x = x := by
  unfold wrap64 minInt64 maxInt64 at *
  omega

/-- Nanoseconds per second, `time.Second`. -/
def second : Int := 1000000000

/-- `t.Sub(u)` for times of the monotonic clock: the difference, saturated at `MaxInt64`
nanoseconds. -/
def timeSub (t u : Nat) : Nat := min (t - u) 9223372036854775807

/-- `elapsed.Seconds() * float64(r)` for a rate of magnitude `r`, in float64. -/
def secondsTimes (elapsed r : Nat) : Float64.Frac :=
  Float64.round ((Float64.seconds elapsed).mul (Float64.round (.ofNat r)))

/-- `int64(elapsed.Seconds() * float64(refillRate))` for `elapsed` nanoseconds. Rounding is
symmetric, so the product with a negative rate is the negated product with its magnitude, and
the conversion truncates toward zero; out of the `int64` range it gives `MinInt64`. -/
def tokensToAdd (elapsed : Nat) (refillRate : Int) : Int :=
  let q := refillRate.sign * (secondsTimes elapsed refillRate.natAbs).floor
  if minInt64 ≤ q ∧ q ≤ maxInt64 then q else minInt64

/-- `2^50`: float64 may overestimate a refill by a relative `2^-50`, so potentials count a
token as `2^50` parts and a token of credit as `2^50 + 1`. -/
def refillScale : Int := 1125899906842624

section TokensToAdd

theorem secondsTimes_le (elapsed r : Nat) :
    (secondsTimes elapsed r).val ≤ elapsed * r / 1000000000 * (1 + 1 / 2 ^ 50) := by
  have hu : (0 : ℚ) ≤ 1 + 1 / 2 ^ 53 := by norm_num
  have hc : ((1 + 1 / 2 ^ 53) ^ 5 : ℚ) ≤ 1 + 1 / 2 ^ 50 := by norm_num
  have hx : (0 : ℚ) ≤ (elapsed : ℚ) * r / 1000000000 := by positivity
  have hx' : (0 : ℚ) ≤ (elapsed : ℚ) / 1000000000 * (1 + 1 / 2 ^ 53) ^ 3 := by positivity
  have h₁ := Float64.round_le ((Float64.seconds elapsed).mul (Float64.round (.ofNat r)))
  have h₂ := Float64.round_le (.ofNat r)
  rw [Float64.Frac.val_mul] at h₁
  rw [Float64.Frac.val_ofNat] at h₂
  have hprod := mul_le_mul_of_nonneg_right (mul_le_mul (Float64.seconds_le elapsed) h₂
    (Float64.Frac.val_nonneg _) hx') hu
  have := mul_le_mul_of_nonneg_left hc hx
  unfold secondsTimes
  linarith

theorem le_secondsTimes (elapsed r : Nat) :
    elapsed * r / 1000000000 * (1 - 1 / 2 ^ 50) ≤ (secondsTimes elapsed r).val := by
  have hu : (0 : ℚ) ≤ 1 - 1 / 2 ^ 53 := by norm_num
  have hc : (1 - 1 / 2 ^ 50 : ℚ) ≤ (1 - 1 / 2 ^ 53) ^ 5 := by norm_num
  have hx : (0 : ℚ) ≤ (elapsed : ℚ) * r / 1000000000 := by positivity
  have h₁ := Float64.le_round ((Float64.seconds elapsed).mul (Float64.round (.ofNat r)))
  have h₂ := Float64.le_round (.ofNat r)
  rw [Float64.Frac.val_mul] at h₁
  rw [Float64.Frac.val_ofNat] at h₂
  have hprod := mul_le_mul_of_nonneg_right (mul_le_mul (Float64.le_seconds elapsed) h₂
    (mul_nonneg (Nat.cast_nonneg r) hu) (Float64.Frac.val_nonneg _)) hu
  have := mul_le_mul_of_nonneg_left hc hx
  unfold secondsTimes
  linarith

theorem secondsTimes_mono {elapsed elapsed' : Nat} (r : Nat) (h : elapsed ≤ elapsed')
    (h' : elapsed' ≤ 9223372036854775807) :
    (secondsTimes elapsed r).val ≤ (secondsTimes elapsed' r).val := by
  apply Float64.round_mono
  simp only [Float64.Frac.val_mul]
  exact mul_le_mul_of_nonneg_right (Float64.seconds_mono h (by omega)) (Float64.Frac.val_nonneg _)

/-- A non-negative rate: the product is non-negative and converts when below `2^63`. -/
theorem tokensToAdd_ofNat (elapsed r : Nat) :
    tokensToAdd elapsed r =
      if ((secondsTimes elapsed r).floor : Int) ≤ maxInt64 then ((secondsTimes elapsed r).floor : Int)
      else minInt64 := by
  unfold tokensToAdd
  rcases Nat.eq_zero_or_pos r with rfl | hr
  · have : (secondsTimes elapsed 0).floor = 0 := by
      rw [Float64.Frac.floor_eq, Nat.floor_eq_zero]
      have := secondsTimes_le elapsed 0
      simp only [Nat.cast_zero, mul_zero, zero_div, zero_mul] at this
      linarith
    simp [this, maxInt64, minInt64]
  · rw [Int.natAbs_ofNat, Int.sign_ofNat_of_nonzero (by omega), Int.one_mul]
    have : minInt64 ≤ (secondsTimes elapsed r).floor := by unfold minInt64; omega
    simp only [this, true_and]

/-- `10⁹ = d · r` only for the divisors `r = 2^i · 5^j` of `10⁹`. -/
theorem eq_of_dvd_second {r : Nat} (h : r ∣ 1000000000) :
    ∃ i < 10, ∃ j < 10, r = 2 ^ i * 5 ^ j := by
  obtain ⟨a, b, ha, hb, rfl⟩ := Nat.dvd_mul.mp (show r ∣ 2 ^ 9 * 5 ^ 9 from h)
  obtain ⟨i, hi, rfl⟩ := (Nat.dvd_prime_pow Nat.prime_two).mp ha
  obtain ⟨j, hj, rfl⟩ := (Nat.dvd_prime_pow Nat.prime_five).mp hb
  exact ⟨i, by omega, j, by omega, rfl⟩

/-- At exactly one token of credit, `d · r = 10⁹`, float64 gives at least one token, for each of
the hundred divisors `r` of `10⁹`. -/
theorem one_le_floor_secondsTimes_divisor :
    ∀ i < 10, ∀ j < 10, 1 ≤ (secondsTimes (1000000000 / (2 ^ i * 5 ^ j)) (2 ^ i * 5 ^ j)).floor := by
  decide!

variable {elapsed : Nat} {refillRate : Int}

/-- **The refill's error.** A refill adds at most its credit times `1 + 2^-50`. -/
theorem tokensToAdd_mul_le (hr : 0 ≤ refillRate) (h : 0 ≤ tokensToAdd elapsed refillRate) :
    tokensToAdd elapsed refillRate * (second * refillScale) ≤
      elapsed * refillRate * (refillScale + 1) := by
  obtain ⟨r, rfl⟩ := Int.eq_ofNat_of_zero_le hr
  rw [tokensToAdd_ofNat] at h ⊢
  split_ifs at h ⊢
  · have h₁ : ((secondsTimes elapsed r).floor : ℚ) ≤ (secondsTimes elapsed r).val := by
      rw [Float64.Frac.floor_eq]
      exact Nat.floor_le (Float64.Frac.val_nonneg _)
    have h₂ := secondsTimes_le elapsed r
    have : ((secondsTimes elapsed r).floor : ℚ) * (1000000000 * 1125899906842624) ≤
        elapsed * r * (1125899906842624 + 1) := by linarith
    unfold second refillScale
    exact_mod_cast this
  · exact absurd h (by decide)

/-- The overestimate is real: `797979799` nanoseconds at `999999901` tokens a second are
`797979719.9999999` tokens of credit, and float64 rounds the product up to `797979720`. -/
theorem tokensToAdd_exceeds_credit :
    797979799 * 999999901 / second = 797979719 ∧ tokensToAdd 797979799 999999901 = 797979720 := by
  decide

/-- Less than a token of credit converts to no token. -/
theorem tokensToAdd_eq_zero (hr : 0 ≤ refillRate) (h : elapsed * refillRate < second) :
    tokensToAdd elapsed refillRate = 0 := by
  obtain ⟨r, rfl⟩ := Int.eq_ofNat_of_zero_le hr
  have hlt : ((elapsed * r : Nat) : ℚ) ≤ 999999999 := by
    unfold second at h
    exact_mod_cast (by omega : elapsed * r ≤ 999999999)
  have h0 : (secondsTimes elapsed r).floor = 0 := by
    rw [Float64.Frac.floor_eq, Nat.floor_eq_zero]
    have := secondsTimes_le elapsed r
    push_cast at hlt
    linarith
  rw [tokensToAdd_ofNat, h0]
  decide

/-- **A refill that adds nothing found less than a token of credit.** Above one token the
credit exceeds it by `10⁻⁹` of a token, far more than the rounding; at exactly one token the
divisors of `10⁹` are checked one by one. -/
theorem mul_lt_second_of_tokensToAdd_eq_zero (hr : 0 ≤ refillRate)
    (h : tokensToAdd elapsed refillRate = 0) : elapsed * refillRate < second := by
  obtain ⟨r, rfl⟩ := Int.eq_ofNat_of_zero_le hr
  by_contra hge
  have hge' : 1000000000 ≤ elapsed * r := by
    unfold second at hge
    exact_mod_cast Int.not_lt.mp hge
  have h1 : 1 ≤ (secondsTimes elapsed r).floor := by
    rcases Nat.eq_or_lt_of_le hge' with heq | hgt
    · obtain ⟨i, hi, j, hj, rfl⟩ := eq_of_dvd_second ⟨elapsed, by rw [heq, Nat.mul_comm]⟩
      have he : elapsed = 1000000000 / (2 ^ i * 5 ^ j) := by
        rw [heq, Nat.mul_div_cancel _ (by positivity)]
      rw [he]
      exact one_le_floor_secondsTimes_divisor i hi j hj
    · rw [Float64.Frac.floor_eq, Nat.one_le_floor_iff]
      have := le_secondsTimes elapsed r
      have : (1000000001 : ℚ) ≤ elapsed * r := by exact_mod_cast hgt
      nlinarith
  rw [tokensToAdd_ofNat] at h
  split_ifs at h
  · omega
  · exact absurd h (by decide)

/-- **Once out of the `int64` range, always out of it**: the float64 product grows with the
time elapsed. -/
theorem tokensToAdd_nonneg_of_le (hr : 0 ≤ refillRate) {elapsed' : Nat} (he : elapsed ≤ elapsed')
    (he' : elapsed' ≤ 9223372036854775807) (h : 0 ≤ tokensToAdd elapsed' refillRate) :
    0 ≤ tokensToAdd elapsed refillRate := by
  obtain ⟨r, rfl⟩ := Int.eq_ofNat_of_zero_le hr
  have hm : (secondsTimes elapsed r).floor ≤ (secondsTimes elapsed' r).floor := by
    rw [Float64.Frac.floor_eq, Float64.Frac.floor_eq]
    exact Nat.floor_mono (secondsTimes_mono r he he')
  rw [tokensToAdd_ofNat] at h ⊢
  split_ifs at h ⊢ <;> unfold minInt64 maxInt64 at * <;> omega

/-- A credit that stays below `M ≤ MaxInt64` tokens, with the rounding's margin, converts to at
most `M` tokens. -/
theorem tokensToAdd_le {M : Int} (hr : 0 ≤ refillRate) (hM : M ≤ maxInt64)
    (h : elapsed * refillRate * (refillScale + 1) ≤ M * (second * refillScale)) :
    0 ≤ tokensToAdd elapsed refillRate ∧ tokensToAdd elapsed refillRate ≤ M := by
  obtain ⟨r, rfl⟩ := Int.eq_ofNat_of_zero_le hr
  have hF : ((secondsTimes elapsed r).floor : Int) ≤ M := by
    have h₁ : ((secondsTimes elapsed r).floor : ℚ) ≤ (secondsTimes elapsed r).val := by
      rw [Float64.Frac.floor_eq]
      exact Nat.floor_le (Float64.Frac.val_nonneg _)
    have h₂ := secondsTimes_le elapsed r
    have h₃ : (elapsed * r * (1125899906842624 + 1) : ℚ) ≤ M * (1000000000 * 1125899906842624) := by
      unfold second refillScale at h
      exact_mod_cast h
    have : ((secondsTimes elapsed r).floor : ℚ) ≤ M := by linarith
    exact_mod_cast this
  rw [tokensToAdd_ofNat, if_pos (hF.trans hM)]
  exact ⟨Int.ofNat_nonneg _, hF⟩

/-- A non-positive rate never adds a token. -/
theorem tokensToAdd_nonpos (hr : refillRate ≤ 0) : tokensToAdd elapsed refillRate ≤ 0 := by
  have hs : refillRate.sign ≤ 0 := by
    rcases lt_or_eq_of_le hr with h | h
    · rw [Int.sign_eq_neg_one_of_neg h]; decide
    · rw [h]; decide
  have := Int.mul_nonpos_of_nonpos_of_nonneg hs
    (Int.ofNat_nonneg (secondsTimes elapsed refillRate.natAbs).floor)
  unfold tokensToAdd
  dsimp only
  split
  · exact this
  · decide

end TokensToAdd

/-! ### The bucket -/

/-- The record `TokenBucket` without its mutex, with the bounds every bucket keeps. -/
@[ext]
structure TokenBucket where
  capacity : Int
  tokens : Int
  refillRate : Int
  lastRefill : Nat
  tokens_le : tokens ≤ capacity
  tokens_ge : min capacity minInt64 ≤ tokens

namespace TokenBucket

/-- `NewTokenBucket(capacity, refillRate)` at time `now`: a full bucket. -/
def new (capacity refillRate : Int) (now : Nat) : TokenBucket :=
  ⟨capacity, capacity, refillRate, now, Int.le_refl _, Int.min_le_left _ _⟩

/-- The method `refill` at time `now`. -/
def refill (tb : TokenBucket) (now : Nat) : TokenBucket :=
  let tokensToAdd := tokensToAdd (timeSub now tb.lastRefill) tb.refillRate
  if 0 < tokensToAdd then
    { tb with
      tokens := min tb.capacity (wrap64 (tb.tokens + tokensToAdd))
      lastRefill := now
      tokens_le := Int.min_le_left _ _
      tokens_ge := by have := minInt64_le_wrap64 (tb.tokens + tokensToAdd); omega }
  else tb

/-- The method `Allow` at time `now`: whether it took a token, and the bucket after it. -/
def allow (tb : TokenBucket) (now : Nat) : Bool × TokenBucket :=
  let tb' := tb.refill now
  if h : 0 < tb'.tokens then
    (true, { tb' with
      tokens := tb'.tokens - 1
      tokens_le := by have := tb'.tokens_le; omega
      tokens_ge := by have := Int.min_le_right tb'.capacity minInt64; unfold minInt64 at *; omega })
  else (false, tb')

/-- The body of `returnGlobalToken` on the bucket: one token back, below the capacity. -/
def returnToken (tb : TokenBucket) : TokenBucket :=
  if h : tb.tokens < tb.capacity then
    { tb with
      tokens := tb.tokens + 1
      tokens_le := h
      tokens_ge := by have := tb.tokens_ge; omega }
  else tb

variable (tb : TokenBucket) (now : Nat)

@[simp] theorem refill_capacity : (tb.refill now).capacity = tb.capacity := by
  unfold refill; dsimp only; split <;> rfl

@[simp] theorem refill_refillRate : (tb.refill now).refillRate = tb.refillRate := by
  unfold refill; dsimp only; split <;> rfl

@[simp] theorem allow_capacity : (tb.allow now).2.capacity = tb.capacity := by
  unfold allow; dsimp only; split <;> simp

@[simp] theorem allow_refillRate : (tb.allow now).2.refillRate = tb.refillRate := by
  unfold allow; dsimp only; split <;> simp

@[simp] theorem returnToken_capacity : tb.returnToken.capacity = tb.capacity := by
  unfold returnToken; split <;> rfl

@[simp] theorem returnToken_refillRate : tb.returnToken.refillRate = tb.refillRate := by
  unfold returnToken; split <;> rfl

theorem refill_of_not_pos {tb : TokenBucket} {now : Nat}
    (h : ¬0 < tokensToAdd (timeSub now tb.lastRefill) tb.refillRate) : tb.refill now = tb := by
  unfold refill
  exact if_neg h

theorem refill_lastRefill_of_pos {tb : TokenBucket} {now : Nat}
    (h : 0 < tokensToAdd (timeSub now tb.lastRefill) tb.refillRate) :
    (tb.refill now).lastRefill = now := by
  unfold refill
  dsimp only
  rw [if_pos h]

/-- A denied `Allow` is its refill. -/
theorem allow_eq_false {tb : TokenBucket} {now : Nat} (h : (tb.allow now).1 = false) :
    (tb.allow now).2 = tb.refill now := by
  unfold allow at *
  dsimp only at *
  split
  · next hpos =>
    rw [dif_pos hpos] at h
    cases h
  · rfl

/-- A granted `Allow` is its refill and one token taken. -/
theorem allow_eq_true {tb : TokenBucket} {now : Nat} (h : (tb.allow now).1 = true) :
    0 < (tb.refill now).tokens ∧ (tb.allow now).2.tokens = (tb.refill now).tokens - 1 ∧
      (tb.allow now).2.lastRefill = (tb.refill now).lastRefill := by
  unfold allow at *
  dsimp only at *
  split at h
  · next hpos =>
    rw [dif_pos hpos]
    exact ⟨hpos, rfl, rfl⟩
  · cases h

/-- `Allow` grants exactly when the refilled bucket holds a token. -/
theorem allow_fst (tb : TokenBucket) (now : Nat) :
    (tb.allow now).1 = decide (0 < (tb.refill now).tokens) := by
  unfold allow
  dsimp only
  split <;> simp_all

/-! ### A burst of calls -/

/-- `Allow` called at each of the times `ts` in turn: its answers. -/
def allowAll (tb : TokenBucket) : List Nat → List Bool
  | [] => []
  | t :: ts => (tb.allow t).1 :: (tb.allow t).2.allowAll ts

/-- **A burst drains the bucket.** While less than a token of credit has accrued since the
last refill, calls take the tokens there are, one each, and are then denied. -/
theorem allowAll_of_mul_lt {tb : TokenBucket} {ts : List Nat} (hk : 0 ≤ tb.tokens)
    (hr : 0 ≤ tb.refillRate)
    (hts : ∀ t ∈ ts, ((t - tb.lastRefill : Nat) : Int) * tb.refillRate < second) :
    tb.allowAll ts = List.replicate (min ts.length tb.tokens.toNat) true ++
      List.replicate (ts.length - tb.tokens.toNat) false := by
  induction ts generalizing tb with
  | nil => simp [allowAll]
  | cons t ts ih =>
    have hrefill : tb.refill t = tb := by
      have hlt : ((timeSub t tb.lastRefill : Nat) : Int) * tb.refillRate < second :=
        Int.lt_of_le_of_lt (Int.mul_le_mul_of_nonneg_right
          (Int.ofNat_le.mpr (Nat.min_le_left _ _)) hr) (hts t (.head _))
      exact refill_of_not_pos (by rw [tokensToAdd_eq_zero hr hlt]; exact Int.lt_irrefl 0)
    have hts' : ∀ t' ∈ ts, ((t' - tb.lastRefill : Nat) : Int) * tb.refillRate < second :=
      fun t' ht' => hts t' (.tail _ ht')
    rw [allowAll, allow_fst, hrefill]
    by_cases hpos : 0 < tb.tokens
    · obtain ⟨-, htok, hlast⟩ := allow_eq_true
        (show (tb.allow t).1 = true by rw [allow_fst, hrefill]; exact decide_eq_true hpos)
      rw [hrefill] at htok hlast
      rw [decide_eq_true hpos, ih (by omega) (by simpa using hr) (by simpa [hlast] using hts'),
        htok]
      obtain ⟨m, hm⟩ : ∃ m, tb.tokens.toNat = m + 1 := ⟨tb.tokens.toNat - 1, by omega⟩
      have hm' : (tb.tokens - 1).toNat = m := by omega
      rw [hm, hm', List.length_cons, Nat.add_min_add_right, List.replicate_succ,
        Nat.add_sub_add_right]
      rfl
    · have hfalse : (tb.allow t).1 = false := by rw [allow_fst, hrefill]; exact decide_eq_false hpos
      rw [decide_eq_false hpos, allow_eq_false hfalse, hrefill, ih hk hr hts']
      have h0 : tb.tokens.toNat = 0 := by omega
      simp [h0, List.replicate_succ]

theorem allowAll_new_within_refill_period {capacity refillRate : Int} {created : Nat}
    {ts : List Nat} (hC : 0 ≤ capacity) (hr : 0 ≤ refillRate)
    (hts : ∀ t ∈ ts, ((t - created : Nat) : Int) * refillRate < second) :
    (new capacity refillRate created).allowAll ts =
      List.replicate (min ts.length capacity.toNat) true ++
        List.replicate (ts.length - capacity.toNat) false :=
  allowAll_of_mul_lt hC hr hts

theorem allowAll_new_three_of_five :
    (0 : Int) ≤ 3 ∧ (0 : Int) ≤ 2 ∧
      (∀ t ∈ [0, 100, 200000000, 300000000, 499999999], ((t - 0 : Nat) : Int) * 2 < second) ∧
      (new 3 2 0).allowAll [0, 100, 200000000, 300000000, 499999999] =
        [true, true, true, false, false] :=
  ⟨by decide, by decide, by decide,
    allowAll_new_within_refill_period (by decide) (by decide) (by decide)⟩

/-! ### The potential -/

/-- The credit time has accrued since `lastRefill`, at time `t`, in parts of `1 / 2^50` of a
nanosecond-token at `2^50 + 1` parts a nanosecond-token: capped one token short of what would
overfill the bucket, and none once a refill can no longer convert it (`tokensToAdd` out of
range). -/
def credit (tb : TokenBucket) (t : Nat) : Int :=
  if 0 ≤ tokensToAdd (timeSub t tb.lastRefill) tb.refillRate then
    min ((timeSub t tb.lastRefill : Nat) * tb.refillRate * (refillScale + 1))
      (second * refillScale * (tb.capacity - tb.tokens) + (second * refillScale - 1))
  else 0

/-- The potential of the bucket at time `t`: its tokens and its credit. -/
def potential (tb : TokenBucket) (t : Nat) : Int :=
  max 0 (second * refillScale * tb.tokens + tb.credit t)

section Potential

variable {tb : TokenBucket} {t : Nat}

theorem potential_nonneg : 0 ≤ tb.potential t := Int.le_max_left _ _

/-- A bucket refilled at `t` has no credit at `t`. -/
theorem credit_of_lastRefill_eq (h : tb.lastRefill = t) : tb.credit t = 0 := by
  have := tb.tokens_le
  unfold credit
  rw [h, timeSub, Nat.sub_self, Nat.zero_min, Int.ofNat_zero, Int.zero_mul, Int.zero_mul]
  unfold second refillScale
  split <;> omega

variable (hr : 0 ≤ tb.refillRate)
include hr

theorem credit_nonneg : 0 ≤ tb.credit t := by
  have := tb.tokens_le
  have : (0 : Int) ≤ (timeSub t tb.lastRefill : Nat) * tb.refillRate :=
    Int.mul_nonneg (Int.ofNat_nonneg _) hr
  unfold credit second refillScale at *
  split <;> omega

/-- After a refill at `t`, the credit left is less than a token. -/
theorem mul_lt_second_of_refill
    (h : 0 ≤ tokensToAdd (timeSub t (tb.refill t).lastRefill) tb.refillRate) :
    ((timeSub t (tb.refill t).lastRefill : Nat) : Int) * tb.refillRate < second := by
  by_cases hk : 0 < tokensToAdd (timeSub t tb.lastRefill) tb.refillRate
  · rw [refill_lastRefill_of_pos hk, timeSub, Nat.sub_self, Nat.zero_min, Int.ofNat_zero,
      Int.zero_mul]
    decide
  · rw [refill_of_not_pos hk] at h ⊢
    by_cases h0 : tokensToAdd (timeSub t tb.lastRefill) tb.refillRate = 0
    · exact mul_lt_second_of_tokensToAdd_eq_zero hr h0
    · omega

/-- Every bucket with the `lastRefill` and the rate of a bucket just refilled at `t` has the
same credit, less than a token. -/
theorem credit_refill :
    (tb.refill t).credit t < second * refillScale ∧ ∀ {tb' : TokenBucket},
      tb'.lastRefill = (tb.refill t).lastRefill → tb'.refillRate = tb.refillRate →
        tb'.credit t = (tb.refill t).credit t := by
  have hcap := (tb.refill t).tokens_le
  have hnn : (0 : Int) ≤ (timeSub t (tb.refill t).lastRefill : Nat) * tb.refillRate :=
    Int.mul_nonneg (Int.ofNat_nonneg _) hr
  refine ⟨?_, fun {tb'} hl hrate => ?_⟩
  · unfold credit
    rw [refill_refillRate]
    split
    · have := mul_lt_second_of_refill hr ‹_›
      unfold second refillScale at *
      omega
    · decide
  · have hcap' := tb'.tokens_le
    unfold credit
    rw [hl, hrate, refill_refillRate]
    split
    · have := mul_lt_second_of_refill hr ‹_›
      unfold second refillScale at *
      omega
    · rfl

omit hr in
theorem potential_le (hC : 0 ≤ tb.capacity) :
    tb.potential t ≤ second * refillScale * (tb.capacity + 1) - 1 := by
  have := tb.tokens_le
  have : tb.credit t ≤ second * refillScale * (tb.capacity - tb.tokens) + (second * refillScale - 1) := by
    unfold credit
    split
    · exact Int.min_le_right _ _
    · unfold second refillScale; omega
  unfold potential second refillScale at *
  omega

/-- Time raises the potential by at most `refillRate · (1 + 2^-50)` tokens per second. -/
theorem potential_le_add {t' : Nat} (h : t ≤ t') :
    tb.potential t' ≤ tb.potential t + (t' - t : Nat) * tb.refillRate * (refillScale + 1) := by
  have hc := credit_nonneg hr (t := t)
  have hd : (0 : Int) ≤ (t' - t : Nat) * tb.refillRate := Int.mul_nonneg (Int.ofNat_nonneg _) hr
  have hsub : timeSub t tb.lastRefill ≤ timeSub t' tb.lastRefill ∧
      timeSub t' tb.lastRefill ≤ timeSub t tb.lastRefill + (t' - t) ∧
      timeSub t' tb.lastRefill ≤ 9223372036854775807 := by
    unfold timeSub
    omega
  have hcredit : tb.credit t' ≤ tb.credit t + (t' - t : Nat) * tb.refillRate * (refillScale + 1) := by
    unfold credit
    by_cases h' : 0 ≤ tokensToAdd (timeSub t' tb.lastRefill) tb.refillRate
    · rw [if_pos h', if_pos (tokensToAdd_nonneg_of_le hr hsub.1 hsub.2.2 h')]
      have : ((timeSub t' tb.lastRefill : Nat) : Int) * tb.refillRate ≤
          (timeSub t tb.lastRefill : Nat) * tb.refillRate + (t' - t : Nat) * tb.refillRate := by
        rw [← Int.add_mul]
        exact Int.mul_le_mul_of_nonneg_right (by omega) hr
      unfold second refillScale at *
      omega
    · rw [if_neg h']
      unfold credit at hc
      unfold second refillScale at *
      omega
  unfold potential refillScale at *
  omega

/-- A refill never raises the potential. -/
theorem potential_refill : (tb.refill t).potential t ≤ tb.potential t := by
  unfold refill
  dsimp only
  split
  · next hk =>
    have hmul := @tokensToAdd_mul_le (timeSub t tb.lastRefill) _ hr (Int.le_of_lt hk)
    have hw := minInt64_le_wrap64 (tb.tokens + tokensToAdd (timeSub t tb.lastRefill) tb.refillRate)
    have hw' : minInt64 ≤ tb.tokens →
        wrap64 (tb.tokens + tokensToAdd (timeSub t tb.lastRefill) tb.refillRate) ≤
          tb.tokens + tokensToAdd (timeSub t tb.lastRefill) tb.refillRate :=
      fun h => wrap64_le (by omega)
    have hge := tb.tokens_ge
    have hle := tb.tokens_le
    have hnn : (0 : Int) ≤ (timeSub t tb.lastRefill : Nat) * tb.refillRate :=
      Int.mul_nonneg (Int.ofNat_nonneg _) hr
    have hcr : tb.credit t = min ((timeSub t tb.lastRefill : Nat) * tb.refillRate * (refillScale + 1))
        (second * refillScale * (tb.capacity - tb.tokens) + (second * refillScale - 1)) :=
      if_pos (Int.le_of_lt hk)
    unfold potential
    rw [credit_of_lastRefill_eq rfl, hcr]
    dsimp only
    unfold second refillScale minInt64 at *
    omega
  · exact Int.le_refl _

/-- A granted `Allow` lowers the potential by a whole token. -/
theorem potential_allow_true (h : (tb.allow t).1 = true) :
    (tb.allow t).2.potential t + second * refillScale ≤ tb.potential t := by
  obtain ⟨hpos, htok, hlast⟩ := allow_eq_true h
  obtain ⟨hsmall, hsame⟩ := credit_refill hr (t := t)
  have hc := credit_nonneg (show 0 ≤ (tb.refill t).refillRate by simpa using hr) (t := t)
  have heq := hsame hlast (by simp)
  have href := potential_refill hr (t := t)
  unfold potential at *
  rw [heq, htok]
  unfold second refillScale at *
  omega

/-- No `Allow` raises the potential. -/
theorem potential_allow : (tb.allow t).2.potential t ≤ tb.potential t := by
  cases h : (tb.allow t).1
  · rw [allow_eq_false h]
    exact potential_refill hr
  · have := potential_allow_true hr h
    unfold second refillScale at this
    omega

omit hr in
/-- A returned token raises the potential by at most one token. -/
theorem potential_returnToken :
    tb.returnToken.potential t ≤ tb.potential t + second * refillScale := by
  unfold returnToken
  split
  · unfold potential credit second refillScale
    dsimp only
    split <;> omega
  · unfold second refillScale; omega

end Potential

end TokenBucket

end AdsTxtAnalyzer
