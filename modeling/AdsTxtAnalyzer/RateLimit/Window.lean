import AdsTxtAnalyzer.RateLimit.TokenBucket

/-!
# A token bucket over a window of time

How many tokens can be taken from a bucket in a window of time `[a, a + T]`? The answer is read
off its potential (`TokenBucket.potential`). **`BucketWindow`** says that the tokens taken from
the bucket at times in the window, plus its potential, stay within a full bucket, one token of
slack, the refills of the time elapsed in the window, and the tokens given back in it. Three
lemmas keep it: a new bucket (`BucketWindow.init`), time passing (`BucketWindow.advance`), and a
critical section that takes or gives back a token (`BucketWindow.update`).
`BucketWindow.taken_le` turns it into a count: at most `C + ⌊T·r·(1 + 2^-50)⌋ + 1` tokens
(`refillWithin`) and those given back. The factor `1 + 2^-50` is the float64 refill's
overestimate (`tokensToAdd_mul_le`).

The potential is capped at zero from below, so the accounting holds also for a bucket whose
count has wrapped to a negative value.
-/

namespace AdsTxtAnalyzer

/-- The time `t` lies in the window `[a, a + T]`. -/
def inWindow (a T t : Nat) : Bool := a ≤ t && t ≤ a + T

/-- The whole tokens a bucket of rate `r` refills in `T` nanoseconds at most, the float64
overestimate included: `⌊T·r·(1 + 2^-50) / 10⁹⌋`. -/
def refillWithin (T : Nat) (r : Int) : Int := T * r * (refillScale + 1) / (second * refillScale)

theorem refillWithin_nonneg {r : Int} (hr : 0 ≤ r) (T : Nat) : 0 ≤ refillWithin T r :=
  Int.ediv_nonneg (Int.mul_nonneg (Int.mul_nonneg (Int.ofNat_nonneg T) hr) (by decide)) (by decide)

/-! ### One bucket over a window -/

/-- The accounting of the bucket `tb` over the window `[a, a + T]` at time `now`, when `taken`
of its tokens were taken and `returned` given back at times in the window. Before the window
nothing was taken in it. Within it, what was taken, plus the potential left at the later of
`now` and `a`, is at most a full bucket, one token short of another, the refills of the time
elapsed in the window, and what was given back. -/
structure BucketWindow (tb : TokenBucket) (a T now taken returned : Nat) : Prop where
  before : now < a → taken = 0
  bound : second * refillScale * taken + (if now ≤ a + T then tb.potential (max now a) else 0) ≤
    second * refillScale * (tb.capacity + 1) - 1 +
      ((min now (a + T) - a : Nat) : Int) * tb.refillRate * (refillScale + 1) +
      second * refillScale * returned

namespace BucketWindow

variable {tb tb' : TokenBucket} {a T now t taken returned : Nat}

/-- A full bucket, or any bucket whose potential is within a full bucket, before anything was
counted. -/
theorem init (hC : 0 ≤ tb.capacity) (hr : 0 ≤ tb.refillRate) :
    BucketWindow tb a T now 0 0 where
  before _ := rfl
  bound := by
    have hp := TokenBucket.potential_le (t := max now a) hC
    have hd : (0 : Int) ≤ ((min now (a + T) - a : Nat) : Int) * tb.refillRate :=
      Int.mul_nonneg (Int.ofNat_nonneg _) hr
    unfold second refillScale at *
    split <;> omega

/-- **Time passing.** The bucket unchanged and nothing counted, the accounting holds at any
later time: the potential grows by at most `refillRate` per second, as the budget does. -/
theorem advance (hr : 0 ≤ tb.refillRate) (h : BucketWindow tb a T now taken returned)
    (ht : now ≤ t) : BucketWindow tb a T t taken returned where
  before hta := h.before (by omega)
  bound := by
    have hb := h.bound
    have hp : 0 ≤ tb.potential (max now a) := TokenBucket.potential_nonneg
    by_cases hta : t < a
    · rw [if_pos (by omega), max_eq_right (by omega)] at hb ⊢
      rwa [show min t (a + T) - a = min now (a + T) - a by omega]
    by_cases htb : t ≤ a + T
    · rw [if_pos (by omega)] at hb
      rw [if_pos htb, max_eq_left (by omega)]
      have hadd := TokenBucket.potential_le_add hr (show max now a ≤ t by omega)
      have hsplit : ((min t (a + T) - a : Nat) : Int) * tb.refillRate =
          ((min now (a + T) - a : Nat) : Int) * tb.refillRate +
            ((t - max now a : Nat) : Int) * tb.refillRate := by
        rw [← Int.add_mul, min_eq_left htb, min_eq_left (by omega)]
        congr 1
        omega
      unfold refillScale at *
      omega
    · rw [if_neg htb]
      have hmono : ((min now (a + T) - a : Nat) : Int) * tb.refillRate ≤
          ((min t (a + T) - a : Nat) : Int) * tb.refillRate :=
        Int.mul_le_mul_of_nonneg_right (by omega) hr
      unfold refillScale at *
      split at hb <;> omega

/-- **A critical section at `t`.** If it lowers the potential by `dt` tokens less `dr` given
back, the accounting holds with them counted, when `t` is in the window. -/
theorem update {u : TokenBucket} (dt dr : Nat) (hr : 0 ≤ tb.refillRate) (hC : 0 ≤ tb.capacity)
    (hcap : u.capacity = tb.capacity) (hrate : u.refillRate = tb.refillRate)
    (h : BucketWindow tb a T now taken returned) (ht : now ≤ t)
    (hpot : u.potential t + second * refillScale * dt ≤ tb.potential t + second * refillScale * dr) :
    BucketWindow u a T t (taken + if inWindow a T t then dt else 0)
      (returned + if inWindow a T t then dr else 0) where
  before hta := by
    rw [show inWindow a T t = false by simp [inWindow]; omega]
    exact (h.advance hr ht).before hta
  bound := by
    have hb := (h.advance hr ht).bound
    rw [hcap, hrate]
    by_cases hta : t < a
    · have h0 := (h.advance hr ht).before hta
      have hp := TokenBucket.potential_le (t := max t a) (hcap ▸ hC : 0 ≤ u.capacity)
      rw [hcap] at hp
      rw [show inWindow a T t = false by simp [inWindow]; omega]
      simp only [Bool.false_eq_true, if_false, Nat.add_zero, h0]
      rw [if_pos (by omega), show min t (a + T) - a = 0 by omega]
      unfold second refillScale at *
      omega
    by_cases htb : t ≤ a + T
    · rw [show inWindow a T t = true by simp [inWindow]; omega]
      simp only [if_true]
      rw [if_pos htb, max_eq_left (by omega)] at hb ⊢
      push_cast
      unfold second refillScale at *
      omega
    · rw [show inWindow a T t = false by simp [inWindow]; omega]
      simp only [Bool.false_eq_true, if_false, Nat.add_zero]
      rw [if_neg htb] at hb ⊢
      exact hb

/-- **The count.** At most a full bucket, the whole tokens the window's length refills, one
token of slack, and what was given back. -/
theorem taken_le (h : BucketWindow tb a T now taken returned) (hr : 0 ≤ tb.refillRate) :
    (taken : Int) ≤ tb.capacity + refillWithin T tb.refillRate + 1 + returned := by
  have hb := h.bound
  have hp : (0 : Int) ≤ if now ≤ a + T then tb.potential (max now a) else 0 := by
    split
    · exact TokenBucket.potential_nonneg
    · exact Int.le_refl 0
  have hmono : ((min now (a + T) - a : Nat) : Int) * tb.refillRate ≤ (T : Int) * tb.refillRate :=
    Int.mul_le_mul_of_nonneg_right (by omega) hr
  unfold refillWithin second refillScale at *
  omega

end BucketWindow

end AdsTxtAnalyzer
