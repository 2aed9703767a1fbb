import AdsTxtAnalyzer.RateLimit.TwoTier
import AdsTxtAnalyzer.ListSet

/-!
# Paced clients are never refused

The window bounds of `AdsTxtAnalyzer.RateLimit.Bounds` say the limiter refuses what goes over
the configured rates. This module says it refuses nothing else: calls that keep to the rates
are all granted.

* A bucket of capacity at least `1` grants a call when it holds a token or when a token's worth
  of credit has accrued since the client's last call, as long as the credit since its last refill,
  with the float64 refill's margin of `2^-50`, stays in the `int64` range with room for the
  capacity (`TokenBucket.Paced.allow`). It then holds no debt and has refilled no later than the
  call.
* The two-tier limiter grants a call when the global bucket and the caller's bucket are both
  paced so (`TwoTierRateLimiter.Paced.allow`): a caller's first call finds a new, full bucket,
  and distinct callers never share one.

The `int64` condition is a bound on the time since the limiter was made: at most
`(MaxInt64 - C) / (r · (1 + 2^-50))` seconds for a bucket of capacity `C` and rate `r`,
thousands of years for any rate a server uses. The margin matters only at the very end of that
span, where the float64 product can round up to `2^63` and convert to `MinInt64`.
-/

namespace AdsTxtAnalyzer

/-! ### One bucket -/

namespace TokenBucket

/-- A bucket a client calls at its pace: no debt, and a last refill between the limiter's
creation `t0` and the client's last call `tprev`. -/
structure Paced (tb : TokenBucket) (t0 tprev : Nat) : Prop where
  tokens_nonneg : 0 ≤ tb.tokens
  t0_le : t0 ≤ tb.lastRefill
  le_prev : tb.lastRefill ≤ tprev

variable {tb : TokenBucket} {t : Nat}

/-- A refill moves the last refill to the call, or leaves it. -/
theorem refill_lastRefill (tb : TokenBucket) (t : Nat) :
    (tb.refill t).lastRefill = tb.lastRefill ∨ (tb.refill t).lastRefill = t := by
  unfold refill
  dsimp only
  split
  · exact .inr rfl
  · exact .inl rfl

/-- **A refill finds a token** in a bucket with no debt and a capacity of at least `1` that
holds a token or has accrued a token's worth of credit, when the credit, with the refill's
margin, stays in the `int64` range with room for the capacity. -/
theorem one_le_refill_tokens (hk : 0 ≤ tb.tokens) (hc : 1 ≤ tb.capacity) (hr : 0 ≤ tb.refillRate)
    (hbound : ((timeSub t tb.lastRefill : Nat) : Int) * tb.refillRate * (refillScale + 1) ≤
      (maxInt64 - tb.capacity) * (second * refillScale))
    (hgap : 1 ≤ tb.tokens ∨ second ≤ ((timeSub t tb.lastRefill : Nat) : Int) * tb.refillRate) :
    1 ≤ (tb.refill t).tokens := by
  obtain ⟨h0, hle⟩ := tokensToAdd_le hr (by omega) hbound
  have hle' := tb.tokens_le
  unfold refill
  dsimp only
  split
  · next hpos =>
    show 1 ≤ min tb.capacity (wrap64 (tb.tokens + tokensToAdd (timeSub t tb.lastRefill) tb.refillRate))
    rw [wrap64_of_le (by unfold minInt64; omega) (by omega)]
    omega
  · next hpos =>
    refine hgap.resolve_right fun hs => hpos ?_
    have := mt (mul_lt_second_of_tokensToAdd_eq_zero hr) (Int.not_lt.mpr hs)
    omega

/-- **A paced call is granted.** A bucket paced for the client's last call `tprev`, of capacity
at least `1`, grants a call at `t` that comes a token's worth of credit after `tprev`, or finds a
token, while the time since `t0` keeps the credit, with the refill's margin, in the `int64`
range; after it the bucket is paced for the call at `t`. -/
theorem Paced.allow {t0 tprev : Nat} (h : tb.Paced t0 tprev) (hc : 1 ≤ tb.capacity)
    (hr : 0 ≤ tb.refillRate) (ht : tprev ≤ t)
    (hH : ((t - t0 : Nat) : Int) * tb.refillRate * (refillScale + 1) ≤
      (maxInt64 - tb.capacity) * (second * refillScale))
    (hgap : 1 ≤ tb.tokens ∨ second ≤ ((t - tprev : Nat) : Int) * tb.refillRate) :
    (tb.allow t).1 = true ∧ (tb.allow t).2.Paced t0 t := by
  have hmono : ∀ {a b : Nat}, a ≤ b → (a : Int) * tb.refillRate ≤ b * tb.refillRate :=
    fun hab => Int.mul_le_mul_of_nonneg_right (Int.ofNat_le.mpr hab) hr
  have h1 : timeSub t tb.lastRefill ≤ t - t0 := by
    have := h.t0_le
    unfold timeSub
    omega
  -- a token's worth of credit since `tprev` is one since the last refill, saturated or not
  have h2 : second ≤ ((t - tprev : Nat) : Int) * tb.refillRate →
      second ≤ ((timeSub t tb.lastRefill : Nat) : Int) * tb.refillRate := fun hs => by
    have := h.le_prev
    by_cases hsat : t - tb.lastRefill ≤ 9223372036854775807
    · rw [show timeSub t tb.lastRefill = t - tb.lastRefill by unfold timeSub; omega]
      exact Int.le_trans hs (hmono (by omega))
    · rw [show timeSub t tb.lastRefill = 9223372036854775807 by unfold timeSub; omega]
      have : 0 < tb.refillRate := by
        refine Int.not_le.mp fun h0 => ?_
        have := Int.mul_nonpos_of_nonneg_of_nonpos (Int.ofNat_nonneg (t - tprev)) h0
        unfold second at hs
        omega
      unfold second
      omega
  have hpos := one_le_refill_tokens h.tokens_nonneg hc hr
    (Int.le_trans (Int.mul_le_mul_of_nonneg_right (hmono h1) (by decide)) hH) (hgap.imp_right h2)
  have hg : (tb.allow t).1 = true := by rw [allow_fst]; exact decide_eq_true (by omega)
  obtain ⟨-, htok, hlast⟩ := allow_eq_true hg
  have := h.t0_le
  have := h.le_prev
  refine ⟨hg, ⟨by omega, ?_, ?_⟩⟩ <;> rw [hlast] <;>
    rcases refill_lastRefill tb t with hl | hl <;> rw [hl] <;> omega

/-- A new bucket is paced for a call at its creation. -/
theorem new_paced {C r : Int} (hc : 0 ≤ C) {t0 t : Nat} (ht : t0 ≤ t) : (new C r t).Paced t0 t :=
  ⟨hc, ht, le_rfl⟩

end TokenBucket

/-- A token's worth of credit since `tprev` puts the call after `tprev`. -/
theorem le_of_second_le {t tprev : Nat} {r : Int}
    (hs : second ≤ ((t - tprev : Nat) : Int) * r) : tprev ≤ t := by
  refine Nat.le_of_not_lt fun hlt => ?_
  rw [Nat.sub_eq_zero_of_le (Nat.le_of_lt hlt)] at hs
  simp [second] at hs

/-! ### The two-tier limiter -/

namespace TwoTierRateLimiter

/-- The limiter is paced for its callers, `lastG` being the time of the last call and
`lastIP ip` that of the last call of `ip`: the global bucket is paced for the last call (for
the creation `t0` before any) and holds a token before the first; every caller the map has
made a call, and its bucket is paced for its last one; and no two callers share a bucket. -/
structure Paced (trl : TwoTierRateLimiter) (gC gR pC pR : Int) (t0 : Nat) (lastG : Option Nat)
    (lastIP : String → Option Nat) : Prop where
  global_capacity : trl.globalBucket.capacity = gC
  global_rate : trl.globalBucket.refillRate = gR
  perIP_capacity : trl.perIPCapacity = pC
  perIP_rate : trl.perIPRate = pR
  global : trl.globalBucket.Paced t0 (lastG.getD t0)
  global_first : lastG = none → 1 ≤ trl.globalBucket.tokens
  perIP : ∀ ip addr, trl.ipBuckets ip = some addr → ∃ b tp, trl.buckets[addr]? = some b ∧
    lastIP ip = some tp ∧ b.capacity = pC ∧ b.refillRate = pR ∧ b.Paced t0 tp
  injective : ∀ ip ip' addr, trl.ipBuckets ip = some addr → trl.ipBuckets ip' = some addr →
    ip = ip'

theorem paced_new {gC : Int} (hgC : 1 ≤ gC) (gR pC pR : Int) (t0 : Nat) :
    (new gC gR pC pR t0).Paced gC gR pC pR t0 none fun _ => none :=
  ⟨rfl, rfl, rfl, rfl, TokenBucket.new_paced (by omega) le_rfl, fun _ => hgC,
    fun _ _ h => (nomatch h), fun _ _ _ h => (nomatch h)⟩

variable {trl : TwoTierRateLimiter} {gC gR pC pR : Int} {t0 t : Nat} {lastG : Option Nat}
  {lastIP : String → Option Nat} {ip : String}

/-- The global bucket grants a paced call. -/
theorem Paced.global_allow (h : trl.Paced gC gR pC pR t0 lastG lastIP) (hgC : 1 ≤ gC)
    (hgR : 0 ≤ gR) (ht0 : t0 ≤ t)
    (hH : ((t - t0 : Nat) : Int) * gR * (refillScale + 1) ≤ (maxInt64 - gC) * (second * refillScale))
    (hg : ∀ tg, lastG = some tg → second ≤ ((t - tg : Nat) : Int) * gR) :
    (trl.globalBucket.allow t).1 = true ∧ (trl.globalBucket.allow t).2.Paced t0 t := by
  rw [← h.global_capacity, ← h.global_rate] at *
  cases hl : lastG with
  | none =>
    rw [hl] at h
    exact h.global.allow hgC hgR ht0 hH (.inl (h.global_first rfl))
  | some tg =>
    rw [hl] at h
    have hs := hg tg hl
    exact h.global.allow hgC hgR (le_of_second_le hs) hH (.inr hs)

theorem getOrCreateIPBucket_of_some {trl : TwoTierRateLimiter} {ip : String} {addr : Nat}
    (h : trl.ipBuckets ip = some addr) (now : Nat) : trl.getOrCreateIPBucket ip now = (addr, trl) := by
  unfold getOrCreateIPBucket
  rw [h]

theorem getOrCreateIPBucket_of_none {trl : TwoTierRateLimiter} {ip : String}
    (h : trl.ipBuckets ip = none) (now : Nat) :
    trl.getOrCreateIPBucket ip now = (trl.buckets.length,
      trl.storeBucket ip (TokenBucket.new trl.perIPCapacity trl.perIPRate now)) := by
  unfold getOrCreateIPBucket
  rw [h]

/-- Setting the bucket of `ip` to one paced for a call at `t` keeps every caller paced for its
last call, the call at `t` being the last of `ip`, when no two callers share a bucket. -/
theorem perIP_setBucket {addr : Nat} {b bold : TokenBucket} (hip : trl.ipBuckets ip = some addr)
    (hold : trl.buckets[addr]? = some bold)
    (hinj : ∀ i₁ i₂ a, trl.ipBuckets i₁ = some a → trl.ipBuckets i₂ = some a → i₁ = i₂)
    (hothers : ∀ ip' addr', ip' ≠ ip → trl.ipBuckets ip' = some addr' → ∃ b tp,
      trl.buckets[addr']? = some b ∧ lastIP ip' = some tp ∧ b.capacity = pC ∧ b.refillRate = pR ∧
        b.Paced t0 tp)
    (hbc : b.capacity = pC) (hbr : b.refillRate = pR) (hbp : b.Paced t0 t) :
    ∀ ip' addr', (trl.setBucket addr b).ipBuckets ip' = some addr' → ∃ b' tp,
      (trl.setBucket addr b).buckets[addr']? = some b' ∧
        (if ip' = ip then some t else lastIP ip') = some tp ∧ b'.capacity = pC ∧
        b'.refillRate = pR ∧ b'.Paced t0 tp := by
  intro ip' addr' h'
  rw [setBucket_ipBuckets] at h'
  by_cases hi : ip' = ip
  · subst hi
    obtain rfl := Option.some.inj (h'.symm.trans hip)
    exact ⟨b, t, by simp [getElem?_set_of_getElem? hold], if_pos rfl, hbc, hbr, hbp⟩
  · obtain ⟨b', tp', hb', hl', hc', hr', hp'⟩ := hothers ip' addr' hi h'
    have hne : addr ≠ addr' := fun he => hi (hinj _ _ _ h' (he ▸ hip))
    exact ⟨b', tp', by simp [getElem?_set_of_getElem? hold, hne, hb'], by simp [hi, hl'], hc', hr',
      hp'⟩

/-- The store of a new bucket gives it to no caller that had one. -/
theorem injective_storeBucket
    (hinj : ∀ i₁ i₂ a, trl.ipBuckets i₁ = some a → trl.ipBuckets i₂ = some a → i₁ = i₂)
    (b : TokenBucket) :
    ∀ i₁ i₂ a, (trl.storeBucket ip b).ipBuckets i₁ = some a →
      (trl.storeBucket ip b).ipBuckets i₂ = some a → i₁ = i₂ := by
  intro i₁ i₂ a h₁ h₂
  simp only [storeBucket, store] at h₁ h₂
  split at h₁ <;> split at h₂
  · next e₁ e₂ => rw [e₁, e₂]
  · cases h₁
    exact absurd (trl.ipBuckets_lt _ _ h₂) (Nat.lt_irrefl _)
  · cases h₂
    exact absurd (trl.ipBuckets_lt _ _ h₁) (Nat.lt_irrefl _)
  · exact hinj _ _ _ h₁ h₂

/-- **A paced call is granted** by the two-tier limiter, and leaves it paced for the call: the
global bucket grants it, then the caller's bucket, which is its own and paced for its last call,
or new and full on its first. -/
theorem Paced.allow (h : trl.Paced gC gR pC pR t0 lastG lastIP) (hgC : 1 ≤ gC) (hpC : 1 ≤ pC)
    (hgR : 0 ≤ gR) (hpR : 0 ≤ pR) (ht0 : t0 ≤ t)
    (hHg : ((t - t0 : Nat) : Int) * gR * (refillScale + 1) ≤ (maxInt64 - gC) * (second * refillScale))
    (hHp : ((t - t0 : Nat) : Int) * pR * (refillScale + 1) ≤ (maxInt64 - pC) * (second * refillScale))
    (hg : ∀ tg, lastG = some tg → second ≤ ((t - tg : Nat) : Int) * gR)
    (hp : ∀ tp, lastIP ip = some tp → second ≤ ((t - tp : Nat) : Int) * pR) :
    (trl.allow ip t).1 = true ∧ (trl.allow ip t).2.Paced gC gR pC pR t0 (some t)
      (fun ip' => if ip' = ip then some t else lastIP ip') := by
  obtain ⟨hgg, hgp⟩ := h.global_allow hgC hgR ht0 hHg hg
  have hcap : (trl.globalBucket.allow t).2.capacity = gC := by simp [h.global_capacity]
  have hrate : (trl.globalBucket.allow t).2.refillRate = gR := by simp [h.global_rate]
  cases hip : trl.ipBuckets ip with
  | some addr =>
    obtain ⟨b, tp, hb, hl, hbc, hbr, hbp⟩ := h.perIP ip addr hip
    have hs := hp tp hl
    obtain ⟨hbg, hbp'⟩ := hbp.allow (hbc ▸ hpC) (hbr ▸ hpR) (le_of_second_le hs)
      (by rw [hbc, hbr]; exact hHp) (.inr (hbr ▸ hs))
    rw [allow_of_global_granted hgg
      (@getOrCreateIPBucket_of_some { trl with globalBucket := (trl.globalBucket.allow t).2 } ip addr hip t)
      hb, hbg, if_pos rfl]
    exact ⟨rfl, hcap, hrate, h.perIP_capacity, h.perIP_rate, hgp, nofun,
      perIP_setBucket hip hb h.injective (fun ip' addr' _ => h.perIP ip' addr') (by simp [hbc])
        (by simp [hbr]) hbp', h.injective⟩
  | none =>
    have hp1 : 1 ≤ trl.perIPCapacity := h.perIP_capacity ▸ hpC
    have hnew := TokenBucket.new_paced (r := trl.perIPRate) (by omega : 0 ≤ trl.perIPCapacity) ht0
    obtain ⟨hbg, hbp'⟩ := hnew.allow hp1 (h.perIP_rate ▸ hpR : 0 ≤ trl.perIPRate) le_rfl
      (by rw [h.perIP_capacity, h.perIP_rate]; exact hHp) (.inl hp1)
    have hlen : (trl.buckets ++ [TokenBucket.new trl.perIPCapacity trl.perIPRate t])[trl.buckets.length]? =
        some (TokenBucket.new trl.perIPCapacity trl.perIPRate t) := by simp
    rw [allow_of_global_granted hgg
      (@getOrCreateIPBucket_of_none { trl with globalBucket := (trl.globalBucket.allow t).2 } ip hip t)
      hlen, hbg, if_pos rfl]
    have hinj := @injective_storeBucket { trl with globalBucket := (trl.globalBucket.allow t).2 } ip
      h.injective (TokenBucket.new trl.perIPCapacity trl.perIPRate t)
    refine ⟨rfl, hcap, hrate, h.perIP_capacity, h.perIP_rate, hgp, nofun,
      perIP_setBucket (by simp [storeBucket, store]) hlen hinj (fun ip' addr' hi h' => ?_)
        (by simp [TokenBucket.new, h.perIP_capacity]) (by simp [TokenBucket.new, h.perIP_rate]) hbp',
      hinj⟩
    simp only [storeBucket, store, if_neg hi] at h'
    obtain ⟨b', tp', hb', hrest⟩ := h.perIP ip' addr' h'
    exact ⟨b', tp', by rw [storeBucket_buckets, List.getElem?_append_left (trl.ipBuckets_lt _ _ h')]; exact hb',
      hrest⟩

end TwoTierRateLimiter

/-! ### A closed tier refuses every call -/

namespace TokenBucket

variable {tb : TokenBucket}

/-- The bucket holds no token and never refills. -/
structure Closed (tb : TokenBucket) : Prop where
  tokens_nonpos : tb.tokens ≤ 0
  rate_nonpos : tb.refillRate ≤ 0

theorem Closed.refill (h : tb.Closed) (now : Nat) : tb.refill now = tb :=
  refill_of_not_pos (Int.not_lt.mpr (tokensToAdd_nonpos h.rate_nonpos))

/-- A closed bucket refuses every call and is left as it was. -/
theorem Closed.allow (h : tb.Closed) (now : Nat) : tb.allow now = (false, tb) := by
  have hf : (tb.allow now).1 = false := by
    rw [allow_fst, h.refill]
    simpa using h.tokens_nonpos
  exact Prod.ext hf ((allow_eq_false hf).trans (h.refill now))

theorem closed_new {C r : Int} (hC : C ≤ 0) (hr : r ≤ 0) (now : Nat) : (new C r now).Closed :=
  ⟨hC, hr⟩

end TokenBucket

namespace TwoTierRateLimiter

variable {trl : TwoTierRateLimiter}

/-- The per-client tier is closed: its capacity and rate are not positive, and so is every
bucket it made. -/
structure PerIPClosed (trl : TwoTierRateLimiter) : Prop where
  capacity_nonpos : trl.perIPCapacity ≤ 0
  rate_nonpos : trl.perIPRate ≤ 0
  buckets : ∀ b ∈ trl.buckets, b.Closed

/-- One of the two tiers is closed. -/
def Closed (trl : TwoTierRateLimiter) : Prop :=
  trl.globalBucket.Closed ∨ trl.PerIPClosed

theorem PerIPClosed.getOrCreateIPBucket (h : trl.PerIPClosed) (ip : String) (now : Nat) :
    (trl.getOrCreateIPBucket ip now).2.PerIPClosed := by
  unfold TwoTierRateLimiter.getOrCreateIPBucket
  split
  · exact h
  · refine ⟨h.capacity_nonpos, h.rate_nonpos, fun b hb => ?_⟩
    rcases List.mem_append.mp hb with hb | hb
    · exact h.buckets b hb
    · rw [List.mem_singleton.mp hb]
      exact TokenBucket.closed_new h.capacity_nonpos h.rate_nonpos now

/-- **A limiter with a closed tier refuses every call** and keeps the tier closed: a closed
global bucket refuses it and is left as it was; a closed client bucket refuses it, and the
global token is given back. -/
theorem Closed.allow (h : trl.Closed) (ip : String) (now : Nat) :
    (trl.allow ip now).1 = false ∧ (trl.allow ip now).2.Closed := by
  rcases h with hg | hp
  · unfold TwoTierRateLimiter.allow
    rw [hg.allow now, if_pos rfl]
    exact ⟨rfl, .inl hg⟩
  · cases hga : (trl.globalBucket.allow now).1 with
    | false =>
      unfold TwoTierRateLimiter.allow
      rw [if_pos hga]
      exact ⟨rfl, .inr ⟨hp.capacity_nonpos, hp.rate_nonpos, hp.buckets⟩⟩
    | true =>
      let trl' : TwoTierRateLimiter := { trl with globalBucket := (trl.globalBucket.allow now).2 }
      have hp' : (trl'.getOrCreateIPBucket ip now).2.PerIPClosed :=
        @PerIPClosed.getOrCreateIPBucket trl' ⟨hp.capacity_nonpos, hp.rate_nonpos, hp.buckets⟩ ip now
      have hlt := getOrCreateIPBucket_lt trl' ip now
      have hbc := (hp'.buckets _ (List.getElem_mem hlt)).allow now
      rw [allow_of_global_granted hga (Prod.eta _).symm (List.getElem?_eq_getElem hlt), hbc,
        if_neg Bool.false_ne_true]
      refine ⟨rfl, .inr ⟨hp'.capacity_nonpos, hp'.rate_nonpos, fun b hb' => ?_⟩⟩
      rcases List.mem_or_eq_of_mem_set hb' with hb' | rfl
      · exact hp'.buckets b hb'
      · exact hp'.buckets _ (List.getElem_mem hlt)

end TwoTierRateLimiter

end AdsTxtAnalyzer
