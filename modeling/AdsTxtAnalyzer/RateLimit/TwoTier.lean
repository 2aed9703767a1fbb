import AdsTxtAnalyzer.RateLimit.TokenBucket

/-!
# The two-tier rate limiter

`TwoTierRateLimiter.Allow(clientIP)` asks the global bucket first and returns `false` at
once if it denies. Otherwise it finds the identifier's bucket (`getOrCreateIPBucket`: a
`Load` of the `sync.Map`, and on a miss a fresh full bucket offered to `LoadOrStore`) and asks
it; if that bucket denies, the global token is given back (`returnGlobalToken`) and the call
returns `false`.

`ipBuckets` maps identifiers to addresses in `buckets`, the per-identifier buckets made so
far. A bucket the map forgets is not freed: a caller that loaded it still holds it, which is
what the concurrent model of `AdsTxtAnalyzer.RateLimit.System` needs.

This module runs one call without interleaving (`TwoTierRateLimiter.allow`); a denied call
changes nothing but the refills it ran (`allow_false_frame`). The concurrent model of
`AdsTxtAnalyzer.RateLimit.System` builds on the operations defined here (`storeBucket`,
`setBucket`, `delete`, `returnGlobalToken`), and a call that runs alone there computes `allow`.
-/

namespace AdsTxtAnalyzer

/-- The record `TwoTierRateLimiter`, with `ipBuckets` as addresses into `buckets`. -/
structure TwoTierRateLimiter where
  globalBucket : TokenBucket
  buckets : List TokenBucket
  ipBuckets : String → Option Nat
  perIPCapacity : Int
  perIPRate : Int
  ipBuckets_lt : ∀ ip addr, ipBuckets ip = some addr → addr < buckets.length

namespace TwoTierRateLimiter

/-- `NewTwoTierRateLimiter(globalCapacity, globalRate, perIPCapacity, perIPRate)` at time
`now`. -/
def new (globalCapacity globalRate perIPCapacity perIPRate : Int) (now : Nat) :
    TwoTierRateLimiter :=
  ⟨TokenBucket.new globalCapacity globalRate now, [], fun _ => none, perIPCapacity, perIPRate,
    fun _ _ h => nomatch h⟩

/-- The map after `ipBuckets.Store(clientIP, b)` of a bucket at address `addr`. -/
def store (ipBuckets : String → Option Nat) (clientIP : String) (addr : Nat) :
    String → Option Nat :=
  fun ip => if ip = clientIP then some addr else ipBuckets ip

/-- The limiter after the store of the new bucket `b` of `LoadOrStore(clientIP, b)`. -/
def storeBucket (trl : TwoTierRateLimiter) (clientIP : String) (b : TokenBucket) :
    TwoTierRateLimiter :=
  { trl with
    buckets := trl.buckets ++ [b]
    ipBuckets := store trl.ipBuckets clientIP trl.buckets.length
    ipBuckets_lt := fun ip addr h => by
      unfold store at h
      split at h
      · cases h
        simp
      · have := trl.ipBuckets_lt ip addr h
        simp only [List.length_append, List.length_singleton]
        omega }

/-- The limiter after the bucket at `addr` was changed to `b`. -/
def setBucket (trl : TwoTierRateLimiter) (addr : Nat) (b : TokenBucket) : TwoTierRateLimiter :=
  { trl with
    buckets := trl.buckets.set addr b
    ipBuckets_lt := fun ip addr h => by
      rw [List.length_set]
      exact trl.ipBuckets_lt ip addr h }

/-- The limiter after `ipBuckets.Delete(key)`. The bucket stays where it is: a call that
loaded it before may still use it. -/
def delete (trl : TwoTierRateLimiter) (key : String) : TwoTierRateLimiter :=
  { trl with
    ipBuckets := fun ip => if ip = key then none else trl.ipBuckets ip
    ipBuckets_lt := fun ip addr h => by
      dsimp only at h
      split at h
      · cases h
      · exact trl.ipBuckets_lt ip addr h }

/-- The method `returnGlobalToken`. -/
def returnGlobalToken (trl : TwoTierRateLimiter) : TwoTierRateLimiter :=
  { trl with globalBucket := trl.globalBucket.returnToken }

section Updates

variable (trl : TwoTierRateLimiter) (ip : String) (addr : Nat) (b : TokenBucket)

@[simp] theorem storeBucket_globalBucket : (trl.storeBucket ip b).globalBucket = trl.globalBucket :=
  rfl
@[simp] theorem storeBucket_buckets : (trl.storeBucket ip b).buckets = trl.buckets ++ [b] := rfl
@[simp] theorem storeBucket_perIPCapacity :
    (trl.storeBucket ip b).perIPCapacity = trl.perIPCapacity := rfl
@[simp] theorem storeBucket_perIPRate : (trl.storeBucket ip b).perIPRate = trl.perIPRate := rfl

@[simp] theorem setBucket_globalBucket : (trl.setBucket addr b).globalBucket = trl.globalBucket :=
  rfl
@[simp] theorem setBucket_buckets : (trl.setBucket addr b).buckets = trl.buckets.set addr b := rfl
@[simp] theorem setBucket_ipBuckets : (trl.setBucket addr b).ipBuckets = trl.ipBuckets := rfl
@[simp] theorem setBucket_perIPCapacity : (trl.setBucket addr b).perIPCapacity = trl.perIPCapacity :=
  rfl
@[simp] theorem setBucket_perIPRate : (trl.setBucket addr b).perIPRate = trl.perIPRate := rfl

@[simp] theorem delete_globalBucket : (trl.delete ip).globalBucket = trl.globalBucket := rfl
@[simp] theorem delete_buckets : (trl.delete ip).buckets = trl.buckets := rfl
@[simp] theorem delete_perIPCapacity : (trl.delete ip).perIPCapacity = trl.perIPCapacity := rfl
@[simp] theorem delete_perIPRate : (trl.delete ip).perIPRate = trl.perIPRate := rfl

@[simp] theorem returnGlobalToken_globalBucket :
    trl.returnGlobalToken.globalBucket = trl.globalBucket.returnToken := rfl
@[simp] theorem returnGlobalToken_buckets : trl.returnGlobalToken.buckets = trl.buckets := rfl
@[simp] theorem returnGlobalToken_ipBuckets : trl.returnGlobalToken.ipBuckets = trl.ipBuckets := rfl
@[simp] theorem returnGlobalToken_perIPCapacity :
    trl.returnGlobalToken.perIPCapacity = trl.perIPCapacity := rfl
@[simp] theorem returnGlobalToken_perIPRate : trl.returnGlobalToken.perIPRate = trl.perIPRate :=
  rfl

end Updates

/-- The method `getOrCreateIPBucket` at time `now`, run alone: the address of the
identifier's bucket, made full if the map has none. -/
def getOrCreateIPBucket (trl : TwoTierRateLimiter) (clientIP : String) (now : Nat) :
    Nat × TwoTierRateLimiter :=
  match trl.ipBuckets clientIP with
  | some addr => (addr, trl)
  | none =>
    (trl.buckets.length,
      trl.storeBucket clientIP (TokenBucket.new trl.perIPCapacity trl.perIPRate now))

/-- The method `Allow` at time `now`, run alone. The `none` branch is never taken
(`getOrCreateIPBucket_lt`). -/
def allow (trl : TwoTierRateLimiter) (clientIP : String) (now : Nat) :
    Bool × TwoTierRateLimiter :=
  if (trl.globalBucket.allow now).1 = false then
    (false, { trl with globalBucket := (trl.globalBucket.allow now).2 })
  else
    let p := getOrCreateIPBucket { trl with globalBucket := (trl.globalBucket.allow now).2 }
      clientIP now
    match p.2.buckets[p.1]? with
    | none => (false, p.2)
    | some b =>
      if (b.allow now).1 then (true, p.2.setBucket p.1 (b.allow now).2)
      else (false, (p.2.setBucket p.1 (b.allow now).2).returnGlobalToken)

theorem getOrCreateIPBucket_lt (trl : TwoTierRateLimiter) (clientIP : String) (now : Nat) :
    (trl.getOrCreateIPBucket clientIP now).1 < (trl.getOrCreateIPBucket clientIP now).2.buckets.length := by
  unfold getOrCreateIPBucket
  split
  · next addr h => exact trl.ipBuckets_lt _ _ h
  · simp [storeBucket]

@[simp] theorem getOrCreateIPBucket_globalBucket (trl : TwoTierRateLimiter) (clientIP : String)
    (now : Nat) : (trl.getOrCreateIPBucket clientIP now).2.globalBucket = trl.globalBucket := by
  unfold getOrCreateIPBucket
  split <;> rfl

/-- The method when the global bucket grants: the answer of the bucket `b` that
`getOrCreateIPBucket` finds or makes, with the global token given back if it denies. -/
theorem allow_of_global_granted {trl : TwoTierRateLimiter} {clientIP : String} {now : Nat}
    (hg : (trl.globalBucket.allow now).1 = true) {addr : Nat} {trl' : TwoTierRateLimiter}
    {b : TokenBucket}
    (hp : getOrCreateIPBucket { trl with globalBucket := (trl.globalBucket.allow now).2 }
      clientIP now = (addr, trl'))
    (hb : trl'.buckets[addr]? = some b) :
    trl.allow clientIP now = ((b.allow now).1,
      if (b.allow now).1 then trl'.setBucket addr (b.allow now).2
      else (trl'.setBucket addr (b.allow now).2).returnGlobalToken) := by
  unfold allow
  rw [if_neg (by simp [hg])]
  dsimp only
  rw [hp]
  dsimp only
  rw [hb]
  dsimp only
  cases (b.allow now).1 <;> rfl

/-- A call leaves every identifier the map has with its bucket: it stores a bucket only for an
identifier the map lacks. -/
theorem allow_ipBuckets_of_some {trl : TwoTierRateLimiter} {ip : String} {addr : Nat}
    (h : trl.ipBuckets ip = some addr) (clientIP : String) (now : Nat) :
    (trl.allow clientIP now).2.ipBuckets ip = some addr := by
  have hget : ∀ trl' : TwoTierRateLimiter, trl'.ipBuckets = trl.ipBuckets →
      (trl'.getOrCreateIPBucket clientIP now).2.ipBuckets ip = some addr := by
    intro trl' he
    unfold getOrCreateIPBucket
    split
    · rw [he, h]
    · next hk =>
      have hne : ip ≠ clientIP := by
        rintro rfl
        rw [he, h] at hk
        cases hk
      simp only [storeBucket, store, if_neg hne, he, h]
  have hp := hget { trl with globalBucket := (trl.globalBucket.allow now).2 } rfl
  unfold allow
  split
  · exact h
  · dsimp only
    split
    · exact hp
    · split <;> simpa using hp

/-- A call that returns `false` has no effect beyond refills. If the global bucket denied
it, the limiter is as before but for the global bucket's refill: no per-identifier bucket is
made or touched. If the identifier's bucket denied it, the global bucket is exactly what its
refill alone gives, the token taken having been given back. -/
theorem allow_false_frame (trl : TwoTierRateLimiter) (clientIP : String) (now : Nat)
    (h : (trl.allow clientIP now).1 = false) :
    ((trl.globalBucket.allow now).1 = false →
        (trl.allow clientIP now).2 = { trl with globalBucket := trl.globalBucket.refill now }) ∧
      ((trl.globalBucket.allow now).1 = true →
        (trl.allow clientIP now).2.globalBucket = trl.globalBucket.refill now) := by
  refine ⟨fun hg => ?_, fun hg => ?_⟩
  · simp only [allow, hg, if_true, TokenBucket.allow_eq_false hg]
  · obtain ⟨hpos, htok, hlast⟩ := TokenBucket.allow_eq_true hg
    have hb := List.getElem?_eq_getElem (getOrCreateIPBucket_lt
      { trl with globalBucket := (trl.globalBucket.allow now).2 } clientIP now)
    rw [allow_of_global_granted hg (Prod.eta _).symm hb] at h ⊢
    dsimp only at h
    simp only [h, Bool.false_eq_true, if_false, returnGlobalToken_globalBucket,
      setBucket_globalBucket, getOrCreateIPBucket_globalBucket]
    have hlt : (trl.globalBucket.allow now).2.tokens < (trl.globalBucket.allow now).2.capacity := by
      have := (trl.globalBucket.refill now).tokens_le
      simp only [htok, TokenBucket.allow_capacity, TokenBucket.refill_capacity] at this ⊢
      omega
    rw [TokenBucket.returnToken, dif_pos hlt]
    ext <;> simp [htok, hlast]

/-- A call denied by the identifier's bucket, of capacity `0`: the global bucket ends as its
refill left it. -/
theorem allow_false_frame_perIP_denied :
    ((TwoTierRateLimiter.new 10 10 0 0 0).allow "192.0.2.1" 0).1 = false ∧
      ((TwoTierRateLimiter.new 10 10 0 0 0).allow "192.0.2.1" 0).2.globalBucket =
        (TwoTierRateLimiter.new 10 10 0 0 0).globalBucket.refill 0 :=
  ⟨by decide, (allow_false_frame _ _ _ (by decide)).2 (by decide)⟩

end TwoTierRateLimiter

end AdsTxtAnalyzer
