import AdsTxtAnalyzer.RateLimit.TwoTier
import AdsTxtAnalyzer.ListSet
import Mathlib.Logic.Relation

/-!
# Concurrent calls of the rate limiter and its cleanup sweep

`NewTwoTierRateLimiter` starts the goroutine `cleanupIPBuckets`; the HTTP middleware calls
`Allow(clientIP)` from as many goroutines as there are requests. `LimiterState` holds the
limiter, the program counter of every call and of the sweep, and the clock; `LimiterStep`
has one constructor for each atomic action, so that any interleaving is a path of
`LimiterStep`:

* `Allow` takes four kinds of step: the global bucket's `Allow` (one critical section of its
  mutex), the `Load` and, on a miss, the `LoadOrStore` of `getOrCreateIPBucket`, the per-identifier
  bucket's `Allow`, and, after a per-identifier denial, `returnGlobalToken`.
* The sweep wakes on its ticker, sets `cutoff` thirty minutes back, and visits the keys of
  `ipBuckets`: the bucket's `lastRefill` is read under its mutex, and a key whose bucket was
  refilled before the cutoff is deleted by a later step of its own.

Modelling choices:

* Times are nanoseconds of the monotonic clock. Each timed step reads a time not before the
  last (`s.now ≤ t`); the ticker may fire at any time, which allows more runs than a ticker
  of ten minutes.
* A bucket the map forgets stays in `buckets`: a call that loaded its address before the
  `Delete` still uses it, as the pointer it holds in Go.
* A visit reads the key's mapping when it runs. The sweep may visit any key, any number of
  times; a visit that finds a recent bucket changes nothing and is left out.
* The calls of a run are fixed in advance (`LimiterState.init`): one that never starts takes
  no step, so every finite run of the program is a run of some initial state.
* A call keeps, in its program counter, the time of its successful global step, the address
  of the bucket it asked, the time of its per-identifier step, and the time at which its
  compensation raised the global count. These are what the window bounds count.

`LimiterState.exec` runs one named action when it is enabled; `exec_sound` shows it takes a
`LimiterStep`, and concrete runs are built with it. `allow_steps` shows that a call that runs
alone takes the steps that compute the sequential `TwoTierRateLimiter.allow`.

A limiter made from `GLOBAL_RATE_LIMIT_PER_SEC=4611686018427387904` reaches a state whose
global bucket holds `MinInt64` tokens after one call (`allow_global_tokens_overflow`): the
refill's `int64` sum wraps, and `min(capacity, ·)` keeps the wrapped value.
-/

namespace AdsTxtAnalyzer

/-- Where one call `Allow(clientIP)` is. -/
inductive CallerPc
  /-- Not started. -/
  | start
  /-- Returned `false`: the global bucket denied. -/
  | denied
  /-- The global bucket granted at `globalAt`; `Load(clientIP)` is next. -/
  | loading (globalAt : Nat)
  /-- The `Load` missed and `newBucket` was made; `LoadOrStore` is next. -/
  | creating (globalAt : Nat) (newBucket : TokenBucket)
  /-- The call holds the bucket at `addr`; its `Allow` is next. -/
  | checking (globalAt addr : Nat)
  /-- The bucket denied; `returnGlobalToken` is next. -/
  | returning (globalAt : Nat)
  /-- Returned `true`, the bucket at `addr` having granted at `ipAt`. -/
  | granted (globalAt addr ipAt : Nat)
  /-- Returned `false` after `returnGlobalToken`, which raised the count at `returnedAt` if it
  did raise it. -/
  | compensated (globalAt : Nat) (returnedAt : Option Nat)

/-- One call of `Allow`. -/
structure Caller where
  clientIP : String
  pc : CallerPc

namespace CallerPc

/-- What the call returned, once it has. -/
def result? : CallerPc → Option Bool
  | denied | compensated _ _ => some false
  | granted _ _ _ => some true
  | _ => none

/-- The address of the bucket the call asks or asked. -/
def addr? : CallerPc → Option Nat
  | checking _ addr | granted _ addr _ => some addr
  | _ => none

end CallerPc

/-- Where the `cleanupIPBuckets` goroutine is. -/
inductive SweepPc
  /-- Waiting on the ticker. -/
  | idle
  /-- Inside `ipBuckets.Range`, with `cutoff`. -/
  | ranging (cutoff : Nat)
  /-- The bucket of `key` was refilled before `cutoff`; `Delete(key)` is next. -/
  | deleting (cutoff : Nat) (key : String)

/-- The limiter, the calls, the sweep and the clock. -/
@[ext]
structure LimiterState where
  limiter : TwoTierRateLimiter
  callers : List Caller
  sweep : SweepPc
  now : Nat

/-- `30 * time.Minute`, how long a bucket may go without a refill. -/
def bucketMaxAge : Nat := 1800000000000

/-- The limiter just made by `NewTwoTierRateLimiter` at time `now`, with calls for the
identifiers `clientIPs` yet to start. -/
def LimiterState.init (globalCapacity globalRate perIPCapacity perIPRate : Int) (now : Nat)
    (clientIPs : List String) : LimiterState :=
  ⟨.new globalCapacity globalRate perIPCapacity perIPRate now,
    clientIPs.map fun ip => ⟨ip, .start⟩, .idle, now⟩

/-- One atomic action of a call or of the sweep. -/
inductive LimiterStep : LimiterState → LimiterState → Prop
  /-- `trl.globalBucket.Allow()` at time `t`. -/
  | globalAllow {s : LimiterState} {i : Nat} {ip : String} (t : Nat)
      (hc : s.callers[i]? = some ⟨ip, .start⟩) (ht : s.now ≤ t) :
      LimiterStep s
        { s with
          limiter := { s.limiter with globalBucket := (s.limiter.globalBucket.allow t).2 }
          callers := s.callers.set i
            ⟨ip, if (s.limiter.globalBucket.allow t).1 then .loading t else .denied⟩
          now := t }
  /-- `trl.ipBuckets.Load(clientIP)` finds the bucket at `addr`. -/
  | loadHit {s : LimiterState} {i : Nat} {ip : String} {g addr : Nat}
      (hc : s.callers[i]? = some ⟨ip, .loading g⟩) (hk : s.limiter.ipBuckets ip = some addr) :
      LimiterStep s { s with callers := s.callers.set i ⟨ip, .checking g addr⟩ }
  /-- The `Load` misses, and `NewTokenBucket(trl.perIPCapacity, trl.perIPRate)` runs at `t`. -/
  | loadMiss {s : LimiterState} {i : Nat} {ip : String} {g : Nat} (t : Nat)
      (hc : s.callers[i]? = some ⟨ip, .loading g⟩) (hk : s.limiter.ipBuckets ip = none)
      (ht : s.now ≤ t) :
      LimiterStep s
        { s with
          callers := s.callers.set i
            ⟨ip, .creating g (.new s.limiter.perIPCapacity s.limiter.perIPRate t)⟩
          now := t }
  /-- `LoadOrStore(clientIP, newBucket)` loads the bucket another call stored meanwhile. -/
  | loadOrStoreLoad {s : LimiterState} {i : Nat} {ip : String} {g addr : Nat} {b : TokenBucket}
      (hc : s.callers[i]? = some ⟨ip, .creating g b⟩) (hk : s.limiter.ipBuckets ip = some addr) :
      LimiterStep s { s with callers := s.callers.set i ⟨ip, .checking g addr⟩ }
  /-- `LoadOrStore(clientIP, newBucket)` stores the new bucket. -/
  | loadOrStoreStore {s : LimiterState} {i : Nat} {ip : String} {g : Nat} {b : TokenBucket}
      (hc : s.callers[i]? = some ⟨ip, .creating g b⟩) (hk : s.limiter.ipBuckets ip = none) :
      LimiterStep s
        { s with
          limiter := s.limiter.storeBucket ip b
          callers := s.callers.set i ⟨ip, .checking g s.limiter.buckets.length⟩ }
  /-- `ipBucket.Allow()` at time `t`. -/
  | ipAllow {s : LimiterState} {i : Nat} {ip : String} {g addr : Nat} {b : TokenBucket} (t : Nat)
      (hc : s.callers[i]? = some ⟨ip, .checking g addr⟩) (hb : s.limiter.buckets[addr]? = some b)
      (ht : s.now ≤ t) :
      LimiterStep s
        { s with
          limiter := s.limiter.setBucket addr (b.allow t).2
          callers := s.callers.set i
            ⟨ip, if (b.allow t).1 then .granted g addr t else .returning g⟩
          now := t }
  /-- `trl.returnGlobalToken()`, at time `t`. -/
  | returnGlobalToken {s : LimiterState} {i : Nat} {ip : String} {g : Nat} (t : Nat)
      (hc : s.callers[i]? = some ⟨ip, .returning g⟩) (ht : s.now ≤ t) :
      LimiterStep s
        { s with
          limiter := s.limiter.returnGlobalToken
          callers := s.callers.set i ⟨ip, .compensated g
            (if s.limiter.globalBucket.tokens < s.limiter.globalBucket.capacity then some t
              else none)⟩
          now := t }
  /-- The ticker fires at `t`: `cutoff := time.Now().Add(-30 * time.Minute)`, and the
  `Range` starts. -/
  | tick {s : LimiterState} (t : Nat) (hs : s.sweep = .idle) (ht : s.now ≤ t) :
      LimiterStep s { s with sweep := .ranging (t - bucketMaxAge), now := t }
  /-- The `Range` callback on `key` reads, under the bucket's mutex, a `lastRefill` before the
  cutoff. -/
  | visit {s : LimiterState} {cutoff addr : Nat} {key : String} {b : TokenBucket}
      (hs : s.sweep = .ranging cutoff) (hk : s.limiter.ipBuckets key = some addr)
      (hb : s.limiter.buckets[addr]? = some b) (hold : b.lastRefill < cutoff) :
      LimiterStep s { s with sweep := .deleting cutoff key }
  /-- `trl.ipBuckets.Delete(key)`. -/
  | delete {s : LimiterState} {cutoff : Nat} {key : String}
      (hs : s.sweep = .deleting cutoff key) :
      LimiterStep s { s with limiter := s.limiter.delete key, sweep := .ranging cutoff }
  /-- The `Range` is over. -/
  | rangeEnd {s : LimiterState} {cutoff : Nat} (hs : s.sweep = .ranging cutoff) :
      LimiterStep s { s with sweep := .idle }

/-- The states a limiter made at `now` with capacities and rates `globalCapacity`,
`globalRate`, `perIPCapacity`, `perIPRate` reaches while the calls `clientIPs` run. -/
def LimiterReachable (globalCapacity globalRate perIPCapacity perIPRate : Int) (now : Nat)
    (clientIPs : List String) (s : LimiterState) : Prop :=
  Relation.ReflTransGen LimiterStep
    (LimiterState.init globalCapacity globalRate perIPCapacity perIPRate now clientIPs) s

section Reachable

variable {gC gR pC pR : Int} {now : Nat} {ips : List String} {s s' : LimiterState}

theorem LimiterReachable.step (h : LimiterReachable gC gR pC pR now ips s)
    (hst : LimiterStep s s') : LimiterReachable gC gR pC pR now ips s' :=
  Relation.ReflTransGen.tail h hst

/-- The induction principle of reachable states. -/
@[elab_as_elim]
theorem LimiterReachable.induction {P : LimiterState → Prop}
    (h0 : P (LimiterState.init gC gR pC pR now ips))
    (hs : ∀ {s s'}, LimiterReachable gC gR pC pR now ips s → P s → LimiterStep s s' → P s')
    (h : LimiterReachable gC gR pC pR now ips s) : P s := by
  induction h with
  | refl => exact h0
  | tail hr hst ih => exact hs hr ih hst

end Reachable

/-! ### Running named actions -/

/-- An action of one call, named by its index, or of the sweep, with the time it reads. -/
inductive LimiterAction
  | globalAllow (i t : Nat)
  | load (i t : Nat)
  | loadOrStore (i : Nat)
  | ipAllow (i t : Nat)
  | returnGlobalToken (i t : Nat)
  | tick (t : Nat)
  | visit (key : String)
  | delete
  | rangeEnd

namespace LimiterState

/-- The state after action `a`, if it is enabled. -/
def exec (s : LimiterState) : LimiterAction → Option LimiterState
  | .globalAllow i t =>
    match s.callers[i]? with
    | some ⟨ip, .start⟩ =>
      if s.now ≤ t then
        some { s with
          limiter := { s.limiter with globalBucket := (s.limiter.globalBucket.allow t).2 }
          callers := s.callers.set i
            ⟨ip, if (s.limiter.globalBucket.allow t).1 then .loading t else .denied⟩
          now := t }
      else none
    | _ => none
  | .load i t =>
    match s.callers[i]? with
    | some ⟨ip, .loading g⟩ =>
      match s.limiter.ipBuckets ip with
      | some addr => some { s with callers := s.callers.set i ⟨ip, .checking g addr⟩ }
      | none =>
        if s.now ≤ t then
          some { s with
            callers := s.callers.set i
              ⟨ip, .creating g (.new s.limiter.perIPCapacity s.limiter.perIPRate t)⟩
            now := t }
        else none
    | _ => none
  | .loadOrStore i =>
    match s.callers[i]? with
    | some ⟨ip, .creating g b⟩ =>
      match s.limiter.ipBuckets ip with
      | some addr => some { s with callers := s.callers.set i ⟨ip, .checking g addr⟩ }
      | none =>
        some { s with
          limiter := s.limiter.storeBucket ip b
          callers := s.callers.set i ⟨ip, .checking g s.limiter.buckets.length⟩ }
    | _ => none
  | .ipAllow i t =>
    match s.callers[i]? with
    | some ⟨ip, .checking g addr⟩ =>
      match s.limiter.buckets[addr]? with
      | some b =>
        if s.now ≤ t then
          some { s with
            limiter := s.limiter.setBucket addr (b.allow t).2
            callers := s.callers.set i
              ⟨ip, if (b.allow t).1 then .granted g addr t else .returning g⟩
            now := t }
        else none
      | none => none
    | _ => none
  | .returnGlobalToken i t =>
    match s.callers[i]? with
    | some ⟨ip, .returning g⟩ =>
      if s.now ≤ t then
        some { s with
          limiter := s.limiter.returnGlobalToken
          callers := s.callers.set i ⟨ip, .compensated g
            (if s.limiter.globalBucket.tokens < s.limiter.globalBucket.capacity then some t
              else none)⟩
          now := t }
      else none
    | _ => none
  | .tick t =>
    match s.sweep with
    | .idle => if s.now ≤ t then some { s with sweep := .ranging (t - bucketMaxAge), now := t }
      else none
    | _ => none
  | .visit key =>
    match s.sweep, s.limiter.ipBuckets key with
    | .ranging cutoff, some addr =>
      match s.limiter.buckets[addr]? with
      | some b => if b.lastRefill < cutoff then some { s with sweep := .deleting cutoff key }
        else none
      | none => none
    | _, _ => none
  | .delete =>
    match s.sweep with
    | .deleting cutoff key =>
      some { s with limiter := s.limiter.delete key, sweep := .ranging cutoff }
    | _ => none
  | .rangeEnd =>
    match s.sweep with
    | .ranging _ => some { s with sweep := .idle }
    | _ => none

/-- The state after the actions `as`, one after the other, if each is enabled in turn. -/
def run (s : LimiterState) : List LimiterAction → Option LimiterState
  | [] => some s
  | a :: as => (s.exec a).bind fun s' => s'.run as

/-- An enabled action is a step. -/
theorem exec_sound {s s' : LimiterState} {a : LimiterAction} (h : s.exec a = some s') :
    LimiterStep s s' := by
  cases a with
  | globalAllow i t =>
    simp only [exec] at h
    split at h <;> [skip; cases h]
    next hc => split at h <;> [exact Option.some.inj h ▸ .globalAllow t hc ‹_›; cases h]
  | load i t =>
    simp only [exec] at h
    split at h <;> [skip; cases h]
    next hc =>
      split at h
      · next hk => exact Option.some.inj h ▸ .loadHit hc hk
      · next hk => split at h <;> [exact Option.some.inj h ▸ .loadMiss t hc hk ‹_›; cases h]
  | loadOrStore i =>
    simp only [exec] at h
    split at h <;> [skip; cases h]
    next hc =>
      split at h
      · next hk => exact Option.some.inj h ▸ .loadOrStoreLoad hc hk
      · next hk => exact Option.some.inj h ▸ .loadOrStoreStore hc hk
  | ipAllow i t =>
    simp only [exec] at h
    split at h <;> [skip; cases h]
    next hc =>
      split at h <;> [skip; cases h]
      next hb => split at h <;> [exact Option.some.inj h ▸ .ipAllow t hc hb ‹_›; cases h]
  | returnGlobalToken i t =>
    simp only [exec] at h
    split at h <;> [skip; cases h]
    next hc => split at h <;> [exact Option.some.inj h ▸ .returnGlobalToken t hc ‹_›; cases h]
  | tick t =>
    simp only [exec] at h
    split at h <;> [skip; cases h]
    next hs => split at h <;> [exact Option.some.inj h ▸ .tick t hs ‹_›; cases h]
  | visit key =>
    simp only [exec] at h
    split at h <;> [skip; cases h]
    next hs hk =>
      split at h <;> [skip; cases h]
      next hb => split at h <;> [exact Option.some.inj h ▸ .visit hs hk hb ‹_›; cases h]
  | delete =>
    simp only [exec] at h
    split at h <;> [exact Option.some.inj h ▸ .delete ‹_›; cases h]
  | rangeEnd =>
    simp only [exec] at h
    split at h <;> [exact Option.some.inj h ▸ .rangeEnd ‹_›; cases h]

/-- A run of enabled actions is a path of steps. -/
theorem run_sound {s s' : LimiterState} {as : List LimiterAction} (h : s.run as = some s') :
    Relation.ReflTransGen LimiterStep s s' := by
  induction as generalizing s with
  | nil => exact Option.some.inj h ▸ .refl
  | cons a as ih =>
    simp only [run, Option.bind_eq_some] at h
    obtain ⟨s₁, h₁, h₂⟩ := h
    exact .head (exec_sound h₁) (ih h₂)

end LimiterState

/-- A run from the start whose last state passes the test `p` shows a reachable state that
passes it. -/
theorem exists_reachable_of_run {gC gR pC pR : Int} {now : Nat} {ips : List String}
    (as : List LimiterAction) (p : LimiterState → Bool)
    (h : ((LimiterState.init gC gR pC pR now ips).run as).any p = true) :
    ∃ s, LimiterReachable gC gR pC pR now ips s ∧ p s = true := by
  cases hr : (LimiterState.init gC gR pC pR now ips).run as with
  | none => simp [hr] at h
  | some s => exact ⟨s, LimiterState.run_sound hr, by simpa [hr] using h⟩

/-- **The global count leaves its range.** The limiter `main` builds from
`GLOBAL_RATE_LIMIT_PER_SEC=4611686018427387904` (`2^62`), asked once one second after it was
made: the global refill adds `2^62` tokens to `2^62`, the `int64` sum wraps to `MinInt64`,
and `min(capacity, ·)` keeps the wrapped value. -/
theorem allow_global_tokens_overflow :
    ∃ s, LimiterReachable 4611686018427387904 4611686018427387904 10 10 0 ["192.0.2.1"] s ∧
      s.limiter.globalBucket.tokens = minInt64 := by
  exact (exists_reachable_of_run [.globalAllow 0 1000000000]
    (fun s => decide (s.limiter.globalBucket.tokens = minInt64)) (by decide)).imp
    fun _ h => ⟨h.1, of_decide_eq_true h.2⟩

/-! ### A call that runs alone -/

section Alone

variable {s : LimiterState} {i : Nat} {ip : String} {g t : Nat}

/-- From the per-identifier `Allow` on, a call that runs alone ends as the sequential method
does: granted by the bucket it holds, at `t`, or denied after giving its global token back at
`t`. -/
private theorem checking_steps {addr : Nat} {b : TokenBucket}
    (hc : s.callers[i]? = some ⟨ip, .checking g addr⟩) (hb : s.limiter.buckets[addr]? = some b)
    (ht : s.now ≤ t) :
    ∃ pc : CallerPc, pc.result? = some (b.allow t).1 ∧
      (∀ g' addr' ipAt, pc = .granted g' addr' ipAt → g' = g ∧ addr' = addr ∧ ipAt = t) ∧
      (∀ g' r, pc = .compensated g' (some r) → r = t) ∧
      Relation.ReflTransGen LimiterStep s
        { s with
          limiter := if (b.allow t).1 then s.limiter.setBucket addr (b.allow t).2
            else (s.limiter.setBucket addr (b.allow t).2).returnGlobalToken
          callers := s.callers.set i ⟨ip, pc⟩
          now := t } := by
  have h₁ := LimiterStep.ipAllow t hc hb ht
  cases hok : (b.allow t).1 with
  | true =>
    simp only [hok, if_true] at h₁ ⊢
    refine ⟨.granted g addr t, rfl, fun _ _ _ h => ?_, fun _ _ h => CallerPc.noConfusion h,
      .single h₁⟩
    obtain ⟨rfl, rfl, rfl⟩ := CallerPc.granted.inj h
    exact ⟨rfl, rfl, rfl⟩
  | false =>
    simp only [hok, Bool.false_eq_true, if_false] at h₁ ⊢
    have hc₁ : (s.callers.set i ⟨ip, .returning g⟩)[i]? = some ⟨ip, .returning g⟩ := by
      simpa using getElem?_set_of_getElem? hc ⟨ip, .returning g⟩ i
    have h₂ := LimiterStep.returnGlobalToken t hc₁ le_rfl (s :=
      { s with
        limiter := s.limiter.setBucket addr (b.allow t).2
        callers := s.callers.set i ⟨ip, .returning g⟩
        now := t })
    simp only [List.set_set] at h₂
    refine ⟨.compensated g _, rfl, fun _ _ _ h => CallerPc.noConfusion h, fun _ _ h => ?_,
      .tail (.single h₁) h₂⟩
    have h := (CallerPc.compensated.inj h).2
    split at h
    · exact (Option.some.inj h).symm
    · cases h

/-- **A call alone computes the sequential method.** From a state where call `i` has not
started, the call can run to its end at time `t` with no other step in between; it returns
what `TwoTierRateLimiter.allow` returns and leaves the limiter that it leaves. All its steps
run at `t`, and a call granted holds the bucket the map gives its identifier afterwards. -/
theorem allow_steps (hc : s.callers[i]? = some ⟨ip, .start⟩) (ht : s.now ≤ t) :
    ∃ pc : CallerPc, pc.result? = some (s.limiter.allow ip t).1 ∧
      (∀ g addr ipAt, pc = .granted g addr ipAt →
        g = t ∧ ipAt = t ∧ (s.limiter.allow ip t).2.ipBuckets ip = some addr) ∧
      (∀ g r, pc = .compensated g (some r) → r = t) ∧
      Relation.ReflTransGen LimiterStep s
        { s with
          limiter := (s.limiter.allow ip t).2
          callers := s.callers.set i ⟨ip, pc⟩
          now := t } := by
  have h₁ := LimiterStep.globalAllow t hc ht
  have hi : i < s.callers.length := (List.getElem?_eq_some.mp hc).1
  cases hg : (s.limiter.globalBucket.allow t).1 with
  | false =>
    simp only [hg, Bool.false_eq_true, if_false] at h₁
    exact ⟨.denied, by simp [TwoTierRateLimiter.allow, hg, CallerPc.result?],
      fun _ _ _ h => CallerPc.noConfusion h, fun _ _ h => CallerPc.noConfusion h,
      by simpa [TwoTierRateLimiter.allow, hg] using .single h₁⟩
  | true =>
    simp only [hg, if_true] at h₁
    let s₁ : LimiterState :=
      { s with
        limiter := { s.limiter with globalBucket := (s.limiter.globalBucket.allow t).2 }
        callers := s.callers.set i ⟨ip, .loading t⟩
        now := t }
    have hc₁ : s₁.callers[i]? = some ⟨ip, .loading t⟩ := by simp [s₁, hi]
    cases hk : s.limiter.ipBuckets ip with
    | some addr =>
      obtain ⟨b, hb⟩ : ∃ b, s.limiter.buckets[addr]? = some b :=
        ⟨_, List.getElem?_eq_getElem (s.limiter.ipBuckets_lt ip addr hk)⟩
      rw [TwoTierRateLimiter.allow_of_global_granted hg
        (show _ = (addr, s₁.limiter) by simp [TwoTierRateLimiter.getOrCreateIPBucket, hk]) hb]
      have h₂ := LimiterStep.loadHit (s := s₁) hc₁ hk
      obtain ⟨pc, hpc, hgr, hret, h₃⟩ := checking_steps (i := i) (t := t)
        (show _ = some ⟨ip, .checking t addr⟩ by simp [s₁, hi]) hb le_rfl
        (s := { s₁ with callers := s₁.callers.set i ⟨ip, .checking t addr⟩ })
      refine ⟨pc, hpc, fun g' addr' ipAt h => ?_, hret, ?_⟩
      · obtain ⟨rfl, rfl, rfl⟩ := hgr g' addr' ipAt h
        exact ⟨rfl, rfl, by split <;> simpa [s₁] using hk⟩
      · convert Relation.ReflTransGen.trans (.tail (.single h₁) h₂) h₃ using 1
        ext <;> simp [s₁]
    | none =>
      let nb := TokenBucket.new s.limiter.perIPCapacity s.limiter.perIPRate t
      have hb : (s₁.limiter.storeBucket ip nb).buckets[s.limiter.buckets.length]? = some nb := by
        simp [s₁]
      rw [TwoTierRateLimiter.allow_of_global_granted hg
        (by simp [TwoTierRateLimiter.getOrCreateIPBucket, hk]) hb]
      have h₂ := LimiterStep.loadMiss (s := s₁) t hc₁ hk le_rfl
      have h₃ := LimiterStep.loadOrStoreStore (i := i)
        (show _ = some ⟨ip, .creating t nb⟩ by simp [s₁, hi]) hk
        (s := { s₁ with callers := s₁.callers.set i ⟨ip, .creating t nb⟩ })
      obtain ⟨pc, hpc, hgr, hret, h₄⟩ := checking_steps (i := i) (t := t)
        (show _ = some ⟨ip, .checking t s.limiter.buckets.length⟩ by simp [s₁, hi]) hb le_rfl
        (s := { s₁ with
          limiter := s₁.limiter.storeBucket ip nb
          callers := (s₁.callers.set i ⟨ip, .creating t nb⟩).set i
            ⟨ip, .checking t s.limiter.buckets.length⟩ })
      refine ⟨pc, hpc, fun g' addr' ipAt h => ?_, hret, ?_⟩
      · obtain ⟨rfl, rfl, rfl⟩ := hgr g' addr' ipAt h
        refine ⟨rfl, rfl, ?_⟩
        split <;> simp [s₁, TwoTierRateLimiter.storeBucket, TwoTierRateLimiter.store]
      · convert Relation.ReflTransGen.trans (.tail (.tail (.single h₁) h₂) h₃) h₄ using 1
        ext <;> simp [s₁]

end Alone

end AdsTxtAnalyzer
