import AdsTxtAnalyzer.RateLimit.System
import AdsTxtAnalyzer.RateLimit.Window

/-!
# Window bounds over every run of the rate limiter

Every bucket of the concurrent model keeps its `BucketWindow` accounting, for every window, in
every reachable state:

* the global bucket, counting the calls whose global step took a token in the window and the
  compensations that raised its count in the window (`globalWindow_of_reachable`);
* every per-identifier bucket, counting the calls it granted in the window
  (`perIPWindow_of_reachable`).

Both rest on `LimiterShape`: the buckets keep the capacities and rates they were made with,
and every address a call holds is a bucket. The counts come from the times the calls keep in
their program counters (`CallerPc.globalAt?`, `CallerPc.returnedAt?`, `CallerPc.grantedBy?`).

So the calls granted by their global step in a window number at most
`Cg + ⌊T·rg·(1 + 2^-50)⌋ + 1` plus the compensations in the window
(`allow_global_window_bound`), and the calls one bucket grants in a window at most
`Cp + ⌊T·rp·(1 + 2^-50)⌋ + 1` (`allow_perIP_window_bound`). The factor `1 + 2^-50` is the
float64 refill's overestimate: a refill can add a token more than the exact credit
(`tokensToAdd_exceeds_credit`).
-/

namespace AdsTxtAnalyzer

/-! ### What the calls record -/

namespace CallerPc

/-- The time of the call's global step, once that step has granted. -/
def globalAt? : CallerPc → Option Nat
  | loading g | creating g _ | checking g _ | returning g | granted g _ _ | compensated g _ => some g
  | start | denied => none

/-- The time at which the call's compensation raised the global count. -/
def returnedAt? : CallerPc → Option Nat
  | compensated _ r => r
  | _ => none

/-- The address of the bucket that granted the call, and the time it did. -/
def grantedBy? : CallerPc → Option (Nat × Nat)
  | granted _ addr ipAt => some (addr, ipAt)
  | _ => none

/-- The call's global step took a token in the window `[a, a + T]`. -/
def tookGlobalIn (a T : Nat) (pc : CallerPc) : Bool := pc.globalAt?.any (inWindow a T)

/-- The call's compensation raised the global count in the window. -/
def returnedIn (a T : Nat) (pc : CallerPc) : Bool := pc.returnedAt?.any (inWindow a T)

/-- The bucket at `addr` granted the call in the window. -/
def grantedByIn (addr a T : Nat) (pc : CallerPc) : Bool :=
  pc.grantedBy?.any fun p => p.1 == addr && inWindow a T p.2

/-- The call returned `true`, and its global step was in the window. -/
def grantedIn (a T : Nat) : CallerPc → Bool
  | granted g _ _ => inWindow a T g
  | _ => false

theorem tookGlobalIn_of_grantedIn {pc : CallerPc} {a T : Nat} (h : pc.grantedIn a T = true) :
    pc.tookGlobalIn a T = true := by
  cases pc <;> simp_all [grantedIn, tookGlobalIn, globalAt?]

theorem addr?_of_grantedBy? {pc : CallerPc} {addr ipAt : Nat}
    (h : pc.grantedBy? = some (addr, ipAt)) : pc.addr? = some addr := by
  cases pc <;> simp_all [grantedBy?, addr?]

end CallerPc

namespace LimiterState

variable (s : LimiterState) (a T : Nat)

/-- The calls whose global step took a token in the window `[a, a + T]`. -/
def tookGlobalIn : Nat := s.callers.countP (·.pc.tookGlobalIn a T)

/-- The compensations that raised the global count in the window. -/
def returnedIn : Nat := s.callers.countP (·.pc.returnedIn a T)

/-- The calls the bucket at `addr` granted in the window. -/
def grantedByIn (addr : Nat) : Nat := s.callers.countP (·.pc.grantedByIn addr a T)

/-- The calls that returned `true` whose global step was in the window. -/
def grantedIn : Nat := s.callers.countP (·.pc.grantedIn a T)

/-- The calls for `ip` that returned `true` whose per-identifier step ran in the window. -/
def grantedForIn (ip : String) : Nat :=
  s.callers.countP fun c => c.clientIP == ip && c.pc.grantedBy?.any (inWindow a T ·.2)

end LimiterState

/-! ### The shape of reachable states -/

/-- What the shape asks of one call, when there are `n` buckets: a bucket it made has the
per-identifier parameters, and a bucket it holds exists. -/
def CallerPc.Fits (perIPCapacity perIPRate : Int) (n : Nat) : CallerPc → Prop
  | creating _ nb => nb.capacity = perIPCapacity ∧ nb.refillRate = perIPRate
  | checking _ addr | granted _ addr _ => addr < n
  | _ => True

theorem CallerPc.Fits.mono {pC pR : Int} {n n' : Nat} {pc : CallerPc} (h : pc.Fits pC pR n)
    (hn : n ≤ n') : pc.Fits pC pR n' := by
  cases pc <;> simp_all [Fits] <;> omega

theorem CallerPc.Fits.addr_lt {pC pR : Int} {n addr : Nat} {pc : CallerPc} (h : pc.Fits pC pR n)
    (ha : pc.addr? = some addr) : addr < n := by
  cases pc <;> simp_all [Fits, addr?]

/-- The limiter keeps the capacities and rates it was made with, every bucket has the
per-identifier ones, and every call fits. -/
structure LimiterShape (gC gR pC pR : Int) (s : LimiterState) : Prop where
  global_capacity : s.limiter.globalBucket.capacity = gC
  global_rate : s.limiter.globalBucket.refillRate = gR
  perIPCapacity : s.limiter.perIPCapacity = pC
  perIPRate : s.limiter.perIPRate = pR
  buckets : ∀ tb ∈ s.limiter.buckets, tb.capacity = pC ∧ tb.refillRate = pR
  callers : ∀ c ∈ s.callers, c.pc.Fits pC pR s.limiter.buckets.length

section Shape

variable {gC gR pC pR : Int} {now : Nat} {ips : List String} {s s' : LimiterState}

theorem callers_set_fit {n : Nat} {l : List Caller} {i : Nat} {c : Caller}
    (hl : ∀ c ∈ l, c.pc.Fits pC pR n) (hc : c.pc.Fits pC pR n) :
    ∀ c' ∈ l.set i c, c'.pc.Fits pC pR n := fun c' hc' =>
  (List.mem_or_eq_of_mem_set hc').elim (hl c') (· ▸ hc)

theorem LimiterShape.init :
    LimiterShape gC gR pC pR (LimiterState.init gC gR pC pR now ips) where
  global_capacity := rfl
  global_rate := rfl
  perIPCapacity := rfl
  perIPRate := rfl
  buckets := by simp [LimiterState.init, TwoTierRateLimiter.new]
  callers := by simp [LimiterState.init, CallerPc.Fits]

theorem LimiterShape.step (h : LimiterShape gC gR pC pR s) (hst : LimiterStep s s') :
    LimiterShape gC gR pC pR s' := by
  have hmem : ∀ {i : Nat} {c : Caller}, s.callers[i]? = some c →
      c.pc.Fits pC pR s.limiter.buckets.length :=
    fun hc => h.callers _ (List.getElem?_mem hc)
  cases hst with
  | globalAllow t hc ht =>
    refine { h with
      global_capacity := by simpa using h.global_capacity
      global_rate := by simpa using h.global_rate
      callers := callers_set_fit h.callers ?_ }
    split <;> trivial
  | loadHit hc hk =>
    exact { h with callers := callers_set_fit h.callers (s.limiter.ipBuckets_lt _ _ hk) }
  | loadMiss t hc hk ht =>
    exact { h with
      callers := callers_set_fit h.callers
        ⟨by simpa [TokenBucket.new] using h.perIPCapacity, by simpa [TokenBucket.new] using h.perIPRate⟩ }
  | loadOrStoreLoad hc hk =>
    exact { h with callers := callers_set_fit h.callers (s.limiter.ipBuckets_lt _ _ hk) }
  | loadOrStoreStore hc hk =>
    have hb := hmem hc
    refine { h with
      buckets := fun tb htb => ?_
      callers := callers_set_fit (fun c hc' => (h.callers c hc').mono (by simp))
        (show _ < _ by simp) }
    simp only [TwoTierRateLimiter.storeBucket_buckets, List.mem_append, List.mem_singleton] at htb
    rcases htb with htb | rfl
    · exact h.buckets tb htb
    · exact hb
  | ipAllow t hc hb ht =>
    have hlt : _ < _ := hmem hc
    refine { h with
      buckets := fun tb htb => ?_
      callers := callers_set_fit (by simpa using h.callers) ?_ }
    · simp only [TwoTierRateLimiter.setBucket_buckets] at htb
      rcases List.mem_or_eq_of_mem_set htb with htb | rfl
      · exact h.buckets tb htb
      · simpa using h.buckets _ (List.getElem?_mem hb)
    · split
      · simpa [CallerPc.Fits] using hlt
      · trivial
  | returnGlobalToken t hc ht =>
    exact { h with
      global_capacity := by simpa using h.global_capacity
      global_rate := by simpa using h.global_rate
      callers := callers_set_fit h.callers trivial }
  | tick t hs ht => exact { h with }
  | visit hs hk hb hold => exact { h with }
  | delete hs => exact { h with }
  | rangeEnd hs => exact { h with }

theorem shape_of_reachable (h : LimiterReachable gC gR pC pR now ips s) :
    LimiterShape gC gR pC pR s :=
  h.induction LimiterShape.init fun _ hs hst => hs.step hst

end Shape

/-! ### The window invariants -/

/-- The global bucket's accounting over `[a, a + T]`. -/
def GlobalWindow (a T : Nat) (s : LimiterState) : Prop :=
  BucketWindow s.limiter.globalBucket a T s.now (s.tookGlobalIn a T) (s.returnedIn a T)

/-- Every per-identifier bucket's accounting over `[a, a + T]`. -/
def PerIPWindow (a T : Nat) (s : LimiterState) : Prop :=
  ∀ addr tb, s.limiter.buckets[addr]? = some tb →
    BucketWindow tb a T s.now (s.grantedByIn a T addr) 0

section Windows

variable {gC gR pC pR : Int} {now : Nat} {ips : List String} {s s' : LimiterState} {a T : Nat}

/-- **Frame.** A step that changes one call without recording a global event, and leaves the
global bucket as it was, keeps the global accounting. -/
theorem GlobalWindow.frame {i t : Nat} {ip : String} {pc pc' : CallerPc} {L : TwoTierRateLimiter}
    (hr : 0 ≤ s.limiter.globalBucket.refillRate) (h : GlobalWindow a T s)
    (hc : s.callers[i]? = some ⟨ip, pc⟩) (hg : pc'.globalAt? = pc.globalAt?)
    (hret : pc'.returnedAt? = pc.returnedAt?) (hL : L.globalBucket = s.limiter.globalBucket)
    (ht : s.now ≤ t) :
    GlobalWindow a T { s with limiter := L, callers := s.callers.set i ⟨ip, pc'⟩, now := t } := by
  unfold GlobalWindow LimiterState.tookGlobalIn LimiterState.returnedIn at *
  dsimp only
  rw [hL, countP_set_of_eq hc (by simp [CallerPc.tookGlobalIn, hg]),
    countP_set_of_eq hc (by simp [CallerPc.returnedIn, hret])]
  exact h.advance hr ht

theorem GlobalWindow.step (hC : 0 ≤ gC) (hR : 0 ≤ gR) (hsh : LimiterShape gC gR pC pR s)
    (h : GlobalWindow a T s) (hst : LimiterStep s s') : GlobalWindow a T s' := by
  have hr : 0 ≤ s.limiter.globalBucket.refillRate := hsh.global_rate ▸ hR
  have hC' : 0 ≤ s.limiter.globalBucket.capacity := hsh.global_capacity ▸ hC
  cases hst with
  | globalAllow t hc ht =>
    unfold GlobalWindow LimiterState.tookGlobalIn LimiterState.returnedIn at *
    rw [countP_set_of_false hc _ rfl, countP_set_of_false hc _ rfl]
    cases hok : (s.limiter.globalBucket.allow t).1 with
    | true =>
      have := h.update (u := (s.limiter.globalBucket.allow t).2) 1 0 hr hC' (by simp) (by simp) ht
        (by simpa using TokenBucket.potential_allow_true hr hok)
      simpa [hok, CallerPc.tookGlobalIn, CallerPc.globalAt?, CallerPc.returnedIn,
        CallerPc.returnedAt?] using this
    | false =>
      have := h.update (u := (s.limiter.globalBucket.allow t).2) 0 0 hr hC' (by simp) (by simp) ht
        (by simpa using TokenBucket.potential_allow hr (t := t))
      simpa [hok, CallerPc.tookGlobalIn, CallerPc.globalAt?, CallerPc.returnedIn,
        CallerPc.returnedAt?] using this
  | loadHit hc hk => exact h.frame hr hc rfl rfl rfl le_rfl
  | loadMiss t hc hk ht => exact h.frame hr hc rfl rfl rfl ht
  | loadOrStoreLoad hc hk => exact h.frame hr hc rfl rfl rfl le_rfl
  | loadOrStoreStore hc hk => exact h.frame hr hc rfl rfl rfl le_rfl
  | ipAllow t hc hb ht => exact h.frame hr hc (by split <;> rfl) (by split <;> rfl) rfl ht
  | returnGlobalToken t hc ht =>
    unfold GlobalWindow LimiterState.tookGlobalIn LimiterState.returnedIn at *
    rw [countP_set_of_eq hc (by rfl), countP_set_of_false hc _ rfl]
    by_cases hlt : s.limiter.globalBucket.tokens < s.limiter.globalBucket.capacity
    · have := h.update (u := s.limiter.globalBucket.returnToken) 0 1 hr hC' (by simp) (by simp) ht
        (by simpa using TokenBucket.potential_returnToken (t := t))
      simpa [hlt, CallerPc.returnedIn, CallerPc.returnedAt?] using this
    · have := h.update (u := s.limiter.globalBucket.returnToken) 0 0 hr hC' (by simp) (by simp) ht
        (by simp [TokenBucket.returnToken, hlt])
      simpa [hlt, CallerPc.returnedIn, CallerPc.returnedAt?] using this
  | tick t hs ht => exact h.advance hr ht
  | visit hs hk hb hold => exact h
  | delete hs => exact h
  | rangeEnd hs => exact h

/-- No call was granted by a bucket that does not exist. -/
theorem grantedByIn_eq_zero {n addr : Nat} (hs : ∀ c ∈ s.callers, c.pc.Fits pC pR n)
    (hn : n ≤ addr) : s.grantedByIn a T addr = 0 := by
  unfold LimiterState.grantedByIn
  rw [List.countP_eq_zero]
  intro c hc
  cases hg : c.pc.grantedBy? with
  | none => simp [CallerPc.grantedByIn, hg]
  | some p =>
    have := (hs c hc).addr_lt (CallerPc.addr?_of_grantedBy? hg)
    simp only [CallerPc.grantedByIn, hg, Option.any_some, Bool.and_eq_true, beq_iff_eq, not_and]
    omega

/-- **Frame.** A step that changes one call without a per-identifier grant, and leaves the
buckets as they were, keeps every per-identifier accounting. -/
theorem PerIPWindow.frame {i t : Nat} {ip : String} {pc pc' : CallerPc} {L : TwoTierRateLimiter}
    (hr : ∀ tb ∈ s.limiter.buckets, 0 ≤ tb.refillRate) (h : PerIPWindow a T s)
    (hc : s.callers[i]? = some ⟨ip, pc⟩) (hg : pc'.grantedBy? = pc.grantedBy?)
    (hL : L.buckets = s.limiter.buckets) (ht : s.now ≤ t) :
    PerIPWindow a T { s with limiter := L, callers := s.callers.set i ⟨ip, pc'⟩, now := t } := by
  intro addr tb hb
  unfold LimiterState.grantedByIn at *
  dsimp only at hb ⊢
  rw [hL] at hb
  rw [countP_set_of_eq hc (by simp [CallerPc.grantedByIn, hg])]
  exact (h addr tb hb).advance (hr tb (List.getElem?_mem hb)) ht

theorem PerIPWindow.step (hpC : 0 ≤ pC) (hpR : 0 ≤ pR) (hsh : LimiterShape gC gR pC pR s)
    (h : PerIPWindow a T s) (hst : LimiterStep s s') : PerIPWindow a T s' := by
  have hr : ∀ tb ∈ s.limiter.buckets, 0 ≤ tb.refillRate := fun tb htb =>
    (hsh.buckets tb htb).2 ▸ hpR
  cases hst with
  | globalAllow t hc ht => exact h.frame hr hc (by split <;> rfl) rfl ht
  | loadHit hc hk => exact h.frame hr hc rfl rfl le_rfl
  | loadMiss t hc hk ht => exact h.frame hr hc rfl rfl ht
  | loadOrStoreLoad hc hk => exact h.frame hr hc rfl rfl le_rfl
  | @loadOrStoreStore i ip g b hc hk =>
    intro addr tb hb
    unfold LimiterState.grantedByIn at *
    dsimp only at hb ⊢
    rw [countP_set_of_eq hc (by rfl)]
    simp only [TwoTierRateLimiter.storeBucket_buckets] at hb
    rcases Nat.lt_trichotomy addr s.limiter.buckets.length with hlt | rfl | hgt
    · rw [List.getElem?_append_left hlt] at hb
      exact h addr tb hb
    · obtain rfl : b = tb := by simpa using hb
      obtain ⟨hcap, hrate⟩ : b.capacity = pC ∧ b.refillRate = pR :=
        hsh.callers _ (List.getElem?_mem hc)
      have h0 := grantedByIn_eq_zero (a := a) (T := T) hsh.callers le_rfl
      unfold LimiterState.grantedByIn at h0
      rw [h0]
      exact BucketWindow.init (hcap ▸ hpC) (hrate ▸ hpR)
    · rw [List.getElem?_eq_none (by simp; omega)] at hb
      cases hb
  | @ipAllow i ip g addr₀ b t hc hb ht =>
    intro addr tb hb'
    unfold LimiterState.grantedByIn at *
    dsimp only at hb' ⊢
    rw [countP_set_of_false hc _ (by rfl)]
    have hrb : 0 ≤ b.refillRate := hr b (List.getElem?_mem hb)
    by_cases haddr : addr₀ = addr
    · subst haddr
      have hlt : addr₀ < s.limiter.buckets.length := (List.getElem?_eq_some.mp hb).1
      simp only [TwoTierRateLimiter.setBucket_buckets, List.getElem?_set_self hlt,
        Option.some.injEq] at hb'
      subst hb'
      have hC : 0 ≤ b.capacity := (hsh.buckets b (List.getElem?_mem hb)).1 ▸ hpC
      cases hok : (b.allow t).1 with
      | true =>
        have := (h addr₀ b hb).update (u := (b.allow t).2) 1 0 hrb hC (by simp) (by simp) ht
          (by simpa using TokenBucket.potential_allow_true hrb hok)
        simpa [hok, CallerPc.grantedByIn, CallerPc.grantedBy?] using this
      | false =>
        have := (h addr₀ b hb).update (u := (b.allow t).2) 0 0 hrb hC (by simp) (by simp) ht
          (by simpa using TokenBucket.potential_allow hrb (t := t))
        simpa [hok, CallerPc.grantedByIn, CallerPc.grantedBy?] using this
    · simp only [TwoTierRateLimiter.setBucket_buckets, List.getElem?_set_ne haddr] at hb'
      have hq : ¬ (CallerPc.grantedByIn addr a T
          (if (b.allow t).1 then .granted g addr₀ t else .returning g)) = true := by
        split <;> simp [CallerPc.grantedByIn, CallerPc.grantedBy?, haddr]
      simp only [hq, if_false, Nat.add_zero]
      exact (h addr tb hb').advance (hr tb (List.getElem?_mem hb')) ht
  | returnGlobalToken t hc ht => exact h.frame hr hc rfl rfl ht
  | tick t hs ht => exact fun addr tb hb => (h addr tb hb).advance (hr tb (List.getElem?_mem hb)) ht
  | visit hs hk hb hold => exact h
  | delete hs => exact h
  | rangeEnd hs => exact h

end Windows

/-! ### Every reachable state -/

section Reachable

variable {gC gR pC pR : Int} {now : Nat} {ips : List String} {s : LimiterState}

theorem globalWindow_of_reachable (hC : 0 ≤ gC) (hR : 0 ≤ gR)
    (h : LimiterReachable gC gR pC pR now ips s) (a T : Nat) : GlobalWindow a T s := by
  have h0 : GlobalWindow a T (LimiterState.init gC gR pC pR now ips) := by
    have : ∀ q : CallerPc → Bool, q .start = false →
        (LimiterState.init gC gR pC pR now ips).callers.countP (q ·.pc) = 0 := fun q hq => by
      simp [LimiterState.init, hq]
    unfold GlobalWindow LimiterState.tookGlobalIn LimiterState.returnedIn
    rw [this _ rfl, this _ rfl]
    exact BucketWindow.init hC hR
  have := h.induction (P := fun s => LimiterShape gC gR pC pR s ∧ GlobalWindow a T s)
    ⟨LimiterShape.init, h0⟩ fun _ ⟨hsh, hw⟩ hst => ⟨hsh.step hst, hw.step hC hR hsh hst⟩
  exact this.2

theorem perIPWindow_of_reachable (hpC : 0 ≤ pC) (hpR : 0 ≤ pR)
    (h : LimiterReachable gC gR pC pR now ips s) (a T : Nat) : PerIPWindow a T s := by
  have h0 : PerIPWindow a T (LimiterState.init gC gR pC pR now ips) := fun addr tb hb => by
    simp [LimiterState.init, TwoTierRateLimiter.new] at hb
  have := h.induction (P := fun s => LimiterShape gC gR pC pR s ∧ PerIPWindow a T s)
    ⟨LimiterShape.init, h0⟩ fun _ ⟨hsh, hw⟩ hst => ⟨hsh.step hst, hw.step hpC hpR hsh hst⟩
  exact this.2

/-- **The global bound.** In every reachable state of a limiter with a non-negative global
capacity and rate, the calls that returned `true` and whose global step ran in a window
`[a, a + T]` number at most `Cg + ⌊T·rg·(1 + 2^-50)⌋ + 1`, plus the compensations that raised
the global count within the window. -/
theorem allow_global_window_bound (hC : 0 ≤ gC) (hR : 0 ≤ gR)
    (h : LimiterReachable gC gR pC pR now ips s) (a T : Nat) :
    (s.grantedIn a T : Int) ≤ gC + refillWithin T gR + 1 + s.returnedIn a T := by
  have hsh := shape_of_reachable h
  have hw := (globalWindow_of_reachable hC hR h a T).taken_le (hsh.global_rate ▸ hR)
  rw [hsh.global_capacity, hsh.global_rate] at hw
  have hle : s.grantedIn a T ≤ s.tookGlobalIn a T :=
    List.countP_mono_left fun _ _ => CallerPc.tookGlobalIn_of_grantedIn
  exact Int.le_trans (Int.ofNat_le.mpr hle) hw

/-- Three calls for `x` at time `0`: the first drains the identifier's bucket, the other two
take global tokens, are denied by it, and pause before `returnGlobalToken`. One second later
the refill fills the global bucket, three calls for other identifiers take its tokens, the
two paused calls give theirs back, and two more calls take them. -/
def compensationRace : List LimiterAction :=
  [.globalAllow 0 0, .load 0 1, .loadOrStore 0, .ipAllow 0 2,
    .globalAllow 1 3, .load 1 3, .ipAllow 1 4,
    .globalAllow 2 5, .load 2 5, .ipAllow 2 6,
    .globalAllow 3 1000000000, .load 3 1000000001, .loadOrStore 3, .ipAllow 3 1000000002,
    .globalAllow 4 1000000003, .load 4 1000000004, .loadOrStore 4, .ipAllow 4 1000000005,
    .globalAllow 5 1000000006, .load 5 1000000007, .loadOrStore 5, .ipAllow 5 1000000008,
    .returnGlobalToken 1 1000000009, .returnGlobalToken 2 1000000010,
    .globalAllow 6 1000000011, .load 6 1000000012, .loadOrStore 6, .ipAllow 6 1000000013,
    .globalAllow 7 1000000014, .load 7 1000000015, .loadOrStore 7, .ipAllow 7 1000000016]

/-- The identifiers of the calls of `compensationRace`. -/
def compensationRaceIPs : List String := ["x", "x", "x", "y", "z", "w", "v", "u"]

/-- Without the compensations the global bound fails: with a global capacity and rate of
three, `compensationRace` has five calls granted by global steps within `100` nanoseconds. -/
theorem allow_global_window_exceeded :
    ¬ ∀ (gC gR pC pR : Int) (now : Nat) (ips : List String) (s : LimiterState),
      0 ≤ gC → 0 ≤ gR → LimiterReachable gC gR pC pR now ips s →
        ∀ a T : Nat, (s.grantedIn a T : Int) ≤ gC + T * gR / second + 1 := by
  intro h
  obtain ⟨s, hs, h5⟩ : ∃ s, LimiterReachable 3 3 1 1 0 compensationRaceIPs s ∧
      s.grantedIn 1000000000 100 = 5 :=
    (exists_reachable_of_run compensationRace
      (fun s => decide (s.grantedIn 1000000000 100 = 5)) (by decide)).imp
      fun _ h => ⟨h.1, of_decide_eq_true h.2⟩
  have := h 3 3 1 1 0 compensationRaceIPs s (by decide) (by decide) hs 1000000000 100
  rw [h5] at this
  exact absurd this (by decide)

/-- The global bound on `compensationRace`: five calls granted within `100` nanoseconds, within
three, one, and the two compensations. -/
theorem allow_global_window_bound_race :
    ∃ s, LimiterReachable 3 3 1 1 0 compensationRaceIPs s ∧ s.grantedIn 1000000000 100 = 5 ∧
      (s.grantedIn 1000000000 100 : Int) ≤
        3 + refillWithin 100 3 + 1 + s.returnedIn 1000000000 100 := by
  obtain ⟨s, hs, h5⟩ : ∃ s, LimiterReachable 3 3 1 1 0 compensationRaceIPs s ∧
      s.grantedIn 1000000000 100 = 5 :=
    (exists_reachable_of_run compensationRace
      (fun s => decide (s.grantedIn 1000000000 100 = 5)) (by decide)).imp
      fun _ h => ⟨h.1, of_decide_eq_true h.2⟩
  exact ⟨s, hs, h5, allow_global_window_bound (by decide) (by decide) hs 1000000000 100⟩

/-- **The per-bucket bound.** In every reachable state of a limiter with a non-negative
per-identifier capacity and rate, the calls granted by one bucket at times in a window
`[a, a + T]` number at most `Cp + ⌊T·rp·(1 + 2^-50)⌋ + 1`. -/
theorem allow_perIP_window_bound (hpC : 0 ≤ pC) (hpR : 0 ≤ pR)
    (h : LimiterReachable gC gR pC pR now ips s) (addr a T : Nat) :
    (s.grantedByIn a T addr : Int) ≤ pC + refillWithin T pR + 1 := by
  have hsh := shape_of_reachable h
  cases hb : s.limiter.buckets[addr]? with
  | none =>
    rw [grantedByIn_eq_zero hsh.callers (List.getElem?_eq_none_iff.mp hb)]
    have := refillWithin_nonneg hpR T
    omega
  | some tb =>
    obtain ⟨hcap, hrate⟩ := hsh.buckets tb (List.getElem?_mem hb)
    have hw := (perIPWindow_of_reachable hpC hpR h a T addr tb hb).taken_le (hrate ▸ hpR)
    rw [hcap, hrate] at hw
    simpa using hw

/-- The bucket of `x` is made at time `0` and left idle. Forty minutes later two calls for
`x` load it and pause; the sweep, with its cutoff thirty minutes back, finds the bucket idle
and deletes it; two more calls for `x` make a new bucket and are granted by it; the two paused
calls are granted by the old one, refilled. -/
def evictionRace : List LimiterAction :=
  [.globalAllow 0 0, .load 0 0, .loadOrStore 0, .ipAllow 0 1,
    .globalAllow 1 2400000000000, .load 1 2400000000001,
    .globalAllow 2 2400000000002, .load 2 2400000000003,
    .tick 2400000000004, .visit "x", .delete, .rangeEnd,
    .globalAllow 3 2400000000005, .load 3 2400000000006, .loadOrStore 3,
    .ipAllow 3 2400000000007,
    .globalAllow 4 2400000000008, .load 4 2400000000009, .ipAllow 4 2400000000010,
    .ipAllow 1 2400000000011, .ipAllow 2 2400000000012]

/-- Without the qualification by bucket the per-identifier bound fails: with a per-identifier
capacity and rate of two, `evictionRace` has four calls for `x` granted within `100`
nanoseconds, two by each of its buckets. -/
theorem allow_perIP_window_exceeded :
    ¬ ∀ (gC gR pC pR : Int) (now : Nat) (ips : List String) (s : LimiterState),
      0 ≤ pC → 0 ≤ pR → LimiterReachable gC gR pC pR now ips s →
        ∀ (ip : String) (a T : Nat), (s.grantedForIn a T ip : Int) ≤ pC + T * pR / second + 1 := by
  intro h
  obtain ⟨s, hs, h4⟩ : ∃ s, LimiterReachable 100 100 2 2 0 ["x", "x", "x", "x", "x"] s ∧
      s.grantedForIn 2400000000000 100 "x" = 4 :=
    (exists_reachable_of_run evictionRace
      (fun s => decide (s.grantedForIn 2400000000000 100 "x" = 4)) (by decide)).imp
      fun _ h => ⟨h.1, of_decide_eq_true h.2⟩
  have := h 100 100 2 2 0 _ s (by decide) (by decide) hs "x" 2400000000000 100
  rw [h4] at this
  exact absurd this (by decide)

/-- The per-bucket bound on `evictionRace`: each of the two buckets of `x` granted two calls
within `100` nanoseconds, within two and one. -/
theorem allow_perIP_window_bound_race :
    ∃ s, LimiterReachable 100 100 2 2 0 ["x", "x", "x", "x", "x"] s ∧
      s.grantedByIn 2400000000000 100 0 = 2 ∧ s.grantedByIn 2400000000000 100 1 = 2 ∧
      (s.grantedByIn 2400000000000 100 0 : Int) ≤ 2 + refillWithin 100 2 + 1 := by
  obtain ⟨s, hs, h2⟩ : ∃ s, LimiterReachable 100 100 2 2 0 ["x", "x", "x", "x", "x"] s ∧
      (s.grantedByIn 2400000000000 100 0 = 2 ∧ s.grantedByIn 2400000000000 100 1 = 2) :=
    (exists_reachable_of_run evictionRace
      (fun s => decide (s.grantedByIn 2400000000000 100 0 = 2 ∧
        s.grantedByIn 2400000000000 100 1 = 2)) (by decide)).imp
      fun _ h => ⟨h.1, of_decide_eq_true h.2⟩
  exact ⟨s, hs, h2.1, h2.2, allow_perIP_window_bound (by decide) (by decide) hs 0 2400000000000 100⟩

end Reachable

end AdsTxtAnalyzer
