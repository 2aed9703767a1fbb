import AdsTxtAnalyzer.Http.Pipeline
import AdsTxtAnalyzer.RateLimit.Bounds
import AdsTxtAnalyzer.RateLimit.Pace
import AdsTxtAnalyzer.Batch.Cache
import AdsTxtAnalyzer.Batch.Response
import AdsTxtAnalyzer.Batch.Sequential
import AdsTxtAnalyzer.Batch.Progress

/-!
# Runs of the server

`serveRun` serves the requests of a list one after another, each on the state the request
before it left and at the time its environment carries. The server's limiter then follows a
run of the concurrent model of `AdsTxtAnalyzer.RateLimit.System` in which every routed request
is a call of `Allow` that runs alone, and every request the router answers alone is a call that
never starts (`serveRun_simulates`). Each call records what its request was answered
(`Records`), and no call loses its bucket (`LimiterState.Settled`): the server model has no
sweep of `cleanupIPBuckets` between requests.

So the window bounds of `AdsTxtAnalyzer.RateLimit.Bounds` hold of what the clients are told,
for every run from a new limiter at times that never go back:

* **per client** (`serveRun_client_window_bound`): the routed requests of one client IP sent
  within a window `[a, a + T]` and answered with a status other than 429 number at most
  `Cp + ⌊T·rp·(1 + 2^-50)⌋ + 1`;
* **over all clients** (`serveRun_window_bound`): those of all clients number at most
  `Cg + ⌊T·rg·(1 + 2^-50)⌋ + 1`, plus the routed requests of the window answered 429, each of
  which may have given its global token back.

The factor `1 + 2^-50` is the float64 refill's overestimate (`tokensToAdd_mul_le`).

A request the router answers alone (a redirect, 404 or 405) counts in neither: it never
reaches the limiter.

**The limiter refuses nothing but excess** (`serveRun_paced_never_limited`): when the routed
requests of a run keep apart by the time the global bucket takes to refill a token, and those of
one client IP by the time a client's bucket takes (`Spaced`), none of them is answered with the
limiter's 429. The limiter stays paced for the last request and the last of each client
(`TwoTierRateLimiter.Paced`, from `AdsTxtAnalyzer.RateLimit.Pace`) from one request to the next
(`serve_paced`).

The domain cache stays keyed over a run (`serve_keyed`), when each batch leaves the cache as a
run of the goroutines of `AnalyzeDomains` can (`Env.BatchFaithful`). So **the server never
answers with the analysis of another domain** (`serveRun_analysis_domain`): every analysis it
sends for `/api/analyze/{d}`, fresh or from the cache, is an analysis of `d`.

**The batch endpoint answers each domain once** (`serve_batch_of_returned`): when the response
of `AnalyzeDomains` is one a run of its goroutines returns, the server sends it with one result
per requested domain and the status 200, 207 or 400 as all, some or none of them succeeded.

**Within its TTL a fresh analysis is served from the cache** (`serveRun_cached_within_ttl`):
`AnalyzeDomain`, the handler and every run of the batch goroutines store a domain only after a
miss, so an entry lasts until its expiry (`DomainCache.HoldsUntil`, `serve_holdsUntil`), and
every later request for the domain before then is answered from it, marked cached.
**A batch warms the cache** in the same way (`serveRun_batch_warms_cache`) for the domains it
analysed fresh, when its response is one a run of its goroutines returns (`Env.BatchReturns`).

Both hypotheses on batches hold of a server whose batches run their goroutines one after
another (`Env.sequential`, from `AdsTxtAnalyzer.Batch.Sequential`), with any fetcher.
-/

namespace AdsTxtAnalyzer

/-! ### The limiter's side -/

namespace LimiterState

/-- No call has lost its bucket: a call that was granted holds the bucket the map still gives
its identifier. -/
def Settled (S : LimiterState) : Prop :=
  ∀ c ∈ S.callers, ∀ g addr ipAt, c.pc = .granted g addr ipAt →
    S.limiter.ipBuckets c.clientIP = some addr

theorem settled_init (gC gR pC pR : Int) (now : Nat) (ips : List String) :
    (init gC gR pC pR now ips).Settled := by
  intro c hc
  obtain ⟨ip, -, rfl⟩ := List.mem_map.mp hc
  exact fun _ _ _ h => CallerPc.noConfusion h

variable {gC gR pC pR : Int} {now : Nat} {ips : List String} {S : LimiterState}

theorem granted_of_any {pc : CallerPc} {p : Nat × Nat → Bool} (h : pc.grantedBy?.any p = true) :
    ∃ g addr ipAt, pc = .granted g addr ipAt ∧ p (addr, ipAt) = true := by
  cases pc <;> simp only [CallerPc.grantedBy?, Option.any_none, Bool.false_eq_true] at h
  exact ⟨_, _, _, rfl, h⟩

theorem granted_of_result? {pc : CallerPc} (h : pc.result? = some true) :
    ∃ g addr ipAt, pc = .granted g addr ipAt := by
  cases pc
  case granted g addr ipAt => exact ⟨g, addr, ipAt, rfl⟩
  all_goals simp [CallerPc.result?] at h

theorem compensated_of_any {pc : CallerPc} {p : Nat → Bool} (h : pc.returnedAt?.any p = true) :
    ∃ g t, pc = .compensated g (some t) ∧ p t = true := by
  cases pc <;> simp only [CallerPc.returnedAt?, Option.any_none, Bool.false_eq_true] at h
  next g r =>
    cases r <;> simp only [Option.any_none, Option.any_some, Bool.false_eq_true] at h
    exact ⟨_, _, rfl, h⟩

/-- **Without evictions the per-bucket bound is per identifier.** In a reachable state where
no call lost its bucket, the calls for one identifier granted within a window `[a, a + T]`
number at most `Cp + ⌊T·rp·(1 + 2^-50)⌋ + 1`. -/
theorem grantedForIn_le_of_settled (hpC : 0 ≤ pC) (hpR : 0 ≤ pR)
    (h : LimiterReachable gC gR pC pR now ips S) (hs : S.Settled) (ip : String) (a T : Nat) :
    (S.grantedForIn a T ip : Int) ≤ pC + refillWithin T pR + 1 := by
  have hsh := shape_of_reachable h
  cases hk : S.limiter.ipBuckets ip with
  | none =>
    have h0 : S.grantedForIn a T ip = 0 := List.countP_eq_zero.mpr fun c hc hp => by
      obtain ⟨hip, hg⟩ := Bool.and_eq_true_iff.mp hp
      obtain ⟨g, addr, ipAt, hpc, -⟩ := granted_of_any hg
      rw [← beq_iff_eq.mp hip, hs c hc g addr ipAt hpc] at hk
      cases hk
    have := refillWithin_nonneg hpR T
    omega
  | some addr =>
    have hle : S.grantedForIn a T ip ≤ S.grantedByIn a T addr := List.countP_mono_left fun c hc hp => by
      obtain ⟨hip, hg⟩ := Bool.and_eq_true_iff.mp hp
      obtain ⟨g, addr', ipAt, hpc, hw⟩ := granted_of_any hg
      have ha : addr' = addr := by
        rw [← beq_iff_eq.mp hip, hs c hc g addr' ipAt hpc] at hk
        exact Option.some.inj hk
      simp [CallerPc.grantedByIn, hpc, CallerPc.grantedBy?, ha, hw]
    obtain ⟨tb, hb⟩ : ∃ tb, S.limiter.buckets[addr]? = some tb :=
      ⟨_, List.getElem?_eq_getElem (S.limiter.ipBuckets_lt ip addr hk)⟩
    obtain ⟨hcap, hrate⟩ := hsh.buckets tb (List.getElem?_mem hb)
    have hw := (perIPWindow_of_reachable hpC hpR h a T addr tb hb).taken_le (hrate ▸ hpR)
    rw [hcap, hrate] at hw
    have : (S.grantedByIn a T addr : Int) ≤ pC + refillWithin T pR + 1 := by simpa using hw
    omega

end LimiterState

namespace Http

/-! ### Runs -/

/-- The requests `rs`, served one after another from the state `st`: the writers sent, in
order, and the state at the end. -/
def serveRun : List (Env × Request) → ServerState → List Writer × ServerState
  | [], st => ([], st)
  | (env, r) :: rs, st =>
    let p := serveRun rs (serve env r st).state
    ((serve env r st).writer :: p.1, p.2)

/-- The request of `x`, answered with the writer of `x`, was routed, sent at a time in
`[a, a + T]`, and answered with a status other than 429: it got past the limiter. -/
def servedIn (a T : Nat) (x : (Env × Request) × Writer) : Bool :=
  (routedEndpoint x.1.2).isSome && inWindow a T x.1.1.now && x.2.status != 429

/-- The request of `x` was routed, sent at a time in `[a, a + T]`, and answered 429. -/
def rejectedIn (a T : Nat) (x : (Env × Request) × Writer) : Bool :=
  (routedEndpoint x.1.2).isSome && inWindow a T x.1.1.now && x.2.status == 429

/-- Counting along a relation: a list counts no more elements than a list related to it
element by element, when the relation carries the first test to the second. -/
theorem countP_le_of_forall₂ {α β : Type} {R : α → β → Prop} {p : α → Bool} {q : β → Bool}
    {l₁ : List α} {l₂ : List β} (h : List.Forall₂ R l₁ l₂)
    (hpq : ∀ x y, R x y → p x = true → q y = true) : l₁.countP p ≤ l₂.countP q := by
  induction h with
  | nil => exact le_rfl
  | @cons x y _ _ hxy _ ih =>
    rw [List.countP_cons, List.countP_cons]
    by_cases hp : p x = true
    · rw [if_pos hp, if_pos (hpq x y hxy hp)]
      omega
    · rw [if_neg hp]
      split <;> omega

private theorem chain_le_of_le {a b : Nat} {l : List Nat} (hab : a ≤ b)
    (h : List.Chain (· ≤ ·) b l) : List.Chain (· ≤ ·) a l := by
  cases h with
  | nil => exact .nil
  | cons hbc h => exact .cons (le_trans hab hbc) h

/-- What each request of a run is answered, from a property of the state that every request
keeps. -/
theorem forall_zip_serveRun {I : ServerState → Prop} {Q : (Env × Request) × Writer → Prop} :
    ∀ (rs : List (Env × Request)) (st : ServerState), I st →
      (∀ x ∈ rs, ∀ st, I st → I (serve x.1 x.2 st).state ∧ Q (x, (serve x.1 x.2 st).writer)) →
      ∀ x ∈ rs.zip (serveRun rs st).1, Q x
  | [], _, _, _ => by simp [serveRun]
  | (env, r) :: rs, st, hI, h => by
    intro x hx
    simp only [serveRun, List.zip_cons_cons, List.mem_cons] at hx
    rcases hx with rfl | hx
    · exact (h _ (.head _) st hI).2
    · exact forall_zip_serveRun rs _ (h _ (.head _) st hI).1 (fun y hy => h y (.tail _ hy)) x hx

/-! ### One request as a call of the limiter -/

section Step

variable {env : Env} {r : Request} {st : ServerState} {e : Endpoint}

/-- A routed request denied by the limiter is answered 429. -/
theorem serve_status_of_denied (he : routedEndpoint r = some e)
    (hd : (st.limiter.allow (getClientIP r) env.now).1 = false) :
    (serve env r st).writer.status = 429 := by
  rw [serve_of_denied he hd]
  exact writeRateLimited_status rfl _

theorem serve_limiter_of_routed (he : routedEndpoint r = some e) :
    (serve env r st).state.limiter = (st.limiter.allow (getClientIP r) env.now).2 := by
  rw [serve_of_routed he]
  exact chain_limiter (wellBehaved_route e) (r := { r with vars := e.vars })
    (method_ne_options_of_routed he)

/-- What the limiter's call `c` records of the request of `x`: it is for the request's client
IP; if the request got past the limiter, the call was granted with both its steps at the
request's time; and a compensation it made ran at that time, for a routed request answered
429. -/
structure Records (x : (Env × Request) × Writer) (c : Caller) : Prop where
  clientIP : c.clientIP = getClientIP x.1.2
  granted : (routedEndpoint x.1.2).isSome → x.2.status ≠ 429 →
    ∃ addr, c.pc = .granted x.1.1.now addr x.1.1.now
  compensated : ∀ g t, c.pc = .compensated g (some t) →
    t = x.1.1.now ∧ (routedEndpoint x.1.2).isSome ∧ x.2.status = 429

/-- **One request is one call of the limiter.** With the server's limiter in a state `S` of the
concurrent model whose call for the request has not started, serving the request takes `S`,
by steps of that call alone, to a state with the server's new limiter. The call then records
the request, and no call has lost its bucket. -/
theorem serve_simulates {S : LimiterState} {pre rest : List Caller} (hl : S.limiter = st.limiter)
    (hc : S.callers = pre ++ ⟨getClientIP r, .start⟩ :: rest) (ht : S.now ≤ env.now)
    (hs : S.Settled) :
    ∃ S' c, Relation.ReflTransGen LimiterStep S S' ∧
      S'.limiter = (serve env r st).state.limiter ∧ S'.callers = pre ++ c :: rest ∧
      S'.now ≤ env.now ∧ S'.Settled ∧ Records ((env, r), (serve env r st).writer) c := by
  cases he : routedEndpoint r with
  | none =>
    refine ⟨S, ⟨getClientIP r, .start⟩, .refl, by rw [hl, (serve_of_not_routed he).1], hc, ht,
      hs, rfl, fun h => by simp [he] at h, fun _ _ h => CallerPc.noConfusion h⟩
  | some e =>
    have hi : S.callers[pre.length]? = some ⟨getClientIP r, .start⟩ := by
      rw [hc, List.getElem?_append_right le_rfl, Nat.sub_self]
      simp
    obtain ⟨pc, hres, hgr, hcomp, hsteps⟩ := allow_steps hi ht
    rw [hl] at hres
    refine ⟨_, ⟨getClientIP r, pc⟩, hsteps, by rw [serve_limiter_of_routed he, hl], by simp [hc],
      le_rfl, ?_, rfl, fun _ hs₀ => ?_, fun g t h => ?_⟩
    · intro c hc' g addr ipAt hpc
      rcases List.mem_or_eq_of_mem_set hc' with hc' | rfl
      · exact TwoTierRateLimiter.allow_ipBuckets_of_some (hs c hc' g addr ipAt hpc) _ _
      · exact (hgr g addr ipAt hpc).2.2
    · have ha : (st.limiter.allow (getClientIP r) env.now).1 = true := by
        cases hd : (st.limiter.allow (getClientIP r) env.now).1
        · exact absurd (serve_status_of_denied he hd) hs₀
        · rfl
      rw [ha] at hres
      obtain ⟨g, addr, ipAt, rfl⟩ := LimiterState.granted_of_result? hres
      obtain ⟨rfl, rfl, -⟩ := hgr g addr ipAt rfl
      exact ⟨addr, rfl⟩
    · subst h
      have hd : (st.limiter.allow (getClientIP r) env.now).1 = false := (Option.some.inj hres).symm
      exact ⟨hcomp g t rfl, by simp [he], serve_status_of_denied he hd⟩

end Step

/-! ### A run as a run of the limiter -/

section Run

variable {gC gR pC pR : Int} {t0 : Nat} {ips : List String}

/-- **A run of the server is a run of the limiter.** From a reachable state `S` of the
concurrent model with the server's limiter, whose calls after `pre` are those of the requests
`rs`, not started, the requests served in turn at times that never go back lead to a reachable
state whose calls after `pre` record them, one call for each, with no call having lost its
bucket. -/
theorem serveRun_simulates :
    ∀ (rs : List (Env × Request)) (st : ServerState) (S : LimiterState) (pre : List Caller),
      LimiterReachable gC gR pC pR t0 ips S → S.limiter = st.limiter →
      S.callers = pre ++ rs.map (fun x => ⟨getClientIP x.2, .start⟩) → S.Settled →
      List.Chain (· ≤ ·) S.now (rs.map (·.1.now)) →
      ∃ S' cs, LimiterReachable gC gR pC pR t0 ips S' ∧ S'.callers = pre ++ cs ∧ S'.Settled ∧
        List.Forall₂ Records (rs.zip (serveRun rs st).1) cs
  | [], _, S, pre, hS, _, hc, hs, _ => ⟨S, [], hS, by simpa using hc, hs, .nil⟩
  | (env, r) :: rs, st, S, pre, hS, hl, hc, hs, ht => by
    rw [List.map_cons, List.chain_cons] at ht
    obtain ⟨S₁, c, h₁, hl₁, hc₁, hnow₁, hs₁, hrec⟩ :=
      @serve_simulates env r st S pre _ hl (by simpa using hc) ht.1 hs
    obtain ⟨S', cs, hS', hc', hs', hf⟩ := serveRun_simulates rs (serve env r st).state S₁
      (pre ++ [c]) (hS.trans h₁) hl₁ (by simp [hc₁]) hs₁ (chain_le_of_le hnow₁ ht.2)
    exact ⟨S', c :: cs, hS', by simpa using hc', hs', .cons hrec hf⟩

/-- The run from a new limiter, as a run of the limiter with one call for each request. -/
theorem serveRun_limiterRun {st : ServerState} (hst : st.limiter = TwoTierRateLimiter.new gC gR pC pR t0)
    {rs : List (Env × Request)} (ht : List.Chain (· ≤ ·) t0 (rs.map (·.1.now))) :
    ∃ S, LimiterReachable gC gR pC pR t0 (rs.map (getClientIP ·.2)) S ∧ S.Settled ∧
      List.Forall₂ Records (rs.zip (serveRun rs st).1) S.callers := by
  obtain ⟨S, cs, hS, hc, hs, hf⟩ := serveRun_simulates rs st
    (LimiterState.init gC gR pC pR t0 (rs.map (getClientIP ·.2))) [] .refl hst.symm
    (by simp [LimiterState.init]) (LimiterState.settled_init _ _ _ _ _ _) ht
  exact ⟨S, hS, hs, by simpa [hc] using hf⟩

/-- Two requests of `10.0.0.1` at time `0`, an analysis of `example.com` and a health check. -/
def demoRun : List (Env × Request) :=
  [(demoEnv, demoRequest "GET" "/api/analyze/example.com"), (demoEnv, demoRequest "GET" "/health")]

/-- **The server answers one client at most `Cp + ⌊T·rp·(1 + 2^-50)⌋ + 1` times in a window.**
In every run from a new limiter with a non-negative per-client capacity and rate, at times that
never go back, the routed requests of one client IP sent within a window `[a, a + T]` and
answered with a status other than 429 number at most `Cp + ⌊T·rp·(1 + 2^-50)⌋ + 1`. -/
theorem serveRun_client_window_bound (hpC : 0 ≤ pC) (hpR : 0 ≤ pR) {st : ServerState}
    (hst : st.limiter = TwoTierRateLimiter.new gC gR pC pR t0) {rs : List (Env × Request)}
    (ht : List.Chain (· ≤ ·) t0 (rs.map (·.1.now))) (ip : String) (a T : Nat) :
    (((rs.zip (serveRun rs st).1).countP fun x => getClientIP x.1.2 == ip && servedIn a T x : Nat) :
      Int) ≤ pC + refillWithin T pR + 1 := by
  obtain ⟨S, hS, hs, hf⟩ := serveRun_limiterRun hst ht
  refine le_trans (Int.ofNat_le.mpr (countP_le_of_forall₂ hf fun x c hxc hx => ?_))
    (LimiterState.grantedForIn_le_of_settled hpC hpR hS hs ip a T)
  obtain ⟨hip, hx⟩ := Bool.and_eq_true_iff.mp hx
  simp only [servedIn, Bool.and_eq_true, bne_iff_ne, ne_eq] at hx
  obtain ⟨addr, hpc⟩ := hxc.granted hx.1.1 hx.2
  simp [hxc.clientIP, hip, hpc, CallerPc.grantedBy?, hx.1.2]

theorem serveRun_client_window_bound_demo :
    (0 : Int) ≤ 5 ∧ (0 : Int) ≤ 1 ∧ demoState.limiter = TwoTierRateLimiter.new 100 10 5 1 0 ∧
      List.Chain (· ≤ ·) 0 (demoRun.map (·.1.now)) ∧
      (((demoRun.zip (serveRun demoRun demoState).1).countP fun x =>
          getClientIP x.1.2 == "10.0.0.1" && servedIn 0 1000000000 x : Nat) : Int) ≤
        5 + refillWithin 1000000000 1 + 1 :=
  have ht : List.Chain (· ≤ ·) 0 (demoRun.map (·.1.now)) := .cons le_rfl (.cons le_rfl .nil)
  ⟨by decide, by decide, rfl, ht,
    serveRun_client_window_bound (by decide) (by decide) rfl ht "10.0.0.1" 0 1000000000⟩

/-- **The server answers at most `Cg + ⌊T·rg·(1 + 2^-50)⌋ + 1` requests in a window, and one
more for each 429.** In every run from a new limiter with a non-negative global capacity and
rate, at times that never go back, the routed requests sent within a window `[a, a + T]` and
answered with a status other than 429 number at most `Cg + ⌊T·rg·(1 + 2^-50)⌋ + 1` plus the
routed requests of the window answered 429. -/
theorem serveRun_window_bound (hC : 0 ≤ gC) (hR : 0 ≤ gR) {st : ServerState}
    (hst : st.limiter = TwoTierRateLimiter.new gC gR pC pR t0) {rs : List (Env × Request)}
    (ht : List.Chain (· ≤ ·) t0 (rs.map (·.1.now))) (a T : Nat) :
    (((rs.zip (serveRun rs st).1).countP (servedIn a T) : Nat) : Int) ≤
      gC + refillWithin T gR + 1 + ((rs.zip (serveRun rs st).1).countP (rejectedIn a T) : Nat) := by
  obtain ⟨S, hS, -, hf⟩ := serveRun_limiterRun hst ht
  have hsh := shape_of_reachable hS
  have hw := (globalWindow_of_reachable hC hR hS a T).taken_le (hsh.global_rate ▸ hR)
  rw [hsh.global_capacity, hsh.global_rate] at hw
  have hgranted : (rs.zip (serveRun rs st).1).countP (servedIn a T) ≤ S.tookGlobalIn a T :=
    countP_le_of_forall₂ hf fun x c hxc hx => by
      simp only [servedIn, Bool.and_eq_true, bne_iff_ne, ne_eq] at hx
      obtain ⟨addr, hpc⟩ := hxc.granted hx.1.1 hx.2
      simp [hpc, CallerPc.tookGlobalIn, CallerPc.globalAt?, hx.1.2]
  have hreturned : S.returnedIn a T ≤ (rs.zip (serveRun rs st).1).countP (rejectedIn a T) :=
    countP_le_of_forall₂ (List.Forall₂.flip (by simpa [flip] using hf)) fun c x hxc hc => by
      obtain ⟨g, t, hpc, hw⟩ := LimiterState.compensated_of_any (p := inWindow a T) hc
      obtain ⟨rfl, hrt, h429⟩ := hxc.compensated g t hpc
      simp [rejectedIn, hrt, h429, hw]
  omega

theorem serveRun_window_bound_demo :
    (0 : Int) ≤ 100 ∧ (0 : Int) ≤ 10 ∧ demoState.limiter = TwoTierRateLimiter.new 100 10 5 1 0 ∧
      List.Chain (· ≤ ·) 0 (demoRun.map (·.1.now)) ∧
      (((demoRun.zip (serveRun demoRun demoState).1).countP (servedIn 0 1000000000) : Nat) : Int) ≤
        100 + refillWithin 1000000000 10 + 1 +
          ((demoRun.zip (serveRun demoRun demoState).1).countP (rejectedIn 0 1000000000) : Nat) :=
  have ht : List.Chain (· ≤ ·) 0 (demoRun.map (·.1.now)) := .cons le_rfl (.cons le_rfl .nil)
  ⟨by decide, by decide, rfl, ht, serveRun_window_bound (by decide) (by decide) rfl ht 0 1000000000⟩

end Run

/-! ### Paced clients over a run -/

/-- The request `y` comes after the request `x`, when both are routed, by at least the time the
global bucket takes to refill a token at the rate `gR`, and, when both are from one client IP,
by the time a client's bucket takes at the rate `pR`. -/
def Spaced (gR pR : Int) (x y : Env × Request) : Prop :=
  (routedEndpoint x.2).isSome = true → (routedEndpoint y.2).isSome = true →
    second ≤ ((y.1.now - x.1.now : Nat) : Int) * gR ∧
      (getClientIP x.2 = getClientIP y.2 → second ≤ ((y.1.now - x.1.now : Nat) : Int) * pR)

instance instDecidableRelSpaced (gR pR : Int) : DecidableRel (Spaced gR pR) := fun _ _ => by
  unfold Spaced
  infer_instance

theorem payloadOf_ne_text {α : Type} {f : α → Payload} {s : String} (hf : ∀ a, f a ≠ .text s) :
    ∀ x, payloadOf f x ≠ .text s
  | .error _ => nofun
  | .ok a => hf a

/-- No endpoint answers with the body of the limiter's 429. -/
theorem Endpoint.reply_ne_rateLimited {env : Env} {r : Request} {st : ServerState} {code : Nat}
    {data : Payload} :
    ∀ {e : Endpoint}, e.reply env r st = .returns (code, data) → data ≠ .text rateLimitedBody
  | .health, h => by cases Call.returns.inj h; nofun
  | .root, h => by cases Call.returns.inj h; decide
  | .analyze _, h => by
    cases Call.returns.inj h
    apply payloadOf_ne_text
    exact fun _ => nofun
  | .batch, h => by
    obtain ⟨_, -, hrp⟩ := Call.map_eq_returns.mp h
    cases hrp
    apply payloadOf_ne_text
    exact fun _ => nofun

/-- An admitted request is never sent the body of the limiter's 429: its endpoint's reply, the
500 of a panic, or nothing. -/
theorem serve_body_ne_rateLimited {env : Env} {r : Request} {st : ServerState} {e : Endpoint}
    (he : routedEndpoint r = some e) (ha : (st.limiter.allow (getClientIP r) env.now).1 = true) :
    Payload.text rateLimitedBody ∉ (serve env r st).writer.body := by
  rcases serve_body_of_admitted he ha with ⟨code, data, hr, hb⟩ | hb | hb <;> rw [hb]
  · exact fun h => Endpoint.reply_ne_rateLimited hr (List.mem_singleton.mp h).symm
  · simp [internalErrorBody, rateLimitedBody]
  · exact List.not_mem_nil _

section Pace

variable {gC gR pC pR : Int} {t0 H : Nat}

/-- **A paced request is admitted.** A routed request, at a time within `H` of the limiter's
creation and late enough after the last routed request and the last of its client IP, gets its
endpoint's reply, not the limiter's 429, and leaves the limiter paced for it. -/
theorem serve_paced {env : Env} {r : Request} {st : ServerState} {e : Endpoint}
    {lastG : Option Nat} {lastIP : String → Option Nat} (he : routedEndpoint r = some e)
    (h : st.limiter.Paced gC gR pC pR t0 lastG lastIP) (hgC : 1 ≤ gC) (hpC : 1 ≤ pC)
    (hgR : 0 ≤ gR) (hpR : 0 ≤ pR)
    (hgH : (H : Int) * gR * (refillScale + 1) ≤ (maxInt64 - gC) * (second * refillScale))
    (hpH : (H : Int) * pR * (refillScale + 1) ≤ (maxInt64 - pC) * (second * refillScale))
    (ht : t0 ≤ env.now ∧ env.now ≤ t0 + H)
    (hg : ∀ tg, lastG = some tg → second ≤ ((env.now - tg : Nat) : Int) * gR)
    (hp : ∀ tp, lastIP (getClientIP r) = some tp → second ≤ ((env.now - tp : Nat) : Int) * pR) :
    Payload.text rateLimitedBody ∉ (serve env r st).writer.body ∧
      (serve env r st).state.limiter.Paced gC gR pC pR t0 (some env.now)
        (fun ip => if ip = getClientIP r then some env.now else lastIP ip) := by
  have hH : ((env.now - t0 : Nat) : Int) ≤ H := by omega
  obtain ⟨ha, hpaced⟩ := h.allow hgC hpC hgR hpR ht.1
    (Int.le_trans (Int.mul_le_mul_of_nonneg_right (Int.mul_le_mul_of_nonneg_right hH hgR)
      (by decide)) hgH)
    (Int.le_trans (Int.mul_le_mul_of_nonneg_right (Int.mul_le_mul_of_nonneg_right hH hpR)
      (by decide)) hpH) hg hp
  rw [serve_limiter_of_routed he]
  exact ⟨serve_body_ne_rateLimited he ha, hpaced⟩

/-- Over a run from a limiter paced for the last routed request `lastG` and the last request
`lastIP` of each client IP, no routed request is answered with the limiter's 429 when each
routed request comes late enough after those and after every routed request of the run before
it. -/
theorem serveRun_paced (hgC : 1 ≤ gC) (hpC : 1 ≤ pC) (hgR : 0 ≤ gR) (hpR : 0 ≤ pR)
    (hgH : (H : Int) * gR * (refillScale + 1) ≤ (maxInt64 - gC) * (second * refillScale))
    (hpH : (H : Int) * pR * (refillScale + 1) ≤ (maxInt64 - pC) * (second * refillScale)) :
    ∀ (rs : List (Env × Request)) (st : ServerState) (lastG : Option Nat)
      (lastIP : String → Option Nat), st.limiter.Paced gC gR pC pR t0 lastG lastIP →
      (∀ x ∈ rs, t0 ≤ x.1.now ∧ x.1.now ≤ t0 + H) →
      (∀ x ∈ rs, (routedEndpoint x.2).isSome = true →
        (∀ tg, lastG = some tg → second ≤ ((x.1.now - tg : Nat) : Int) * gR) ∧
          ∀ tp, lastIP (getClientIP x.2) = some tp → second ≤ ((x.1.now - tp : Nat) : Int) * pR) →
      rs.Pairwise (Spaced gR pR) →
      ∀ x ∈ rs.zip (serveRun rs st).1, (routedEndpoint x.1.2).isSome = true →
        Payload.text rateLimitedBody ∉ x.2.body
  | [], _, _, _, _, _, _, _ => by simp [serveRun]
  | (env, r) :: rs, st, lastG, lastIP, h, ht, hl, hs => by
    rw [List.pairwise_cons] at hs
    intro x hx
    simp only [serveRun, List.zip_cons_cons, List.mem_cons] at hx
    cases he : routedEndpoint r with
    | none =>
      rw [(serve_of_not_routed he).1] at hx
      rcases hx with rfl | hx
      · simp [he]
      · exact serveRun_paced hgC hpC hgR hpR hgH hpH rs st lastG lastIP h
          (fun y hy => ht y (.tail _ hy)) (fun y hy => hl y (.tail _ hy)) hs.2 x hx
    | some e =>
      have hr : (routedEndpoint r).isSome = true := by rw [he]; rfl
      obtain ⟨hg, hp⟩ := hl _ (.head _) hr
      obtain ⟨hb, hpaced⟩ := serve_paced he h hgC hpC hgR hpR hgH hpH (ht _ (.head _)) hg hp
      rcases hx with rfl | hx
      · exact fun _ => hb
      · refine serveRun_paced hgC hpC hgR hpR hgH hpH rs _ _ _ hpaced
          (fun y hy => ht y (.tail _ hy)) (fun y hy hy' => ?_) hs.2 x hx
        obtain ⟨hsg, hsp⟩ := hs.1 y hy hr hy'
        refine ⟨fun tg htg => by cases htg; exact hsg, fun tp htp => ?_⟩
        by_cases hi : getClientIP y.2 = getClientIP r
        · rw [if_pos hi] at htp
          cases htp
          exact hsp hi.symm
        · rw [if_neg hi] at htp
          exact (hl y (.tail _ hy) hy').2 tp htp

/-- **Clients that keep to the refill rates are never rate limited.** In every run from a new
limiter with capacities of at least one token and non-negative rates, within a span `H` of its
creation short enough for no refill to overflow, float64 rounding included, no routed request is answered with the
limiter's 429 when each routed request comes after every routed request before it by at least
the time the global bucket takes to refill a token, and after those of its client IP by the
time a client's bucket takes. -/
theorem serveRun_paced_never_limited (hgC : 1 ≤ gC) (hpC : 1 ≤ pC) (hgR : 0 ≤ gR) (hpR : 0 ≤ pR)
    (hgH : (H : Int) * gR * (refillScale + 1) ≤ (maxInt64 - gC) * (second * refillScale))
    (hpH : (H : Int) * pR * (refillScale + 1) ≤ (maxInt64 - pC) * (second * refillScale))
    {st : ServerState}
    (hst : st.limiter = TwoTierRateLimiter.new gC gR pC pR t0) {rs : List (Env × Request)}
    (ht : ∀ x ∈ rs, t0 ≤ x.1.now ∧ x.1.now ≤ t0 + H) (hs : rs.Pairwise (Spaced gR pR)) :
    ∀ x ∈ rs.zip (serveRun rs st).1, (routedEndpoint x.1.2).isSome = true →
      Payload.text rateLimitedBody ∉ x.2.body :=
  serveRun_paced hgC hpC hgR hpR hgH hpH rs st none (fun _ => none)
    (hst ▸ TwoTierRateLimiter.paced_new hgC gR pC pR t0) ht
    (fun _ _ _ => ⟨fun _ h => (nomatch h), fun _ h => (nomatch h)⟩) hs

/-- Two requests of `10.0.0.1`, an analysis of `example.com` at time `0` and a health check a
second later. -/
def pacedRun : List (Env × Request) :=
  [(demoEnv, demoRequest "GET" "/api/analyze/example.com"),
    ({ demoEnv with now := 1000000000 }, demoRequest "GET" "/health")]

theorem serveRun_paced_never_limited_oneASecond :
    (1 : Int) ≤ 100 ∧ (1 : Int) ≤ 5 ∧ (0 : Int) ≤ 10 ∧ (0 : Int) ≤ 1 ∧
      ((1000000000 : Nat) : Int) * 10 * (refillScale + 1) ≤ (maxInt64 - 100) * (second * refillScale) ∧
      ((1000000000 : Nat) : Int) * 1 * (refillScale + 1) ≤ (maxInt64 - 5) * (second * refillScale) ∧
      demoState.limiter = TwoTierRateLimiter.new 100 10 5 1 0 ∧
      (∀ x ∈ pacedRun, 0 ≤ x.1.now ∧ x.1.now ≤ 0 + 1000000000) ∧ pacedRun.Pairwise (Spaced 10 1) ∧
      ∀ x ∈ pacedRun.zip (serveRun pacedRun demoState).1, (routedEndpoint x.1.2).isSome = true →
        Payload.text rateLimitedBody ∉ x.2.body :=
  have hgH : ((1000000000 : Nat) : Int) * 10 * (refillScale + 1) ≤
      (maxInt64 - 100) * (second * refillScale) := by decide
  have hpH : ((1000000000 : Nat) : Int) * 1 * (refillScale + 1) ≤
      (maxInt64 - 5) * (second * refillScale) := by decide
  have ht : ∀ x ∈ pacedRun, 0 ≤ x.1.now ∧ x.1.now ≤ 0 + 1000000000 := by decide
  have hs : pacedRun.Pairwise (Spaced 10 1) := by decide
  ⟨by decide, by decide, by decide, by decide, hgH, hpH, rfl, ht, hs,
    serveRun_paced_never_limited (by decide) (by decide) (by decide) (by decide) hgH hpH rfl ht hs⟩

end Pace

/-! ### The domain cache over a run -/

/-- The domain caches `AnalyzeDomains` leaves in the environment `env` are ones a run of its
goroutines (`AdsTxtAnalyzer.Batch.System`) can leave from the cache it starts on, with
`maxConcurrent` and the program's parser. -/
def Env.BatchFaithful (env : Env) (maxConcurrent : Int) : Prop :=
  ∀ cache domains, ∃ s, BatchReachable ⟨domains, maxConcurrent, parse⟩ cache env.now s ∧
    (env.analyzeDomains cache domains).2.1 = s.cache

/-- The batch of `demoEnv` leaves the cache as it was, as a call that has not started does. -/
theorem demoEnv_batchFaithful : demoEnv.BatchFaithful 1 := fun cache domains =>
  ⟨BatchState.init ⟨domains, 1, parse⟩ cache demoEnv.now, .refl, by
    unfold BatchState.init
    split <;> rfl⟩

theorem Handler.keyed_analyzeSingleDomain {dc : DomainCache} (h : dc.Keyed) (now : Nat)
    (domain : String) (fetched : Except String String)
    (parse : String → Except String (List AdsTxtEntry)) :
    (Handler.analyzeSingleDomain dc now domain fetched parse).2.Keyed ∧
      ∀ a, (Handler.analyzeSingleDomain dc now domain fetched parse).1.body = .ok a →
        a.domain = domain := by
  have hk := @keyed_analyzeDomain dc now domain fetched parse h
  unfold Handler.analyzeSingleDomain
  split_ifs
  · exact ⟨h, fun a ha => by simp [Handler.writeErrorResponse] at ha⟩
  · revert hk
    rcases analyzeDomain dc now domain fetched parse with ⟨_ | b, dc'⟩
    · exact fun hk => ⟨hk.1, fun a ha => by simp [Handler.writeErrorResponse] at ha⟩
    · intro hk
      dsimp only
      refine ⟨hk.1, fun a ha => ?_⟩
      rw [← Except.ok.inj ha]
      exact hk.2 b rfl

section Cache

variable {env : Env} {r : Request} {st : ServerState} {w : Writer}

theorem analyzeBatchDomains_cache :
    (analyzeBatchDomains env r st w).state.cache = st.cache ∨
      ∃ domains, (analyzeBatchDomains env r st w).state.cache =
        (env.analyzeDomains st.cache domains).2.1 := by
  simp only [analyzeBatchDomains]
  rcases env.decode r.body with err | domains
  · exact .inl rfl
  · dsimp only
    split_ifs
    · exact .inl rfl
    · exact .inl rfl
    · exact .inr ⟨domains, by split <;> simp [logInfo, logError, logSuccess]⟩

/-- The domain cache an admitted request for `/api/analyze/{d}` leaves: the one of the handler
model for `d`. -/
theorem serve_cache_of_analyze {d : String} (he : routedEndpoint r = some (.analyze d))
    (ha : (st.limiter.allow (getClientIP r) env.now).1 = true) :
    (serve env r st).state.cache = (Handler.analyzeSingleDomain st.cache env.now d (env.fetched d) parse).2 := by
  rw [serve_cache_of_allowed he ha]
  dsimp only [admitted, Endpoint.route, analyzeRoute]
  rw [(analyzeSingleDomain_refines _ _ _ _).2, Request.var_eq rfl]
  rfl

/-- A property of the domain cache that `AnalyzeSingleDomain` and every batch keep, one request
keeps. -/
theorem serve_cache_of {P : DomainCache → Prop} (hP : P st.cache)
    (hsingle : ∀ d, P (Handler.analyzeSingleDomain st.cache env.now d (env.fetched d) parse).2)
    (hbatch : ∀ ds, P (env.analyzeDomains st.cache ds).2.1) : P (serve env r st).state.cache := by
  cases he : routedEndpoint r with
  | none => rwa [(serve_of_not_routed he).1]
  | some e =>
    cases ha : (st.limiter.allow (getClientIP r) env.now).1
    · rw [serve_of_denied he ha]
      exact hP
    · cases e with
      | health | root => rwa [serve_cache_of_allowed he ha]
      | analyze d => rw [serve_cache_of_analyze he ha]; exact hsingle d
      | batch =>
        rw [serve_cache_of_allowed he ha]
        dsimp only [admitted, Endpoint.route, batchRoute]
        rcases analyzeBatchDomains_cache with h | ⟨ds, h⟩ <;> rw [h]
        · exact hP
        · exact hbatch ds

/-- **One request keeps the domain cache keyed**, when its batch leaves the cache as a run of
the goroutines of `AnalyzeDomains` can. -/
theorem serve_keyed {maxConcurrent : Int} (hk : st.cache.Keyed)
    (hb : env.BatchFaithful maxConcurrent) : (serve env r st).state.cache.Keyed :=
  serve_cache_of hk (fun _ => (Handler.keyed_analyzeSingleDomain hk _ _ _ _).1) fun ds =>
    let ⟨_, hs, hc⟩ := hb st.cache ds
    hc ▸ keyed_of_reachable hs hk

/-- An analysis the server sends for `/api/analyze/{d}` from a keyed cache is one of `d`. -/
theorem serve_analysis_domain {d : String} {a : DomainAnalysis} (hk : st.cache.Keyed)
    (he : routedEndpoint r = some (.analyze d)) (ha : Payload.analysis a ∈ (serve env r st).writer.body) :
    a.domain = d := by
  cases hal : (st.limiter.allow (getClientIP r) env.now).1
  · rw [serve_of_denied he hal] at ha
    simp [writeRateLimited, Writer.write, Writer.writeHeader, Writer.set, Writer.empty] at ha
  · rw [(serve_of_reply_returns he hal rfl).2, List.mem_singleton] at ha
    have hd := (Handler.keyed_analyzeSingleDomain hk env.now d (env.fetched d) parse).2
    rcases hb : (Handler.analyzeSingleDomain st.cache env.now d (env.fetched d) parse).1.body
      with err | b <;> rw [hb] at ha
    · simp [payloadOf] at ha
    · simp only [payloadOf, Payload.analysis.injEq] at ha
      rw [ha]
      exact hd b hb

theorem Handler.analyzeSingleDomain_cache {dc : DomainCache} {now : Nat} {domain : String}
    {fetched : Except String String} {parse : String → Except String (List AdsTxtEntry)} :
    (Handler.analyzeSingleDomain dc now domain fetched parse).2 =
      if domain = "" then dc else (analyzeDomain dc now domain fetched parse).2 := by
  unfold Handler.analyzeSingleDomain
  split_ifs
  · rfl
  · rcases analyzeDomain dc now domain fetched parse with ⟨_ | _, _⟩ <;> rfl

/-- **One request keeps an entry of the domain cache until its expiry**, when its batch leaves
the cache as a run of the goroutines of `AnalyzeDomains` can. -/
theorem serve_holdsUntil {maxConcurrent : Int} {d : String} {E : Nat}
    (hh : st.cache.HoldsUntil d E) (hb : env.BatchFaithful maxConcurrent) :
    (serve env r st).state.cache.HoldsUntil d E :=
  serve_cache_of (P := fun dc => dc.HoldsUntil d E) hh
    (fun _ => by
      rw [Handler.analyzeSingleDomain_cache]
      split_ifs
      · exact hh
      · exact holdsUntil_analyzeDomain hh)
    fun ds =>
      let ⟨_, hs, hc⟩ := hb st.cache ds
      hc ▸ holdsUntil_of_reachable hs hh

/-- While the cache holds `d`, a request for `/api/analyze/{d}` is rate limited or answered
with the cached analysis, marked cached. -/
theorem serve_cached_of_holdsUntil {d : String} {E : Nat} (hh : st.cache.HoldsUntil d E)
    (he : routedEndpoint r = some (.analyze d)) (ht : env.now ≤ E) :
    (serve env r st).writer.status = 429 ∨ ∃ a, (serve env r st).writer.status = 200 ∧
      (serve env r st).writer.body = [.analysis a] ∧ a.cached = true := by
  cases hal : (st.limiter.allow (getClientIP r) env.now).1
  · exact .inl (serve_status_of_denied he hal)
  · obtain ⟨b, hb⟩ := hh.get ht
    have hd := domain_ne_empty_of_endpointOf (routedEndpoint_eq_some.mp he).2.1
    have hreply : (Endpoint.analyze d).reply env r st =
        .returns (200, .analysis b.markCached.analysis) := by
      simp only [Endpoint.reply, Handler.analyzeSingleDomain, if_neg hd, analyzeDomain_of_get hb,
        payloadOf]
    obtain ⟨hs, hbody⟩ := serve_of_reply_returns he hal hreply
    exact .inr ⟨_, hs, hbody, rfl⟩

/-- A request for `/api/analyze/{d}` answered with an analysis not marked cached leaves the
domain cache holding `d` until the TTL runs out. -/
theorem serve_holdsUntil_fresh {d : String} {a : DomainAnalysis}
    (he : routedEndpoint r = some (.analyze d)) (httl : 0 < st.cache.ttl)
    (ha : Payload.analysis a ∈ (serve env r st).writer.body) (hc : a.cached = false) :
    (serve env r st).state.cache.HoldsUntil d (env.now + st.cache.ttl.toNat) := by
  cases hal : (st.limiter.allow (getClientIP r) env.now).1
  · rw [serve_of_denied he hal] at ha
    simp [writeRateLimited, Writer.write, Writer.writeHeader, Writer.set, Writer.empty] at ha
  · have hd := domain_ne_empty_of_endpointOf (routedEndpoint_eq_some.mp he).2.1
    rw [(serve_of_reply_returns he hal rfl).2, List.mem_singleton] at ha
    rw [serve_cache_of_analyze he hal, Handler.analyzeSingleDomain_cache, if_neg hd]
    rcases hq : analyzeDomain st.cache env.now d (env.fetched d) parse with ⟨err | b, dc⟩ <;>
      simp only [Endpoint.reply, Handler.analyzeSingleDomain, if_neg hd, hq] at ha
    · simp [Handler.writeErrorResponse, payloadOf] at ha
    · simp only [payloadOf, Payload.analysis.injEq] at ha
      subst ha
      have := holdsUntil_analyzeDomain_fresh httl (by rw [hq]) hc
      rwa [hq] at this

theorem analyzeBatchDomains_of_ok {resp : BatchAnalysisResponse}
    {reply : Handler.Reply BatchAnalysisResponse}
    (h : Handler.analyzeBatchDomains (env.decode r.body)
      (fun domains => (env.analyzeDomains st.cache domains).1) = .returns reply)
    (hb : reply.body = .ok resp) :
    ∃ domains, (env.analyzeDomains st.cache domains).1 = .returns (.ok resp) ∧
      (analyzeBatchDomains env r st w).state.cache = (env.analyzeDomains st.cache domains).2.1 := by
  simp only [Handler.analyzeBatchDomains] at h
  simp only [analyzeBatchDomains]
  rcases hd : env.decode r.body with err | ds <;> rw [hd] at h
  · cases Call.returns.inj h
    cases hb
  · dsimp only at h ⊢
    split_ifs at h ⊢
    · cases Call.returns.inj h
      cases hb
    · cases Call.returns.inj h
      cases hb
    · rcases hcall : env.analyzeDomains st.cache ds with ⟨(_ | response) | v | _, cache, calls⟩ <;>
        simp only [hcall, Call.map, reduceCtorEq] at h
      · cases Call.returns.inj h
        cases hb
      · cases Call.returns.inj h
        refine ⟨ds, by rw [hcall, Except.ok.inj hb], ?_⟩
        simp [hcall, logSuccess, logInfo]

/-- A batch answered with a response leaves the cache of the call of `AnalyzeDomains` that
returned it. -/
theorem serve_batch_cache {resp : BatchAnalysisResponse} (he : routedEndpoint r = some .batch)
    (hbody : Payload.batch resp ∈ (serve env r st).writer.body) :
    ∃ domains, (env.analyzeDomains st.cache domains).1 = .returns (.ok resp) ∧
      (serve env r st).state.cache = (env.analyzeDomains st.cache domains).2.1 := by
  cases hal : (st.limiter.allow (getClientIP r) env.now).1
  · rw [serve_of_denied he hal] at hbody
    simp [writeRateLimited, Writer.write, Writer.writeHeader, Writer.set, Writer.empty] at hbody
  · rcases serve_body_of_admitted he hal with ⟨code, data, hr, hb⟩ | hb | hb <;> rw [hb] at hbody
    · rw [List.mem_singleton] at hbody
      obtain ⟨reply, hbatch, hrp⟩ := Call.map_eq_returns.mp hr
      cases hrp
      rcases hrb : reply.body with err | b <;> rw [hrb] at hbody
      · cases hbody
      · cases hbody
        rw [serve_cache_of_allowed he hal]
        exact @analyzeBatchDomains_of_ok env
          { r with vars := Endpoint.batch.vars, logEvent := some (requestLogEvent env r) }
          { logInfo env (some (requestLogEvent env r)) "http_request_start" "HTTP request received"
              none st with limiter := (st.limiter.allow (getClientIP r) env.now).2 }
          (corsHeaders { Writer.empty with statusCode := 200 }) resp reply hbatch hrb
    · simp at hbody
    · exact absurd hbody (List.not_mem_nil _)

end Cache

/-- **The server never answers with the analysis of another domain.** In every run from a
keyed domain cache, an empty one among them, in which each batch leaves the cache as a run of
the goroutines of `AnalyzeDomains` can, every analysis the server sends for a request routed
to `/api/analyze/{d}` is an analysis of `d`, fresh or from the cache. -/
theorem serveRun_analysis_domain {maxConcurrent : Int} :
    ∀ (rs : List (Env × Request)) (st : ServerState), st.cache.Keyed →
      (∀ x ∈ rs, x.1.BatchFaithful maxConcurrent) →
      ∀ x ∈ rs.zip (serveRun rs st).1, ∀ d a, routedEndpoint x.1.2 = some (.analyze d) →
        Payload.analysis a ∈ x.2.body → a.domain = d := fun rs st hk hb =>
  forall_zip_serveRun (I := fun st' => st'.cache.Keyed) rs st hk fun x hx _ hk' =>
    ⟨serve_keyed hk' (hb x hx), fun _ _ he ha => serve_analysis_domain hk' he ha⟩

theorem serveRun_analysis_domain_demo :
    demoState.cache.Keyed ∧ (∀ x ∈ demoRun, x.1.BatchFaithful 1) ∧
      ∀ x ∈ demoRun.zip (serveRun demoRun demoState).1, ∀ d a,
        routedEndpoint x.1.2 = some (.analyze d) → Payload.analysis a ∈ x.2.body → a.domain = d :=
  have hb : ∀ x ∈ demoRun, x.1.BatchFaithful 1 := by simp [demoRun, demoEnv_batchFaithful]
  ⟨DomainCache.keyed_empty _, hb, serveRun_analysis_domain demoRun demoState (DomainCache.keyed_empty _) hb⟩

/-- While the cache holds `d` until `E`, every request of a run for `/api/analyze/{d}` made by
`E` is rate limited or answered from the cache, when each batch leaves the cache as a run of the
goroutines of `AnalyzeDomains` can. -/
theorem serveRun_cached_of_holdsUntil {maxConcurrent : Int} {d : String} {E : Nat}
    (rs : List (Env × Request)) (st : ServerState) (hh : st.cache.HoldsUntil d E)
    (hb : ∀ x ∈ rs, x.1.BatchFaithful maxConcurrent) :
    ∀ x ∈ rs.zip (serveRun rs st).1, routedEndpoint x.1.2 = some (.analyze d) → x.1.1.now ≤ E →
      x.2.status = 429 ∨ ∃ a, x.2.status = 200 ∧ x.2.body = [.analysis a] ∧ a.cached = true :=
  forall_zip_serveRun (I := fun st' => st'.cache.HoldsUntil d E) rs st hh fun x hx _ hh' =>
    ⟨serve_holdsUntil hh' (hb x hx), serve_cached_of_holdsUntil hh'⟩

/-- **Within its TTL a fresh analysis is served from the cache.** After a request for
`/api/analyze/{d}` is answered with a fresh analysis, from a cache with a positive TTL, every
later request for `/api/analyze/{d}` of the run made before the TTL runs out is rate limited
or answered 200 with an analysis marked cached: the server fetches `d` neither again nor at
all, whatever its batches do in between, when each leaves the cache as a run of the goroutines
of `AnalyzeDomains` can. -/
theorem serveRun_cached_within_ttl {maxConcurrent : Int} {env : Env} {r : Request}
    {st : ServerState} {d : String} {a : DomainAnalysis}
    (he : routedEndpoint r = some (.analyze d)) (httl : 0 < st.cache.ttl)
    (ha : Payload.analysis a ∈ (serve env r st).writer.body) (hc : a.cached = false)
    (rs : List (Env × Request)) (hb : ∀ x ∈ rs, x.1.BatchFaithful maxConcurrent) :
    ∀ x ∈ rs.zip (serveRun rs (serve env r st).state).1,
      routedEndpoint x.1.2 = some (.analyze d) → x.1.1.now ≤ env.now + st.cache.ttl.toNat →
        x.2.status = 429 ∨ ∃ a', x.2.status = 200 ∧ x.2.body = [.analysis a'] ∧ a'.cached = true :=
  serveRun_cached_of_holdsUntil rs _ (serve_holdsUntil_fresh he httl ha hc) hb

/-- `demoEnv` with a fetcher that finds an `ads.txt` of one record. -/
def demoFetchEnv : Env := { demoEnv with fetched := fun _ => .ok "a.com, 1, DIRECT" }

theorem serveRun_cached_within_ttl_repeat :
    routedEndpoint (demoRequest "GET" "/api/analyze/example.com") = some (.analyze "example.com") ∧
      0 < demoState.cache.ttl ∧
      Payload.analysis (buildAnalysis "example.com" [⟨"a.com", "1", "DIRECT", ""⟩] 0) ∈
        (serve demoFetchEnv (demoRequest "GET" "/api/analyze/example.com") demoState).writer.body ∧
      (buildAnalysis "example.com" [⟨"a.com", "1", "DIRECT", ""⟩] 0).cached = false ∧
      (∀ x ∈ [(demoFetchEnv, demoRequest "GET" "/api/analyze/example.com")], x.1.BatchFaithful 1) ∧
      ∀ x ∈ [(demoFetchEnv, demoRequest "GET" "/api/analyze/example.com")].zip
          (serveRun [(demoFetchEnv, demoRequest "GET" "/api/analyze/example.com")]
            (serve demoFetchEnv (demoRequest "GET" "/api/analyze/example.com") demoState).state).1,
        routedEndpoint x.1.2 = some (.analyze "example.com") →
          x.1.1.now ≤ demoFetchEnv.now + demoState.cache.ttl.toNat →
          x.2.status = 429 ∨ ∃ a', x.2.status = 200 ∧ x.2.body = [.analysis a'] ∧ a'.cached = true := by
  have he : routedEndpoint (demoRequest "GET" "/api/analyze/example.com") =
      some (.analyze "example.com") := by decide
  have ha : Payload.analysis (buildAnalysis "example.com" [⟨"a.com", "1", "DIRECT", ""⟩] 0) ∈
      (serve demoFetchEnv (demoRequest "GET" "/api/analyze/example.com") demoState).writer.body := by
    have hp : parse "a.com, 1, DIRECT" = .ok [⟨"a.com", "1", "DIRECT", ""⟩] := by decide
    rw [(serve_of_reply_returns he (by decide) rfl).2, List.mem_singleton]
    simp only [demoFetchEnv, demoEnv, demoState, Handler.analyzeSingleDomain,
      analyzeDomain, lookupDomain, DomainCache.get_empty, hp, payloadOf]
    rfl
  have hb : ∀ x ∈ [(demoFetchEnv, demoRequest "GET" "/api/analyze/example.com")],
      x.1.BatchFaithful 1 := by
    simp only [List.mem_singleton, forall_eq]
    exact demoEnv_batchFaithful
  exact ⟨he, by decide, ha, rfl, hb, serveRun_cached_within_ttl he (by decide) ha rfl _ hb⟩

/-! ### Batches and the cache -/

/-- `AnalyzeDomains` in the environment `env` answers as a run of its goroutines can: a response
it returns, with the cache it then leaves, is the one of a run that has returned. -/
def Env.BatchReturns (env : Env) (maxConcurrent : Int) : Prop :=
  ∀ cache domains resp, (env.analyzeDomains cache domains).1 = .returns (.ok resp) →
    ∃ s, BatchReachable ⟨domains, maxConcurrent, parse⟩ cache env.now s ∧ s.main = .returned resp ∧
      (env.analyzeDomains cache domains).2.1 = s.cache

/-- A server whose batches run the goroutines of `AnalyzeDomains` one after another
(`analyzeDomainsSeq`) at the time of the request, without log calls of their own. -/
def Env.sequential (now : Nat) (processID orphanID : String)
    (fetched : String → Except String String) (decode : String → Except String (List String)) :
    Env :=
  ⟨now, processID, orphanID, fetched, decode, fun dc ds =>
    if ds = [] then (.returns (.ok (emptyResponse now)), dc, [])
    else (.returns (.ok (aggregateResults ds.length (analyzeDomainsSeq now fetched parse dc ds).1 now)),
      (analyzeDomainsSeq now fetched parse dc ds).2, [])⟩

section Sequential

variable {now : Nat} {processID orphanID : String} {fetched : String → Except String String}
  {decode : String → Except String (List String)} {maxConcurrent : Int}

theorem Env.sequential_batchReturns (hmc : 0 < maxConcurrent) :
    (Env.sequential now processID orphanID fetched decode).BatchReturns maxConcurrent := by
  intro cache domains resp hr
  by_cases hN : domains = []
  · subst hN
    obtain rfl := Except.ok.inj (Call.returns.inj hr)
    exact ⟨_, .refl, rfl, rfl⟩
  · simp only [Env.sequential, if_neg hN] at hr ⊢
    obtain rfl := Except.ok.inj (Call.returns.inj hr)
    obtain ⟨s, hs, hm, hc⟩ := @analyzeDomainsSeq_reachable ⟨domains, maxConcurrent, parse⟩ hN hmc
      cache now fetched
    exact ⟨s, hs, hm, hc.symm⟩

theorem Env.sequential_batchFaithful (hmc : 0 < maxConcurrent) :
    (Env.sequential now processID orphanID fetched decode).BatchFaithful maxConcurrent := by
  intro cache domains
  obtain ⟨resp, hr⟩ : ∃ resp,
      ((Env.sequential now processID orphanID fetched decode).analyzeDomains cache domains).1 =
        .returns (.ok resp) := by
    dsimp only [Env.sequential]
    split <;> exact ⟨_, rfl⟩
  obtain ⟨s, hs, -, hc⟩ := Env.sequential_batchReturns hmc cache domains resp hr
  exact ⟨s, hs, hc⟩

end Sequential

/-- **A batch warms the cache for the single-domain endpoint.** When the server answers a batch
request with a response that a run of the goroutines of `AnalyzeDomains` returned, from a cache
with a positive TTL, then for every successful result of the response not taken from the cache,
every later request of the run for `/api/analyze/{d}` of its domain `d`, made before the result's
time plus the TTL, is rate limited or answered 200 with an analysis marked cached. -/
theorem serveRun_batch_warms_cache {maxConcurrent : Int} {env : Env} {r : Request}
    {st : ServerState} {resp : BatchAnalysisResponse} {res : DomainResult}
    (he : routedEndpoint r = some .batch) (hret : env.BatchReturns maxConcurrent)
    (httl : 0 < st.cache.ttl) (hbody : Payload.batch resp ∈ (serve env r st).writer.body)
    (hres : res ∈ resp.results) (hs : res.success = true) (hc : res.cached = false)
    (rs : List (Env × Request)) (hb : ∀ x ∈ rs, x.1.BatchFaithful maxConcurrent) :
    ∀ x ∈ rs.zip (serveRun rs (serve env r st).state).1,
      routedEndpoint x.1.2 = some (.analyze res.domain) →
        x.1.1.now ≤ res.timestamp + st.cache.ttl.toNat →
        x.2.status = 429 ∨ ∃ a, x.2.status = 200 ∧ x.2.body = [.analysis a] ∧ a.cached = true := by
  obtain ⟨ds, hr, hcache⟩ := serve_batch_cache he hbody
  obtain ⟨s, hreach, hm, hsc⟩ := hret st.cache ds resp hr
  have hh : (serve env r st).state.cache.HoldsUntil res.domain
      (res.timestamp + st.cache.ttl.toNat) := by
    rw [hcache, hsc]
    exact analyzeDomains_warms_cache hreach hm httl hres hs hc
  exact serveRun_cached_of_holdsUntil rs _ hh hb

/-- A server at time `0` whose fetcher finds an `ads.txt` of one record, whose body decoder reads
the one domain `example.com`, and whose batches run their goroutines one after another. -/
def demoSeqEnv : Env :=
  Env.sequential 0 "req-1" "internal-1" (fun _ => .ok "a.com, 1, DIRECT") fun _ => .ok ["example.com"]

/-- The response of the batch of `demoSeqEnv` from `demoState`. -/
def demoSeqResponse : BatchAnalysisResponse :=
  aggregateResults 1 (analyzeDomainsSeq 0 (fun _ => .ok "a.com, 1, DIRECT") parse demoState.cache
    ["example.com"]).1 0

theorem serveRun_batch_warms_cache_then_analyze :
    routedEndpoint (demoRequest "POST" "/api/batch-analysis") = some .batch ∧
      demoSeqEnv.BatchReturns 1 ∧ 0 < demoState.cache.ttl ∧
      Payload.batch demoSeqResponse ∈
        (serve demoSeqEnv (demoRequest "POST" "/api/batch-analysis") demoState).writer.body ∧
      domainResult "example.com" 0 (.ok (buildAnalysis "example.com" [⟨"a.com", "1", "DIRECT", ""⟩] 0))
        ∈ demoSeqResponse.results ∧
      (∀ x ∈ [(demoSeqEnv, demoRequest "GET" "/api/analyze/example.com")], x.1.BatchFaithful 1) ∧
      ∀ x ∈ [(demoSeqEnv, demoRequest "GET" "/api/analyze/example.com")].zip
          (serveRun [(demoSeqEnv, demoRequest "GET" "/api/analyze/example.com")]
            (serve demoSeqEnv (demoRequest "POST" "/api/batch-analysis") demoState).state).1,
        routedEndpoint x.1.2 = some (.analyze "example.com") → x.1.1.now ≤ 0 + demoState.cache.ttl.toNat →
          x.2.status = 429 ∨ ∃ a, x.2.status = 200 ∧ x.2.body = [.analysis a] ∧ a.cached = true := by
  have he : routedEndpoint (demoRequest "POST" "/api/batch-analysis") = some .batch := by decide
  have hp : parse "a.com, 1, DIRECT" = .ok [⟨"a.com", "1", "DIRECT", ""⟩] := by decide
  have hret : demoSeqEnv.BatchReturns 1 := Env.sequential_batchReturns (by decide)
  have hbody : Payload.batch demoSeqResponse ∈
      (serve demoSeqEnv (demoRequest "POST" "/api/batch-analysis") demoState).writer.body := by
    rw [(@serve_of_reply_returns demoSeqEnv _ demoState _ he (by decide) _ _ rfl).2,
      List.mem_singleton]
    rfl
  have hres : domainResult "example.com" 0
      (.ok (buildAnalysis "example.com" [⟨"a.com", "1", "DIRECT", ""⟩] 0)) ∈ demoSeqResponse.results := by
    simp only [demoSeqResponse, aggregateResults_results, analyzeDomainsSeq, analyzeDomain,
      lookupDomain, demoState, DomainCache.get_empty, hp]
    exact List.mem_singleton_self _
  have hb : ∀ x ∈ [(demoSeqEnv, demoRequest "GET" "/api/analyze/example.com")],
      x.1.BatchFaithful 1 := by
    simp only [List.mem_singleton, forall_eq]
    exact Env.sequential_batchFaithful (by decide)
  exact ⟨he, hret, by decide, hbody, hres, hb,
    serveRun_batch_warms_cache he hret (by decide) hbody hres rfl rfl _ hb⟩

/-! ### The batch endpoint -/

end Http

/-- The value `make` panics with when asked for a channel of negative size. -/
def makechanPanic : String := "makechan: size out of range"

/-- How the caller of `AnalyzeDomains` ends at a state of its goroutines: with the response it
returned, with the panic of `make`, or, while it has neither, not at all. -/
def BatchState.ending (s : BatchState) : Call (Except String BatchAnalysisResponse) :=
  match s.main with
  | .returned resp => .returns (.ok resp)
  | .panicked => .panics makechanPanic
  | _ => .blocks

section Ending

variable {domains : List String} {mc : Int} {cache : DomainCache} {now : Nat} {s : BatchState}

/-- With a negative `maxConcurrent` a call of a non-empty list panics in `make`. -/
theorem BatchState.ending_of_neg (hN : domains ≠ []) (hmc : mc < 0)
    (hs : BatchReachable ⟨domains, mc, parse⟩ cache now s) : s.ending = .panics makechanPanic := by
  rw [eq_init_of_reachable_of_neg hN hmc hs]
  simp only [BatchState.ending, BatchState.init, if_neg hN, if_pos hmc]

/-- With `maxConcurrent = 0` a call of a non-empty list never ends. -/
theorem BatchState.ending_of_zero (hN : domains ≠ []) (hmc : mc = 0)
    (hs : BatchReachable ⟨domains, mc, parse⟩ cache now s) : s.ending = .blocks := by
  obtain ⟨hr, hp⟩ := analyzeDomains_never_returns_of_zero hN hmc hs
  unfold BatchState.ending
  rcases hm : s.main with k | _ | resp | _
  · rfl
  · rfl
  · exact absurd hm (hr resp)
  · exact absurd hm hp

/-- With `maxConcurrent ≥ 1` a call of a non-empty list that has stopped has returned. -/
theorem BatchState.ending_of_pos (hN : domains ≠ []) (hmc : 1 ≤ mc)
    (hs : BatchReachable ⟨domains, mc, parse⟩ cache now s)
    (hstop : ¬∃ s', BatchStep ⟨domains, mc, parse⟩ s s') :
    ∃ resp, s.main = .returned resp ∧ s.ending = .returns (.ok resp) := by
  by_cases hr : ∃ resp, s.main = .returned resp
  · obtain ⟨resp, hm⟩ := hr
    exact ⟨resp, hm, by simp only [BatchState.ending, hm]⟩
  · exact absurd (exists_step_of_not_returned hN hmc hs fun resp hm => hr ⟨resp, hm⟩) hstop

/-- The response of a run that returned holds one result per requested domain, and
`getBatchStatusCode` gives it 200, 207 or 400 as all, some or none of them succeeded. -/
theorem batchStatusCode_of_returned {resp : BatchAnalysisResponse}
    (hs : BatchReachable ⟨domains, mc, parse⟩ cache now s) (hm : s.main = .returned resp) :
    Handler.getBatchStatusCode resp = (if resp.results.all (·.success) then 200
        else if resp.results.any (·.success) then 207 else 400) ∧
      (resp.results.map DomainResult.domain).Perm domains := by
  have hres := results_of_reachable hs
  obtain ⟨hfin, rs, t, hperm, rfl⟩ := hres.aggregated resp (.inr hm)
  refine ⟨by rw [Handler.getBatchStatusCode_aggregateResults, aggregateResults_results], ?_⟩
  rw [aggregateResults_results]
  exact (hperm.map _).trans
    (.of_eq (map_domain_sentResults (counts_of_reachable hs).length hfin hres.valid))

end Ending

namespace Http

/-- `AnalyzeDomains` in the environment `env` ends as its goroutines do: a call of a non-empty
list ends as a run of them that has stopped, where no goroutine can move, and leaves the cache
of that run. Every run stops (`batchStep_wellFounded`), so the call returns, panics or never
returns as the runs of `maxConcurrent` do. -/
def Env.BatchEnds (env : Env) (maxConcurrent : Int) : Prop :=
  ∀ cache domains, domains ≠ [] → ∃ s,
    BatchReachable ⟨domains, maxConcurrent, parse⟩ cache env.now s ∧
      (¬∃ s', BatchStep ⟨domains, maxConcurrent, parse⟩ s s') ∧
      (env.analyzeDomains cache domains).1 = s.ending ∧ (env.analyzeDomains cache domains).2.1 = s.cache

/-- A server whose batches run their goroutines one after another ends each call as a run that
has stopped does, for every positive `maxConcurrent`. -/
theorem Env.sequential_batchEnds {now : Nat} {processID orphanID : String}
    {fetched : String → Except String String} {decode : String → Except String (List String)}
    {maxConcurrent : Int} (hmc : 0 < maxConcurrent) :
    (Env.sequential now processID orphanID fetched decode).BatchEnds maxConcurrent := by
  intro cache domains hN
  obtain ⟨s, hs, hm, hc⟩ := @analyzeDomainsSeq_reachable ⟨domains, maxConcurrent, parse⟩ hN hmc
    cache now fetched
  refine ⟨s, hs, not_batchStep_of_returned hN hs hm, ?_, ?_⟩
  · simp only [Env.sequential, if_neg hN, BatchState.ending, hm]
  · simp only [Env.sequential, if_neg hN]
    exact hc.symm

section Batch

variable {env : Env} {r : Request} {st : ServerState}

/-- The batch endpoint's reply to a request of between 1 and 100 domains: what the handler
makes of how `AnalyzeDomains` ends. -/
theorem batch_reply_eq {domains : List String} (hd : env.decode r.body = .ok domains)
    (hn : domains ≠ []) (hmax : domains.length ≤ 100) :
    Endpoint.batch.reply env r st =
      ((env.analyzeDomains st.cache domains).1.map Handler.batchReply).map
        fun reply => (reply.statusCode, payloadOf .batch reply.body) := by
  simp only [Endpoint.reply, Handler.analyzeBatchDomains, hd, if_neg (mt List.length_eq_zero.mp hn),
    if_neg (Nat.not_lt.mpr hmax)]

/-- What the batch endpoint answers an admitted request of between 1 and 100 domains: the
status `getBatchStatusCode` gives the response `AnalyzeDomains` returned. -/
theorem serve_batch_eq {domains : List String} {resp : BatchAnalysisResponse}
    (he : routedEndpoint r = some .batch)
    (ha : (st.limiter.allow (getClientIP r) env.now).1 = true)
    (hd : env.decode r.body = .ok domains) (hn : domains ≠ []) (hmax : domains.length ≤ 100)
    (hr : (env.analyzeDomains st.cache domains).1 = .returns (.ok resp)) :
    (serve env r st).writer.status = Handler.getBatchStatusCode resp ∧
      (serve env r st).writer.body = [.batch resp] := by
  have hreply : Endpoint.batch.reply env r st =
      .returns (Handler.getBatchStatusCode resp, .batch resp) := by
    rw [batch_reply_eq hd hn hmax, hr]
    rfl
  exact serve_of_reply_returns he ha hreply

/-- **The batch endpoint answers each domain once, with a status that says how many
succeeded.** An admitted request of between 1 and 100 domains, whose response is the one a
run of the goroutines of `AnalyzeDomains` returns, is answered with that response, which holds
one result per requested domain, duplicates included, and with the status 200 when every
result succeeded, 207 when some did and 400 when none did. -/
theorem serve_batch_of_returned {domains : List String} {maxConcurrent : Int} {s : BatchState}
    {resp : BatchAnalysisResponse} (he : routedEndpoint r = some .batch)
    (ha : (st.limiter.allow (getClientIP r) env.now).1 = true)
    (hd : env.decode r.body = .ok domains) (hn : domains ≠ []) (hmax : domains.length ≤ 100)
    (hs : BatchReachable ⟨domains, maxConcurrent, parse⟩ st.cache env.now s)
    (hm : s.main = .returned resp)
    (hr : (env.analyzeDomains st.cache domains).1 = .returns (.ok resp)) :
    (serve env r st).writer.status =
        (if resp.results.all (·.success) then 200
        else if resp.results.any (·.success) then 207 else 400) ∧
      (serve env r st).writer.body = [.batch resp] ∧
      (resp.results.map DomainResult.domain).Perm domains := by
  obtain ⟨hstatus, hbody⟩ := serve_batch_eq he ha hd hn hmax hr
  obtain ⟨hcode, hperm⟩ := batchStatusCode_of_returned hs hm
  exact ⟨hstatus.trans hcode, hbody, hperm⟩

/-- What a batch of the one domain `"a"`, whose fetch fails, returns at time `0` from an empty
domain cache. -/
def demoBatchResponse : BatchAnalysisResponse :=
  ((Aggregate.init 1).receive (domainResult "a" 0
    (.error (newDomainError "a" "failed to fetch ads.txt" (some "connection refused"))))).response 0

/-- `demoEnv` with a body that decodes to the one domain `"a"` and a batch that returns
`demoBatchResponse`. -/
def demoBatchEnv : Env :=
  { demoEnv with
    decode := fun _ => .ok ["a"]
    analyzeDomains := fun dc _ => (.returns (.ok demoBatchResponse), dc, []) }

theorem serve_batch_of_returned_failedFetch :
    ∃ s, BatchReachable ⟨["a"], 1, parse⟩ demoState.cache demoBatchEnv.now s ∧
      s.main = .returned demoBatchResponse ∧
      (serve demoBatchEnv (demoRequest "POST" "/api/batch-analysis") demoState).writer.status =
        (if demoBatchResponse.results.all (·.success) then 200
        else if demoBatchResponse.results.any (·.success) then 207 else 400) ∧
      (serve demoBatchEnv (demoRequest "POST" "/api/batch-analysis") demoState).writer.body =
        [.batch demoBatchResponse] ∧
      (demoBatchResponse.results.map DomainResult.domain).Perm ["a"] := by
  have h0 : BatchReachable ⟨["a"], 1, parse⟩ demoState.cache 0
    (BatchState.init ⟨["a"], 1, parse⟩ demoState.cache 0) := .refl
  have h1 := h0.step (.spawn rfl rfl)
  have h2 := h1.step (.startCloser rfl)
  have h3 := h2.step (.acquire (i := 0) rfl (by decide))
  have h4 := h3.step (.analyze (i := 0) 0 (.error "connection refused") rfl rfl le_rfl)
  have h5 := h4.step (.send (i := 0) rfl rfl (by decide))
  have h6 := h5.step (.release (i := 0) rfl (by decide))
  have h7 := h6.step (.done (i := 0) rfl)
  have h8 := h7.step (.close rfl rfl)
  have h9 := h8.step (.receive rfl rfl)
  have h10 := h9.step (.finish 0 rfl rfl rfl rfl le_rfl)
  have h11 := h10.step (.deliver rfl rfl)
  exact ⟨_, h11, rfl, serve_batch_of_returned (by decide) (by decide) rfl (by decide) (by decide)
    h11 rfl rfl⟩

/-- **A batch ends as `MAX_CONCURRENT_FETCHES` lets `AnalyzeDomains` end.** An admitted request
of between 1 and 100 domains, to a server whose `AnalyzeDomains` ends as a run of its goroutines
does: with a negative `maxConcurrent`, `make` panics and the request is answered 500 with the
body of `recoveryMiddleware`; with `0` no worker ever takes the semaphore, and the request is
never answered and never ends; from `1` on, it is answered with the response of a run that
returned, one result per requested domain, with the status 200, 207 or 400 as all, some or none
of them succeeded. -/
theorem serve_batch_maxConcurrent {domains : List String} {mc : Int}
    (he : routedEndpoint r = some .batch)
    (ha : (st.limiter.allow (getClientIP r) env.now).1 = true)
    (hd : env.decode r.body = .ok domains) (hn : domains ≠ []) (hmax : domains.length ≤ 100)
    (hb : env.BatchEnds mc) :
    (mc < 0 → (serve env r st).ending = .returns () ∧ (serve env r st).writer.status = 500 ∧
        (serve env r st).writer.body = [.text internalErrorBody]) ∧
      (mc = 0 → (serve env r st).ending = .blocks ∧ (serve env r st).writer.sent = none) ∧
      (1 ≤ mc → (serve env r st).ending = .returns () ∧ ∃ resp,
        (serve env r st).writer.status = (if resp.results.all (·.success) then 200
          else if resp.results.any (·.success) then 207 else 400) ∧
        (serve env r st).writer.body = [.batch resp] ∧
        (resp.results.map DomainResult.domain).Perm domains) := by
  obtain ⟨s, hs, hstop, hcall, -⟩ := hb st.cache domains hn
  have hsend := serve_sendsReply he ha
  rw [batch_reply_eq hd hn hmax, hcall] at hsend
  refine ⟨fun hmc => ?_, fun hmc => ?_, fun hmc => ?_⟩
  · rw [BatchState.ending_of_neg hn hmc hs] at hsend
    exact ⟨hsend.1, hsend.2.1, hsend.2.2.1⟩
  · rw [BatchState.ending_of_zero hn hmc hs] at hsend
    exact ⟨hsend.1, hsend.2.1⟩
  · obtain ⟨resp, hm, hend⟩ := BatchState.ending_of_pos hn hmc hs hstop
    rw [hend] at hsend
    obtain ⟨hcode, hperm⟩ := batchStatusCode_of_returned hs hm
    exact ⟨hsend.1, resp, hsend.2.1.trans hcode, hsend.2.2.1, hperm⟩

/-- `demoEnv` with a body that decodes to the one domain `"a"` and a batch whose `make`
panics, as with `MAX_CONCURRENT_FETCHES=-1`. -/
def demoPanicEnv : Env :=
  { demoEnv with
    decode := fun _ => .ok ["a"]
    analyzeDomains := fun dc _ => (.panics makechanPanic, dc, []) }

theorem demoPanicEnv_batchEnds : demoPanicEnv.BatchEnds (-1) := fun cache domains hN =>
  have hs : BatchReachable ⟨domains, -1, parse⟩ cache demoPanicEnv.now
      (BatchState.init ⟨domains, -1, parse⟩ cache demoPanicEnv.now) := .refl
  have hmc : (-1 : Int) < 0 := by decide
  ⟨_, hs, not_batchStep_init_of_neg hN hmc, (BatchState.ending_of_neg hN hmc hs).symm, by
      unfold BatchState.init
      split <;> rfl⟩

theorem serve_batch_maxConcurrent_panics :
    routedEndpoint (demoRequest "POST" "/api/batch-analysis") = some .batch ∧
      (demoState.limiter.allow (getClientIP (demoRequest "POST" "/api/batch-analysis"))
        demoPanicEnv.now).1 = true ∧
      demoPanicEnv.decode (demoRequest "POST" "/api/batch-analysis").body = .ok ["a"] ∧
      ["a"] ≠ [] ∧ ["a"].length ≤ 100 ∧ demoPanicEnv.BatchEnds (-1) ∧
      (serve demoPanicEnv (demoRequest "POST" "/api/batch-analysis") demoState).ending = .returns () ∧
      (serve demoPanicEnv (demoRequest "POST" "/api/batch-analysis") demoState).writer.status = 500 ∧
      (serve demoPanicEnv (demoRequest "POST" "/api/batch-analysis") demoState).writer.body =
        [.text internalErrorBody] :=
  ⟨by decide, by decide, rfl, by decide, by decide, demoPanicEnv_batchEnds,
    (serve_batch_maxConcurrent (by decide) (by decide) rfl (by decide) (by decide)
      demoPanicEnv_batchEnds).1 (by decide)⟩

end Batch

end Http

end AdsTxtAnalyzer
