import AdsTxtAnalyzer.Config
import AdsTxtAnalyzer.Http.Run

/-!
# The server `main` starts

`main` loads the configuration, logs its start, makes the cache `initializeCache` picks and
serves from a two-tier limiter whose capacities are the configured rates and a domain cache
with the configured TTL (`mainState`, with the memory cache). Two settings decide what every
run of that server does:

* **a limit of zero or below refuses everything** (`serveRun_main_refuses_all`): when
  `GLOBAL_RATE_LIMIT_PER_SEC` or `PER_IP_RATE_LIMIT_PER_SEC` reads as an integer not above `0`,
  that tier never holds a token (`TwoTierRateLimiter.Closed`), and every routed request is
  answered with the limiter's 429 (`serveRun_closed`);
* **a TTL of zero or below turns the cache off** (`serveRun_main_never_cached`): when
  `CACHE_TTL` reads as `n` seconds with `n * 10^9` not positive in `int64` (every `n ≤ 0`, and
  values past 292 years that wrap, such as `9223372037`), every store is refused, and no
  analysis and no batch result is ever served from the cache (`serveRun_uncached`).
-/

namespace AdsTxtAnalyzer

namespace Http

/-! ### The start -/

/-- The cache service `initializeCache` makes: the memory cache, or a Redis client for the
URL. -/
inductive CacheService
  | memory
  | redis (url : String)

/-- The function `initializeCache`: an unsupported type is the error `main` logs before it
exits. -/
def initializeCache (cfg : Config) : Except String CacheService :=
  if cfg.cacheType = "redis" then .ok (.redis cfg.redisURL)
  else if cfg.cacheType = "memory" then .ok .memory
  else .error ("unsupported cache type: " ++ cfg.cacheType)

/-- The state `main` serves from with the memory cache, its limiter made at time `t0` and its
start logged for the internal event `startupID`: `NewTwoTierRateLimiter` with each configured
rate as both the capacity and the rate of its tier, `domainCache.New` of the empty memory cache
with the configured TTL, and the entry of `LogInfo(startupCtx, OpServerStart, ...)`. -/
def mainState (cfg : Config) (t0 : Nat) (startupID : String) : ServerState :=
  ⟨TwoTierRateLimiter.new cfg.globalRateLimitPerSec cfg.globalRateLimitPerSec
      cfg.perIPRateLimitPerSec cfg.perIPRateLimitPerSec t0,
    ⟨.empty, cfg.cacheTTL⟩,
    [⟨"", "Starting AdsTxt Analysis API", "server_start", "", startupID, processTypeInternal, "",
      "", none⟩]⟩

/-- Without a `CACHE_TYPE` the server uses the memory cache. -/
theorem initializeCache_default {vars : String → String} (h : vars "CACHE_TYPE" = "") :
    initializeCache (Config.load vars) = .ok .memory := by
  simp [initializeCache, Config.load, Config.getEnv, Config.readEnv, h]

/-! ### A closed limiter -/

section Closed

variable {env : Env} {r : Request} {st : ServerState}

/-- A request to a server whose limiter has a closed tier keeps it closed, and a routed one
gets the limiter's 429. -/
theorem serve_closed (h : st.limiter.Closed) :
    (serve env r st).state.limiter.Closed ∧ ((routedEndpoint r).isSome = true →
      (serve env r st).writer.status = 429 ∧ (serve env r st).writer.body = [.text rateLimitedBody]) := by
  cases he : routedEndpoint r with
  | none =>
    rw [(serve_of_not_routed he).1]
    exact ⟨h, nofun⟩
  | some e =>
    obtain ⟨hd, hc⟩ := h.allow (getClientIP r) env.now
    refine ⟨by rw [serve_limiter_of_routed he]; exact hc, fun _ => ⟨serve_status_of_denied he hd, ?_⟩⟩
    rw [serve_of_denied he hd]
    rfl

/-- Over a run from a limiter with a closed tier, every routed request gets the limiter's 429. -/
theorem serveRun_closed (h : st.limiter.Closed) (rs : List (Env × Request)) :
    ∀ x ∈ rs.zip (serveRun rs st).1, (routedEndpoint x.1.2).isSome = true →
      x.2.status = 429 ∧ x.2.body = [.text rateLimitedBody] :=
  forall_zip_serveRun (I := fun st => st.limiter.Closed) rs st h fun _ _ _ hI => serve_closed hI

end Closed

/-- **A limit of zero or below refuses every request.** When `GLOBAL_RATE_LIMIT_PER_SEC` or
`PER_IP_RATE_LIMIT_PER_SEC` reads as an integer not above `0`, the server `main` starts answers
every routed request of every run with the limiter's 429. -/
theorem serveRun_main_refuses_all {vars : String → String} {n : Int}
    (h : Strconv.atoi (vars "GLOBAL_RATE_LIMIT_PER_SEC") = some n ∨
      Strconv.atoi (vars "PER_IP_RATE_LIMIT_PER_SEC") = some n) (hn : n ≤ 0) (t0 : Nat)
    (startupID : String) (rs : List (Env × Request)) :
    ∀ x ∈ rs.zip (serveRun rs (mainState (Config.load vars) t0 startupID)).1,
      (routedEndpoint x.1.2).isSome = true →
        x.2.status = 429 ∧ x.2.body = [.text rateLimitedBody] := by
  refine serveRun_closed ?_ rs
  rcases h with h | h
  · have hg := (Config.getIntEnv_of_atoi h 100).le.trans hn
    exact .inl ⟨hg, hg⟩
  · have hp := (Config.getIntEnv_of_atoi h 10).le.trans hn
    exact .inr ⟨hp, hp, fun _ hb => (nomatch hb)⟩

/-- An environment whose global limit is `0`. -/
def closedVars : String → String := fun key => if key = "GLOBAL_RATE_LIMIT_PER_SEC" then "0" else ""

theorem serveRun_main_refuses_all_zero :
    (Strconv.atoi (closedVars "GLOBAL_RATE_LIMIT_PER_SEC") = some 0 ∨
        Strconv.atoi (closedVars "PER_IP_RATE_LIMIT_PER_SEC") = some 0) ∧ (0 : Int) ≤ 0 ∧
      ∀ x ∈ demoRun.zip (serveRun demoRun (mainState (Config.load closedVars) 0 "internal-0")).1,
        (routedEndpoint x.1.2).isSome = true →
          x.2.status = 429 ∧ x.2.body = [.text rateLimitedBody] :=
  have h : Strconv.atoi (closedVars "GLOBAL_RATE_LIMIT_PER_SEC") = some 0 ∨
      Strconv.atoi (closedVars "PER_IP_RATE_LIMIT_PER_SEC") = some 0 := .inl (by decide)
  ⟨h, le_rfl, serveRun_main_refuses_all h le_rfl 0 "internal-0" demoRun⟩

/-! ### A cache that stores nothing -/

/-- A payload of an answer that is not a text is the value of a reply of the request's endpoint
that returns, to an admitted request. -/
theorem serve_payload_of_mem {env : Env} {r : Request} {st : ServerState} {p : Payload}
    (hp : p ∈ (serve env r st).writer.body) (hnt : ∀ s, p ≠ .text s) :
    ∃ e code, routedEndpoint r = some e ∧ e.reply env r st = .returns (code, p) := by
  cases he : routedEndpoint r with
  | none =>
    rcases (serve_of_not_routed he).2.2 with ⟨-, hw⟩ | ⟨-, ⟨-, hw⟩ | ⟨-, hw⟩ | ⟨-, hw⟩⟩ <;>
      rw [hw] at hp <;>
      simp [Writer.write, Writer.writeHeader, Writer.set, Writer.empty, Mux.notFound] at hp
    exact absurd hp (hnt _)
  | some e =>
    cases hal : (st.limiter.allow (getClientIP r) env.now).1
    · rw [serve_of_denied he hal] at hp
      simp [writeRateLimited, Writer.write, Writer.writeHeader, Writer.set, Writer.empty] at hp
      exact absurd hp (hnt _)
    · rcases serve_body_of_admitted he hal with ⟨code, data, hr, hb⟩ | hb | hb <;> rw [hb] at hp
      · rw [List.mem_singleton] at hp
        subst hp
        exact ⟨e, code, rfl, hr⟩
      · exact absurd (List.mem_singleton.mp hp) (hnt _)
      · exact absurd hp (List.not_mem_nil _)

theorem payloadOf_cases {α : Type} {f : α → Payload} {x : Except Handler.ErrorResponse α}
    {p : Payload} (h : p = payloadOf f x) : (∃ err, p = .errorResponse err) ∨ ∃ a, x = .ok a ∧ p = f a := by
  cases x with
  | error err => exact .inl ⟨err, h⟩
  | ok a => exact .inr ⟨a, rfl, h⟩

section Uncached

variable {env : Env} {r : Request} {st : ServerState}

theorem serve_cache_of_ttl_nonpos {mc : Int} (httl : st.cache.ttl ≤ 0) (hcold : st.cache.Cold)
    (hb : env.BatchFaithful mc) : (serve env r st).state.cache = st.cache :=
  serve_cache_of (P := (· = st.cache)) rfl
    (fun d => by
      rw [Handler.analyzeSingleDomain_cache]
      split_ifs
      · rfl
      · exact analyzeDomain_cache_of_ttl_nonpos httl)
    fun ds =>
      let ⟨_, hs, hc⟩ := hb st.cache ds
      hc.trans (analyzeDomains_uncached hs httl hcold).1

/-- On a cold cache, an analysis a request is answered with is fresh. -/
theorem serve_analysis_uncached (hcold : st.cache.Cold) {a : DomainAnalysis}
    (ha : Payload.analysis a ∈ (serve env r st).writer.body) : a.cached = false := by
  obtain ⟨e, code, -, hr⟩ := serve_payload_of_mem ha nofun
  cases e with
  | health | root => cases Call.returns.inj hr
  | batch =>
    obtain ⟨_, -, hrp⟩ := Call.map_eq_returns.mp hr
    rcases payloadOf_cases (Prod.mk.inj hrp).2.symm with ⟨_, h⟩ | ⟨_, _, h⟩ <;> cases h
  | analyze d =>
    rcases payloadOf_cases (Prod.mk.inj (Call.returns.inj hr)).2.symm with ⟨_, h⟩ | ⟨b, hb, h⟩
    · cases h
    · cases h
      unfold Handler.analyzeSingleDomain at hb
      split_ifs at hb
      · simp [Handler.writeErrorResponse] at hb
      · rcases hq : analyzeDomain st.cache env.now d (env.fetched d) parse with ⟨_ | c, dc⟩ <;>
          rw [hq] at hb
        · simp [Handler.writeErrorResponse] at hb
        · cases hb
          exact analyzeDomain_uncached hcold (by rw [hq])

/-- On a cold cache with a TTL that is not positive, no result of a batch a request is
answered with is marked cached, when the batch's response is one a run of the goroutines of
`AnalyzeDomains` returns. -/
theorem serve_batch_uncached {mc : Int} (hcold : st.cache.Cold) (httl : st.cache.ttl ≤ 0)
    (hret : env.BatchReturns mc) {resp : BatchAnalysisResponse}
    (hb : Payload.batch resp ∈ (serve env r st).writer.body) :
    ∀ res ∈ resp.results, res.cached = false := by
  obtain ⟨e, code, he, hr⟩ := serve_payload_of_mem hb nofun
  cases e with
  | health | root => cases Call.returns.inj hr
  | analyze d =>
    rcases payloadOf_cases (Prod.mk.inj (Call.returns.inj hr)).2.symm with ⟨_, h⟩ | ⟨_, _, h⟩ <;>
      cases h
  | batch =>
    obtain ⟨domains, hok, -⟩ := serve_batch_cache he hb
    obtain ⟨s, hs, hm, -⟩ := hret st.cache domains resp hok
    exact (analyzeDomains_uncached hs httl hcold).2 resp hm

end Uncached

/-- **A cold cache with a TTL that is not positive serves nothing from the cache**: over every
run whose batches answer as runs of the goroutines of `AnalyzeDomains` do, the cache stays as it
was, and no analysis and no batch result is marked cached. -/
theorem serveRun_uncached {mc : Int} {st : ServerState} (httl : st.cache.ttl ≤ 0)
    (hcold : st.cache.Cold) (rs : List (Env × Request))
    (hb : ∀ x ∈ rs, x.1.BatchFaithful mc ∧ x.1.BatchReturns mc) :
    ∀ x ∈ rs.zip (serveRun rs st).1, (∀ a, Payload.analysis a ∈ x.2.body → a.cached = false) ∧
      ∀ resp, Payload.batch resp ∈ x.2.body → ∀ res ∈ resp.results, res.cached = false :=
  forall_zip_serveRun (I := fun st' => st'.cache = st.cache) rs st rfl fun x hx _ hI =>
    ⟨(serve_cache_of_ttl_nonpos (hI ▸ httl) (hI ▸ hcold) (hb x hx).1).trans hI,
      fun _ ha => serve_analysis_uncached (hI ▸ hcold) ha,
      fun _ hr => serve_batch_uncached (hI ▸ hcold) (hI ▸ httl) (hb x hx).2 hr⟩

/-- **A TTL of zero or below turns the cache off.** When `CACHE_TTL` reads as `n` seconds with
`n * 10^9` not positive in `int64`, no analysis and no batch result the server `main` starts
sends, in any run whose batches answer as runs of the goroutines of `AnalyzeDomains` do, is
served from the cache. -/
theorem serveRun_main_never_cached {vars : String → String} {n : Int}
    (hc : Strconv.atoi (vars "CACHE_TTL") = some n) (httl : wrap64 (n * second) ≤ 0) (t0 : Nat)
    (startupID : String) (rs : List (Env × Request))
    (hb : ∀ x ∈ rs, x.1.BatchFaithful (Config.load vars).maxConcurrentFetches ∧
      x.1.BatchReturns (Config.load vars).maxConcurrentFetches) :
    ∀ x ∈ rs.zip (serveRun rs (mainState (Config.load vars) t0 startupID)).1,
      (∀ a, Payload.analysis a ∈ x.2.body → a.cached = false) ∧
        ∀ resp, Payload.batch resp ∈ x.2.body → ∀ res ∈ resp.results, res.cached = false :=
  serveRun_uncached ((Config.getDurationEnv_of_atoi hc _).le.trans httl)
    (DomainCache.cold_empty _) rs hb

/-- An environment whose `CACHE_TTL` is one second past what a duration holds. -/
def wrappedTTLVars : String → String := fun key => if key = "CACHE_TTL" then "9223372037" else ""

/-- Two requests for `/api/analyze/example.com` to a server whose batches run one after another. -/
def repeatRun : List (Env × Request) :=
  [(demoSeqEnv, demoRequest "GET" "/api/analyze/example.com"),
    (demoSeqEnv, demoRequest "GET" "/api/analyze/example.com")]

theorem serveRun_main_never_cached_wrapped :
    Strconv.atoi (wrappedTTLVars "CACHE_TTL") = some 9223372037 ∧ wrap64 (9223372037 * second) ≤ 0 ∧
      (∀ x ∈ repeatRun, x.1.BatchFaithful (Config.load wrappedTTLVars).maxConcurrentFetches ∧
        x.1.BatchReturns (Config.load wrappedTTLVars).maxConcurrentFetches) ∧
      ∀ x ∈ repeatRun.zip (serveRun repeatRun (mainState (Config.load wrappedTTLVars) 0 "internal-0")).1,
        (∀ a, Payload.analysis a ∈ x.2.body → a.cached = false) ∧
          ∀ resp, Payload.batch resp ∈ x.2.body → ∀ res ∈ resp.results, res.cached = false :=
  have hc : Strconv.atoi (wrappedTTLVars "CACHE_TTL") = some 9223372037 := by decide
  have httl : wrap64 (9223372037 * second) ≤ 0 := by decide
  have hmc : (Config.load wrappedTTLVars).maxConcurrentFetches = 10 := by decide
  have hb : ∀ x ∈ repeatRun, x.1.BatchFaithful (Config.load wrappedTTLVars).maxConcurrentFetches ∧
      x.1.BatchReturns (Config.load wrappedTTLVars).maxConcurrentFetches := fun x hx => by
    rw [hmc]
    simp only [repeatRun, List.mem_cons, List.mem_singleton, List.not_mem_nil, or_false] at hx
    rcases hx with rfl | rfl <;>
      exact ⟨Env.sequential_batchFaithful (by decide), Env.sequential_batchReturns (by decide)⟩
  ⟨hc, httl, hb, serveRun_main_never_cached hc httl 0 "internal-0" repeatRun hb⟩

end Http

end AdsTxtAnalyzer
