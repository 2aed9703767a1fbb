import AdsTxtAnalyzer.Analysis.BuildAnalysis
import AdsTxtAnalyzer.Cache.Memory

/-!
# Analysing one domain

`Service.AnalyzeDomain` asks the domain cache first and returns a hit marked `Cached`. On a
miss it fetches the ads.txt file, parses it, builds the analysis with `buildAnalysis`, stores
it in the cache (a failed store is only logged) and returns it. A failed fetch or parse
becomes a `DomainError` carrying the domain.

The fetcher is network I/O: its answer (`fetched`, the content or the error's text) is an
input of the model, as is the parser's `Parse`. The cache is the real one: a `DomainCache`
over the memory cache, keyed `"domain:" ++ domain`. Its values are `BuiltAnalysis` records,
since the only value the service ever stores is the one `buildAnalysis` has just returned,
and so every analysis `AnalyzeDomain` returns, fresh or cached, reports the sum of its counts
as its total (`analyzeDomain_totalIsSum`).

The batch workers of `AnalyzeDomains` run the call in two steps, the part before the store
(`lookupDomain`) and the store, and turn its outcome into a `DomainResult`
(`domainResult`). Every such result is `DomainResult.Valid`: it names its domain, a failure
has `Cached = false` and a non-empty error text, and a success reports the sum of its counts.
-/

namespace AdsTxtAnalyzer

/-! ### The domain cache -/

/-- The key `fmt.Sprintf("domain:%s", domain)` of a domain in the cache. -/
def cacheKey (domain : String) : String := "domain:" ++ domain

/-- The record `domainCache`: the generic cache and the default TTL (`cfg.CacheTTL`). Its
values are the analyses the service stores, so `Get`'s type switch always takes the
`*models.DomainAnalysis` case. -/
structure DomainCache where
  cache : MemoryCache BuiltAnalysis
  ttl : Int

namespace DomainCache

/-- The method `domainCache.Get` at time `now`. -/
def get (dc : DomainCache) (now : Nat) (domain : String) : Except CacheError BuiltAnalysis :=
  dc.cache.get now (cacheKey domain)

/-- The method `domainCache.Set` at time `now`: a TTL of `0` means the default one. -/
def set (dc : DomainCache) (now : Nat) (domain : String) (analysis : BuiltAnalysis)
    (ttl : Int) : Option CacheError × DomainCache :=
  let cacheTTL := if ttl = 0 then dc.ttl else ttl
  ((dc.cache.set now (cacheKey domain) analysis cacheTTL).1,
    { dc with cache := (dc.cache.set now (cacheKey domain) analysis cacheTTL).2 })

/-- A new domain cache answers every lookup with a miss. -/
@[simp] theorem get_empty (ttl : Int) (now : Nat) (domain : String) :
    (⟨.empty, ttl⟩ : DomainCache).get now domain = .error .cacheUnavailable := rfl

end DomainCache

/-! ### The call -/

/-- What `AnalyzeDomain` has found before its cache store: the cached analysis, an error, or a
fresh analysis to store. -/
inductive Lookup
  | hit (a : BuiltAnalysis)
  | failed (err : DomainError)
  | fresh (a : BuiltAnalysis)

/-- The method `AnalyzeDomain` up to its `domainCache.Set`, at time `now`, with the fetcher's
answer `fetched` and the parser's `parse`. -/
def lookupDomain (dc : DomainCache) (now : Nat) (domain : String)
    (fetched : Except String String) (parse : String → Except String (List AdsTxtEntry)) :
    Lookup :=
  match dc.get now domain with
  | .ok cached => .hit cached
  | .error _ =>
    match fetched with
    | .error err => .failed (newDomainError domain "failed to fetch ads.txt" (some err))
    | .ok content =>
      match parse content with
      | .error err => .failed (newDomainError domain "failed to parse ads.txt" (some err))
      | .ok entries => .fresh (BuiltAnalysis.build domain entries now)

/-- A cache hit as `AnalyzeDomain` returns it, marked `Cached`. -/
def BuiltAnalysis.markCached (a : BuiltAnalysis) : BuiltAnalysis :=
  ⟨{ a.analysis with cached := true }, a.totalIsSum⟩

/-- The method `Service.AnalyzeDomain`: its answer and the domain cache after it. A failed
store is ignored. -/
def analyzeDomain (dc : DomainCache) (now : Nat) (domain : String)
    (fetched : Except String String) (parse : String → Except String (List AdsTxtEntry)) :
    Except DomainError DomainAnalysis × DomainCache :=
  match lookupDomain dc now domain fetched parse with
  | .hit a => (.ok a.markCached.analysis, dc)
  | .failed err => (.error err, dc)
  | .fresh a => (.ok a.analysis, (dc.set now domain a 0).2)

/-- Every analysis `AnalyzeDomain` returns, fresh or from the cache, reports the sum of its
advertiser counts as its total. -/
theorem analyzeDomain_totalIsSum (dc : DomainCache) (now : Nat) (domain : String)
    (fetched : Except String String) (parse : String → Except String (List AdsTxtEntry))
    {a : DomainAnalysis} (h : (analyzeDomain dc now domain fetched parse).1 = .ok a) :
    a.TotalIsSum := by
  unfold analyzeDomain at h
  split at h <;> cases h
  · exact BuiltAnalysis.totalIsSum _
  · exact BuiltAnalysis.totalIsSum _

/-! ### What one call leaves in the cache -/

theorem cacheKey_injective : Function.Injective cacheKey := fun _ _ h =>
  String.ext (List.append_cancel_left (congrArg String.data h))

/-- A lookup of one domain fails only with an error about that domain. -/
theorem lookupDomain_failed_domain {dc : DomainCache} {now : Nat} {domain : String}
    {fetched : Except String String} {parse : String → Except String (List AdsTxtEntry)}
    {err : DomainError} (h : lookupDomain dc now domain fetched parse = .failed err) :
    err.domain = domain := by
  unfold lookupDomain at h
  split at h
  · cases h
  · split at h
    · cases h; rfl
    · split at h
      · cases h; rfl
      · cases h

/-- Every error `AnalyzeDomain` returns is about the domain it was given. -/
theorem analyzeDomain_error_domain {dc : DomainCache} {now : Nat} {domain : String}
    {fetched : Except String String} {parse : String → Except String (List AdsTxtEntry)}
    {err : DomainError} (h : (analyzeDomain dc now domain fetched parse).1 = .error err) :
    err.domain = domain := by
  unfold analyzeDomain at h
  split at h
  · cases h
  · cases h; exact lookupDomain_failed_domain ‹_›
  · cases h

/-- On a cache miss, the lookup is the fetcher's answer, parsed. -/
theorem lookupDomain_of_miss {dc : DomainCache} {now : Nat} {domain : String} {e : CacheError}
    (fetched : Except String String) (parse : String → Except String (List AdsTxtEntry))
    (hmiss : dc.get now domain = .error e) :
    lookupDomain dc now domain fetched parse =
      match fetched with
      | .error err => .failed (newDomainError domain "failed to fetch ads.txt" (some err))
      | .ok content =>
        match parse content with
        | .error err => .failed (newDomainError domain "failed to parse ads.txt" (some err))
        | .ok entries => .fresh (BuiltAnalysis.build domain entries now) := by
  unfold lookupDomain
  rw [hmiss]

theorem analyzeDomain_of_failed {dc : DomainCache} {now : Nat} {domain : String}
    {fetched : Except String String} {parse : String → Except String (List AdsTxtEntry)}
    {err : DomainError} (h : lookupDomain dc now domain fetched parse = .failed err) :
    analyzeDomain dc now domain fetched parse = (.error err, dc) := by
  unfold analyzeDomain
  rw [h]

/-- **The cache is keyed by the domain as given.** A call for one domain changes no answer of
the cache for any other text. -/
theorem analyzeDomain_get_ne (dc : DomainCache) (now t : Nat) {domain other : String}
    (fetched : Except String String) (parse : String → Except String (List AdsTxtEntry))
    (h : other ≠ domain) :
    (analyzeDomain dc now domain fetched parse).2.get t other = dc.get t other := by
  unfold analyzeDomain
  split
  · rfl
  · rfl
  · exact MemoryCache.get_set_ne _ _ _ _ _ (fun hk => h (cacheKey_injective hk))

/-- So a later lookup of another text goes on as if the call had not been made. -/
theorem lookupDomain_analyzeDomain_ne (dc : DomainCache) (now t : Nat) {domain other : String}
    (fetched fetched' : Except String String)
    (parse parse' : String → Except String (List AdsTxtEntry)) (h : other ≠ domain) :
    lookupDomain (analyzeDomain dc now domain fetched parse).2 t other fetched' parse' =
      lookupDomain dc t other fetched' parse' := by
  unfold lookupDomain
  rw [analyzeDomain_get_ne dc now t fetched parse h]

/-- **A fresh analysis is served until its expiry.** With a positive TTL, a call that built a
fresh analysis leaves it in the cache, and a later lookup of the same domain within the TTL
is a hit on it, whatever the fetcher would answer. -/
theorem lookupDomain_analyzeDomain_self {dc : DomainCache} {now t : Nat} {domain : String}
    {fetched : Except String String} {parse : String → Except String (List AdsTxtEntry)}
    {a : BuiltAnalysis} (hfresh : lookupDomain dc now domain fetched parse = .fresh a)
    (httl : 0 < dc.ttl) (ht : (t : Int) ≤ now + dc.ttl)
    (fetched' : Except String String) (parse' : String → Except String (List AdsTxtEntry)) :
    lookupDomain (analyzeDomain dc now domain fetched parse).2 t domain fetched' parse' =
      .hit a := by
  have hget : (analyzeDomain dc now domain fetched parse).2.get t domain = .ok a := by
    unfold analyzeDomain
    rw [hfresh]
    show (dc.cache.set now (cacheKey domain) a (if (0 : Int) = 0 then dc.ttl else 0)).2.get t
      (cacheKey domain) = .ok a
    rw [if_pos rfl, MemoryCache.get_set_self _ _ _ _ _ httl, if_pos ht]
  unfold lookupDomain
  rw [hget]

/-! ### The result of a batch worker -/

/-- The `DomainResult` a worker of `AnalyzeDomains` builds from what `AnalyzeDomain`
returned; `now` is the time of its `time.Now()`. -/
def domainResult (dom : String) (now : Nat) : Except DomainError DomainAnalysis → DomainResult
  | .error err =>
    { domain := dom, totalAdvertisers := 0, advertisers := [], cached := false,
      error := err.error, success := false, timestamp := now }
  | .ok a =>
    { domain := dom, totalAdvertisers := a.totalAdvertisers, advertisers := a.advertisers,
      cached := a.cached, error := "", success := true, timestamp := a.timestamp }

/-- What every result of a batch satisfies: it names its domain, a failure has
`Cached = false` and an error text, and a success reports the sum of its counts. -/
structure DomainResult.Valid (dom : String) (r : DomainResult) : Prop where
  domain_eq : r.domain = dom
  failed : r.success = false → r.cached = false ∧ r.error ≠ ""
  totalIsSum : r.success = true → r.totalAdvertisers = AdvertiserInfo.countSum r.advertisers

theorem domainResult_error_valid (dom : String) (now : Nat) (err : DomainError) :
    (domainResult dom now (.error err)).Valid dom :=
  ⟨rfl, fun _ => ⟨rfl, err.error_ne_empty⟩, fun h => nomatch h⟩

theorem domainResult_ok_valid (dom : String) (now : Nat) (a : BuiltAnalysis) :
    (domainResult dom now (.ok a.analysis)).Valid dom :=
  ⟨rfl, (fun h => nomatch h), fun _ => a.totalIsSum⟩

end AdsTxtAnalyzer
