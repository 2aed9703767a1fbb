import AdsTxtAnalyzer.Batch.Invariant

/-!
# What `AnalyzeDomains` returns

The invariants of `AdsTxtAnalyzer.Batch.Invariant` at a state where the caller has returned
its response, under any interleaving of the goroutines and any answers of the cache, the
fetcher and the parser:

* `analyzeDomains_returns_one_result_per_domain`: the response holds one result per input
  domain, duplicates included, and its summary counts them; every failure has
  `Cached = false` and an error text. The error `AnalyzeDomains` returns beside the response
  is always `nil`, so `MainPc.returned` carries the response only.
* `analyzeDomains_advertisers_aggregate`: the advertiser list and the total are those of
  `aggregateResults` over the successful results, and they, like the summary, depend only on
  the results the workers built, not on the order in which the workers finished.

The two witnesses run a call of one domain, whose fetch fails, to its return.
-/

namespace AdsTxtAnalyzer

/-! ### The results of workers that have all returned -/

theorem WorkerPc.exists_eq_finished {p : WorkerPc} (h : p.isFinished = true) :
    ∃ r, p = .finished r := by
  cases p <;> first | exact ⟨_, rfl⟩ | cases h

section Finished

variable {ws : List WorkerPc} {ds : List String}

theorem length_sentResults (hfin : ∀ p ∈ ws, p.isFinished = true) :
    (sentResults ws).length = ws.length := by
  induction ws with
  | nil => rfl
  | cons p ws ih =>
    obtain ⟨r, rfl⟩ := WorkerPc.exists_eq_finished (hfin p (List.mem_cons_self _ _))
    simp [sentResults, WorkerPc.sent?] at ih ⊢
    exact ih fun q hq => hfin q (List.mem_cons_of_mem _ hq)

/-- Workers that have all returned, each with a result valid for its domain, sent one result
per domain, in the order of the domains. -/
theorem map_domain_sentResults (hlen : ws.length = ds.length)
    (hfin : ∀ p ∈ ws, p.isFinished = true)
    (hv : ∀ (i : Nat) (d : String) (p : WorkerPc), ds[i]? = some d → ws[i]? = some p → p.Valid d) :
    (sentResults ws).map DomainResult.domain = ds := by
  induction ws generalizing ds with
  | nil => exact (List.eq_nil_of_length_eq_zero hlen.symm).symm
  | cons p ws ih =>
    cases ds with
    | nil => cases hlen
    | cons d ds =>
      obtain ⟨r, rfl⟩ := WorkerPc.exists_eq_finished (hfin p (List.mem_cons_self _ _))
      have hr : r.Valid d := hv 0 d (.finished r) (by simp) (by simp)
      have := ih (Nat.succ.inj hlen) (fun q hq => hfin q (List.mem_cons_of_mem _ hq))
        fun i d' p' hd hp => hv (i + 1) d' p' (by simpa using hd) (by simpa using hp)
      simp only [sentResults] at this ⊢
      simp [WorkerPc.sent?, hr.domain_eq, this]

/-- Every result sent is valid for one of the domains. -/
theorem valid_of_mem_sentResults (hlen : ws.length = ds.length)
    (hv : ∀ (i : Nat) (d : String) (p : WorkerPc), ds[i]? = some d → ws[i]? = some p → p.Valid d)
    {r : DomainResult} (hr : r ∈ sentResults ws) : ∃ d ∈ ds, r.Valid d := by
  obtain ⟨p, hp, hsent⟩ := List.mem_filterMap.mp hr
  obtain ⟨i, hi⟩ := List.mem_iff_getElem?.mp hp
  have hid : i < ds.length := hlen ▸ (List.getElem?_eq_some.mp hi).1
  exact ⟨ds[i], List.getElem_mem hid, (hv i _ p (List.getElem?_eq_getElem hid) hi).of_sent hsent⟩

end Finished

/-! ### The response -/

section Returned

variable {env : BatchEnv} {cache : DomainCache} {now : Nat} {s : BatchState}
  {resp : BatchAnalysisResponse}

/-- Whenever `AnalyzeDomains` returns, its response holds one result per input domain and a
summary that counts them, and every failed result has `Cached = false` and an error text. -/
theorem analyzeDomains_returns_one_result_per_domain (h : BatchReachable env cache now s)
    (hm : s.main = .returned resp) :
    (resp.results.map DomainResult.domain).Perm env.domains ∧
      resp.summary.total = env.domains.length ∧
      resp.summary.succeeded = resp.results.countP (·.success) ∧
      resp.summary.failed = resp.results.countP (!·.success) ∧
      resp.summary.succeeded + resp.summary.failed = env.domains.length ∧
      ∀ r ∈ resp.results, r.success = false → r.cached = false ∧ r.error ≠ "" := by
  have hres := results_of_reachable h
  have hlen := (counts_of_reachable h).length
  obtain ⟨hfin, rs, t, hperm, rfl⟩ := hres.aggregated resp (.inr hm)
  have hrs : rs.length = env.domains.length := by
    rw [hperm.length_eq, length_sentResults hfin, hlen]
  refine ⟨?_, by simp [aggregateResults_summary], by simp [aggregateResults_summary],
    by simp [aggregateResults_summary], by rw [aggregateResults_succeeded_add_failed, hrs],
    fun r hr hs => ?_⟩
  · rw [aggregateResults_results, ← map_domain_sentResults hlen hfin hres.valid]
    exact hperm.map _
  · rw [aggregateResults_results] at hr
    obtain ⟨d, -, hv⟩ := valid_of_mem_sentResults hlen hres.valid (hperm.subset hr)
    exact hv.failed hs

/-- Whenever `AnalyzeDomains` returns, its advertiser list is the table of the summed counts of
the successful results, each advertiser domain once, by count descending then domain
ascending; its total is the sum of those counts and the sum of the successful results'
totals. The summary, the list and the total are those of the workers' results taken in the
order of the domains, whatever order the workers finished in. -/
theorem analyzeDomains_advertisers_aggregate (h : BatchReachable env cache now s)
    (hm : s.main = .returned resp) :
    (∀ a, a ∈ resp.advertisers ↔
        a.domain ∈ (successfulAdvertisers resp.results).map AdvertiserInfo.domain ∧
          a.count = advertiserTotal resp.results a.domain) ∧
      (resp.advertisers.map AdvertiserInfo.domain).Nodup ∧
      resp.advertisers.Pairwise
        (fun a b => b.count < a.count ∨ a.count = b.count ∧ a.domain < b.domain) ∧
      resp.totalAdvertisers = AdvertiserInfo.countSum resp.advertisers ∧
      resp.totalAdvertisers =
        ((resp.results.filter (·.success)).map DomainResult.totalAdvertisers).sum ∧
      (∀ r ∈ resp.results, r.success = true →
        r.totalAdvertisers = AdvertiserInfo.countSum r.advertisers) ∧
      resp.results.Perm (sentResults s.workers) ∧
      resp.summary =
        (aggregateResults env.domains.length (sentResults s.workers) resp.timestamp).summary ∧
      resp.advertisers =
        (aggregateResults env.domains.length (sentResults s.workers) resp.timestamp).advertisers ∧
      resp.totalAdvertisers =
        (aggregateResults env.domains.length (sentResults s.workers) resp.timestamp).totalAdvertisers := by
  have hres := results_of_reachable h
  have hlen := (counts_of_reachable h).length
  obtain ⟨-, rs, t, hperm, rfl⟩ := hres.aggregated resp (.inr hm)
  have htot : ∀ r ∈ rs, r.success = true →
      r.totalAdvertisers = AdvertiserInfo.countSum r.advertisers := fun r hr hs =>
    (valid_of_mem_sentResults hlen hres.valid (hperm.subset hr)).choose_spec.2.totalIsSum hs
  simp only [aggregateResults_results]
  exact ⟨mem_aggregateResults_advertisers _ rs t, nodup_aggregateResults_advertisers _ rs t,
    pairwise_aggregateResults_advertisers _ rs t,
    (countSum_aggregateResults_advertisers _ rs t).symm,
    aggregateResults_totalAdvertisers_eq_sum _ rs t htot, htot, hperm,
    aggregateResults_perm _ hperm t⟩

end Returned

/-! ### A call of one domain -/

/-- A call with the one domain `"a"`, `maxConcurrent = 1` and a fetch that fails runs to its
return. -/
theorem oneDomain_returns :
    ∃ s resp, BatchReachable ⟨["a"], 1, fun _ => .ok []⟩ ⟨MemoryCache.empty, 0⟩ 0 s ∧
      s.main = .returned resp := by
  have h0 : BatchReachable ⟨["a"], 1, fun _ => .ok []⟩ ⟨MemoryCache.empty, 0⟩ 0
    (BatchState.init ⟨["a"], 1, fun _ => .ok []⟩ ⟨MemoryCache.empty, 0⟩ 0) := .refl
  have h1 := h0.step (.spawn rfl rfl)
  have h2 := h1.step (.startCloser rfl)
  have h3 := h2.step (.acquire (i := 0) rfl (by decide))
  have h4 := h3.step (.analyze (i := 0) 0 (.error "e") rfl rfl le_rfl)
  have h5 := h4.step (.send (i := 0) rfl rfl (by decide))
  have h6 := h5.step (.release (i := 0) rfl (by decide))
  have h7 := h6.step (.done (i := 0) rfl)
  have h8 := h7.step (.close rfl rfl)
  have h9 := h8.step (.receive rfl rfl)
  have h10 := h9.step (.finish 0 rfl rfl rfl rfl le_rfl)
  exact ⟨_, _, h10.step (.deliver rfl rfl), rfl⟩

theorem analyzeDomains_one_domain_results :
    ∃ s resp, BatchReachable ⟨["a"], 1, fun _ => .ok []⟩ ⟨MemoryCache.empty, 0⟩ 0 s ∧
      s.main = .returned resp ∧ (resp.results.map DomainResult.domain).Perm ["a"] :=
  let ⟨s, resp, h, hm⟩ := oneDomain_returns
  ⟨s, resp, h, hm, (analyzeDomains_returns_one_result_per_domain h hm).1⟩

theorem analyzeDomains_one_domain_advertisers :
    ∃ s resp, BatchReachable ⟨["a"], 1, fun _ => .ok []⟩ ⟨MemoryCache.empty, 0⟩ 0 s ∧
      s.main = .returned resp ∧ resp.totalAdvertisers = AdvertiserInfo.countSum resp.advertisers :=
  let ⟨s, resp, h, hm⟩ := oneDomain_returns
  ⟨s, resp, h, hm, (analyzeDomains_advertisers_aggregate h hm).2.2.2.1⟩

end AdsTxtAnalyzer
