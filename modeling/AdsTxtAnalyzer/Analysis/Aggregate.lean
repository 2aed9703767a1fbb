import AdsTxtAnalyzer.Analysis.Sort

/-!
# Aggregating the results of a batch

`Service.aggregateResults` receives the results of a batch one by one. It appends each to its
result list, counts successes and failures, and adds the advertiser counts of each success
into one map. When the channel is closed it builds the response: the sorted advertiser list
of the map (`CountMap.toAdvertisers`) and the sum of its counts.

`Aggregate.ofResults_eq` says what the fold computes for any sequence of results. From it,
the response of `aggregateResults` is a function of the multiset of results received:

* the summary counts the successes and the failures (`aggregateResults_summary`);
* each advertiser domain met in a successful result appears once, with the sum of its counts
  over all successful results (`advertiserTotal`), in strictly decreasing order
  (`mem_aggregateResults_advertisers`, `nodup_aggregateResults_advertisers`,
  `pairwise_aggregateResults_advertisers`);
* the total is the sum of those counts, which is the sum of the totals of the successful
  results when each of them reports the sum of its own counts
  (`aggregateResults_totalAdvertisers_eq_sum`);
* any reordering of the received results gives the same summary, advertiser list and total
  (`aggregateResults_perm`).
-/

namespace AdsTxtAnalyzer

/-- The local state of `aggregateResults`: the results so far, the advertiser counts and the
summary. -/
structure Aggregate where
  results : List DomainResult
  advertiserCounts : CountMap
  summary : BatchSummary

/-- The advertisers of the successful results, in the order received. -/
def successfulAdvertisers (rs : List DomainResult) : List AdvertiserInfo :=
  (rs.filter (·.success)).flatMap (·.advertisers)

/-- The sum of the counts of advertiser domain `d` over the successful results. -/
def advertiserTotal (rs : List DomainResult) (d : String) : Nat :=
  AdvertiserInfo.countSum ((successfulAdvertisers rs).filter (·.domain = d))

namespace Aggregate

/-- The state before the loop, for a batch of `totalDomains` domains. -/
def init (totalDomains : Nat) : Aggregate := ⟨[], CountMap.empty, ⟨totalDomains, 0, 0⟩⟩

/-- One iteration of `for result := range resultsChan`. -/
def receive (acc : Aggregate) (result : DomainResult) : Aggregate :=
  if result.success then
    { results := acc.results ++ [result]
      advertiserCounts := acc.advertiserCounts.addAll AdvertiserInfo.domain AdvertiserInfo.count
        result.advertisers
      summary := { acc.summary with succeeded := acc.summary.succeeded + 1 } }
  else
    { results := acc.results ++ [result]
      advertiserCounts := acc.advertiserCounts
      summary := { acc.summary with failed := acc.summary.failed + 1 } }

/-- The response sent once the loop ends; `now` is the time of its `time.Now()`. -/
def response (acc : Aggregate) (now : Nat) : BatchAnalysisResponse :=
  { results := acc.results
    summary := acc.summary
    advertisers := acc.advertiserCounts.toAdvertisers.1
    totalAdvertisers := acc.advertiserCounts.toAdvertisers.2
    timestamp := now }

/-- The state after receiving `rs`. -/
def ofResults (totalDomains : Nat) (rs : List DomainResult) : Aggregate :=
  rs.foldl receive (init totalDomains)

theorem foldl_receive (acc : Aggregate) (rs : List DomainResult) :
    rs.foldl receive acc =
      ⟨acc.results ++ rs,
        acc.advertiserCounts.addAll AdvertiserInfo.domain AdvertiserInfo.count
          (successfulAdvertisers rs),
        ⟨acc.summary.total, acc.summary.succeeded + rs.countP (·.success),
          acc.summary.failed + rs.countP (!·.success)⟩⟩ := by
  induction rs generalizing acc with
  | nil => cases acc; simp [successfulAdvertisers]
  | cons r rs ih =>
    rw [List.foldl_cons, ih]
    cases hs : r.success <;>
      simp [receive, hs, successfulAdvertisers, CountMap.addAll_append, List.countP_cons] <;>
      omega

/-- What the loop has computed after receiving `rs`. -/
theorem ofResults_eq (totalDomains : Nat) (rs : List DomainResult) :
    ofResults totalDomains rs =
      ⟨rs, CountMap.empty.addAll AdvertiserInfo.domain AdvertiserInfo.count
          (successfulAdvertisers rs),
        ⟨totalDomains, rs.countP (·.success), rs.countP (!·.success)⟩⟩ := by
  simp [ofResults, foldl_receive, init]

/-- One more iteration of the loop. -/
theorem ofResults_concat (totalDomains : Nat) (rs : List DomainResult) (r : DomainResult) :
    ofResults totalDomains (rs ++ [r]) = (ofResults totalDomains rs).receive r := by
  simp [ofResults, List.foldl_append]

end Aggregate

/-- The method `aggregateResults`, given the results it receives before the channel is closed;
`now` is the time of its `time.Now()`. -/
def aggregateResults (totalDomains : Nat) (rs : List DomainResult) (now : Nat) :
    BatchAnalysisResponse :=
  (Aggregate.ofResults totalDomains rs).response now

section Spec

variable (totalDomains : Nat) (rs : List DomainResult) (now : Nat)

@[simp]
theorem aggregateResults_results : (aggregateResults totalDomains rs now).results = rs := by
  simp [aggregateResults, Aggregate.ofResults_eq, Aggregate.response]

theorem aggregateResults_summary :
    (aggregateResults totalDomains rs now).summary =
      ⟨totalDomains, rs.countP (·.success), rs.countP (!·.success)⟩ := by
  simp [aggregateResults, Aggregate.ofResults_eq, Aggregate.response]

/-- Every result received is counted once, as a success or as a failure. -/
theorem aggregateResults_succeeded_add_failed :
    (aggregateResults totalDomains rs now).summary.succeeded +
      (aggregateResults totalDomains rs now).summary.failed = rs.length := by
  rw [aggregateResults_summary, List.length_eq_countP_add_countP (·.success) rs]
  simp

theorem mem_aggregateResults_advertisers (a : AdvertiserInfo) :
    a ∈ (aggregateResults totalDomains rs now).advertisers ↔
      a.domain ∈ (successfulAdvertisers rs).map AdvertiserInfo.domain ∧
        a.count = advertiserTotal rs a.domain := by
  simp only [aggregateResults, Aggregate.ofResults_eq, Aggregate.response,
    CountMap.mem_toAdvertisers, CountMap.mem_keys_addAll, CountMap.keys_empty,
    CountMap.get_addAll, CountMap.get_empty, List.not_mem_nil, false_or, Nat.zero_add,
    advertiserTotal, AdvertiserInfo.countSum, eq_comm]

theorem nodup_aggregateResults_advertisers :
    ((aggregateResults totalDomains rs now).advertisers.map AdvertiserInfo.domain).Nodup :=
  CountMap.nodup_toAdvertisers _

theorem pairwise_aggregateResults_advertisers :
    (aggregateResults totalDomains rs now).advertisers.Pairwise
      (fun a b => b.count < a.count ∨ a.count = b.count ∧ a.domain < b.domain) :=
  (CountMap.pairwise_toAdvertisers _).imp fun h => (advertiserLess_iff _ _).mp h

theorem aggregateResults_totalAdvertisers :
    (aggregateResults totalDomains rs now).totalAdvertisers =
      AdvertiserInfo.countSum (successfulAdvertisers rs) := by
  simp [aggregateResults, Aggregate.ofResults_eq, Aggregate.response,
    CountMap.total_toAdvertisers, CountMap.total_addAll, AdvertiserInfo.countSum]

/-- The total of the response is also the sum of its advertiser counts. -/
theorem countSum_aggregateResults_advertisers :
    AdvertiserInfo.countSum (aggregateResults totalDomains rs now).advertisers =
      (aggregateResults totalDomains rs now).totalAdvertisers := by
  simp only [aggregateResults, Aggregate.response, CountMap.countSum_toAdvertisers,
    CountMap.total_toAdvertisers]

/-- When every successful result reports the sum of its counts, the total of the response is
the sum of the totals of the successful results. -/
theorem aggregateResults_totalAdvertisers_eq_sum
    (h : ∀ r ∈ rs, r.success = true → r.totalAdvertisers = AdvertiserInfo.countSum r.advertisers) :
    (aggregateResults totalDomains rs now).totalAdvertisers =
      ((rs.filter (·.success)).map DomainResult.totalAdvertisers).sum := by
  rw [aggregateResults_totalAdvertisers, successfulAdvertisers]
  induction rs with
  | nil => rfl
  | cons r rs ih =>
    have ih' := ih fun r' hr' => h r' (List.mem_cons_of_mem _ hr')
    cases hs : r.success
    · simpa [List.filter_cons, hs] using ih'
    · simp [List.filter_cons, hs, ih', h r (List.mem_cons_self _ _) hs]

end Spec

/-- The response depends only on the multiset of results received: any order of arrival gives
the same summary, advertiser list and total. -/
theorem aggregateResults_perm (totalDomains : Nat) {rs rs' : List DomainResult}
    (h : rs.Perm rs') (now : Nat) :
    (aggregateResults totalDomains rs now).summary =
        (aggregateResults totalDomains rs' now).summary ∧
      (aggregateResults totalDomains rs now).advertisers =
        (aggregateResults totalDomains rs' now).advertisers ∧
      (aggregateResults totalDomains rs now).totalAdvertisers =
        (aggregateResults totalDomains rs' now).totalAdvertisers := by
  have hs : (successfulAdvertisers rs).Perm (successfulAdvertisers rs') :=
    (h.filter _).flatMap_right _
  refine ⟨by rw [aggregateResults_summary, aggregateResults_summary, h.countP_eq, h.countP_eq],
    eq_of_pairwise_of_mem_iff (CountMap.pairwise_toAdvertisers _)
      (CountMap.pairwise_toAdvertisers _) fun a => ?_, ?_⟩
  · rw [mem_aggregateResults_advertisers, mem_aggregateResults_advertisers, advertiserTotal,
      advertiserTotal, AdvertiserInfo.countSum,
      AdvertiserInfo.countSum, ((hs.filter _).map _).sum_eq, (hs.map _).mem_iff]
  · rw [aggregateResults_totalAdvertisers, aggregateResults_totalAdvertisers,
      AdvertiserInfo.countSum, AdvertiserInfo.countSum, (hs.map _).sum_eq]

end AdsTxtAnalyzer
