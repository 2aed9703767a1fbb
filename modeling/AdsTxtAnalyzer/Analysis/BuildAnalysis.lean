import AdsTxtAnalyzer.Analysis.Sort

/-!
# Counting the advertisers of one file

`Parser.CountAdvertisers` counts the entries of each exchange domain, and
`Service.buildAnalysis` turns the counts into the sorted advertiser list of a
`DomainAnalysis`, with their sum as `TotalAdvertisers`.

`buildAnalysis_advertisers_sorted_counts` is the whole specification for every entry list:
each exchange domain of the file appears once, with the number of entries that carry it, in
strictly decreasing order of count and then increasing order of domain, and the total is the
number of entries. `buildAnalysis_totalIsSum` is the part of it that the batch aggregation
relies on: the total of a fresh analysis is the sum of its counts.
-/

namespace AdsTxtAnalyzer

/-- The method `Parser.CountAdvertisers`: `counts[entry.ExchangeDomain]++` over the entries. -/
def countAdvertisers (entries : List AdsTxtEntry) : CountMap :=
  CountMap.addAll AdsTxtEntry.exchangeDomain (fun _ => 1) CountMap.empty entries

/-- The method `Service.buildAnalysis` with the service's parser, `Parser.CountAdvertisers`;
`now` is the time its `time.Now()` reads. -/
def buildAnalysis (domain : String) (entries : List AdsTxtEntry) (now : Nat) : DomainAnalysis :=
  { domain := domain
    totalAdvertisers := (countAdvertisers entries).toAdvertisers.2
    advertisers := (countAdvertisers entries).toAdvertisers.1
    cached := false
    timestamp := now }

/-- The count of a domain is the number of entries that carry it. -/
theorem get_countAdvertisers (entries : List AdsTxtEntry) (d : String) :
    (countAdvertisers entries).get d = (entries.filter (·.exchangeDomain = d)).length := by
  simp [countAdvertisers, CountMap.get_addAll]

theorem mem_keys_countAdvertisers (entries : List AdsTxtEntry) (d : String) :
    d ∈ (countAdvertisers entries).keys ↔ d ∈ entries.map AdsTxtEntry.exchangeDomain := by
  simp [countAdvertisers, CountMap.mem_keys_addAll]

theorem total_countAdvertisers (entries : List AdsTxtEntry) :
    (countAdvertisers entries).total = entries.length := by
  simp [countAdvertisers, CountMap.total_addAll]

/-- A fresh analysis reports the sum of its advertiser counts as its total. -/
theorem buildAnalysis_totalIsSum (domain : String) (entries : List AdsTxtEntry) (now : Nat) :
    (buildAnalysis domain entries now).TotalIsSum := by
  simp only [DomainAnalysis.TotalIsSum, buildAnalysis, CountMap.total_toAdvertisers,
    CountMap.countSum_toAdvertisers]

/-- An analysis whose total is the sum of its counts, as `buildAnalysis` builds them. The
service only ever caches such analyses. -/
structure BuiltAnalysis where
  analysis : DomainAnalysis
  totalIsSum : analysis.TotalIsSum

/-- The result of `buildAnalysis`, with its total. -/
def BuiltAnalysis.build (domain : String) (entries : List AdsTxtEntry) (now : Nat) :
    BuiltAnalysis :=
  ⟨buildAnalysis domain entries now, buildAnalysis_totalIsSum domain entries now⟩

/-- The analysis `buildAnalysis` builds from any list of entries: each exchange domain once,
paired with the number of its entries, ordered by count descending and then domain
ascending, with the number of entries as total. -/
theorem buildAnalysis_advertisers_sorted_counts (domain : String) (entries : List AdsTxtEntry)
    (now : Nat) :
    (∀ d c, AdvertiserInfo.mk d c ∈ (buildAnalysis domain entries now).advertisers ↔
        d ∈ entries.map AdsTxtEntry.exchangeDomain ∧
          c = (entries.filter (·.exchangeDomain = d)).length) ∧
      ((buildAnalysis domain entries now).advertisers.map AdvertiserInfo.domain).Nodup ∧
      (buildAnalysis domain entries now).advertisers.Pairwise
        (fun a b => b.count < a.count ∨ a.count = b.count ∧ a.domain < b.domain) ∧
      (buildAnalysis domain entries now).totalAdvertisers = entries.length := by
  refine ⟨fun d c => ?_, CountMap.nodup_toAdvertisers _,
    (CountMap.pairwise_toAdvertisers _).imp fun h => (advertiserLess_iff _ _).mp h, ?_⟩
  · rw [buildAnalysis, CountMap.mem_toAdvertisers, mem_keys_countAdvertisers,
      get_countAdvertisers, eq_comm]
  · rw [buildAnalysis, CountMap.total_toAdvertisers, total_countAdvertisers]

end AdsTxtAnalyzer
