import AdsTxtAnalyzer.Analysis.AnalyzeDomain
import AdsTxtAnalyzer.Fetch.HTTPFetcher
import AdsTxtAnalyzer.Parser.AdsTxt

/-!
# The cache key and the fetcher's normal form

`AnalyzeDomain` looks a domain up in the domain cache under `domain:<domain>`, with the domain
as the caller wrote it. Only the fetcher normalizes it (`HTTPFetcher.normalizeDomain`). So two
spellings of one host share the fetched file but not the cache entry. A call for one spelling
leaves every lookup of another as it was (`lookupDomain_analyzeDomain_ne`). A later call for
the same spelling within the TTL is a hit (`lookupDomain_analyzeDomain_self`).

`example.com` and `https://example.com` are one host to the fetcher. After an analysis of
`example.com` has been stored, a call for `example.com` is served from the cache, but a call
for `https://example.com` fetches again and answers with what the fetcher returns
(`analyzeDomain_same_host_fetches_again`).
-/

namespace AdsTxtAnalyzer

/-- The ads.txt file of the example: one record. -/
def oneRecord : String := "google.com, pub-1, DIRECT"

theorem parse_oneRecord : parse oneRecord = .ok [⟨"google.com", "pub-1", "DIRECT", ""⟩] := by
  decide

theorem analyzeDomain_same_host_fetches_again (err : String) :
    HTTPFetcher.normalizeDomain "example.com" = HTTPFetcher.normalizeDomain "https://example.com" ∧
      (∃ a, lookupDomain (analyzeDomain ⟨.empty, 3600⟩ 0 "example.com" (.ok oneRecord) parse).2 1
        "example.com" (.error err) parse = .hit a) ∧
      (analyzeDomain (analyzeDomain ⟨.empty, 3600⟩ 0 "example.com" (.ok oneRecord) parse).2 1
        "https://example.com" (.error err) parse).1 =
        .error (newDomainError "https://example.com" "failed to fetch ads.txt" (some err)) := by
  have hh := HTTPFetcher.normalizeDomain_host (h := "example.com".data) (by decide)
  have hfresh : lookupDomain ⟨.empty, 3600⟩ 0 "example.com" (.ok oneRecord) parse =
      .fresh (BuiltAnalysis.build "example.com" [⟨"google.com", "pub-1", "DIRECT", ""⟩] 0) := by
    rw [lookupDomain_of_miss _ _ (DomainCache.get_empty _ _ _)]
    dsimp only
    rw [parse_oneRecord]
  refine ⟨hh.1.trans hh.2.2.symm, ⟨_, lookupDomain_analyzeDomain_self hfresh (by decide)
    (by decide) _ _⟩, ?_⟩
  rw [analyzeDomain_of_failed]
  rw [lookupDomain_analyzeDomain_ne _ _ _ _ _ _ _ (by decide),
    lookupDomain_of_miss _ _ (DomainCache.get_empty _ _ _)]

end AdsTxtAnalyzer
