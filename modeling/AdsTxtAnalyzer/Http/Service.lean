import AdsTxtAnalyzer.Http.Middleware
import AdsTxtAnalyzer.Parser.AdsTxt

/-!
# The analysis service as the server runs it

`Service.AnalyzeDomain` logs each step of its work under the event of the request that
called it: a cache hit, a cache miss, the fetch, the parse, a failed cache store and the
completed analysis. `Service.analyzeDomain` is `analyzeDomain` with those calls, on the
server's state, with the fetcher's answer taken from the environment and the program's parser.

* **The log calls change nothing else** (`Service.analyzeDomain_eq`): the logged call answers
  what `analyzeDomain` answers and leaves the domain cache as `analyzeDomain` leaves it, so
  every result about `analyzeDomain` holds of the call the server makes.
* Its entries are all made under the caller's event (`Service.logsUnder_analyzeDomain`), and
  it does not touch the rate limiter.

The error of a failed cache store is logged with its text, which prints the refused TTL with
`time.Duration`'s `String` (`Duration.string`).
-/

namespace AdsTxtAnalyzer

/-! ### The text of a duration -/

namespace Duration

/-- The loop of `fmtFrac`: `prec` more decimal places of `v` to write in front of `buf`, the
text written so far, where `print` says whether a non-zero digit has been met. Trailing zeros
and then a point with nothing after it are left out. Returns the text and `v / 10 ^ prec`. -/
def fmtFracLoop : Nat → Nat → Bool → List Char → List Char × Nat
  | 0, v, print, buf => (if print then '.' :: buf else buf, v)
  | prec + 1, v, print, buf =>
    let print := print || v % 10 != 0
    fmtFracLoop prec (v / 10) print (if print then Nat.digitChar (v % 10) :: buf else buf)

/-- The function `fmtFrac` of package `time`. -/
def fmtFrac (v prec : Nat) : List Char × Nat := fmtFracLoop prec v false []

/-- The method `Duration.String`, on a duration of `d` nanoseconds: `0s`, a fraction of a
second in `ns`, `µs` or `ms`, or hours, minutes and seconds. -/
def string (d : Int) : String :=
  let u := d.natAbs
  let body : List Char :=
    if u = 0 then ['0', 's']
    else if u < 1000000000 then
      let (unit, prec) : List Char × Nat :=
        if u < 1000 then (['n', 's'], 0) else if u < 1000000 then (['µ', 's'], 3)
        else (['m', 's'], 6)
      let (frac, v) := fmtFrac u prec
      Nat.toDigits 10 v ++ frac ++ unit
    else
      let (frac, v) := fmtFrac u 9
      let secs := Nat.toDigits 10 (v % 60) ++ frac ++ ['s']
      if v / 60 = 0 then secs
      else
        let mins := Nat.toDigits 10 (v / 60 % 60) ++ 'm' :: secs
        if v / 3600 = 0 then mins else Nat.toDigits 10 (v / 3600) ++ 'h' :: mins
  ⟨if d < 0 then '-' :: body else body⟩

example : string 0 = "0s" ∧ string 1500 = "1.5µs" ∧ string (-1500000000) = "-1.5s" ∧
    string 3600000000000 = "1h0m0s" ∧ string 90000000000 = "1m30s" := by decide

end Duration

/-- The text `err.Error()` of a cache error. -/
def CacheError.error : CacheError → String
  | .cacheUnavailable => "cache service unavailable"
  | .ttlNotPositive ttl => "TTL must be positive, got: " ++ Duration.string ttl

namespace Http

namespace Service

/-! ### `AnalyzeDomain` with its log calls -/

/-- The method `Service.AnalyzeDomain` with its logger calls under the context `ctx`: the
answer and the server's state after it. -/
def analyzeDomain (env : Env) (ctx : Option LogEvent) (domain : String) (st : ServerState) :
    Except DomainError DomainAnalysis × ServerState :=
  match st.cache.get env.now domain with
  | .ok cached =>
    (.ok cached.markCached.analysis,
      logSuccess env ctx "cache_hit" domain "Retrieved analysis from cache" st)
  | .error _ =>
    let st := logInfo env ctx "cache_miss" ("Cache miss for domain: " ++ domain) none st
    match env.fetched domain with
    | .error err =>
      (.error (newDomainError domain "failed to fetch ads.txt" (some err)),
        logError env ctx "fetch_ads_txt" domain "Failed to fetch ads.txt" err logSeverityMedium st)
    | .ok content =>
      let st := logSuccess env ctx "fetch_ads_txt" domain "Successfully fetched ads.txt" st
      match parse content with
      | .error err =>
        (.error (newDomainError domain "failed to parse ads.txt" (some err)),
          logError env ctx "parse_ads_txt" domain "Failed to parse ads.txt" err logSeverityMedium st)
      | .ok entries =>
        let st := logSuccess env ctx "parse_ads_txt" domain "Successfully parsed ads.txt" st
        let analysis := BuiltAnalysis.build domain entries env.now
        let (setErr, cache) := st.cache.set env.now domain analysis 0
        let st := { st with cache := cache }
        let st := match setErr with
          | some err => logError env ctx "cache_set" domain "Failed to cache analysis result"
              err.error logSeverityLow st
          | none => st
        (.ok analysis.analysis, logSuccess env ctx "domain_analysis" domain
          "Successfully completed domain analysis" st)

variable (env : Env) (ctx : Option LogEvent) (domain : String) (st : ServerState)

/-- **The log calls change nothing else**: the answer and the domain cache are those of
`analyzeDomain`, and the rate limiter is untouched. -/
theorem analyzeDomain_eq :
    (analyzeDomain env ctx domain st).1 =
        (AdsTxtAnalyzer.analyzeDomain st.cache env.now domain (env.fetched domain) parse).1 ∧
      (analyzeDomain env ctx domain st).2.cache =
        (AdsTxtAnalyzer.analyzeDomain st.cache env.now domain (env.fetched domain) parse).2 ∧
      (analyzeDomain env ctx domain st).2.limiter = st.limiter := by
  simp only [analyzeDomain, AdsTxtAnalyzer.analyzeDomain, lookupDomain, logInfo, logSuccess, logError]
  rcases st.cache.get env.now domain with _ | cached
  · rcases env.fetched domain with err | content
    · simp
    · cases hp : parse content with
      | error err => simp [hp]
      | ok entries =>
        simp only [hp]
        split <;> simp
  · simp

/-- Every entry `AnalyzeDomain` logs is made under its caller's event. -/
theorem logsUnder_analyzeDomain :
    LogsUnder (getLogEvent env ctx) st (analyzeDomain env ctx domain st).2 := by
  simp only [analyzeDomain, logInfo, logSuccess, logError]
  repeat' split
  all_goals
    repeat (first | exact .refl _ st | apply LogsUnder.append_logEntry | apply LogsUnder.set_cache)

end Service

end Http

end AdsTxtAnalyzer
