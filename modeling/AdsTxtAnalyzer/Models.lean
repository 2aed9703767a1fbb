import Mathlib.Algebra.BigOperators.Group.List
import Mathlib.Algebra.Order.Ring.Nat

/-!
# The data model of the analysis service

The records of `internal/models` that the analysis core reads and writes. Go's `int` counts
are natural numbers: every count the service builds starts at `0` and only grows, by `++` in
`CountAdvertisers` and by `+=` in `aggregateResults`. A `time.Time` is a number of
nanoseconds on the process clock. A Go `error` is modelled by its `Error()` text, since the
service only prints an error (`err.Error()`) or wraps it in a `DomainError`.

`DomainError.error` is the one function here: `DomainError.Error()` always starts with
`"domain "`, so the text a failed batch entry carries is never empty
(`DomainError.error_ne_empty`).
-/

namespace AdsTxtAnalyzer

/-- One advertiser of an analysis (`models.AdvertiserInfo`): its domain and the number of
entries that name it. -/
structure AdvertiserInfo where
  domain : String
  count : Nat
  deriving DecidableEq, Repr

/-- The sum of the counts of a list of advertisers. -/
def AdvertiserInfo.countSum (l : List AdvertiserInfo) : Nat :=
  (l.map AdvertiserInfo.count).sum

@[simp]
theorem AdvertiserInfo.countSum_nil : countSum [] = 0 := rfl

@[simp]
theorem AdvertiserInfo.countSum_cons (a : AdvertiserInfo) (l : List AdvertiserInfo) :
    countSum (a :: l) = a.count + countSum l := by
  simp [countSum]

@[simp]
theorem AdvertiserInfo.countSum_append (l₁ l₂ : List AdvertiserInfo) :
    countSum (l₁ ++ l₂) = countSum l₁ + countSum l₂ := by
  simp [countSum]

/-- The analysis of one domain's ads.txt (`models.DomainAnalysis`). -/
structure DomainAnalysis where
  domain : String
  totalAdvertisers : Nat
  advertisers : List AdvertiserInfo
  cached : Bool
  timestamp : Nat
  deriving DecidableEq, Repr

/-- An analysis whose `TotalAdvertisers` is the sum of its advertiser counts, as
`buildAnalysis` computes it. -/
def DomainAnalysis.TotalIsSum (a : DomainAnalysis) : Prop :=
  a.totalAdvertisers = AdvertiserInfo.countSum a.advertisers

/-- One domain's entry in a batch response (`models.DomainResult`). -/
structure DomainResult where
  domain : String
  totalAdvertisers : Nat
  advertisers : List AdvertiserInfo
  cached : Bool
  error : String
  success : Bool
  timestamp : Nat
  deriving DecidableEq, Repr

/-- The counters of a batch response (`models.BatchSummary`). -/
structure BatchSummary where
  total : Nat
  succeeded : Nat
  failed : Nat
  deriving DecidableEq, Repr

/-- The response of a batch analysis (`models.BatchAnalysisResponse`). -/
structure BatchAnalysisResponse where
  results : List DomainResult
  summary : BatchSummary
  advertisers : List AdvertiserInfo
  totalAdvertisers : Nat
  timestamp : Nat
  deriving DecidableEq, Repr

/-- One record line of an ads.txt file (`models.AdsTxtEntry`). -/
structure AdsTxtEntry where
  exchangeDomain : String
  publisherID : String
  accountType : String
  certificationAuth : String
  deriving DecidableEq, Repr

/-- An error about one domain (`models.DomainError`); `err` is the wrapped error's text,
`none` for a nil error. -/
structure DomainError where
  domain : String
  message : String
  err : Option String
  deriving DecidableEq, Repr

/-- The text of `DomainError.Error()`. -/
def DomainError.error (e : DomainError) : String :=
  match e.err with
  | some err => "domain " ++ e.domain ++ ": " ++ e.message ++ ": " ++ err
  | none => "domain " ++ e.domain ++ ": " ++ e.message

/-- Constructor `models.NewDomainError`. -/
def newDomainError (domain message : String) (err : Option String) : DomainError :=
  ⟨domain, message, err⟩

/-- The text of a `DomainError` starts with `"domain "`, so it is never empty. -/
theorem DomainError.error_ne_empty (e : DomainError) : e.error ≠ "" := by
  have h7 : "domain ".length = 7 := by decide
  intro h
  have hlen := congrArg String.length h
  unfold DomainError.error at hlen
  split at hlen <;> simp only [String.length_append, String.length_empty] at hlen <;> omega

end AdsTxtAnalyzer
