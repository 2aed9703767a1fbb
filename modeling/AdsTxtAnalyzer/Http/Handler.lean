import AdsTxtAnalyzer.Analysis.AnalyzeDomain
import AdsTxtAnalyzer.Analysis.Aggregate
import AdsTxtAnalyzer.Parser.AdsTxt

/-!
# The HTTP handlers: `AnalyzeSingleDomain` and `AnalyzeBatchDomains`

`AnalyzeSingleDomain` answers `GET /api/analyze/{domain}`. A missing domain is a bad request.
A successful analysis is sent with status 200. A failed one is sent with the status
`getStatusCodeForError` gives its error, as the error response `analysis failed` with the
error's text as its message. `AnalyzeBatchDomains` checks the decoded request, runs the batch
and sends its response with the status `getBatchStatusCode` gives it.

* **`getBatchStatusCode`** of an aggregated batch is 200 when every domain succeeded, 207
  when some did, and 400 when none did (`getBatchStatusCode_aggregateResults`).
* **`getStatusCodeForError`** classifies the text `err.Error()` by the substrings
  `not found`, `404`, `timeout`, `invalid domain` and `rate limit`, in that order. The error
  of a failed analysis is a `DomainError`, whose text holds the requested domain, so the
  domain is searched as well. The domain counts only through which of the five texts it holds
  (`getStatusCodeForError_newDomainError`), but those decide the status whatever the failure: a
  domain holding `404` turns every failure into a 404 (`analyzeSingleDomain_status_of_domain_404`).
  A server error from `404.example.com` is answered 404, where the same failure from
  `example.com` is answered 500 (`analyzeSingleDomain_status_depends_on_domain`).

A reply is its status code and its body. The body's time stamp, the headers and the JSON
encoding are left out, and so are the log calls.

The service's `AnalyzeDomains` need not return: its goroutine can panic, or block for ever
(`Call`). `AnalyzeBatchDomains` then ends the same way, with nothing written.
-/

namespace AdsTxtAnalyzer

/-- How a call ends for its caller: it returns a value, its goroutine panics with a value, or
it never returns. -/
inductive Call (α : Type)
  | returns (a : α)
  | panics (value : String)
  | blocks
  deriving DecidableEq, Repr

namespace Call

/-- The caller's code after the call, which runs on the value only when the call returns. -/
def map {α β : Type} (f : α → β) : Call α → Call β
  | returns a => returns (f a)
  | panics v => panics v
  | blocks => blocks

@[simp] theorem map_returns {α β : Type} (f : α → β) (a : α) : (returns a).map f = returns (f a) :=
  rfl

@[simp] theorem map_panics {α β : Type} (f : α → β) (v : String) :
    (panics v : Call α).map f = panics v := rfl

@[simp] theorem map_blocks {α β : Type} (f : α → β) : (blocks : Call α).map f = blocks := rfl

theorem map_eq_returns {α β : Type} {f : α → β} {c : Call α} {b : β} :
    c.map f = returns b ↔ ∃ a, c = returns a ∧ f a = b := by
  cases c <;> simp [map]

end Call

namespace Handler

/-- The response `ErrorResponse`, without its time stamp. -/
structure ErrorResponse where
  error : String
  message : String
  deriving DecidableEq, Repr

/-- What a handler writes: the status code, and the body (`writeJSONResponse`). -/
structure Reply (α : Type) where
  statusCode : Nat
  body : Except ErrorResponse α
  deriving DecidableEq, Repr

/-- The method `writeErrorResponse`. -/
def writeErrorResponse {α : Type} (statusCode : Nat) (error message : String) : Reply α :=
  ⟨statusCode, .error ⟨error, message⟩⟩

/-! ### Status codes -/

/-- The method `getStatusCodeForError`, on the error's text `err.Error()`. -/
def getStatusCodeForError (err : String) : Nat :=
  if Strings.contains err "not found" || Strings.contains err "404" then 404
  else if Strings.contains err "timeout" then 408
  else if Strings.contains err "invalid domain" then 400
  else if Strings.contains err "rate limit" then 429
  else 500

/-- The method `getBatchStatusCode`. -/
def getBatchStatusCode (response : BatchAnalysisResponse) : Nat :=
  if response.summary.failed = 0 then 200
  else if response.summary.succeeded = 0 then 400
  else 207

/-- **The status of a batch**: 200 when every domain succeeded, 207 when some did, and 400
when none did. -/
theorem getBatchStatusCode_aggregateResults (totalDomains : Nat) (rs : List DomainResult)
    (now : Nat) :
    getBatchStatusCode (aggregateResults totalDomains rs now) =
      if rs.all (·.success) then 200 else if rs.any (·.success) then 207 else 400 := by
  have hfailed : rs.countP (!·.success) = 0 ↔ rs.all (·.success) = true := by
    simp [List.countP_eq_zero, List.all_eq_true]
  have hsucc : rs.countP (·.success) = 0 ↔ rs.any (·.success) = false := by
    simp [List.countP_eq_zero, List.any_eq_false]
  rw [getBatchStatusCode, aggregateResults_summary]
  dsimp only
  by_cases ha : rs.all (·.success) = true
  · rw [if_pos (hfailed.mpr ha), if_pos ha]
  · rw [if_neg (mt hfailed.mp ha), if_neg ha]
    cases hany : rs.any (·.success)
    · rw [if_pos (hsucc.mpr hany)]; rfl
    · rw [if_neg (by rw [hsucc, hany]; decide)]; rfl

/-- A text that a domain holds is in the text of every error about that domain. -/
theorem contains_error_of_contains_domain {e : DomainError} {w : String}
    (h : Strings.contains e.domain w = true) : Strings.contains e.error w = true := by
  have hd : Strings.contains ("domain " ++ e.domain ++ ": " ++ e.message) w = true :=
    Strings.contains_append_right (Strings.contains_append_right (Strings.contains_append_left h))
  unfold DomainError.error
  split
  · exact Strings.contains_append_right (Strings.contains_append_right hd)
  · exact hd

/-- Whatever the failure, an error about a domain that holds `404` is a 404. -/
theorem getStatusCodeForError_of_domain_404 {e : DomainError}
    (h : Strings.contains e.domain "404" = true) : getStatusCodeForError e.error = 404 := by
  rw [getStatusCodeForError, contains_error_of_contains_domain h, Bool.or_true, if_pos rfl]

/-- A text found neither in `pre` nor across its end, and without a `:`, is found in
`pre ++ d ++ ":" ++ tail` exactly when it is found in `d` or in `tail`. -/
theorem infix_sep_iff {w pre d tail : List Char} (hw : w ≠ []) (hcolon : ':' ∉ w)
    (hpre : ¬ w <:+: pre) (hacross : ∀ i, i < w.length → 0 < i → ¬ w.take i <:+ pre) :
    w <:+: pre ++ d ++ ':' :: tail ↔ w <:+: d ∨ w <:+: tail := by
  have hsep : ∀ i, i < w.length → ¬ w.drop i <+: ':' :: tail := fun i hi hp => by
    have hne : w.drop i ≠ [] := by rw [Ne, List.drop_eq_nil_iff]; omega
    obtain ⟨x, xs, hx⟩ := List.exists_cons_of_ne_nil hne
    rw [hx, List.cons_prefix_cons] at hp
    exact hcolon (hp.1 ▸ (List.drop_subset i w) (hx ▸ List.mem_cons_self x xs))
  have hhead : ¬ w <+: ':' :: tail := by simpa using hsep 0 (List.length_pos.mpr hw)
  rw [Strings.infix_append_iff, Strings.infix_append_iff, List.infix_cons_iff]
  constructor
  · rintro ((hp | hd | ⟨i, h0, hi, hs, -⟩) | (hp | ht) | ⟨i, -, hi, -, hp⟩)
    · exact absurd hp hpre
    · exact .inl hd
    · exact absurd hs (hacross i hi h0)
    · exact absurd hp hhead
    · exact .inr ht
    · exact absurd hp (hsep i hi)
  · rintro (hd | ht)
    · exact .inl (.inr (.inl hd))
    · exact .inr (.inl (.inr ht))

/-- The texts `getStatusCodeForError` looks for are not empty, hold no `:`, and are found
neither in `"domain "` nor across its end. -/
theorem statusMarkers_facts :
    ∀ w ∈ ["not found", "404", "timeout", "invalid domain", "rate limit"],
      w.data ≠ [] ∧ ':' ∉ w.data ∧ ¬ w.data <:+: "domain ".data ∧
        ∀ i, i < w.data.length → 0 < i → ¬ w.data.take i <:+ "domain ".data := by
  decide

/-- The text of an error is `domain <domain>:` and a tail made of its message and its wrapped
error. -/
theorem error_data (e : DomainError) : ∃ tail,
    e.error.data = "domain ".data ++ e.domain.data ++ ':' :: tail ∧
      (newDomainError "" e.message e.err).error.data = "domain ".data ++ [] ++ ':' :: tail := by
  unfold DomainError.error newDomainError
  cases e.err with
  | some err => exact ⟨(" " ++ e.message ++ ": " ++ err).data, by simp, by simp⟩
  | none => exact ⟨(" " ++ e.message).data, by simp, by simp⟩

theorem contains_error {e : DomainError} {w : String}
    (hw : w ∈ ["not found", "404", "timeout", "invalid domain", "rate limit"]) :
    Strings.contains e.error w =
      (Strings.contains e.domain w || Strings.contains (newDomainError "" e.message e.err).error w) := by
  obtain ⟨hne, hcolon, hpre, hacross⟩ := statusMarkers_facts w hw
  obtain ⟨tail, h1, h2⟩ := error_data e
  rw [Bool.eq_iff_iff, Bool.or_eq_true, Strings.contains_iff, Strings.contains_iff,
    Strings.contains_iff, h1, h2, infix_sep_iff hne hcolon hpre hacross,
    infix_sep_iff hne hcolon hpre hacross, List.infix_nil]
  simp [hne]

/-- **The domain counts only through the texts searched for.** Two errors with the same message
and wrapped error, about domains that hold the same of the texts `getStatusCodeForError` looks
for, get the same status. -/
theorem getStatusCodeForError_newDomainError {d d' m : String} {err : Option String}
    (h : ∀ w ∈ ["not found", "404", "timeout", "invalid domain", "rate limit"],
      Strings.contains d w = Strings.contains d' w) :
    getStatusCodeForError (newDomainError d m err).error =
      getStatusCodeForError (newDomainError d' m err).error := by
  have key : ∀ w ∈ ["not found", "404", "timeout", "invalid domain", "rate limit"],
      Strings.contains (newDomainError d m err).error w =
        Strings.contains (newDomainError d' m err).error w := fun w hw => by
    rw [contains_error (e := newDomainError d m err) hw,
      contains_error (e := newDomainError d' m err) hw]
    exact congrArg (fun b => b || Strings.contains (newDomainError "" m err).error w) (h w hw)
  unfold getStatusCodeForError
  rw [key "not found" (by decide), key "404" (by decide), key "timeout" (by decide),
    key "invalid domain" (by decide), key "rate limit" (by decide)]

/-! ### The handlers -/

/-- The method `AnalyzeSingleDomain` for the path's `domain`: the reply, and the domain cache
after it. The service's `AnalyzeDomain` runs at time `now` on the cache `dc`, with the
fetcher's answer `fetched` and the parser `parse`. -/
def analyzeSingleDomain (dc : DomainCache) (now : Nat) (domain : String)
    (fetched : Except String String) (parse : String → Except String (List AdsTxtEntry)) :
    Reply DomainAnalysis × DomainCache :=
  if domain = "" then (writeErrorResponse 400 "domain is required" "", dc)
  else
    match analyzeDomain dc now domain fetched parse with
    | (.error err, dc) =>
      (writeErrorResponse (getStatusCodeForError err.error) "analysis failed" err.error, dc)
    | (.ok analysis, dc) => (⟨200, .ok analysis⟩, dc)

/-- The reply `AnalyzeBatchDomains` makes of what `AnalyzeDomains` returned: its error, as
`batch analysis failed` with status 500, or the response with the status `getBatchStatusCode`
gives it. -/
def batchReply : Except String BatchAnalysisResponse → Reply BatchAnalysisResponse
  | .error err => writeErrorResponse 500 "batch analysis failed" err
  | .ok response => ⟨getBatchStatusCode response, .ok response⟩

/-- The method `AnalyzeBatchDomains`, given the decoded request body (or the decoder's error)
and how the service's `AnalyzeDomains` ends for each list of domains: the reply, or the
service's panic or block, which the handler does not get past. -/
def analyzeBatchDomains (request : Except String (List String))
    (analyzeDomains : List String → Call (Except String BatchAnalysisResponse)) :
    Call (Reply BatchAnalysisResponse) :=
  match request with
  | .error err => .returns (writeErrorResponse 400 "invalid request body" err)
  | .ok domains =>
    if domains.length = 0 then .returns (writeErrorResponse 400 "domains array cannot be empty" "")
    else if domains.length > 100 then
      .returns (writeErrorResponse 400 "too many domains" "Maximum 100 domains per batch")
    else (analyzeDomains domains).map batchReply

/-- What `AnalyzeSingleDomain` answers for a domain: the analysis with status 200, or the
error response `analysis failed` with the status of the error and its text. -/
theorem analyzeSingleDomain_eq {dc : DomainCache} {now : Nat} {domain : String}
    (fetched : Except String String) (parse : String → Except String (List AdsTxtEntry))
    (hd : domain ≠ "") :
    (analyzeSingleDomain dc now domain fetched parse).1 =
      match (analyzeDomain dc now domain fetched parse).1 with
      | .error err => writeErrorResponse (getStatusCodeForError err.error) "analysis failed" err.error
      | .ok a => ⟨200, .ok a⟩ := by
  rw [analyzeSingleDomain, if_neg hd]
  rcases analyzeDomain dc now domain fetched parse with ⟨_ | _, _⟩ <;> rfl

/-- **The domain decides the status.** Whatever the cache, the fetch and the parse, a failed
analysis of a domain that holds `404` is answered 404. -/
theorem analyzeSingleDomain_status_of_domain_404 (dc : DomainCache) (now : Nat) {domain : String}
    (fetched : Except String String) (parse : String → Except String (List AdsTxtEntry))
    (h404 : Strings.contains domain "404" = true) :
    (analyzeSingleDomain dc now domain fetched parse).1.statusCode = 200 ∨
      (analyzeSingleDomain dc now domain fetched parse).1.statusCode = 404 := by
  have hd : domain ≠ "" := by rintro rfl; exact absurd h404 (by decide)
  rw [analyzeSingleDomain_eq fetched parse hd]
  cases hr : (analyzeDomain dc now domain fetched parse).1 with
  | error err =>
    exact .inr (getStatusCodeForError_of_domain_404 (analyzeDomain_error_domain hr ▸ h404))
  | ok a => exact .inl rfl

set_option maxRecDepth 4000 in
theorem analyzeSingleDomain_status_depends_on_domain :
    (analyzeSingleDomain ⟨.empty, 3600⟩ 0 "example.com"
      (.error "unexpected HTTP status: 500 500 Internal Server Error") parse).1.statusCode = 500 ∧
    (analyzeSingleDomain ⟨.empty, 3600⟩ 0 "404.example.com"
      (.error "unexpected HTTP status: 500 500 Internal Server Error") parse).1.statusCode = 404 := by
  have hfetch : ∀ domain, (analyzeDomain ⟨.empty, 3600⟩ 0 domain
      (.error "unexpected HTTP status: 500 500 Internal Server Error") parse).1 =
      .error (newDomainError domain "failed to fetch ads.txt"
        (some "unexpected HTTP status: 500 500 Internal Server Error")) := fun _ => rfl
  rw [analyzeSingleDomain_eq _ _ (by decide), hfetch, analyzeSingleDomain_eq _ _ (by decide),
    hfetch]
  decide

end Handler

end AdsTxtAnalyzer
