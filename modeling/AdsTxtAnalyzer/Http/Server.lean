import AdsTxtAnalyzer.Http.Service
import AdsTxtAnalyzer.Http.CleanPath
import AdsTxtAnalyzer.Regex

/-!
# The HTTP server

`NewServer` builds a gorilla/mux router with four routes (`registerRoutes`) and the four
middlewares, and serves every request with it. The router first cleans the request's path and
answers a path that changes with a redirect (301) to the cleaned path. Otherwise it tries the
routes in order: the regular expression of the route's path template, then its method. A
route that matches both gets the request, with the template's variables and wrapped in the
middlewares, logging outermost. A path that some route has but with another method gets
405, and any other path 404. Neither of these, nor the redirect, runs a middleware.

This module models the handlers as they write to the `ResponseWriter`, the router and the
server, and proves what one request does:

* **The handlers write the replies of the handler model**: `analyzeSingleDomain_refines` and
  `analyzeBatchDomains_refines` say that what the handlers send is what
  `Handler.analyzeSingleDomain` and `Handler.analyzeBatchDomains` reply.
* **The routing table** (`matchRoutes_routes`): the router, which matches regular expressions
  with the engine of `AdsTxtAnalyzer.Regex`, sends a request to the endpoint its path names,
  read off `registerRoutes` as a table (`endpointOf`).

The results on whole requests (`serve`) are in `AdsTxtAnalyzer.Http.Pipeline`.
-/

namespace AdsTxtAnalyzer

namespace Http

/-! ### The handlers -/

/-- The method `writeJSONResponse`: the headers `Content-Type` and `X-Request-ID` (the id of
the context's event), the status, then the encoded value. The encoding is taken to succeed. -/
def writeJSONResponse (env : Env) (r : Request) (w : Writer) (statusCode : Nat) (data : Payload) :
    Writer :=
  (((w.set "Content-Type" "application/json").set "X-Request-ID"
    (getLogEvent env r.logEvent).processID).writeHeader statusCode).write data

/-- The method `writeErrorResponse`. -/
def writeErrorResponse (env : Env) (r : Request) (w : Writer) (statusCode : Nat)
    (error message : String) : Writer :=
  writeJSONResponse env r w statusCode (.errorResponse ⟨error, message⟩)

/-- `mux.Vars(r)[key]`: `""` for a variable the route does not have. -/
def Request.var (r : Request) (key : String) : String := (List.lookup key r.vars).getD ""

theorem Request.var_eq {r : Request} {key value : String} (h : r.vars = [(key, value)]) :
    r.var key = value := by
  simp [Request.var, h]

/-- The method `Handler.AnalyzeSingleDomain`. -/
def analyzeSingleDomain : HandlerFn := fun env r st w =>
  let domain := r.var "domain"
  if domain = "" then ⟨st, writeErrorResponse env r w 400 "domain is required" "", .returns ()⟩
  else
    let st := logInfo env r.logEvent "domain_analysis" ("Starting analysis for domain: " ++ domain)
      none st
    match Service.analyzeDomain env r.logEvent domain st with
    | (.error err, st) =>
      ⟨logError env r.logEvent "domain_analysis" domain "Domain analysis failed" err.error
          logSeverityMedium st,
        writeErrorResponse env r w (Handler.getStatusCodeForError err.error) "analysis failed"
          err.error, .returns ()⟩
    | (.ok analysis, st) =>
      ⟨logSuccess env r.logEvent "domain_analysis" domain "Successfully analyzed domain" st,
        writeJSONResponse env r w 200 (.analysis analysis), .returns ()⟩

/-- The method `Handler.AnalyzeBatchDomains`. A panic or a block of the service's
`AnalyzeDomains` is the handler's own. -/
def analyzeBatchDomains : HandlerFn := fun env r st w =>
  match env.decode r.body with
  | .error err =>
    ⟨logError env r.logEvent "batch_analysis" "" "Invalid request body" err logSeverityLow st,
      writeErrorResponse env r w 400 "invalid request body" err, .returns ()⟩
  | .ok domains =>
    if domains.length = 0 then
      ⟨st, writeErrorResponse env r w 400 "domains array cannot be empty" "", .returns ()⟩
    else if domains.length > 100 then
      ⟨st, writeErrorResponse env r w 400 "too many domains" "Maximum 100 domains per batch",
        .returns ()⟩
    else
      let st := logInfo env r.logEvent "batch_analysis"
        ("Starting batch analysis for " ++ toString domains.length ++ " domains") none st
      let (call, cache, calls) := env.analyzeDomains st.cache domains
      let st := logCalls env r.logEvent calls { st with cache := cache }
      match call with
      | .returns (.error err) =>
        ⟨logError env r.logEvent "batch_analysis" "" "Batch analysis failed" err logSeverityMedium st,
          writeErrorResponse env r w 500 "batch analysis failed" err, .returns ()⟩
      | .returns (.ok response) =>
        ⟨logSuccess env r.logEvent "batch_analysis" ""
            ("Completed batch analysis: " ++ toString response.summary.succeeded ++ " succeeded, " ++
              toString response.summary.failed ++ " failed") st,
          writeJSONResponse env r w (Handler.getBatchStatusCode response) (.batch response),
          .returns ()⟩
      | .panics v => ⟨st, w, .panics v⟩
      | .blocks => ⟨st, w, .blocks⟩

/-- The method `Handler.HealthCheck`. -/
def healthCheck : HandlerFn := fun env r st w =>
  ⟨logInfo env r.logEvent "health_check" "Health check performed successfully" none st,
    writeJSONResponse env r w 200 (.health ⟨"healthy", "1.0.0"⟩), .returns ()⟩

/-- The body of the root handler. -/
def rootBody : String :=
  "\x7b\"message\":\"AdsTxt Analysis API\",\"version\":\"1.0.0\",\"endpoints\":[\"/health\"," ++
    "\"/api/analyze/\x7bdomain\x7d\",\"/api/batch-analysis\"]\x7d"

/-- The handler `registerRoutes` gives the path `/`. -/
def rootHandler : HandlerFn := fun _ _ st w =>
  ⟨st, ((w.set "Content-Type" "application/json").writeHeader 200).write (.text rootBody),
    .returns ()⟩

/-! ### What the handlers write -/

/-- The value a reply's body is sent as. -/
def payloadOf {α : Type} (f : α → Payload) : Except Handler.ErrorResponse α → Payload
  | .error e => .errorResponse e
  | .ok a => f a

/-- A body other than the error `err` is not sent as its error response, when no value is. -/
theorem payloadOf_ne_errorResponse {α : Type} {f : α → Payload} {x : Except Handler.ErrorResponse α}
    {err : Handler.ErrorResponse} (hx : x ≠ .error err) (hf : ∀ a, f a ≠ .errorResponse err) :
    payloadOf f x ≠ .errorResponse err := by
  cases x with
  | error e => exact fun h => hx (congrArg Except.error (Payload.errorResponse.inj h))
  | ok a => exact hf a

section Handlers

variable (env : Env) (r : Request) (st : ServerState) (w : Writer)

@[simp] theorem writeJSONResponse_statusCode (code : Nat) (data : Payload) :
    (writeJSONResponse env r w code data).statusCode = code := rfl

@[simp] theorem writeJSONResponse_body (code : Nat) (data : Payload) :
    (writeJSONResponse env r w code data).body = w.body ++ [data] := rfl

/-- A writer that has sent nothing sends the status `writeJSONResponse` is given. -/
theorem writeJSONResponse_status {w : Writer} (h : w.sent = none) (code : Nat) (data : Payload) :
    (writeJSONResponse env r w code data).status = code :=
  Writer.status_write_writeHeader (by simpa using h) code data

/-- **`AnalyzeSingleDomain` writes the reply of the handler model**: the status and the body of
`Handler.analyzeSingleDomain` for the path's domain, and it leaves the domain cache as that
reply leaves it. -/
theorem analyzeSingleDomain_refines :
    let reply := Handler.analyzeSingleDomain st.cache env.now (r.var "domain")
      (env.fetched (r.var "domain")) parse
    (analyzeSingleDomain env r st w).writer =
        writeJSONResponse env r w reply.1.statusCode (payloadOf .analysis reply.1.body) ∧
      (analyzeSingleDomain env r st w).state.cache = reply.2 := by
  simp only [analyzeSingleDomain, Handler.analyzeSingleDomain]
  split
  · exact ⟨rfl, rfl⟩
  · set st1 := logInfo env r.logEvent "domain_analysis"
      ("Starting analysis for domain: " ++ r.var "domain") none st
    have hc : st1.cache = st.cache := rfl
    obtain ⟨h1, h2, -⟩ := Service.analyzeDomain_eq env r.logEvent (r.var "domain") st1
    rw [hc] at h1 h2
    rcases hp : Service.analyzeDomain env r.logEvent (r.var "domain") st1 with ⟨_ | a, st'⟩ <;>
      rcases hq : AdsTxtAnalyzer.analyzeDomain st.cache env.now (r.var "domain")
        (env.fetched (r.var "domain")) parse with ⟨_ | a', dc⟩ <;>
      simp_all [logError, logSuccess, writeErrorResponse, Handler.writeErrorResponse, payloadOf]

/-- What a handler leaves on the writer `w` when its reply ends as `reply`: a status and a
value that return are written with `writeJSONResponse`, and the handler returns; when the call
it makes panics or never returns, it has written nothing and ends the same way. -/
def WritesReply (o : Outcome) : Call (Nat × Payload) → Prop
  | .returns (code, data) => o.writer = writeJSONResponse env r w code data ∧ o.ending = .returns ()
  | .panics v => o.writer = w ∧ o.ending = .panics v
  | .blocks => o.writer = w ∧ o.ending = .blocks

theorem analyzeSingleDomain_ending : (analyzeSingleDomain env r st w).ending = .returns () := by
  simp only [analyzeSingleDomain]
  split
  · rfl
  · split <;> rfl

/-- **`AnalyzeBatchDomains` writes the reply of the handler model** for the decoded body and
the way the service's `AnalyzeDomains` ends on the domain cache. -/
theorem analyzeBatchDomains_refines :
    WritesReply env r w (analyzeBatchDomains env r st w)
      ((Handler.analyzeBatchDomains (env.decode r.body)
        fun domains => (env.analyzeDomains st.cache domains).1).map
          fun reply => (reply.statusCode, payloadOf .batch reply.body)) := by
  simp only [analyzeBatchDomains, Handler.analyzeBatchDomains]
  rcases env.decode r.body with err | domains
  · exact ⟨rfl, rfl⟩
  · dsimp only
    split_ifs
    · exact ⟨rfl, rfl⟩
    · exact ⟨rfl, rfl⟩
    · rcases hb : env.analyzeDomains st.cache domains with
        ⟨(err | response) | v | _, cache, calls⟩ <;>
        simp [WritesReply, logInfo, hb, writeErrorResponse, Handler.writeErrorResponse,
          Handler.batchReply, payloadOf]

/-- The outcomes of a handler that answers with at most one `writeJSONResponse`: it writes a
reply, or ends as a call it makes does, leaves the rate limiter alone, and logs only under the
request's event. -/
def AnswersJSON (o : Outcome) : Prop :=
  (∃ reply, WritesReply env r w o reply) ∧ o.state.limiter = st.limiter ∧
    LogsUnder (getLogEvent env r.logEvent) st o.state

theorem answersJSON_analyzeSingleDomain : AnswersJSON env r st w (analyzeSingleDomain env r st w) := by
  refine ⟨⟨.returns (_, _), (analyzeSingleDomain_refines env r st w).1,
    analyzeSingleDomain_ending env r st w⟩, ?_⟩
  simp only [analyzeSingleDomain]
  split
  · exact ⟨rfl, .refl _ st⟩
  · set st1 := logInfo env r.logEvent "domain_analysis"
      ("Starting analysis for domain: " ++ r.var "domain") none st
    have hlim := (Service.analyzeDomain_eq env r.logEvent (r.var "domain") st1).2.2
    have hlog := (logsUnder_logEntry env r.logEvent st _ _ _ _ _ _).trans
      (Service.logsUnder_analyzeDomain env r.logEvent (r.var "domain") st1)
    rcases hp : Service.analyzeDomain env r.logEvent (r.var "domain") st1 with ⟨_ | a, st'⟩ <;>
      rw [hp] at hlim hlog
    · exact ⟨hlim, hlog.append_logEntry _ _ _ _ _ _ _ _ _⟩
    · exact ⟨hlim, hlog.append_logEntry _ _ _ _ _ _ _ _ _⟩

theorem answersJSON_analyzeBatchDomains :
    AnswersJSON env r st w (analyzeBatchDomains env r st w) := by
  refine ⟨⟨_, analyzeBatchDomains_refines env r st w⟩, ?_⟩
  simp only [analyzeBatchDomains]
  rcases env.decode r.body with err | domains
  · exact ⟨rfl, (LogsUnder.refl _ st).append_logEntry _ _ _ _ _ _ _ _ _⟩
  · dsimp only
    split_ifs
    · exact ⟨rfl, .refl _ st⟩
    · exact ⟨rfl, .refl _ st⟩
    · split <;>
        refine ⟨by simp [logError, logSuccess, logInfo], ?_⟩ <;>
        repeat (first | exact .refl _ st | apply LogsUnder.append_logEntry |
          apply LogsUnder.append_logCalls | apply LogsUnder.set_cache)

theorem answersJSON_healthCheck : AnswersJSON env r st w (healthCheck env r st w) :=
  ⟨⟨.returns (_, _), rfl, rfl⟩, rfl, (LogsUnder.refl _ st).append_logEntry _ _ _ _ _ _ _ _ _⟩

end Handlers

/-- What the results on whole requests use of a route's handler: when it does not return it
has written nothing, it leaves the rate limiter alone, logs only under the request's event,
and, returning on a writer that has sent nothing, sends the status it records. -/
structure WellBehaved (h : HandlerFn) : Prop where
  writer_eq : ∀ env r st w, (h env r st w).ending ≠ .returns () → (h env r st w).writer = w
  limiter_eq : ∀ env r st w, (h env r st w).state.limiter = st.limiter
  logsUnder : ∀ env r st w, LogsUnder (getLogEvent env r.logEvent) st (h env r st w).state
  statusCode_eq : ∀ env r st w, w.sent = none → (h env r st w).ending = .returns () →
    (h env r st w).writer.statusCode = (h env r st w).writer.status

theorem WellBehaved.of_answersJSON {h : HandlerFn}
    (hj : ∀ env r st w, AnswersJSON env r st w (h env r st w)) : WellBehaved h where
  writer_eq env r st w hr := by
    obtain ⟨⟨(⟨code, data⟩ | v | _), hw'⟩, -⟩ := hj env r st w
    exacts [absurd hw'.2 hr, hw'.1, hw'.1]
  limiter_eq env r st w := (hj env r st w).2.1
  logsUnder env r st w := (hj env r st w).2.2
  statusCode_eq env r st w hw hr := by
    obtain ⟨⟨(⟨code, data⟩ | v | _), hw'⟩, -⟩ := hj env r st w
    · rw [hw'.1, writeJSONResponse_statusCode, writeJSONResponse_status env r hw]
    · exact absurd (hw'.2.symm.trans hr) Call.noConfusion
    · exact absurd (hw'.2.symm.trans hr) Call.noConfusion

theorem wellBehaved_rootHandler : WellBehaved rootHandler where
  writer_eq _ _ _ _ hr := absurd rfl hr
  limiter_eq _ _ _ _ := rfl
  logsUnder _ _ st _ := .refl _ st
  statusCode_eq _ _ _ _ hw _ := (Writer.status_write_writeHeader (by simpa using hw) _ _).symm

/-! ### The router -/

end Http

namespace Mux

open Http

/-- A route of the router: the regular expression `^…$` its path template compiles to, the
names of the template's variables in order, the methods `Methods` allows, and the handler. -/
structure Route where
  regexp : Regex
  varNames : List String
  methods : List String
  handler : HandlerFn

/-- How `Router.Match` ends: a route with the variables of the path, a route whose path
matched with another method only (`ErrMethodMismatch`), or nothing. -/
inductive Match
  | route (rt : Route) (vars : List (String × String))
  | methodMismatch
  | notFound

/-- The variables `routeRegexp.setMatch` reads off a path: the text of each group of the
template, under the variable's name. -/
def Route.vars (rt : Route) (path : String) : List (String × String) :=
  rt.varNames.zip (rt.regexp.findStringSubmatch rt.varNames.length path).tail

/-- The method `Router.Match` over the routes in their order: a route matches when its path's
regular expression does and then its methods; `mismatch` records a route that matched the path
only. -/
def matchRoutes (r : Request) : List Route → Bool → Match
  | [], mismatch => if mismatch then .methodMismatch else .notFound
  | rt :: rts, mismatch =>
    if rt.regexp.matchString r.path then
      if r.method ∈ rt.methods then .route rt (rt.vars r.path) else matchRoutes r rts true
    else matchRoutes r rts mismatch

/-- `http.NotFound`: `http.Error(w, "404 page not found", 404)`. -/
def notFound (w : Writer) : Writer :=
  (((w.set "Content-Type" "text/plain; charset=utf-8").set "X-Content-Type-Options"
    "nosniff").writeHeader 404).write (.text "404 page not found\n")

/-- The `Location` of the router's redirect: `url.String()` of a copy of the request's URL
whose path is the cleaned path, so the query stays and the path is escaped. -/
def redirectLocation (r : Request) : String :=
  ⟨Url.originString (cleanPath r.path).data r.rawQuery.data r.forceQuery⟩

/-- The method `Router.ServeHTTP`: the redirect to the cleaned path, then the matched route's
handler inside the middlewares (the first one outermost), `methodNotAllowedHandler` or
`http.NotFoundHandler`. -/
def serveHTTP (routes : List Route) (middlewares : List Middleware) : HandlerFn := fun env r st w =>
  if cleanPath r.path ≠ r.path then
    ⟨st, (w.set "Location" (redirectLocation r)).writeHeader 301, .returns ()⟩
  else
    match matchRoutes r routes false with
    | .route rt vars => middlewares.foldr (fun m h => m h) rt.handler env { r with vars := vars } st w
    | .methodMismatch => ⟨st, w.writeHeader 405, .returns ()⟩
    | .notFound => ⟨st, notFound w, .returns ()⟩

end Mux

namespace Http

/-! ### The server -/

/-- `HandleFunc("/health", HealthCheck).Methods("GET")`. -/
def healthRoute : Mux.Route := ⟨.lit "/health".data, [], ["GET"], healthCheck⟩

/-- `HandleFunc("/api/analyze/{domain}", AnalyzeSingleDomain).Methods("GET")`: the template
compiles to `^/api/analyze/(?P<v0>[^/]+)$`. -/
def analyzeRoute : Mux.Route :=
  ⟨.cat (.lit "/api/analyze/".data) (.group 1 (.plus (.cls (· != '/')))), ["domain"], ["GET"],
    analyzeSingleDomain⟩

/-- `HandleFunc("/api/batch-analysis", AnalyzeBatchDomains).Methods("POST")`. -/
def batchRoute : Mux.Route := ⟨.lit "/api/batch-analysis".data, [], ["POST"], analyzeBatchDomains⟩

/-- `HandleFunc("/", …).Methods("GET")`. -/
def rootRoute : Mux.Route := ⟨.lit "/".data, [], ["GET"], rootHandler⟩

/-- The routes `registerRoutes` registers, in order. -/
def routes : List Mux.Route := [healthRoute, analyzeRoute, batchRoute, rootRoute]

/-- The handler `NewServer` gives the `http.Server`: the router with the middlewares in the
order `Use` registers them. -/
def newServer : HandlerFn :=
  Mux.serveHTTP routes [loggingMiddleware, rateLimitingMiddleware, corsMiddleware, recoveryMiddleware]

/-- The handler `globalOptionsHandler` of net/http: the header `Content-Length: 0`, and the
empty 200 that net/http sends when a handler returns without writing. The body it reads and
throws away is left out. -/
def globalOptionsHandler : HandlerFn := fun _ _ st w =>
  ⟨st, w.set "Content-Length" "0", .returns ()⟩

/-- The method `serverHandler.ServeHTTP` of net/http: the request `OPTIONS *` goes to
`globalOptionsHandler`, since the `http.Server` of `NewServer` leaves
`DisableGeneralOptionsHandler` unset, and every other request to the server's handler. -/
def serverHandler (handler : HandlerFn) : HandlerFn := fun env r st w =>
  if r.requestURI = "*" ∧ r.method = "OPTIONS" then globalOptionsHandler env r st w
  else handler env r st w

/-! ### The routing table -/

/-- The endpoints `registerRoutes` declares. -/
inductive Endpoint
  | health
  | analyze (domain : String)
  | batch
  | root
  deriving DecidableEq, Repr

/-- The domain a path `/api/analyze/{domain}` names: what follows `/api/analyze/`, when it is
not empty and has no `/`. -/
def pathDomain (path : String) : Option String :=
  if path.data.take 13 = "/api/analyze/".data ∧ path.data.drop 13 ≠ [] ∧ '/' ∉ path.data.drop 13
  then some ⟨path.data.drop 13⟩ else none

/-- The endpoint a path names, if any, the routes read as a table. -/
def endpointOf (path : String) : Option Endpoint :=
  if path = "/health" then some .health
  else match pathDomain path with
    | some domain => some (.analyze domain)
    | none =>
      if path = "/api/batch-analysis" then some .batch
      else if path = "/" then some .root
      else none

namespace Endpoint

/-- The method the endpoint's route allows. -/
def method : Endpoint → String
  | batch => "POST"
  | _ => "GET"

/-- The endpoint's route. -/
def route : Endpoint → Mux.Route
  | health => healthRoute
  | analyze _ => analyzeRoute
  | batch => batchRoute
  | root => rootRoute

/-- The variables the router hands the endpoint's handler. -/
def vars : Endpoint → List (String × String)
  | analyze domain => [("domain", domain)]
  | _ => []

end Endpoint

end Http

namespace Regex

/-- `^w$` matches `w` only, with no capture. -/
theorem firstMatch_lit (w s : List Char) :
    (lit w).firstMatch s = if s = w then some [] else none := by
  split
  · rename_i h
    subst h
    obtain ⟨caps, hc⟩ := Option.isSome_iff_exists.mp
      ((matchString_iff (lit s) ⟨s⟩).mpr (matches_lit.mpr rfl))
    rw [hc, (derives_lit_iff.mp (firstMatch_derives hc)).2]
  · cases hc : (lit w).firstMatch s with
    | none => rfl
    | some caps => exact absurd (derives_lit_iff.mp (firstMatch_derives hc)).1 ‹_›

/-- `^w(c+)$` for a class `c` derives `w` followed by a non-empty text of the class, which
group `i` captures. -/
theorem derives_lit_group_plus_iff {w s : List Char} {i : Nat} {p : Char → Bool}
    {caps : List (Nat × List Char)} :
    Derives (cat (lit w) (group i (plus (cls p)))) s caps ↔
      ∃ d, s = w ++ d ∧ d ≠ [] ∧ (∀ c ∈ d, p c = true) ∧ caps = [(i, d)] := by
  simp only [derives_cat_iff, derives_lit_iff, derives_group_iff, derives_plus_cls_iff]
  constructor
  · rintro ⟨u, v, ca, cb, rfl, rfl, ⟨rfl, rfl⟩, cs, rfl, rfl, hv, hp⟩
    exact ⟨v, rfl, hv, hp, rfl⟩
  · rintro ⟨d, rfl, hd, hp, rfl⟩
    exact ⟨w, d, [], [(i, d)], rfl, rfl, ⟨rfl, rfl⟩, [], rfl, rfl, hd, hp⟩

/-- The match of `^w(c+)$`: the text after `w`, when the text starts with `w` and the rest is
a non-empty text of the class. -/
theorem firstMatch_lit_group_plus (w s : List Char) (i : Nat) (p : Char → Bool) :
    (cat (lit w) (group i (plus (cls p)))).firstMatch s =
      if s.take w.length = w ∧ s.drop w.length ≠ [] ∧ ∀ c ∈ s.drop w.length, p c = true
      then some [(i, s.drop w.length)] else none := by
  split
  · rename_i h
    obtain ⟨hw, hd, hp⟩ := h
    have hs : s = w ++ s.drop w.length := by
      conv_lhs => rw [← List.take_append_drop w.length s, hw]
    obtain ⟨caps, hc⟩ := Option.isSome_iff_exists.mp ((matchString_iff _ ⟨s⟩).mpr
      (derives_lit_group_plus_iff.mpr ⟨_, hs, hd, hp, rfl⟩).matches)
    obtain ⟨d, hsd, -, -, rfl⟩ := derives_lit_group_plus_iff.mp (firstMatch_derives hc)
    rw [hc, List.append_cancel_left (hs.symm.trans hsd)]
  · rename_i h
    cases hc : (cat (lit w) (group i (plus (cls p)))).firstMatch s with
    | none => rfl
    | some caps =>
      obtain ⟨d, rfl, hd, hp, -⟩ := derives_lit_group_plus_iff.mp (firstMatch_derives hc)
      exact absurd ⟨by simp, by simpa using hd, by simpa using hp⟩ h

end Regex

namespace Http

/-- A route with a literal path matches that path only and reads no variable. -/
theorem matchString_lit (w p : String) : (Regex.lit w.data).matchString p = decide (p = w) := by
  rw [Regex.matchString, Regex.firstMatch_lit]
  by_cases h : p = w
  · simp [h]
  · rw [if_neg fun e => h (String.ext e)]
    simp [h]

/-- The analysis route's regular expression matches the paths that name a domain, and captures
the domain. -/
theorem firstMatch_analyzeRoute (p : String) :
    analyzeRoute.regexp.firstMatch p.data = (pathDomain p).map fun d => [(1, d.data)] := by
  have hlen : ("/api/analyze/" : String).data.length = 13 := by decide
  rw [analyzeRoute, Regex.firstMatch_lit_group_plus, hlen, pathDomain]
  simp only [bne_iff_ne, ne_eq, List.forall_mem_ne']
  split <;> rfl

theorem vars_analyzeRoute {p d : String} (h : pathDomain p = some d) :
    analyzeRoute.vars p = [("domain", d)] := by
  have hm := firstMatch_analyzeRoute p
  rw [h] at hm
  rw [Mux.Route.vars, Regex.findStringSubmatch_of_firstMatch hm]
  rfl

/-- No literal route's path names a domain. -/
theorem pathDomain_of_literal {p : String}
    (h : p = "/health" ∨ p = "/api/batch-analysis" ∨ p = "/") : pathDomain p = none := by
  rcases h with rfl | rfl | rfl <;> decide

/-- **The routing table**: the router sends a request to the route of the endpoint its path
names when the method is the endpoint's, answers a method mismatch when it is not, and finds
nothing for a path that names no endpoint. The router matches regular expressions; the table
reads the paths directly. -/
theorem matchRoutes_routes (r : Request) :
    Mux.matchRoutes r routes false =
      match endpointOf r.path with
      | some e => if r.method = e.method then .route e.route e.vars else .methodMismatch
      | none => .notFound := by
  have ha : analyzeRoute.regexp.matchString r.path = (pathDomain r.path).isSome := by
    rw [Regex.matchString, firstMatch_analyzeRoute, Option.isSome_map']
  have hh : healthRoute.regexp.matchString r.path = decide (r.path = "/health") :=
    matchString_lit _ _
  have hb : batchRoute.regexp.matchString r.path = decide (r.path = "/api/batch-analysis") :=
    matchString_lit _ _
  have hr : rootRoute.regexp.matchString r.path = decide (r.path = "/") := matchString_lit _ _
  have hm : healthRoute.methods = ["GET"] ∧ analyzeRoute.methods = ["GET"] ∧
      batchRoute.methods = ["POST"] ∧ rootRoute.methods = ["GET"] := ⟨rfl, rfl, rfl, rfl⟩
  have hv : ∀ p, healthRoute.vars p = [] ∧ batchRoute.vars p = [] ∧ rootRoute.vars p = [] :=
    fun _ => ⟨rfl, rfl, rfl⟩
  simp only [routes, Mux.matchRoutes, ha, hh, hb, hr, hm, List.mem_singleton, endpointOf]
  by_cases h1 : r.path = "/health"
  · simp [h1, pathDomain_of_literal, Endpoint.method, Endpoint.route, Endpoint.vars, hv]
  · cases hd : pathDomain r.path with
    | some d =>
      have h3 : r.path ≠ "/api/batch-analysis" := fun h => by simp [pathDomain_of_literal, h] at hd
      have h4 : r.path ≠ "/" := fun h => by simp [pathDomain_of_literal, h] at hd
      simp [h1, h3, h4, Endpoint.method, Endpoint.route, Endpoint.vars, vars_analyzeRoute hd]
    | none =>
      by_cases h3 : r.path = "/api/batch-analysis"
      · simp [h1, h3, Endpoint.method, Endpoint.route, Endpoint.vars, hv]
      · by_cases h4 : r.path = "/"
        · simp [h1, h3, h4, Endpoint.method, Endpoint.route, Endpoint.vars, hv]
        · simp [h1, h3, h4]

/-- Every route's handler is well behaved. -/
theorem wellBehaved_of_mem_routes {rt : Mux.Route} (h : rt ∈ routes) : WellBehaved rt.handler := by
  simp only [routes, List.mem_cons, List.mem_singleton, List.not_mem_nil, or_false] at h
  rcases h with rfl | rfl | rfl | rfl
  · exact .of_answersJSON answersJSON_healthCheck
  · exact .of_answersJSON answersJSON_analyzeSingleDomain
  · exact .of_answersJSON answersJSON_analyzeBatchDomains
  · exact wellBehaved_rootHandler

end Http

end AdsTxtAnalyzer
