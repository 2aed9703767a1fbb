import AdsTxtAnalyzer.Http.Server

/-!
# Serving one request

`serve` runs the `http.Server` of `NewServer` on one request and a fresh `ResponseWriter`:
net/http's `serverHandler` answers `OPTIONS *` itself and hands every other request to the
router. A request whose path is not clean is redirected, one that names no endpoint, or an
endpoint with another method, is answered by the router alone, and every other request runs
through the four middlewares to its handler. `serve_of_optionsStar`, `serve_of_not_clean`,
`serve_of_routed` and `serve_of_not_routed` say which, and `chain_eq` says once what the
middlewares do around a handler.

A handler ends in one of three ways (`Call`). The batch endpoint's call of `AnalyzeDomains`
can panic, and `recoveryMiddleware` answers the request 500; it can also never return, and then
the request is never answered and its end never logged (`serve_admitted`,
`serve_completion_status`).

Requests are served one at a time on the server's state: the model runs a request alone, as
`TwoTierRateLimiter.allow` runs one call alone.
-/

namespace AdsTxtAnalyzer

namespace Handler

/-- The replies `AnalyzeBatchDomains` makes once the service has returned: an error response
of the handler's own, or the response of the service's with the status `getBatchStatusCode`
gives it. -/
theorem analyzeBatchDomains_eq_returns {request : Except String (List String)}
    {analyzeDomains : List String → Call (Except String BatchAnalysisResponse)}
    {reply : Reply BatchAnalysisResponse}
    (h : analyzeBatchDomains request analyzeDomains = .returns reply) :
    (∃ code error message, reply = writeErrorResponse code error message ∧ code ∈ [400, 500] ∧
        (error, message) ≠ ("domain is required", "")) ∨
      ∃ response, reply = ⟨getBatchStatusCode response, .ok response⟩ := by
  unfold analyzeBatchDomains at h
  split at h
  · exact .inl ⟨_, _, _, (Call.returns.inj h).symm, by decide, by simp⟩
  · split_ifs at h
    · exact .inl ⟨_, _, _, (Call.returns.inj h).symm, by decide, by simp⟩
    · exact .inl ⟨_, _, _, (Call.returns.inj h).symm, by decide, by simp⟩
    · obtain ⟨a, -, rfl⟩ := Call.map_eq_returns.mp h
      rcases a with err | response
      · exact .inl ⟨_, _, _, rfl, by decide, by simp⟩
      · exact .inr ⟨response, rfl⟩

/-- `AnalyzeBatchDomains` never replies `domain is required`. -/
theorem analyzeBatchDomains_body_ne {request : Except String (List String)}
    {analyzeDomains : List String → Call (Except String BatchAnalysisResponse)}
    {reply : Reply BatchAnalysisResponse}
    (h : analyzeBatchDomains request analyzeDomains = .returns reply) :
    reply.body ≠ .error ⟨"domain is required", ""⟩ := by
  rcases analyzeBatchDomains_eq_returns h with ⟨_, _, _, rfl, -, hne⟩ | ⟨response, rfl⟩
  · simpa [writeErrorResponse] using hne
  · simp

/-- A domain that is not empty is never answered `domain is required`. -/
theorem analyzeSingleDomain_body_ne (dc : DomainCache) (now : Nat) {domain : String}
    (fetched : Except String String) (parse : String → Except String (List AdsTxtEntry))
    (hd : domain ≠ "") :
    (analyzeSingleDomain dc now domain fetched parse).1.body ≠ .error ⟨"domain is required", ""⟩ := by
  rw [analyzeSingleDomain_eq fetched parse hd]
  split <;> simp [writeErrorResponse]

end Handler

namespace Http

/-- One request served by the `http.Server` of `NewServer` on a fresh `ResponseWriter`. -/
def serve (env : Env) (r : Request) (st : ServerState) : Outcome :=
  serverHandler newServer env r st Writer.empty

/-- The middlewares `NewServer` registers, around a handler, logging outermost. -/
def chain (h : HandlerFn) : HandlerFn :=
  loggingMiddleware (rateLimitingMiddleware (corsMiddleware (recoveryMiddleware h)))

/-! ### The answers of net/http and of the router -/

section Serve

variable (env : Env) (r : Request) (st : ServerState)

/-- `OPTIONS *` is answered by net/http: an empty 200 with `Content-Length: 0`. -/
theorem serve_of_optionsStar (h : r.requestURI = "*" ∧ r.method = "OPTIONS") :
    serve env r st = ⟨st, Writer.empty.set "Content-Length" "0", .returns ()⟩ :=
  if_pos h

/-- Every other request goes to the router. -/
theorem serve_of_not_optionsStar (h : ¬(r.requestURI = "*" ∧ r.method = "OPTIONS")) :
    serve env r st = newServer env r st Writer.empty :=
  if_neg h

/-- A path that cleaning changes is redirected to the request's URL with the cleaned path. -/
theorem serve_of_not_clean (ho : ¬(r.requestURI = "*" ∧ r.method = "OPTIONS"))
    (h : Mux.cleanPath r.path ≠ r.path) :
    serve env r st =
      ⟨st, (Writer.empty.set "Location" (Mux.redirectLocation r)).writeHeader 301, .returns ()⟩ := by
  rw [serve_of_not_optionsStar env r st ho]
  exact if_pos h

/-- A clean path goes to the endpoint it names, through the middlewares, when the method is
the endpoint's; the router answers 405 when it is not, and 404 when the path names none. -/
theorem serve_of_clean (ho : ¬(r.requestURI = "*" ∧ r.method = "OPTIONS"))
    (h : Mux.cleanPath r.path = r.path) :
    serve env r st =
      match endpointOf r.path with
      | some e =>
        if r.method = e.method then chain e.route.handler env { r with vars := e.vars } st Writer.empty
        else ⟨st, Writer.empty.writeHeader 405, .returns ()⟩
      | none => ⟨st, Mux.notFound Writer.empty, .returns ()⟩ := by
  rw [serve_of_not_optionsStar env r st ho, newServer, Mux.serveHTTP, if_neg (not_not.mpr h),
    matchRoutes_routes]
  rcases endpointOf r.path with _ | e
  · rfl
  · dsimp only
    split_ifs <;> rfl

end Serve

theorem Endpoint.route_mem (e : Endpoint) : e.route ∈ routes := by
  cases e <;> simp [Endpoint.route, routes]

/-- No endpoint's method is `OPTIONS`. -/
theorem Endpoint.method_ne_options (e : Endpoint) : e.method ≠ "OPTIONS" := by
  cases e <;> simp [Endpoint.method]

/-! ### The middlewares around a handler -/

/-- The outcome of a handler run for an admitted request: on the request with its event, on the
state with the start logged and the limiter's answer, and on the writer `w` with the CORS
headers. -/
def admitted (h : HandlerFn) (env : Env) (r : Request) (st : ServerState) (w : Writer) : Outcome :=
  h env { r with logEvent := some (requestLogEvent env r) }
    { logInfo env (some (requestLogEvent env r)) "http_request_start" "HTTP request received" none
        st with limiter := (st.limiter.allow (getClientIP r) env.now).2 }
    (corsHeaders { w with statusCode := 200 })

/-- The outcome of a denied request before its end is logged: the denial logged, and the 429 of
`rateLimitingMiddleware` written. -/
def denied (env : Env) (r : Request) (st : ServerState) (w : Writer) : Outcome :=
  ⟨logError env (some (requestLogEvent env r)) "rate_limited" "" "Rate limit exceeded"
      errRateLimitExceeded logSeverityMedium
      { logInfo env (some (requestLogEvent env r)) "http_request_start" "HTTP request received"
          none st with limiter := (st.limiter.allow (getClientIP r) env.now).2 },
    writeRateLimited { w with statusCode := 200 } env.processID, .returns ()⟩

/-- What the server sends for a request whose reply ends as `reply`, with the headers
`headers`: a reply that returns is sent with its status and value; a panic is answered with
the 500 of `recoveryMiddleware`; a reply that never returns leaves the request unanswered, with
nothing sent. -/
def SendsReply (o : Outcome) (headers : List (String × String)) : Call (Nat × Payload) → Prop
  | .returns (code, data) => o.ending = .returns () ∧ o.writer.status = code ∧
      o.writer.body = [data] ∧ o.writer.sentHeader = headers
  | .panics _ => o.ending = .returns () ∧ o.writer.status = 500 ∧
      o.writer.body = [.text internalErrorBody] ∧ o.writer.sentHeader = headers
  | .blocks => o.ending = .blocks ∧ o.writer.sent = none ∧ o.writer.body = []

/-- The log of the end changes nothing of what is sent. -/
theorem sendsReply_logCompletion {env : Env} {ctx : Option LogEvent} {o : Outcome}
    {headers : List (String × String)} {reply : Call (Nat × Payload)} :
    SendsReply (logCompletion env ctx o) headers reply ↔ SendsReply o headers reply := by
  rcases reply with ⟨code, data⟩ | v | _ <;> simp [SendsReply]

/-- The headers of a JSON reply to an admitted request: the three CORS headers,
`Content-Type`, and the request's id as `X-Request-ID`. -/
def corsJSONHeaders (processID : String) : List (String × String) :=
  [("Access-Control-Allow-Origin", "*"), ("Access-Control-Allow-Methods", "GET, POST, OPTIONS"),
    ("Access-Control-Allow-Headers", "Content-Type, Authorization"),
    ("Content-Type", "application/json"), ("X-Request-ID", processID)]

section Chain

variable {h : HandlerFn} {env : Env} {r : Request} {st : ServerState} {w : Writer}

/-- **What the middlewares do**, once: the request's event goes into the context and its start
is logged; the limiter is asked once, for the event's client IP; an allowed request runs the
handler on a writer carrying the CORS headers, and a panic of the handler is answered 500; a
denied one is answered 429; the end of a request that returns is logged with the status the
writer recorded. -/
theorem chain_eq (hm : r.method ≠ "OPTIONS") :
    chain h env r st w =
      logCompletion env (some (requestLogEvent env r))
        (if (st.limiter.allow (getClientIP r) env.now).1 then
          recoverPanic env (some (requestLogEvent env r)) (admitted h env r st w)
        else denied env r st w) := by
  have hc : (requestLogEvent env r).clientIP = getClientIP r := rfl
  have hl : (logInfo env (some (requestLogEvent env r)) "http_request_start" "HTTP request received"
      none st).limiter = st.limiter := rfl
  simp only [chain, loggingMiddleware, rateLimitingMiddleware, getLogEvent, Option.getD_some, hc, hl]
  cases (st.limiter.allow (getClientIP r) env.now).1
  · rfl
  · simp only [Bool.not_true, Bool.false_eq_true, if_false, if_true,
      corsMiddleware_of_ne (r := { r with logEvent := some (requestLogEvent env r) }) hm]
    rfl

/-- What the middlewares send for an admitted request whose handler writes `reply` with
`writeJSONResponse`. -/
theorem chain_sendsReply (hm : r.method ≠ "OPTIONS")
    (ha : (st.limiter.allow (getClientIP r) env.now).1 = true) {reply : Call (Nat × Payload)}
    (hw : WritesReply env { r with logEvent := some (requestLogEvent env r) }
      (corsHeaders { Writer.empty with statusCode := 200 }) (admitted h env r st Writer.empty) reply) :
    SendsReply (chain h env r st Writer.empty) (corsJSONHeaders env.processID) reply := by
  rw [chain_eq hm, if_pos ha, sendsReply_logCompletion]
  match reply, hw with
  | .returns (code, data), ⟨hwr, hend⟩ =>
    rw [recoverPanic_of_not_panics _ _ _ (by simp [hend])]
    refine ⟨hend, by rw [hwr]; exact writeJSONResponse_status _ _ rfl _ _, by rw [hwr]; rfl, ?_⟩
    rw [hwr]
    simp [writeJSONResponse, corsHeaders, corsJSONHeaders, Writer.sentHeader, Writer.write,
      Writer.writeHeader, Writer.set, setHeader, Writer.empty, getLogEvent, requestLogEvent]
  | .panics v, ⟨hwr, hend⟩ =>
    rw [recoverPanic_of_panics _ _ _ hend]
    refine ⟨rfl, Writer.status_write_writeHeader (by rw [hwr]; rfl) _ _, by rw [hwr]; rfl, ?_⟩
    rw [hwr]
    simp [corsHeaders, corsJSONHeaders, Writer.sentHeader, Writer.write, Writer.writeHeader,
      Writer.set, setHeader, Writer.empty, getLogEvent, requestLogEvent]
  | .blocks, ⟨hwr, hend⟩ =>
    rw [recoverPanic_of_not_panics _ _ _ (by simp [hend])]
    exact ⟨hend, by rw [hwr]; rfl, by rw [hwr]; rfl⟩

/-- A request through the middlewares does not panic, and returns unless it was allowed into a
handler that never returns. -/
theorem chain_ending (hm : r.method ≠ "OPTIONS") :
    (chain h env r st w).ending = .returns () ∨
      (chain h env r st w).ending = .blocks ∧ (st.limiter.allow (getClientIP r) env.now).1 = true := by
  rw [chain_eq hm, logCompletion_ending]
  split_ifs with ha
  · exact (recoverPanic_ending env _ _).imp_right fun h => ⟨h.1, ha⟩
  · exact .inl rfl

/-- The last entry of a request that returns is its completion, with the status the wrapper
recorded. -/
theorem chain_getLast_logs (hm : r.method ≠ "OPTIONS") (hr : (chain h env r st w).ending = .returns ()) :
    (chain h env r st w).state.logs.getLast? =
      some ⟨"", "HTTP request processed", "http_request_complete", "", env.processID,
        processTypeRequest, getClientIP r, "", some (chain h env r st w).writer.statusCode⟩ := by
  rw [chain_eq hm] at hr ⊢
  rw [logCompletion_getLast _ _ _ (by rwa [logCompletion_ending] at hr), logCompletion_writer]
  rfl

variable (hwb : WellBehaved h)

include hwb

/-- The middlewares ask the limiter once, for the request's client IP, and change it no
further. -/
theorem chain_limiter (hm : r.method ≠ "OPTIONS") :
    (chain h env r st w).state.limiter = (st.limiter.allow (getClientIP r) env.now).2 := by
  rw [chain_eq hm]
  split_ifs <;> simp [admitted, denied, logInfo, logError, hwb.limiter_eq, requestLogEvent]

/-- Every entry the middlewares and the handler log is made under the request's event. -/
theorem chain_logsUnder (hm : r.method ≠ "OPTIONS") :
    LogsUnder (requestLogEvent env r) st (chain h env r st w).state := by
  rw [chain_eq hm]
  have hstart := (logsUnder_logEntry env (some (requestLogEvent env r)) st "" "http_request_start" ""
    "HTTP request received" none none).set_limiter
    (st.limiter.allow (requestLogEvent env r).clientIP env.now).2
  refine LogsUnder.logCompletion ?_
  split_ifs
  · exact (hstart.trans (hwb.logsUnder _ _ _ _)).recoverPanic
  · exact hstart.append_logEntry _ _ _ _ _ _ _ _ _

/-- On a writer that has sent nothing, the status the wrapper records for a request that returns
is the one sent. -/
theorem chain_statusCode (hm : r.method ≠ "OPTIONS") (hw : w.sent = none)
    (hr : (chain h env r st w).ending = .returns ()) :
    (chain h env r st w).writer.statusCode = (chain h env r st w).writer.status := by
  rw [chain_eq hm] at hr ⊢
  rw [logCompletion_ending] at hr
  rw [logCompletion_writer]
  split_ifs at hr ⊢
  · have hw' : (corsHeaders { w with statusCode := 200 }).sent = none := by
      simpa [corsHeaders] using hw
    rcases hend : (admitted h env r st w).ending with ⟨⟩ | v | _
    · rw [recoverPanic_of_not_panics _ _ _ (by simp [hend])]
      exact hwb.statusCode_eq _ _ _ _ hw' hend
    · rw [recoverPanic_of_panics _ _ _ hend,
        show (admitted h env r st w).writer = corsHeaders { w with statusCode := 200 } from
          hwb.writer_eq _ _ _ _ fun he => Call.noConfusion (hend.symm.trans he)]
      exact (Writer.status_write_writeHeader (by simpa using hw') _ _).symm
    · rw [recoverPanic_of_not_panics _ _ _ (by simp [hend])] at hr
      exact absurd (hr.symm.trans hend) Call.noConfusion
  · exact (Writer.status_write_writeHeader (by simpa using hw) _ _).symm

end Chain

/-! ### Routed requests -/

/-- The endpoint whose handler the router runs for the request: the one its clean path names,
if the method is that endpoint's. -/
def routedEndpoint (r : Request) : Option Endpoint :=
  if Mux.cleanPath r.path = r.path then (endpointOf r.path).filter (·.method = r.method) else none

section Routed

variable {env : Env} {r : Request} {st : ServerState} {e : Endpoint}

theorem routedEndpoint_eq_some : routedEndpoint r = some e ↔
    Mux.cleanPath r.path = r.path ∧ endpointOf r.path = some e ∧ e.method = r.method := by
  unfold routedEndpoint
  split <;> simp [Option.filter_eq_some, *]

/-- The method of a routed request is not `OPTIONS`. -/
theorem method_ne_options_of_routed (he : routedEndpoint r = some e) : r.method ≠ "OPTIONS" :=
  (routedEndpoint_eq_some.mp he).2.2 ▸ e.method_ne_options

/-- A routed request runs the middlewares around the endpoint's handler. -/
theorem serve_of_routed (he : routedEndpoint r = some e) :
    serve env r st = chain e.route.handler env { r with vars := e.vars } st Writer.empty := by
  obtain ⟨hc, he', hm⟩ := routedEndpoint_eq_some.mp he
  rw [serve_of_clean env r st (fun h => method_ne_options_of_routed he h.2) hc, he']
  exact if_pos hm.symm

/-- net/http and the router answer every other request alone: `OPTIONS *` with an empty 200,
the others with the redirect, 404 or 405; the state stays as it was. -/
theorem serve_of_not_routed (he : routedEndpoint r = none) :
    (serve env r st).state = st ∧ (serve env r st).ending = .returns () ∧
      ((r.requestURI = "*" ∧ r.method = "OPTIONS") ∧
          (serve env r st).writer = Writer.empty.set "Content-Length" "0" ∨
        ¬(r.requestURI = "*" ∧ r.method = "OPTIONS") ∧
          (Mux.cleanPath r.path ≠ r.path ∧
              (serve env r st).writer =
                (Writer.empty.set "Location" (Mux.redirectLocation r)).writeHeader 301 ∨
            Mux.cleanPath r.path = r.path ∧ (serve env r st).writer = Mux.notFound Writer.empty ∨
            Mux.cleanPath r.path = r.path ∧ (serve env r st).writer = Writer.empty.writeHeader 405)) := by
  by_cases ho : r.requestURI = "*" ∧ r.method = "OPTIONS"
  · rw [serve_of_optionsStar env r st ho]
    exact ⟨rfl, rfl, .inl ⟨ho, rfl⟩⟩
  by_cases hc : Mux.cleanPath r.path = r.path
  · rw [serve_of_clean env r st ho hc]
    rcases he' : endpointOf r.path with _ | e
    · exact ⟨rfl, rfl, .inr ⟨ho, .inr (.inl ⟨hc, rfl⟩)⟩⟩
    · have hm : r.method ≠ e.method := fun hm =>
        absurd he (by rw [routedEndpoint_eq_some.mpr ⟨hc, he', hm.symm⟩]; exact Option.some_ne_none _)
      simp [hm, hc, ho]
  · rw [serve_of_not_clean env r st ho hc]
    exact ⟨rfl, rfl, .inr ⟨ho, .inl ⟨hc, rfl⟩⟩⟩

theorem wellBehaved_route (e : Endpoint) : WellBehaved e.route.handler :=
  wellBehaved_of_mem_routes e.route_mem

/-- An admitted request is the run of its endpoint's handler, with a panic answered and its end
logged. -/
theorem serve_of_allowed (he : routedEndpoint r = some e)
    (ha : (st.limiter.allow (getClientIP r) env.now).1 = true) :
    serve env r st = logCompletion env (some (requestLogEvent env r))
      (recoverPanic env (some (requestLogEvent env r))
        (admitted e.route.handler env { r with vars := e.vars } st Writer.empty)) := by
  rw [serve_of_routed he, chain_eq (r := { r with vars := e.vars }) (method_ne_options_of_routed he),
    if_pos (show (st.limiter.allow (getClientIP { r with vars := e.vars }) env.now).1 = true from ha)]
  rfl

/-- An admitted request leaves the domain cache its handler leaves. -/
theorem serve_cache_of_allowed (he : routedEndpoint r = some e)
    (ha : (st.limiter.allow (getClientIP r) env.now).1 = true) :
    (serve env r st).state.cache =
      (admitted e.route.handler env { r with vars := e.vars } st Writer.empty).state.cache := by
  rw [serve_of_allowed he ha, logCompletion_cache, recoverPanic_cache]

/-- A denied request gets the 429 of `rateLimitingMiddleware`, with the start, the denial and
the completion logged. -/
theorem serve_of_denied (he : routedEndpoint r = some e)
    (hd : (st.limiter.allow (getClientIP r) env.now).1 = false) :
    let ev := requestLogEvent env r
    serve env r st =
      ⟨logInfo env (some ev) "http_request_complete" "HTTP request processed" (some 429)
        (logError env (some ev) "rate_limited" "" "Rate limit exceeded" errRateLimitExceeded
          logSeverityMedium
          { logInfo env (some ev) "http_request_start" "HTTP request received" none st with
            limiter := (st.limiter.allow (getClientIP r) env.now).2 }),
        writeRateLimited { Writer.empty with statusCode := 200 } env.processID, .returns ()⟩ := by
  rw [serve_of_routed he, chain_eq (r := { r with vars := e.vars }) (method_ne_options_of_routed he),
    if_neg (show ¬(st.limiter.allow (getClientIP { r with vars := e.vars }) env.now).1 = true by
      simpa using hd)]
  rfl

end Routed

/-! ### What one request does -/

/-- What an endpoint answers an admitted request: the status and the value sent, or the panic
or the block of the batch's call of `AnalyzeDomains`. For the two analysis endpoints it is the
reply of the handler model, on the server's domain cache. -/
def Endpoint.reply (env : Env) (r : Request) (st : ServerState) : Endpoint → Call (Nat × Payload)
  | .health => .returns (200, .health ⟨"healthy", "1.0.0"⟩)
  | .root => .returns (200, .text rootBody)
  | .analyze domain =>
    let reply := (Handler.analyzeSingleDomain st.cache env.now domain (env.fetched domain) parse).1
    .returns (reply.statusCode, payloadOf .analysis reply.body)
  | .batch =>
    (Handler.analyzeBatchDomains (env.decode r.body)
      fun domains => (env.analyzeDomains st.cache domains).1).map
        fun reply => (reply.statusCode, payloadOf .batch reply.body)

/-- The headers of an endpoint's answer: those of a JSON reply, and for `/`, whose handler
writes its body itself, no `X-Request-ID`. -/
def Endpoint.replyHeaders (env : Env) : Endpoint → List (String × String)
  | .root =>
    [("Access-Control-Allow-Origin", "*"), ("Access-Control-Allow-Methods", "GET, POST, OPTIONS"),
      ("Access-Control-Allow-Headers", "Content-Type, Authorization"),
      ("Content-Type", "application/json")]
  | _ => corsJSONHeaders env.processID

/-- A server at time `0` with a fresh limiter and an empty domain cache, whose fetcher, body
decoder and batch fail; the witnesses below run on it. -/
def demoEnv : Env :=
  ⟨0, "req-1", "internal-1", fun _ => .error "connection refused", fun _ => .error "EOF",
    fun dc _ => (.returns (.error "unavailable"), dc, [])⟩

/-- The state of a server whose limiter has room for a few requests. -/
def demoState : ServerState := ⟨TwoTierRateLimiter.new 100 10 5 1 0, ⟨.empty, 3600⟩, []⟩

/-- A request from `10.0.0.1` with no proxy header, for a path with no query. -/
def demoRequest (method path : String) : Request :=
  ⟨method, path, path, "", false, "", "", "10.0.0.1:52100", "", [], none⟩

section Request

variable {env : Env} {r : Request} {st : ServerState}

/-- What an admitted request is sent: its endpoint's reply. -/
theorem serve_sendsReply {e : Endpoint} (he : routedEndpoint r = some e)
    (ha : (st.limiter.allow (getClientIP r) env.now).1 = true) :
    SendsReply (serve env r st) (e.replyHeaders env) (e.reply env r st) := by
  rw [serve_of_routed he]
  have hm : ({ r with vars := e.vars } : Request).method ≠ "OPTIONS" :=
    method_ne_options_of_routed he
  have ha' : (st.limiter.allow (getClientIP { r with vars := e.vars }) env.now).1 = true := ha
  cases e with
  | health => exact chain_sendsReply hm ha' ⟨rfl, rfl⟩
  | analyze d =>
    have hw := (analyzeSingleDomain_refines env
      { r with vars := [("domain", d)], logEvent := some (requestLogEvent env r) }
      { logInfo env (some (requestLogEvent env r)) "http_request_start" "HTTP request received"
          none st with limiter := (st.limiter.allow (getClientIP r) env.now).2 }
      (corsHeaders { Writer.empty with statusCode := 200 })).1
    rw [Request.var_eq rfl] at hw
    exact chain_sendsReply hm ha' ⟨hw, analyzeSingleDomain_ending _ _ _ _⟩
  | batch => exact chain_sendsReply hm ha' (analyzeBatchDomains_refines env _ _ _)
  | root =>
    rw [chain_eq hm, if_pos ha']
    refine ⟨rfl, Writer.status_write_writeHeader rfl _ _, rfl, ?_⟩
    simp [admitted, rootHandler, Endpoint.route, rootRoute, recoverPanic, logCompletion,
      Endpoint.replyHeaders, corsHeaders, Writer.sentHeader, Writer.write, Writer.writeHeader,
      Writer.set, setHeader, Writer.empty]

/-- **An admitted request gets its endpoint's reply**: the status and the value of
`Endpoint.reply`, which for the two analysis endpoints is the reply of the handler model; the
500 of `recoveryMiddleware` when the batch's call of `AnalyzeDomains` panics; nothing, and no
end, when that call never returns. What is sent carries the three CORS headers,
`Content-Type`, and the request's id as `X-Request-ID` for every endpoint but `/`. -/
theorem serve_admitted {e : Endpoint} (he : routedEndpoint r = some e)
    (ha : (st.limiter.allow (getClientIP r) env.now).1 = true) :
    SendsReply (serve env r st) (e.replyHeaders env) (e.reply env r st) :=
  serve_sendsReply he ha

theorem serve_admitted_health :
    routedEndpoint (demoRequest "GET" "/health") = some .health ∧
      (demoState.limiter.allow (getClientIP (demoRequest "GET" "/health")) demoEnv.now).1 = true ∧
      SendsReply (serve demoEnv (demoRequest "GET" "/health") demoState)
        (Endpoint.health.replyHeaders demoEnv)
        (Endpoint.health.reply demoEnv (demoRequest "GET" "/health") demoState) :=
  ⟨by decide, by decide, serve_admitted (e := .health) (by decide) (by decide)⟩

/-- The reply of an admitted request that returns has its endpoint's status and value. -/
theorem serve_of_reply_returns {e : Endpoint} (he : routedEndpoint r = some e)
    (ha : (st.limiter.allow (getClientIP r) env.now).1 = true) {code : Nat} {data : Payload}
    (hr : e.reply env r st = .returns (code, data)) :
    (serve env r st).writer.status = code ∧ (serve env r st).writer.body = [data] := by
  have h := serve_sendsReply he ha
  rw [hr] at h
  exact ⟨h.2.1, h.2.2.1⟩

/-- What an admitted request is sent: its endpoint's value, the body of the 500, or nothing. -/
theorem serve_body_of_admitted {e : Endpoint} (he : routedEndpoint r = some e)
    (ha : (st.limiter.allow (getClientIP r) env.now).1 = true) :
    (∃ code data, e.reply env r st = .returns (code, data) ∧ (serve env r st).writer.body = [data]) ∨
      (serve env r st).writer.body = [.text internalErrorBody] ∨ (serve env r st).writer.body = [] := by
  have h := serve_sendsReply he ha
  revert h
  rcases e.reply env r st with ⟨code, data⟩ | v | _
  · exact fun h => .inl ⟨code, data, rfl, h.2.2.1⟩
  · exact fun h => .inr (.inl h.2.2.1)
  · exact fun h => .inr (.inr h.2.2)

/-- The domain an analysis endpoint names is never empty. -/
theorem domain_ne_empty_of_endpointOf {p d : String} (h : endpointOf p = some (.analyze d)) :
    d ≠ "" := by
  have hpd : pathDomain p = some d := by
    unfold endpointOf at h
    by_cases h1 : p = "/health"
    · simp [h1] at h
    · rw [if_neg h1] at h
      cases hd : pathDomain p with
      | some d' =>
        rw [hd] at h
        simpa using h
      | none =>
        rw [hd] at h
        dsimp only at h
        split_ifs at h <;> simp at h
  unfold pathDomain at hpd
  split_ifs at hpd with hc
  cases hpd
  exact fun h => hc.2.1 (congrArg String.data h)

/-- **The rate limiter counts routed requests only, each once.** A request the router answers
alone leaves the limiter as it was; a routed request asks it once, for the request's client IP. -/
theorem serve_limiter :
    (serve env r st).state.limiter =
      if routedEndpoint r = none then st.limiter
      else (st.limiter.allow (getClientIP r) env.now).2 := by
  split
  · rw [(serve_of_not_routed ‹_›).1]
  · obtain ⟨e, he⟩ := Option.ne_none_iff_exists'.mp ‹_›
    rw [serve_of_routed he]
    exact chain_limiter (wellBehaved_route e) (r := { r with vars := e.vars })
      (method_ne_options_of_routed he)

/-- **A denied request gets exactly the 429 of the rate limiter**: the domain cache is
untouched, the start, the denial and the completion with status 429 are logged, and the
response carries three headers, none of them a CORS header, and the fixed body. -/
theorem serve_rateLimited {e : Endpoint} (he : routedEndpoint r = some e)
    (hd : (st.limiter.allow (getClientIP r) env.now).1 = false) :
    (serve env r st).state.cache = st.cache ∧
      (serve env r st).state.logs = st.logs ++
        [⟨"", "HTTP request received", "http_request_start", "", env.processID, processTypeRequest,
            getClientIP r, "", none⟩,
          ⟨logSeverityMedium, "Rate limit exceeded", "rate_limited", "", env.processID,
            processTypeRequest, getClientIP r, errRateLimitExceeded, none⟩,
          ⟨"", "HTTP request processed", "http_request_complete", "", env.processID,
            processTypeRequest, getClientIP r, "", some 429⟩] ∧
      (serve env r st).writer.status = 429 ∧
      (serve env r st).writer.sentHeader = [("Content-Type", "application/json"),
        ("X-Request-ID", env.processID), ("X-RateLimit-Retry-After", "1")] ∧
      (serve env r st).writer.body = [.text rateLimitedBody] := by
  rw [serve_of_denied he hd]
  refine ⟨rfl, by simp [logInfo, logError, logEntry, getLogEvent, requestLogEvent], rfl, ?_, rfl⟩
  simp [writeRateLimited, Writer.sentHeader, Writer.write, Writer.writeHeader, Writer.set, setHeader,
    Writer.empty]

theorem serve_rateLimited_exhausted :
    routedEndpoint (demoRequest "GET" "/health") = some .health ∧
      ((TwoTierRateLimiter.new 0 1 5 1 0).allow (getClientIP (demoRequest "GET" "/health"))
        demoEnv.now).1 = false ∧
      (serve demoEnv (demoRequest "GET" "/health")
          { demoState with limiter := TwoTierRateLimiter.new 0 1 5 1 0 }).writer.status = 429 :=
  ⟨by decide, by decide, (@serve_rateLimited demoEnv (demoRequest "GET" "/health")
    { demoState with limiter := TwoTierRateLimiter.new 0 1 5 1 0 } .health (by decide)
    (by decide)).2.2.1⟩

/-- **Every entry a request logs is tagged with it**: the entries a request adds to the log all
carry its process id, the type `request` and its client IP, and a request the router answers
alone adds none. -/
theorem serve_logs_tagged :
    ∃ new, (serve env r st).state.logs = st.logs ++ new ∧ (routedEndpoint r = none → new = []) ∧
      ∀ entry ∈ new, entry.processID = env.processID ∧ entry.processType = processTypeRequest ∧
        entry.clientIP = getClientIP r := by
  cases he : routedEndpoint r with
  | none => exact ⟨[], by rw [(serve_of_not_routed he).1, List.append_nil], fun _ => rfl, by simp⟩
  | some e =>
    rw [serve_of_routed he]
    obtain ⟨new, hnew, htag⟩ := @chain_logsUnder _ env { r with vars := e.vars } st Writer.empty
      (wellBehaved_route e) (method_ne_options_of_routed he)
    exact ⟨new, hnew, fun h => Option.noConfusion h, htag⟩

/-- **The log records the status sent, for every request that is answered**: a routed request
either returns, and its last entry is its completion with the status the client received, or
it is an admitted request whose endpoint's reply never returns (the batch's call of
`AnalyzeDomains` blocks), and it never ends. -/
theorem serve_completion_status {e : Endpoint} (he : routedEndpoint r = some e) :
    (serve env r st).ending = .returns () ∧
        (serve env r st).state.logs.getLast? =
          some ⟨"", "HTTP request processed", "http_request_complete", "", env.processID,
            processTypeRequest, getClientIP r, "", some (serve env r st).writer.status⟩ ∨
      (serve env r st).ending = .blocks ∧ (st.limiter.allow (getClientIP r) env.now).1 = true ∧
        e.reply env r st = .blocks := by
  have hm : ({ r with vars := e.vars } : Request).method ≠ "OPTIONS" :=
    method_ne_options_of_routed he
  have hwb := wellBehaved_route e
  rcases @chain_ending e.route.handler env { r with vars := e.vars } st Writer.empty hm with
    hr | ⟨hb, ha⟩
  · left
    rw [serve_of_routed he]
    refine ⟨hr, ?_⟩
    rw [← chain_statusCode hwb hm rfl hr]
    exact chain_getLast_logs hm hr
  · right
    have hs := serve_sendsReply he ha
    rw [serve_of_routed he] at hs ⊢
    refine ⟨hb, ha, ?_⟩
    revert hs
    rcases e.reply env r st with ⟨code, data⟩ | v | _
    · exact fun hs => absurd (hs.1.symm.trans hb) Call.noConfusion
    · exact fun hs => absurd (hs.1.symm.trans hb) Call.noConfusion
    · exact fun _ => rfl

theorem serve_completion_status_health :
    routedEndpoint (demoRequest "GET" "/health") = some .health ∧
      ((serve demoEnv (demoRequest "GET" "/health") demoState).ending = .returns () ∧
          (serve demoEnv (demoRequest "GET" "/health") demoState).state.logs.getLast? =
            some ⟨"", "HTTP request processed", "http_request_complete", "", demoEnv.processID,
              processTypeRequest, getClientIP (demoRequest "GET" "/health"), "",
              some (serve demoEnv (demoRequest "GET" "/health") demoState).writer.status⟩ ∨
        (serve demoEnv (demoRequest "GET" "/health") demoState).ending = .blocks ∧
          (demoState.limiter.allow (getClientIP (demoRequest "GET" "/health")) demoEnv.now).1 = true ∧
          Endpoint.health.reply demoEnv (demoRequest "GET" "/health") demoState = .blocks) :=
  ⟨by decide, serve_completion_status (e := .health) (by decide)⟩

/-- **The missing-domain reply is never sent**: the router hands `AnalyzeSingleDomain` only
requests whose path names a non-empty domain, so its `domain is required` answer is dead code. -/
theorem serve_body_ne_domainRequired :
    Payload.errorResponse ⟨"domain is required", ""⟩ ∉ (serve env r st).writer.body := by
  cases he : routedEndpoint r with
  | none =>
    rcases (serve_of_not_routed he).2.2 with ⟨-, hw⟩ | ⟨-, ⟨-, hw⟩ | ⟨-, hw⟩ | ⟨-, hw⟩⟩ <;> rw [hw] <;>
      simp [Mux.notFound, Writer.empty]
  | some e =>
    cases ha : (st.limiter.allow (getClientIP r) env.now).1
    · rw [serve_of_denied he ha]
      simp [writeRateLimited, Writer.empty]
    · rcases serve_body_of_admitted he ha with ⟨code, data, hr, hb⟩ | hb | hb <;> rw [hb]
      · rw [List.mem_singleton]
        cases e with
        | health | root => cases Call.returns.inj hr; simp
        | analyze d =>
          have hd := domain_ne_empty_of_endpointOf (routedEndpoint_eq_some.mp he).2.1
          cases Call.returns.inj hr
          refine Ne.symm (payloadOf_ne_errorResponse ?_ fun _ => nofun)
          exact Handler.analyzeSingleDomain_body_ne st.cache env.now (env.fetched d) parse hd
        | batch =>
          obtain ⟨reply, hbatch, hrp⟩ := Call.map_eq_returns.mp hr
          cases hrp
          exact Ne.symm (payloadOf_ne_errorResponse (Handler.analyzeBatchDomains_body_ne hbatch)
            fun _ => nofun)
      · simp
      · simp

end Request

end Http

end AdsTxtAnalyzer
