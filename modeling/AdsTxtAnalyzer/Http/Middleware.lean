import AdsTxtAnalyzer.Http.Net
import AdsTxtAnalyzer.Http.Handler
import AdsTxtAnalyzer.RateLimit.TwoTier

/-!
# The middleware of the HTTP server

The server wraps every routed handler in four middlewares (`unnamed/part_004`):
`loggingMiddleware` makes the request's `LogEvent` from `getClientIP` and logs the request's
start and end, `rateLimitingMiddleware` asks the limiter for the event's client IP,
`corsMiddleware` sets the CORS headers and answers `OPTIONS` itself, and `recoveryMiddleware`
turns a panic into a 500.

A handler is modelled as a function of the request that runs on the server's state and on a
`ResponseWriter` (`Writer`) and returns, panics, or never returns (`Outcome`); a handler that
never returns leaves what it did before it blocked. The writer keeps what
net/http keeps: the header map, the status and the headers as they were when the first
`WriteHeader` or `Write` sent them (a later `WriteHeader` is superfluous and ignored), and the
body. It also holds the field `statusCode` of the wrapper `responseWriter`, which records every
`WriteHeader` call. The logger keeps each entry `DatabaseLogger.logEntry` makes, in the order
of the calls. The values `uuid.New` draws, the clock and the network are inputs (`Env`).

Every entry a request's code logs is made by `DatabaseLogger.logEntry` from the event in the
request's context. `LogsUnder ev st st'` says that `st'` is `st` with entries appended that all
carry the event `ev`; it is reflexive and transitive, and each logger call keeps it
(`logsUnder_logEntry`). The middlewares that do not answer themselves are transparent:
`corsMiddleware_of_ne` says what it leaves to the handler. What `loggingMiddleware` and
`recoveryMiddleware` do after the handler is over is `logCompletion` and `recoverPanic`: a
handler that returns has its end logged, one that panics is answered 500, and one that never
returns gets neither.
-/

namespace AdsTxtAnalyzer

namespace Http

/-! ### Log events and entries -/

/-- The value `models.ProcessTypeRequest`. -/
def processTypeRequest : String := "request"

/-- The value `models.ProcessTypeInternal`. -/
def processTypeInternal : String := "internal"

/-- The value `models.LogSeverityLow`. -/
def logSeverityLow : String := "low"

/-- The value `models.LogSeverityMedium`. -/
def logSeverityMedium : String := "medium"

/-- The value `models.LogSeverityHigh`. -/
def logSeverityHigh : String := "high"

/-- The text of `models.ErrRateLimitExceeded`. -/
def errRateLimitExceeded : String := "rate limit exceeded"

/-- The record `models.LogEvent`, without its start time. -/
structure LogEvent where
  processID : String
  processType : String
  clientIP : String
  deriving DecidableEq, Repr

/-- The record `models.LogEntry`, without its id and time stamp. Of the metadata only the
`status_code` of the request's last entry is kept. -/
structure LogEntry where
  severity : String
  message : String
  operation : String
  targetName : String
  processID : String
  processType : String
  clientIP : String
  error : String
  statusCode : Option Nat
  deriving DecidableEq, Repr

/-- The arguments of one call of the logger, the event apart: the severity, the operation,
the target, the message and the error's text. -/
structure LogCall where
  severity : String
  operation : String
  targetName : String
  message : String
  err : Option String
  deriving DecidableEq, Repr

/-- An entry made under the event `ev`. -/
def LogEntry.Tagged (ev : LogEvent) (e : LogEntry) : Prop :=
  e.processID = ev.processID ∧ e.processType = ev.processType ∧ e.clientIP = ev.clientIP

/-! ### Requests, writers and handlers -/

/-- What the server's code reads of an `*http.Request`: the method, `r.RequestURI` (the
request target as sent), the URL's `Path` (as a text of the path's bytes read as UTF-8),
`RawQuery` and `ForceQuery`, the headers `X-Forwarded-For` and `X-Real-IP` as `Header.Get`
returns them (`""` when absent), `r.RemoteAddr`, the body, `mux.Vars(r)` and the context's
`log_event`. -/
structure Request where
  method : String
  requestURI : String
  path : String
  rawQuery : String
  forceQuery : Bool
  xForwardedFor : String
  xRealIP : String
  remoteAddr : String
  body : String
  vars : List (String × String)
  logEvent : Option LogEvent
  deriving DecidableEq, Repr

/-- The record `HealthResponse`, without its time stamp. -/
structure HealthResponse where
  status : String
  version : String
  deriving DecidableEq, Repr

/-- What one `Write` sends: a value `json.Encoder` encodes, or raw text. -/
inductive Payload
  | errorResponse (e : Handler.ErrorResponse)
  | analysis (a : DomainAnalysis)
  | batch (r : BatchAnalysisResponse)
  | health (h : HealthResponse)
  | text (s : String)
  deriving DecidableEq, Repr

/-- The map `w.Header()` after `Set(key, value)`. -/
def setHeader (h : List (String × String)) (key value : String) : List (String × String) :=
  h.filter (·.1 ≠ key) ++ [(key, value)]

/-- An `http.ResponseWriter` as far as the server's code uses it. -/
structure Writer where
  header : List (String × String)
  sent : Option (Nat × List (String × String))
  body : List Payload
  statusCode : Nat
  deriving DecidableEq, Repr

namespace Writer

/-- A fresh writer: nothing set, nothing sent. -/
def empty : Writer := ⟨[], none, [], 200⟩

/-- `w.Header().Set(key, value)`. -/
def set (w : Writer) (key value : String) : Writer := { w with header := setHeader w.header key value }

/-- `w.WriteHeader(code)`: the first call sends the status and the headers. -/
def writeHeader (w : Writer) (code : Nat) : Writer :=
  { w with statusCode := code, sent := w.sent.orElse fun _ => some (code, w.header) }

/-- `w.Write(p)`: a write before any `WriteHeader` sends the status 200. -/
def write (w : Writer) (p : Payload) : Writer :=
  { w with sent := w.sent.orElse fun _ => some (200, w.header), body := w.body ++ [p] }

/-- The status the client receives: the one sent, or 200 when the handler wrote nothing. -/
def status (w : Writer) : Nat := (w.sent.map (·.1)).getD 200

/-- The headers the client receives. -/
def sentHeader (w : Writer) : List (String × String) := (w.sent.map (·.2)).getD w.header

@[simp] theorem set_sent (w : Writer) (key value : String) : (w.set key value).sent = w.sent := rfl

@[simp] theorem set_statusCode (w : Writer) (key value : String) :
    (w.set key value).statusCode = w.statusCode := rfl

@[simp] theorem writeHeader_statusCode (w : Writer) (code : Nat) :
    (w.writeHeader code).statusCode = code := rfl

@[simp] theorem write_statusCode (w : Writer) (p : Payload) : (w.write p).statusCode = w.statusCode :=
  rfl

@[simp] theorem write_body (w : Writer) (p : Payload) : (w.write p).body = w.body ++ [p] := rfl

@[simp] theorem writeHeader_body (w : Writer) (code : Nat) : (w.writeHeader code).body = w.body :=
  rfl

@[simp] theorem set_body (w : Writer) (key value : String) : (w.set key value).body = w.body := rfl

/-- The first `WriteHeader` sends its status and the headers set so far. -/
theorem writeHeader_sent {w : Writer} (h : w.sent = none) (code : Nat) :
    (w.writeHeader code).sent = some (code, w.header) := by
  simp [writeHeader, h]

/-- A `Write` after a `WriteHeader` sends nothing more. -/
theorem write_sent {w : Writer} {x : Nat × List (String × String)} (h : w.sent = some x)
    (p : Payload) : (w.write p).sent = some x := by
  simp [write, h]

/-- A writer whose first `WriteHeader` comes before any `Write` sends the status it recorded. -/
theorem status_write_writeHeader {w : Writer} (h : w.sent = none) (code : Nat) (p : Payload) :
    ((w.writeHeader code).write p).status = code := by
  simp [status, write_sent (writeHeader_sent h code)]

end Writer

/-- A request's inputs from outside the code: the clock, the ids `uuid.New` draws for the
request's event (`processID`) and for an event `GetLogEvent` has to make (`orphanID`), the
fetcher's answer for a domain, the JSON decoding of a batch body, and how the call of the
service's `AnalyzeDomains` through the `AnalysisService` interface ends on the domain cache,
with the domain cache and the logger calls it leaves. -/
structure Env where
  now : Nat
  processID : String
  orphanID : String
  fetched : String → Except String String
  decode : String → Except String (List String)
  analyzeDomains : DomainCache → List String →
    Call (Except String BatchAnalysisResponse) × DomainCache × List LogCall

/-- What the server keeps from one request to the next. -/
structure ServerState where
  limiter : TwoTierRateLimiter
  cache : DomainCache
  logs : List LogEntry

/-- How a handler ends: the state and the writer it leaves, and whether it returned, panicked
or never returns. -/
structure Outcome where
  state : ServerState
  writer : Writer
  ending : Call Unit

/-- An `http.Handler` of the server. -/
abbrev HandlerFn := Env → Request → ServerState → Writer → Outcome

/-- An `http.Handler` middleware. -/
abbrev Middleware := HandlerFn → HandlerFn

/-! ### The logger -/

section Logger

variable (env : Env)

/-- The function `logger.GetLogEvent`: the context's event, or a new internal one. -/
def getLogEvent (ctx : Option LogEvent) : LogEvent :=
  ctx.getD ⟨env.orphanID, processTypeInternal, ""⟩

/-- The method `DatabaseLogger.logEntry`: the entry of the context's event, added to the log. -/
def logEntry (ctx : Option LogEvent) (severity operation targetName message : String)
    (err : Option String) (statusCode : Option Nat) (st : ServerState) : ServerState :=
  let logEvent := getLogEvent env ctx
  { st with
    logs := st.logs ++ [⟨severity, message, operation, targetName, logEvent.processID,
      logEvent.processType, logEvent.clientIP, err.getD "", statusCode⟩] }

/-- The method `DatabaseLogger.LogInfo`. -/
def logInfo (ctx : Option LogEvent) (operation message : String) (statusCode : Option Nat)
    (st : ServerState) : ServerState :=
  logEntry env ctx "" operation "" message none statusCode st

/-- The method `DatabaseLogger.LogSuccess`. -/
def logSuccess (ctx : Option LogEvent) (operation targetName message : String)
    (st : ServerState) : ServerState :=
  logEntry env ctx "" operation targetName message none none st

/-- The method `DatabaseLogger.LogError`. -/
def logError (ctx : Option LogEvent) (operation targetName message err severity : String)
    (st : ServerState) : ServerState :=
  logEntry env ctx severity operation targetName message (some err) none st

/-- One logger call under the context `ctx`. -/
def logCall (ctx : Option LogEvent) (c : LogCall) (st : ServerState) : ServerState :=
  logEntry env ctx c.severity c.operation c.targetName c.message c.err none st

/-- Logger calls under the context `ctx`, in order. -/
def logCalls (ctx : Option LogEvent) (cs : List LogCall) (st : ServerState) : ServerState :=
  cs.foldl (fun st c => logCall env ctx c st) st

@[simp] theorem logEntry_limiter (ctx : Option LogEvent) (sev op target msg : String)
    (err : Option String) (sc : Option Nat) (st : ServerState) :
    (logEntry env ctx sev op target msg err sc st).limiter = st.limiter := rfl

@[simp] theorem logEntry_cache (ctx : Option LogEvent) (sev op target msg : String)
    (err : Option String) (sc : Option Nat) (st : ServerState) :
    (logEntry env ctx sev op target msg err sc st).cache = st.cache := rfl

@[simp] theorem logCalls_limiter (ctx : Option LogEvent) (cs : List LogCall) (st : ServerState) :
    (logCalls env ctx cs st).limiter = st.limiter := by
  induction cs generalizing st with
  | nil => rfl
  | cons c cs ih => exact ih _

@[simp] theorem logCalls_cache (ctx : Option LogEvent) (cs : List LogCall) (st : ServerState) :
    (logCalls env ctx cs st).cache = st.cache := by
  induction cs generalizing st with
  | nil => rfl
  | cons c cs ih => exact ih _

end Logger

/-! ### Entries logged under one event -/

/-- `st'` is `st` with entries appended, each made under the event `ev`. -/
def LogsUnder (ev : LogEvent) (st st' : ServerState) : Prop :=
  ∃ new, st'.logs = st.logs ++ new ∧ ∀ e ∈ new, e.Tagged ev

namespace LogsUnder

variable {ev : LogEvent} {st st' st'' : ServerState}

theorem refl (ev : LogEvent) (st : ServerState) : LogsUnder ev st st := ⟨[], by simp, by simp⟩

theorem trans (h : LogsUnder ev st st') (h' : LogsUnder ev st' st'') : LogsUnder ev st st'' := by
  obtain ⟨n, hn, hnt⟩ := h
  obtain ⟨n', hn', hnt'⟩ := h'
  exact ⟨n ++ n', by rw [hn', hn, List.append_assoc], fun e he =>
    (List.mem_append.mp he).elim (hnt e) (hnt' e)⟩

/-- Changing what is not the log keeps the relation. -/
theorem of_logs_eq (h : LogsUnder ev st st') {st'' : ServerState} (he : st''.logs = st'.logs) :
    LogsUnder ev st st'' :=
  let ⟨n, hn, hnt⟩ := h
  ⟨n, he.trans hn, hnt⟩

theorem set_cache (h : LogsUnder ev st st') (cache : DomainCache) :
    LogsUnder ev st { st' with cache := cache } :=
  h.of_logs_eq rfl

theorem set_limiter (h : LogsUnder ev st st') (limiter : TwoTierRateLimiter) :
    LogsUnder ev st { st' with limiter := limiter } :=
  h.of_logs_eq rfl

end LogsUnder

section Tagging

variable (env : Env) (ctx : Option LogEvent) (st : ServerState)

theorem logsUnder_logEntry (sev op target msg : String) (err : Option String) (sc : Option Nat) :
    LogsUnder (getLogEvent env ctx) st (logEntry env ctx sev op target msg err sc st) :=
  ⟨_, rfl, by simp [LogEntry.Tagged]⟩

/-- An entry logged under the event after others logged under it. -/
theorem LogsUnder.append_logEntry {st' : ServerState} (h : LogsUnder (getLogEvent env ctx) st st')
    (sev op target msg : String) (err : Option String) (sc : Option Nat) :
    LogsUnder (getLogEvent env ctx) st (logEntry env ctx sev op target msg err sc st') :=
  h.trans (logsUnder_logEntry env ctx st' sev op target msg err sc)

theorem logsUnder_logCalls (cs : List LogCall) :
    LogsUnder (getLogEvent env ctx) st (logCalls env ctx cs st) := by
  induction cs generalizing st with
  | nil => exact .refl _ st
  | cons c cs ih => exact (logsUnder_logEntry env ctx st _ _ _ _ _ _).trans (ih _)

/-- Calls logged under the event after entries logged under it. -/
theorem LogsUnder.append_logCalls {st' : ServerState} (h : LogsUnder (getLogEvent env ctx) st st')
    (cs : List LogCall) : LogsUnder (getLogEvent env ctx) st (logCalls env ctx cs st') :=
  h.trans (logsUnder_logCalls env ctx st' cs)

end Tagging

/-! ### The client's address -/

/-- The function `getClientIP`: the first entry of `X-Forwarded-For`, then `X-Real-IP`, then
the host of `r.RemoteAddr`, or the whole address when it does not split. -/
def getClientIP (r : Request) : String :=
  let forwarded : Option String :=
    if r.xForwardedFor ≠ "" then (Strings.split r.xForwardedFor ',').head?.map Strings.trimSpace
    else none
  match forwarded with
  | some ip => ip
  | none =>
    if r.xRealIP ≠ "" then r.xRealIP
    else
      match Net.splitHostPort r.remoteAddr with
      | .error _ => r.remoteAddr
      | .ok (host, _) => host

/-- **The client IP of a direct connection is the peer's host.** Without `X-Forwarded-For` and
`X-Real-IP`, a request from the address `JoinHostPort(host, port)` is attributed to `host`, an
IPv6 host included, for every host without brackets and every port without brackets or
colons. -/
theorem getClientIP_joinHostPort {r : Request} (hx : r.xForwardedFor = "") (hr : r.xRealIP = "")
    {host port : String} (hh : '[' ∉ host.data ∧ ']' ∉ host.data)
    (hp : '[' ∉ port.data ∧ ']' ∉ port.data ∧ ':' ∉ port.data)
    (ha : r.remoteAddr = Net.joinHostPort host port) : getClientIP r = host := by
  simp [getClientIP, hx, hr, ha, Net.splitHostPort_joinHostPort hh hp]

theorem getClientIP_ipv6_peer :
    (⟨"GET", "/health", "/health", "", false, "", "", "[2001:db8::1]:443", "", [], none⟩ : Request).xForwardedFor = "" ∧
      (⟨"GET", "/health", "/health", "", false, "", "", "[2001:db8::1]:443", "", [], none⟩ : Request).xRealIP = "" ∧
      ('[' ∉ "2001:db8::1".data ∧ ']' ∉ "2001:db8::1".data) ∧
      ('[' ∉ "443".data ∧ ']' ∉ "443".data ∧ ':' ∉ "443".data) ∧
      (⟨"GET", "/health", "/health", "", false, "", "", "[2001:db8::1]:443", "", [], none⟩ : Request).remoteAddr =
        Net.joinHostPort "2001:db8::1" "443" ∧
      getClientIP ⟨"GET", "/health", "/health", "", false, "", "", "[2001:db8::1]:443", "", [], none⟩ = "2001:db8::1" :=
  ⟨rfl, rfl, by decide, by decide, by decide,
    @getClientIP_joinHostPort _ rfl rfl "2001:db8::1" "443" (by decide) (by decide) (by decide)⟩

/-! ### The four middlewares -/

/-- The event `logger.NewRequestLogEvent(getClientIP(r))` that `loggingMiddleware` makes. -/
def requestLogEvent (env : Env) (r : Request) : LogEvent :=
  ⟨env.processID, processTypeRequest, getClientIP r⟩

section Middlewares

variable (next : HandlerFn)

/-- What `loggingMiddleware` does once the handler is over: the end of a handler that
returned is logged with the status the wrapper recorded. A panic goes on up, and nothing more
is logged; a handler that never returns logs nothing more. -/
def logCompletion (env : Env) (ctx : Option LogEvent) (o : Outcome) : Outcome :=
  match o.ending with
  | .returns _ =>
    { o with
      state := logInfo env ctx "http_request_complete" "HTTP request processed"
        (some o.writer.statusCode) o.state }
  | _ => o

/-- The function `loggingMiddleware`: the request's event goes into its context, the start
is logged, the handler runs on the wrapper `responseWriter`, and its end is logged
(`logCompletion`). -/
def loggingMiddleware : HandlerFn := fun env r st w =>
  let r := { r with logEvent := some (requestLogEvent env r) }
  let st := logInfo env r.logEvent "http_request_start" "HTTP request received" none st
  logCompletion env r.logEvent (next env r st { w with statusCode := 200 })

/-- The three headers `corsMiddleware` sets. -/
def corsHeaders (w : Writer) : Writer :=
  ((w.set "Access-Control-Allow-Origin" "*").set "Access-Control-Allow-Methods"
    "GET, POST, OPTIONS").set "Access-Control-Allow-Headers" "Content-Type, Authorization"

/-- The function `corsMiddleware`. -/
def corsMiddleware : HandlerFn := fun env r st w =>
  if r.method = "OPTIONS" then ⟨st, (corsHeaders w).writeHeader 200, .returns ()⟩
  else next env r st (corsHeaders w)

/-- The body `recoveryMiddleware` writes. -/
def internalErrorBody : String :=
  "\x7b\"error\":\"internal server error\",\"message\":\"An unexpected error occurred\"\x7d"

/-- The deferred function of `recoveryMiddleware`: a panic of the handler is logged and
answered 500. -/
def recoverPanic (env : Env) (ctx : Option LogEvent) (o : Outcome) : Outcome :=
  match o.ending with
  | .panics v =>
    let st := logError env ctx "panic_recovery" "" "Panic recovered in HTTP handler"
      ("panic: " ++ v) logSeverityHigh o.state
    let logEvent := getLogEvent env ctx
    ⟨st, (((o.writer.set "Content-Type" "application/json").set "X-Request-ID"
      logEvent.processID).writeHeader 500).write (.text internalErrorBody), .returns ()⟩
  | _ => o

/-- The function `recoveryMiddleware`. -/
def recoveryMiddleware : HandlerFn := fun env r st w => recoverPanic env r.logEvent (next env r st w)

/-- The body `rateLimitingMiddleware` writes. -/
def rateLimitedBody : String :=
  "\x7b\"error\":\"rate limit exceeded\",\"message\":\"Please try again later\"\x7d"

/-- What `rateLimitingMiddleware` writes for a denied request. -/
def writeRateLimited (w : Writer) (processID : String) : Writer :=
  ((((w.set "Content-Type" "application/json").set "X-Request-ID" processID).set
    "X-RateLimit-Retry-After" "1").writeHeader 429).write (.text rateLimitedBody)

theorem writeRateLimited_status {w : Writer} (h : w.sent = none) (processID : String) :
    (writeRateLimited w processID).status = 429 :=
  Writer.status_write_writeHeader (by simpa using h) _ _

/-- The function `rateLimitingMiddleware`, with the two-tier limiter of `main`: the limiter is
asked for the client IP of the context's event, and a denied request is answered 429. -/
def rateLimitingMiddleware : HandlerFn := fun env r st w =>
  let logEvent := getLogEvent env r.logEvent
  let (allowed, limiter) := st.limiter.allow logEvent.clientIP env.now
  let st := { st with limiter := limiter }
  if !allowed then
    let st := logError env r.logEvent "rate_limited" "" "Rate limit exceeded" errRateLimitExceeded
      logSeverityMedium st
    ⟨st, writeRateLimited w logEvent.processID, .returns ()⟩
  else next env r st w

variable {next} {env : Env} {r : Request} {st : ServerState} {w : Writer}

/-- A request that is not a preflight goes on to the handler, with the CORS headers set. -/
theorem corsMiddleware_of_ne (h : r.method ≠ "OPTIONS") :
    corsMiddleware next env r st w = next env r st (corsHeaders w) := if_neg h

end Middlewares

/-! ### After the handler -/

section After

variable (env : Env) (ctx : Option LogEvent) (o : Outcome)

/-- A panic of the handler is logged and answered 500. -/
theorem recoverPanic_of_panics {v : String} (h : o.ending = .panics v) :
    recoverPanic env ctx o =
      ⟨logError env ctx "panic_recovery" "" "Panic recovered in HTTP handler" ("panic: " ++ v)
          logSeverityHigh o.state,
        (((o.writer.set "Content-Type" "application/json").set "X-Request-ID"
          (getLogEvent env ctx).processID).writeHeader 500).write (.text internalErrorBody),
        .returns ()⟩ := by
  unfold recoverPanic
  rw [h]

/-- Around a handler that did not panic, `recoverPanic` changes nothing. -/
theorem recoverPanic_of_not_panics (h : ∀ v, o.ending ≠ .panics v) : recoverPanic env ctx o = o := by
  unfold recoverPanic
  split
  · exact absurd ‹_› (h _)
  · rfl

@[simp] theorem recoverPanic_limiter : (recoverPanic env ctx o).state.limiter = o.state.limiter := by
  unfold recoverPanic
  split <;> rfl

@[simp] theorem recoverPanic_cache : (recoverPanic env ctx o).state.cache = o.state.cache := by
  unfold recoverPanic
  split <;> rfl

/-- After `recoverPanic` the handler has returned, unless it never returns. -/
theorem recoverPanic_ending :
    (recoverPanic env ctx o).ending = .returns () ∨
      (recoverPanic env ctx o).ending = .blocks ∧ o.ending = .blocks := by
  rcases h : o.ending with ⟨⟩ | v | _
  · rw [recoverPanic_of_not_panics _ _ _ (by simp [h]), h]
    exact .inl rfl
  · rw [recoverPanic_of_panics _ _ _ h]
    exact .inl rfl
  · rw [recoverPanic_of_not_panics _ _ _ (by simp [h]), h]
    exact .inr ⟨rfl, rfl⟩

@[simp] theorem logCompletion_limiter :
    (logCompletion env ctx o).state.limiter = o.state.limiter := by
  unfold logCompletion
  split <;> rfl

@[simp] theorem logCompletion_cache : (logCompletion env ctx o).state.cache = o.state.cache := by
  unfold logCompletion
  split <;> rfl

@[simp] theorem logCompletion_writer : (logCompletion env ctx o).writer = o.writer := by
  unfold logCompletion
  split <;> rfl

@[simp] theorem logCompletion_ending : (logCompletion env ctx o).ending = o.ending := by
  unfold logCompletion
  split <;> rfl

/-- The end of a handler that returned is the last entry of the log. -/
theorem logCompletion_getLast (h : o.ending = .returns ()) :
    (logCompletion env ctx o).state.logs.getLast? =
      some ⟨"", "HTTP request processed", "http_request_complete", "",
        (getLogEvent env ctx).processID, (getLogEvent env ctx).processType,
        (getLogEvent env ctx).clientIP, "", some o.writer.statusCode⟩ := by
  simp [logCompletion, h, logInfo, logEntry]

variable {env ctx o} {st : ServerState}

theorem LogsUnder.recoverPanic (h : LogsUnder (getLogEvent env ctx) st o.state) :
    LogsUnder (getLogEvent env ctx) st (recoverPanic env ctx o).state := by
  unfold AdsTxtAnalyzer.Http.recoverPanic
  split
  · exact h.append_logEntry _ _ _ _ _ _ _ _ _
  · exact h

theorem LogsUnder.logCompletion (h : LogsUnder (getLogEvent env ctx) st o.state) :
    LogsUnder (getLogEvent env ctx) st (logCompletion env ctx o).state := by
  unfold AdsTxtAnalyzer.Http.logCompletion
  split
  · exact h.append_logEntry _ _ _ _ _ _ _ _ _
  · exact h

end After

end Http

end AdsTxtAnalyzer
