import AdsTxtAnalyzer.Analysis.AnalyzeDomain
import AdsTxtAnalyzer.Analysis.Aggregate
import Mathlib.Logic.Relation

/-!
# The goroutines of one `AnalyzeDomains` call

`Service.AnalyzeDomains` returns at once, with an empty response, for an empty domain list.
Otherwise it starts the `aggregateResults` goroutine, makes the semaphore
`sem := make(chan struct{}, s.maxConcurrent)`, and runs the loop
`for _, domain := range domains { wg.Add(1); go func(dom string) {...}(domain) }`. Each
worker sends on `sem`, runs `AnalyzeDomain`, builds its `DomainResult`, sends it on the
buffered `resultsChan` and leaves through its deferred calls: `<-sem`, then `wg.Done()`. A
closer goroutine started after the loop waits for the group and closes `resultsChan`. The
aggregator ranges over `resultsChan` until it is closed and drained, then sends the response
on `responseChan`, which the caller receives and returns.

`BatchState` holds the program counter of every goroutine and every shared object: the
buffers of the three channels, the closed flag, the `WaitGroup` counter, the domain cache and
the clock. `BatchStep` has one constructor for each atomic action; any interleaving of the
goroutines is a path of `BatchStep`. Its choices are the scheduler's (which goroutine moves),
the clock (each timed action reads a time not before the last), and the fetcher's answer to
each cache miss.

Modelling choices:

* A channel send is enabled while the buffer has room; with no room it may still hand its
  value straight to a waiting receiver. Only `sem` can have no room (capacity
  `maxConcurrent`, possibly `0`), so `handoff` pairs a worker blocked in `sem <- struct{}{}`
  with one blocked in its deferred `<-sem`. A receive on an empty `resultsChan` waits.
* `make` with a negative size panics: the call goes to `MainPc.panicked` before any worker
  exists, its aggregator blocked for ever.
* A worker runs `AnalyzeDomain` in two steps: `analyze` (cache lookup, then on a miss the
  fetch, the parse and `buildAnalysis`) and, on a fresh analysis, `store`. The fetch and the
  parse touch no shared state, so running them inside one step loses no interleaving.
* Workers keep, in their program counter, the result they sent (`WorkerPc.sent?`), so
  statements can follow each result from its worker to the response.
-/

namespace AdsTxtAnalyzer

/-- What one call `AnalyzeDomains(ctx, domains)` runs with: the domains, the service's
`maxConcurrent`, and the parser's `Parse`. -/
structure BatchEnv where
  domains : List String
  maxConcurrent : Int
  parse : String → Except String (List AdsTxtEntry)

/-- The capacity of `sem`: `maxConcurrent`, when `make` accepts it. -/
def BatchEnv.semCap (env : BatchEnv) : Nat := env.maxConcurrent.toNat

/-- Where a worker goroutine is; from `releasing` on it keeps the result it sent. -/
inductive WorkerPc
  | unspawned
  | acquiring
  | analyzing
  | storing (a : BuiltAnalysis)
  | sending (r : DomainResult)
  | releasing (r : DomainResult)
  | leaving (r : DomainResult)
  | finished (r : DomainResult)

namespace WorkerPc

/-- The worker holds a slot of `sem`: from its send on `sem` up to its deferred receive. -/
def holdsSlot : WorkerPc → Bool
  | analyzing | storing _ | sending _ | releasing _ => true
  | _ => false

/-- The worker runs `AnalyzeDomain`. -/
def inPipeline : WorkerPc → Bool
  | analyzing | storing _ => true
  | _ => false

/-- The worker has been added to the `WaitGroup` and has not called `wg.Done()`. -/
def active : WorkerPc → Bool
  | unspawned | finished _ => false
  | _ => true

/-- The result the worker has sent on `resultsChan`, if it has. -/
def sent? : WorkerPc → Option DomainResult
  | releasing r | leaving r | finished r => some r
  | _ => none

/-- The worker has returned. -/
def isFinished : WorkerPc → Bool
  | finished _ => true
  | _ => false

end WorkerPc

/-- Where the calling goroutine is: in the spawning loop, waiting on `responseChan`, returned,
or panicked in `make`. -/
inductive MainPc
  | spawning (next : Nat)
  | awaiting
  | returned (resp : BatchAnalysisResponse)
  | panicked

/-- Where the closer goroutine `go func() { wg.Wait(); close(resultsChan) }()` is. -/
inductive CloserPc
  | notStarted
  | waiting
  | done

/-- Where the `aggregateResults` goroutine is, with its local state while it loops. -/
inductive AggregatorPc
  | notStarted
  | receiving (acc : Aggregate)
  | done

/-- The state of the goroutines of one `AnalyzeDomains` call and of what they share. -/
structure BatchState where
  main : MainPc
  workers : List WorkerPc
  sem : Nat
  buffer : List DomainResult
  closed : Bool
  wg : Nat
  closer : CloserPc
  aggregator : AggregatorPc
  response : Option BatchAnalysisResponse
  cache : DomainCache
  now : Nat

/-- The response of the early return for an empty domain list. -/
def emptyResponse (now : Nat) : BatchAnalysisResponse :=
  { results := [], summary := ⟨0, 0, 0⟩, advertisers := [], totalAdvertisers := 0
    timestamp := now }

/-- The early return is what `aggregateResults` gives for no domains and no results. -/
theorem emptyResponse_eq (now : Nat) : emptyResponse now = aggregateResults 0 [] now := by
  simp [emptyResponse, aggregateResults, Aggregate.ofResults_eq, Aggregate.response,
    CountMap.toAdvertisers, rangeCounts, sortAdvertisers, CountMap.addAll, CountMap.empty,
    successfulAdvertisers]

/-- The state when `AnalyzeDomains` is called with the domain cache `cache` at time `now`,
once it has made its channels and started the aggregator. -/
def BatchState.init (env : BatchEnv) (cache : DomainCache) (now : Nat) : BatchState :=
  if env.domains = [] then
    { main := .returned (emptyResponse now), workers := [], sem := 0, buffer := []
      closed := false, wg := 0, closer := .notStarted, aggregator := .notStarted
      response := none, cache := cache, now := now }
  else
    { main := if env.maxConcurrent < 0 then .panicked else .spawning 0
      workers := env.domains.map fun _ => .unspawned
      sem := 0, buffer := [], closed := false, wg := 0, closer := .notStarted
      aggregator := .receiving (Aggregate.init env.domains.length)
      response := none, cache := cache, now := now }

/-- The program counter a worker reaches after the first part of `AnalyzeDomain` at time `t`:
a hit or a failure is a result to send, a fresh analysis is still to be stored. -/
def afterLookup (dom : String) (t : Nat) : Lookup → WorkerPc
  | .hit a => .sending (domainResult dom t (.ok a.markCached.analysis))
  | .failed err => .sending (domainResult dom t (.error err))
  | .fresh a => .storing a

/-- One atomic action of one goroutine of the call. -/
inductive BatchStep (env : BatchEnv) : BatchState → BatchState → Prop
  /-- `wg.Add(1)` and `go func(...)` for the next domain. -/
  | spawn {s : BatchState} {k : Nat} (hm : s.main = .spawning k)
      (hw : s.workers[k]? = some .unspawned) :
      BatchStep env s
        { s with
          main := .spawning (k + 1)
          workers := s.workers.set k .acquiring
          wg := s.wg + 1 }
  /-- The loop is over: start the closer and wait on `responseChan`. -/
  | startCloser {s : BatchState} (hm : s.main = .spawning env.domains.length) :
      BatchStep env s
        { s with main := .awaiting, closer := .waiting }
  /-- `sem <- struct{}{}` into a buffer with room. -/
  | acquire {s : BatchState} {i : Nat} (hw : s.workers[i]? = some .acquiring)
      (hroom : s.sem < env.semCap) :
      BatchStep env s
        { s with workers := s.workers.set i .analyzing, sem := s.sem + 1 }
  /-- `sem <- struct{}{}` handed to a worker waiting in `<-sem` on an empty buffer. -/
  | handoff {s : BatchState} {i j : Nat} {r : DomainResult}
      (hi : s.workers[i]? = some .acquiring) (hj : s.workers[j]? = some (.releasing r))
      (hempty : s.sem = 0) :
      BatchStep env s
        { s with workers := (s.workers.set i .analyzing).set j (.leaving r) }
  /-- `AnalyzeDomain` up to its cache store, at time `t`, with the fetcher's answer. -/
  | analyze {s : BatchState} {i : Nat} {dom : String} (t : Nat) (fetched : Except String String)
      (hw : s.workers[i]? = some .analyzing) (hd : env.domains[i]? = some dom) (ht : s.now ≤ t) :
      BatchStep env s { s with
        workers := s.workers.set i (afterLookup dom t (lookupDomain s.cache t dom fetched env.parse))
        now := t }
  /-- `domainCache.Set` of a fresh analysis at time `t`; the worker then builds its result. -/
  | store {s : BatchState} {i : Nat} {dom : String} {a : BuiltAnalysis} (t : Nat)
      (hw : s.workers[i]? = some (.storing a)) (hd : env.domains[i]? = some dom)
      (ht : s.now ≤ t) :
      BatchStep env s { s with
        workers := s.workers.set i (.sending (domainResult dom t (.ok a.analysis)))
        cache := (s.cache.set t dom a 0).2
        now := t }
  /-- `resultsChan <- result`, into the buffer of size `len(domains)`. -/
  | send {s : BatchState} {i : Nat} {r : DomainResult} (hw : s.workers[i]? = some (.sending r))
      (hopen : s.closed = false) (hroom : s.buffer.length < env.domains.length) :
      BatchStep env s
        { s with workers := s.workers.set i (.releasing r), buffer := s.buffer ++ [r] }
  /-- The deferred `<-sem`, from a non-empty buffer. -/
  | release {s : BatchState} {i : Nat} {r : DomainResult} (hw : s.workers[i]? = some (.releasing r))
      (hsem : 0 < s.sem) :
      BatchStep env s
        { s with workers := s.workers.set i (.leaving r), sem := s.sem - 1 }
  /-- The deferred `wg.Done()`. -/
  | done {s : BatchState} {i : Nat} {r : DomainResult} (hw : s.workers[i]? = some (.leaving r)) :
      BatchStep env s
        { s with workers := s.workers.set i (.finished r), wg := s.wg - 1 }
  /-- The closer: `wg.Wait()` has returned, `close(resultsChan)`. -/
  | close {s : BatchState} (hc : s.closer = .waiting) (hwg : s.wg = 0) :
      BatchStep env s
        { s with closer := .done, closed := true }
  /-- One iteration of the aggregator's `range resultsChan`. -/
  | receive {s : BatchState} {acc : Aggregate} {r : DomainResult} {rest : List DomainResult}
      (ha : s.aggregator = .receiving acc) (hb : s.buffer = r :: rest) :
      BatchStep env s
        { s with aggregator := .receiving (acc.receive r), buffer := rest }
  /-- The range ends on the closed, drained channel; the response is sent at time `t`. -/
  | finish {s : BatchState} {acc : Aggregate} (t : Nat) (ha : s.aggregator = .receiving acc)
      (hb : s.buffer = []) (hc : s.closed = true) (hr : s.response = none) (ht : s.now ≤ t) :
      BatchStep env s
        { s with aggregator := .done, response := some (acc.response t), now := t }
  /-- `response := <-responseChan`, and `AnalyzeDomains` returns it. -/
  | deliver {s : BatchState} {resp : BatchAnalysisResponse} (hm : s.main = .awaiting)
      (hr : s.response = some resp) :
      BatchStep env s
        { s with main := .returned resp, response := none }

/-- The states one call can reach from its start, under any interleaving. -/
def BatchReachable (env : BatchEnv) (cache : DomainCache) (now : Nat) (s : BatchState) : Prop :=
  Relation.ReflTransGen (BatchStep env) (BatchState.init env cache now) s

/-- The results the workers have sent, in worker order. -/
def sentResults (ws : List WorkerPc) : List DomainResult := ws.filterMap WorkerPc.sent?

end AdsTxtAnalyzer
