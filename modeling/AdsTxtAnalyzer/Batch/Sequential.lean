import AdsTxtAnalyzer.Batch.Invariant

/-!
# The goroutines of `AnalyzeDomains` one after another

`analyzeDomainsSeq` runs `AnalyzeDomain` for each domain in turn, on one cache and at one time.
It is one interleaving of the goroutines of `AdsTxtAnalyzer.Batch.System`: the caller spawns a
worker, which runs to its `wg.Done()` before the next is spawned (`worker_steps`); then the
closer closes `resultsChan`, the aggregator folds the buffered results (`receive_steps`) and
sends the response, which the caller returns.

* `analyzeDomainsSeq_reachable`: every call with at least one domain and a positive
  `maxConcurrent` has a run that returns the aggregate of the sequential results and leaves the
  sequential cache.

So the hypotheses on a batch that the server's theorems take, that its answer is one some run of
the goroutines gives, hold of a server whose batches compute `analyzeDomainsSeq`.
-/

namespace AdsTxtAnalyzer

/-- `AnalyzeDomain` for each domain in turn at time `now`, with the fetcher's answer for each
domain: the results in the order of the domains, and the cache at the end. -/
def analyzeDomainsSeq (now : Nat) (fetched : String → Except String String)
    (parse : String → Except String (List AdsTxtEntry)) :
    DomainCache → List String → List DomainResult × DomainCache
  | dc, [] => ([], dc)
  | dc, d :: ds =>
    let p := analyzeDomain dc now d (fetched d) parse
    let q := analyzeDomainsSeq now fetched parse p.2 ds
    (domainResult d now p.1 :: q.1, q.2)

theorem length_analyzeDomainsSeq (now : Nat) (fetched : String → Except String String)
    (parse : String → Except String (List AdsTxtEntry)) :
    ∀ (dc : DomainCache) (ds : List String), (analyzeDomainsSeq now fetched parse dc ds).1.length = ds.length
  | _, [] => rfl
  | _, _ :: ds => congrArg Nat.succ (length_analyzeDomainsSeq now fetched parse _ ds)

/-! ### One worker -/

section Worker

variable {env : BatchEnv} {s : BatchState} {i : Nat}

private theorem getElem?_set_self_of {ws : List WorkerPc} {p : WorkerPc} (h : ws[i]? = some p)
    (q : WorkerPc) : (ws.set i q)[i]? = some q := by
  rw [getElem?_set_of_getElem? h, if_pos rfl]

/-- `AnalyzeDomain` in a worker, with its cache store when the analysis is fresh: the worker
ends about to send the result of the call, and the cache is the one the call leaves. -/
theorem analyze_steps {d : String} {t : Nat} (hw : s.workers[i]? = some .analyzing)
    (hd : env.domains[i]? = some d) (ht : s.now ≤ t) (fetched : Except String String) :
    Relation.ReflTransGen (BatchStep env) s
      { s with
        workers := s.workers.set i (.sending (domainResult d t (analyzeDomain s.cache t d fetched env.parse).1))
        cache := (analyzeDomain s.cache t d fetched env.parse).2
        now := t } := by
  have h1 := BatchStep.analyze t fetched hw hd ht
  unfold analyzeDomain
  cases hl : lookupDomain s.cache t d fetched env.parse with
  | hit a | failed err =>
    rw [hl] at h1
    exact .single h1
  | fresh a =>
    rw [hl] at h1
    have h2 := (Relation.ReflTransGen.single h1).tail
      (BatchStep.store t (getElem?_set_self_of hw _) hd le_rfl)
    simpa only [List.set_set] using h2

/-- **One worker from its spawn to its `wg.Done()`**, with the semaphore free and room in the
buffer: it sends the result of `AnalyzeDomain` and leaves the cache the call leaves. -/
theorem worker_steps {d : String} {k : Nat} (hm : s.main = .spawning k)
    (hw : s.workers[k]? = some .unspawned) (hd : env.domains[k]? = some d) (hsem : s.sem = 0)
    (hcap : 0 < env.semCap) (hopen : s.closed = false) (hroom : s.buffer.length < env.domains.length)
    (fetched : Except String String) :
    let r := domainResult d s.now (analyzeDomain s.cache s.now d fetched env.parse).1
    Relation.ReflTransGen (BatchStep env) s
      { s with
        main := .spawning (k + 1)
        workers := s.workers.set k (.finished r)
        buffer := s.buffer ++ [r]
        cache := (analyzeDomain s.cache s.now d fetched env.parse).2 } := by
  intro r
  have hw3 := getElem?_set_self_of (getElem?_set_self_of hw .acquiring) .analyzing
  have hw4 := getElem?_set_self_of hw3 (.sending r)
  have h := ((((Relation.ReflTransGen.single (@BatchStep.spawn env _ _ hm hw)).tail
    (BatchStep.acquire (getElem?_set_self_of hw _) (by simpa [hsem] using hcap))).trans
    (analyze_steps hw3 hd le_rfl fetched)).tail (BatchStep.send hw4 hopen hroom)).tail
    (BatchStep.release (getElem?_set_self_of hw4 _) (by simp [hsem]))
  have h' := h.tail (BatchStep.done (getElem?_set_self_of (getElem?_set_self_of hw4 _) _))
  simpa only [List.set_set, Nat.add_sub_cancel] using h'

end Worker

/-! ### The aggregator -/

/-- The aggregator's receives of the whole buffer. -/
theorem receive_steps {env : BatchEnv} :
    ∀ (rest : List DomainResult) (s : BatchState) (acc : Aggregate),
      s.aggregator = .receiving acc → s.buffer = rest →
      Relation.ReflTransGen (BatchStep env) s
        { s with aggregator := .receiving (rest.foldl Aggregate.receive acc), buffer := [] }
  | [], ⟨_, _, _, _, _, _, _, _, _, _, _⟩, _, ha, hb => by
    simp only at ha hb
    subst ha hb
    exact .refl
  | r :: rest, s, acc, ha, hb =>
    .head (.receive ha hb) (receive_steps rest _ (acc.receive r) rfl rfl)

/-! ### The whole call -/

section Call

variable {env : BatchEnv} {now : Nat} {fetched : String → Except String String}

/-- The state between two workers of the sequential schedule: the workers of the results `rs`
have returned and their results wait in the buffer, and the workers of the domains `rest` are
not spawned. -/
def seqState (env : BatchEnv) (now : Nat) (rs : List DomainResult) (rest : List String)
    (dc : DomainCache) : BatchState :=
  { main := .spawning rs.length
    workers := rs.map .finished ++ rest.map fun _ => .unspawned
    sem := 0, buffer := rs, closed := false, wg := 0, closer := .notStarted
    aggregator := .receiving (Aggregate.init env.domains.length)
    response := none, cache := dc, now := now }

/-- The spawning loop with each worker run to its end before the next. -/
theorem spawn_loop (hcap : 0 < env.semCap) :
    ∀ (rest : List String) (done : List String) (rs : List DomainResult) (dc : DomainCache),
      env.domains = done ++ rest → rs.length = done.length →
      Relation.ReflTransGen (BatchStep env) (seqState env now rs rest dc)
        (seqState env now (rs ++ (analyzeDomainsSeq now fetched env.parse dc rest).1) []
          (analyzeDomainsSeq now fetched env.parse dc rest).2)
  | [], _, rs, dc, _, _ => by simp only [analyzeDomainsSeq, List.append_nil]; exact .refl
  | d :: rest, done, rs, dc, hds, hlen => by
    have hd : env.domains[rs.length]? = some d := by
      rw [hds, hlen, List.getElem?_append_right le_rfl, Nat.sub_self, List.getElem?_cons_zero]
    have hw : (seqState env now rs (d :: rest) dc).workers[rs.length]? = some .unspawned := by
      rw [seqState, List.getElem?_append_right (by simp), List.length_map, Nat.sub_self,
        List.map_cons, List.getElem?_cons_zero]
    have hroom : rs.length < env.domains.length := by
      rw [hds, List.length_append, hlen]
      simp
    have h := worker_steps rfl hw hd rfl hcap rfl hroom (fetched d)
    have hrest := spawn_loop hcap rest (done ++ [d]) (rs ++ [domainResult d now
      (analyzeDomain dc now d (fetched d) env.parse).1]) (analyzeDomain dc now d (fetched d) env.parse).2
      (by rw [hds, List.append_assoc]; rfl) (by simp [hlen])
    refine Relation.ReflTransGen.trans ?_ (by simpa [analyzeDomainsSeq] using hrest)
    convert h using 1
    simp [seqState, List.set_append_right]

/-- **The sequential schedule is a run of `AnalyzeDomains`.** A call with at least one domain
and a positive `maxConcurrent` can run its workers one after another, each on the cache the one
before it left and at the time of the call, and return the aggregate of their results, in the
order of the domains, leaving the cache the last worker left. -/
theorem analyzeDomainsSeq_reachable (hN : env.domains ≠ []) (hcap : 0 < env.maxConcurrent)
    (cache : DomainCache) (now : Nat) (fetched : String → Except String String) :
    ∃ s, BatchReachable env cache now s ∧
      s.main = .returned (aggregateResults env.domains.length
        (analyzeDomainsSeq now fetched env.parse cache env.domains).1 now) ∧
      s.cache = (analyzeDomainsSeq now fetched env.parse cache env.domains).2 := by
  have hinit : BatchState.init env cache now = seqState env now [] env.domains cache := by
    unfold BatchState.init seqState
    rw [if_neg hN, if_neg (by omega)]
    simp
  have hloop : BatchReachable env cache now _ := hinit ▸
    @spawn_loop env now fetched (by unfold BatchEnv.semCap; omega) env.domains [] [] cache rfl rfl
  have hspawned : (seqState env now ([] ++ (analyzeDomainsSeq now fetched env.parse cache
      env.domains).1) [] (analyzeDomainsSeq now fetched env.parse cache env.domains).2).main =
      .spawning env.domains.length := by
    simp [seqState, length_analyzeDomainsSeq]
  exact ⟨_, (((hloop.tail (.startCloser hspawned)).tail (.close rfl rfl)).trans
    (receive_steps _ _ _ rfl rfl)).tail (.finish now rfl rfl rfl rfl le_rfl) |>.tail
    (.deliver rfl rfl), rfl, rfl⟩

end Call

end AdsTxtAnalyzer
