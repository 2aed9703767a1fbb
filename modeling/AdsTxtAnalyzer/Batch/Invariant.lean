import AdsTxtAnalyzer.Batch.System
import AdsTxtAnalyzer.ListSet

/-!
# The invariants of the batch goroutine system

Every state one call of `AnalyzeDomains` can reach, under any interleaving of its goroutines,
satisfies three invariants. Each is proved the same way: it holds of `BatchState.init`, and
every `BatchStep` from a reachable state keeps it (`BatchReachable.induction`).

* `Counts`: the counters agree with the workers. `sem` holds one token per worker holding a
  slot, never more than its capacity, and the `WaitGroup` counts the workers that have been
  added and have not called `wg.Done()`.
* `Control`: the program counters of the caller, the closer and the aggregator, the closed
  flag and `responseChan` move in lockstep. The workers start in order, the closer starts
  after the loop, `resultsChan` is closed only once every worker has returned, and the
  aggregator answers only after the close.
* `Results`: every result a worker builds is valid for its own domain; the aggregator's
  state is the fold of what it has received, and what it has received followed by the buffer
  is, up to order, what the workers have sent; a response sent or returned is
  `aggregateResults` of a reordering of all the results.

A `handoff` never happens: a worker waiting in its deferred `<-sem` holds a slot, so the
buffer of `sem` is not empty (`Counts.sem_pos`). From `Counts`, at most `maxConcurrent`
workers, and none for a negative value, hold a slot at once
(`analyzeDomains_slots_le_maxConcurrent`).
-/

namespace AdsTxtAnalyzer

/-! ### Lists changed at one position -/

/-! ### Reachable states -/

section Reachable

variable {env : BatchEnv} {cache : DomainCache} {now : Nat} {s s' : BatchState}

theorem BatchReachable.step (h : BatchReachable env cache now s) (hst : BatchStep env s s') :
    BatchReachable env cache now s' :=
  Relation.ReflTransGen.tail h hst

/-- The induction principle of reachable states: a property of the initial state that every
step from a reachable state keeps holds in every reachable state. -/
@[elab_as_elim]
theorem BatchReachable.induction {P : BatchState → Prop} (h0 : P (BatchState.init env cache now))
    (hs : ∀ {s s'}, BatchReachable env cache now s → P s → BatchStep env s s' → P s')
    (h : BatchReachable env cache now s) : P s := by
  induction h with
  | refl => exact h0
  | tail hr hst ih => exact hs hr ih hst

end Reachable

/-! ### Worker program counters -/

namespace WorkerPc

/-- The worker has been started by the spawning loop. -/
def started : WorkerPc → Bool
  | unspawned => false
  | _ => true

/-- The result a worker has built is valid for its domain `d`. -/
def Valid (d : String) : WorkerPc → Prop
  | sending r | releasing r | leaving r | finished r => r.Valid d
  | _ => True

theorem isFinished_of_started {p : WorkerPc} (h₁ : p.started = true) (h₂ : p.active = false) :
    p.isFinished = true := by
  cases p <;> simp_all [started, active, isFinished]

theorem Valid.of_sent {p : WorkerPc} {d : String} {r : DomainResult} (hv : p.Valid d)
    (hr : p.sent? = some r) : r.Valid d := by
  cases p <;> cases hr <;> exact hv

end WorkerPc

section AfterLookup

variable (dom : String) (t : Nat) (l : Lookup)

@[simp] theorem holdsSlot_afterLookup : (afterLookup dom t l).holdsSlot = true := by
  cases l <;> rfl

@[simp] theorem active_afterLookup : (afterLookup dom t l).active = true := by
  cases l <;> rfl

@[simp] theorem started_afterLookup : (afterLookup dom t l).started = true := by
  cases l <;> rfl

@[simp] theorem sent?_afterLookup : (afterLookup dom t l).sent? = none := by
  cases l <;> rfl

/-- Whatever `AnalyzeDomain` found, the result the worker builds from it is valid. -/
theorem valid_afterLookup : (afterLookup dom t l).Valid dom := by
  cases l with
  | hit a => exact domainResult_ok_valid dom t a.markCached
  | failed err => exact domainResult_error_valid dom t err
  | fresh a => trivial

end AfterLookup

/-! ### The semaphore and the `WaitGroup` -/

/-- The counters agree with the workers `ws` of a call of `N` domains whose `sem` has capacity
`cap`: `sem` holds one token per worker holding a slot, and the `WaitGroup` counter `wg`
counts the workers added and not yet done. -/
structure Counts (N cap : Nat) (ws : List WorkerPc) (sem wg : Nat) : Prop where
  length : ws.length = N
  sem_eq : sem = ws.countP WorkerPc.holdsSlot
  sem_le : sem ≤ cap
  wg_eq : wg = ws.countP WorkerPc.active

namespace Counts

variable {N cap : Nat} {ws : List WorkerPc} {sem wg : Nat} {i : Nat} {p : WorkerPc}

/-- A worker in its deferred `<-sem` finds a token in the buffer. -/
theorem sem_pos (h : Counts N cap ws sem wg) {r : DomainResult}
    (hw : ws[i]? = some (.releasing r)) : 0 < sem :=
  h.sem_eq ▸ countP_pos_of_getElem? hw rfl

/-- Moving one worker from `p` to `q`, with `sem` and `wg` moved by the slot and the place in
the group that the worker takes or gives back. -/
theorem set (h : Counts N cap ws sem wg) (hw : ws[i]? = some p) (q : WorkerPc) {sem' wg' : Nat}
    (hsem : sem' + (if p.holdsSlot then 1 else 0) = sem + (if q.holdsSlot then 1 else 0))
    (hle : sem' ≤ cap)
    (hwg : wg' + (if p.active then 1 else 0) = wg + (if q.active then 1 else 0)) :
    Counts N cap (ws.set i q) sem' wg' where
  length := by rw [List.length_set, h.length]
  sem_eq := by
    have := countP_set_of_getElem? hw q WorkerPc.holdsSlot
    rw [h.sem_eq] at hsem
    omega
  sem_le := hle
  wg_eq := by
    have := countP_set_of_getElem? hw q WorkerPc.active
    rw [h.wg_eq] at hwg
    omega

theorem init (env : BatchEnv) (cache : DomainCache) (now : Nat) :
    Counts env.domains.length env.semCap (BatchState.init env cache now).workers
      (BatchState.init env cache now).sem (BatchState.init env cache now).wg := by
  unfold BatchState.init
  split
  · next hd => exact ⟨by simp [hd], rfl, Nat.zero_le _, rfl⟩
  · exact ⟨by simp, by simp [List.countP_replicate, WorkerPc.holdsSlot], Nat.zero_le _,
      by simp [List.countP_replicate, WorkerPc.active]⟩

theorem step {env : BatchEnv} {s s' : BatchState}
    (h : Counts env.domains.length env.semCap s.workers s.sem s.wg) (hst : BatchStep env s s') :
    Counts env.domains.length env.semCap s'.workers s'.sem s'.wg := by
  cases hst with
  | spawn _ hw => exact h.set hw _ rfl h.sem_le rfl
  | acquire hw hroom => exact h.set hw _ rfl hroom rfl
  | handoff _ hj hempty => exact absurd hempty (h.sem_pos hj).ne'
  | analyze _ _ hw =>
    exact h.set hw _ (by rw [holdsSlot_afterLookup]; rfl) h.sem_le (by rw [active_afterLookup]; rfl)
  | store _ hw | send hw => exact h.set hw _ rfl h.sem_le rfl
  | release hw hsem =>
    exact h.set hw _ (by simp [WorkerPc.holdsSlot]; omega) ((Nat.sub_le _ _).trans h.sem_le) rfl
  | done hw =>
    have := h.wg_eq ▸ countP_pos_of_getElem? hw (q := WorkerPc.active) rfl
    exact h.set hw _ rfl h.sem_le (by simp [WorkerPc.active]; omega)
  | startCloser | close | receive | finish | deliver => exact h

end Counts

section Reachable

variable {env : BatchEnv} {cache : DomainCache} {now : Nat} {s : BatchState}

theorem counts_of_reachable (h : BatchReachable env cache now s) :
    Counts env.domains.length env.semCap s.workers s.sem s.wg :=
  h.induction (Counts.init env cache now) fun _ hc hst => hc.step hst

/-- At every reachable state of a call, at most `maxConcurrent` workers hold a slot of `sem`,
none when `maxConcurrent` is negative (then `make` panics before any worker starts), and so at
most that many run `AnalyzeDomain` at once. -/
theorem analyzeDomains_slots_le_maxConcurrent (h : BatchReachable env cache now s) :
    s.workers.countP WorkerPc.holdsSlot ≤ env.maxConcurrent.toNat ∧
      s.workers.countP WorkerPc.inPipeline ≤ s.workers.countP WorkerPc.holdsSlot := by
  have hc := counts_of_reachable h
  refine ⟨hc.sem_eq ▸ hc.sem_le, List.countP_mono_left fun p _ hp => ?_⟩
  cases p <;> first | rfl | cases hp

/-- In a call of one domain with `maxConcurrent = 1`, once the worker has acquired its slot it
is the one holder the bound allows. -/
theorem analyzeDomains_one_slot_held :
    ∃ s, BatchReachable ⟨["a"], 1, fun _ => .ok []⟩ ⟨MemoryCache.empty, 0⟩ 0 s ∧
      s.workers.countP WorkerPc.holdsSlot = 1 ∧ s.workers.countP WorkerPc.holdsSlot ≤ 1 := by
  have h0 : BatchReachable ⟨["a"], 1, fun _ => .ok []⟩ ⟨MemoryCache.empty, 0⟩ 0
    (BatchState.init ⟨["a"], 1, fun _ => .ok []⟩ ⟨MemoryCache.empty, 0⟩ 0) := .refl
  have h := ((h0.step (.spawn rfl rfl)).step (.startCloser rfl)).step
    (.acquire (i := 0) rfl (by decide))
  exact ⟨_, h, rfl, (analyzeDomains_slots_le_maxConcurrent h).1⟩

end Reachable

/-- With a negative `maxConcurrent` the number of slots held is not bounded by it: the call
with one domain and `maxConcurrent = -1` panics in `make` with no worker holding a slot, and
`0` slots is more than `-1`. -/
theorem analyzeDomains_slots_le_negative_fails :
    ¬ ∀ (env : BatchEnv) (cache : DomainCache) (now : Nat) (s : BatchState),
      BatchReachable env cache now s →
        (s.workers.countP WorkerPc.holdsSlot : Int) ≤ env.maxConcurrent := fun h =>
  absurd (h ⟨["a"], -1, fun _ => .ok []⟩ ⟨MemoryCache.empty, 0⟩ 0 _ .refl) (by decide)

/-! ### The program counters -/

/-- The number of workers the caller has started, read from its program counter: the index of
the spawning loop, none after the panic of `make`, all of them once the loop is over. -/
def spawnedCount (N : Nat) : MainPc → Nat
  | .spawning k => k
  | .panicked => 0
  | _ => N

/-- How the program counters of one call fit together. -/
structure Control (env : BatchEnv) (s : BatchState) : Prop where
  /-- The workers started are those of the first `spawnedCount` domains. -/
  spawned : ∀ i p, s.workers[i]? = some p →
    (p.started = true ↔ i < spawnedCount env.domains.length s.main)
  spawning_le : ∀ k, s.main = .spawning k → k ≤ env.domains.length
  /-- The closer is started after the loop. -/
  closer_started : s.closer ≠ .notStarted → s.main = .awaiting ∨ ∃ r, s.main = .returned r
  closed_iff : s.closed = true ↔ s.closer = .done
  /-- `resultsChan` is closed only once every worker has returned. -/
  closed_finished : s.closed = true → ∀ p ∈ s.workers, p.isFinished = true
  agg_notStarted : s.aggregator = .notStarted → ∃ r, s.main = .returned r
  /-- The aggregator stops on the closed channel, and its response waits in `responseChan`
  until the caller takes it. -/
  agg_done : s.aggregator = .done →
    s.closed = true ∧ (s.response.isSome = true ∨ ∃ r, s.main = .returned r)
  response_some : ∀ r, s.response = some r → s.aggregator = .done
  main_awaiting : s.main = .awaiting → s.closer ≠ .notStarted
  main_returned : ∀ r, s.main = .returned r → env.domains = [] ∨ s.aggregator = .done
  /-- Only `make` with a negative size panics. -/
  panicked : s.main = .panicked → env.maxConcurrent < 0

namespace Control

variable {env : BatchEnv} {s s' : BatchState} {i : Nat} {p : WorkerPc}

/-- A worker that has not returned keeps `resultsChan` open. -/
theorem closed_eq_false (h : Control env s) (hw : s.workers[i]? = some p)
    (hp : p.isFinished = false) : s.closed = false := by
  cases hc : s.closed
  · rfl
  · simpa [hp] using h.closed_finished hc p (List.getElem?_mem hw)

/-- The field `spawned` after a started worker moves to another started state. -/
theorem spawned_set (h : Control env s) (hw : s.workers[i]? = some p) (hp : p.started = true)
    {q : WorkerPc} (hq : q.started = true) :
    ∀ j p', (s.workers.set i q)[j]? = some p' →
      (p'.started = true ↔ j < spawnedCount env.domains.length s.main) := by
  intro j p' hj
  rw [getElem?_set_of_getElem? hw] at hj
  split at hj
  · next hij =>
    obtain rfl := Option.some.inj hj
    subst hij
    simpa [hp, hq] using h.spawned i p hw
  · exact h.spawned j p' hj

/-- The field `closed_finished` after a worker that has not returned moves. -/
theorem closed_set (h : Control env s) (hw : s.workers[i]? = some p) (hp : p.isFinished = false)
    (q : WorkerPc) : s.closed = true → ∀ p' ∈ s.workers.set i q, p'.isFinished = true := by
  rw [h.closed_eq_false hw hp]
  nofun

theorem init (env : BatchEnv) (cache : DomainCache) (now : Nat) :
    Control env (BatchState.init env cache now) := by
  unfold BatchState.init
  split
  · next hd =>
    exact { spawned := by simp, spawning_le := nofun, closer_started := fun h => absurd rfl h,
            closed_iff := by simp, closed_finished := nofun, agg_notStarted := fun _ => ⟨_, rfl⟩,
            agg_done := nofun, response_some := nofun, main_awaiting := nofun,
            main_returned := fun _ _ => .inl hd, panicked := nofun }
  · have hcount : spawnedCount env.domains.length
        (if env.maxConcurrent < 0 then .panicked else .spawning 0) = 0 := by
      split <;> rfl
    refine { spawned := fun i p hp => ?_, spawning_le := fun k hk => ?_,
             closer_started := fun h => absurd rfl h, closed_iff := by simp,
             closed_finished := nofun, agg_notStarted := nofun, agg_done := nofun,
             response_some := nofun, main_awaiting := ?_, main_returned := ?_,
             panicked := ?_ }
    · rw [hcount]
      obtain ⟨-, rfl⟩ := List.getElem?_eq_some.mp hp
      simp [WorkerPc.started]
    · split at hk <;> cases hk
      exact Nat.zero_le _
    · split <;> nofun
    · split <;> nofun
    · split <;> intro hm <;> first | assumption | cases hm

theorem step (h : Control env s) (hc : Counts env.domains.length env.semCap s.workers s.sem s.wg)
    (hst : BatchStep env s s') : Control env s' := by
  cases hst with
  | @spawn k hm hw =>
    have hk : k < env.domains.length := hc.length ▸ (List.getElem?_eq_some.mp hw).1
    have hcl := h.closed_eq_false hw rfl
    refine { h with
      spawned := fun j p' hj => ?_, spawning_le := fun k' hk' => ?_,
      closer_started := fun hne => absurd (h.closer_started hne) (by rw [hm]; simp),
      closed_finished := h.closed_set hw rfl _,
      agg_notStarted := fun ha => absurd (h.agg_notStarted ha) (by rw [hm]; simp),
      agg_done := fun ha => absurd (h.agg_done ha).1 (by simp [hcl]),
      main_awaiting := nofun, main_returned := nofun, panicked := nofun }
    · rw [getElem?_set_of_getElem? hw] at hj
      split at hj
      · obtain rfl := Option.some.inj hj
        simp only [WorkerPc.started, spawnedCount, true_iff]
        omega
      · have := h.spawned j p' hj
        rw [hm] at this
        simp only [spawnedCount] at this ⊢
        rw [this]
        omega
    · cases hk'
      omega
  | startCloser hm =>
    have hcl : s.closer = .notStarted := by
      by_contra hne
      rcases h.closer_started hne with h' | ⟨_, h'⟩ <;> rw [hm] at h' <;> cases h'
    have hclosed : s.closed = false := by simpa [hcl] using h.closed_iff
    refine { h with
      spawned := by simpa only [hm, spawnedCount] using h.spawned,
      spawning_le := nofun, closer_started := fun _ => .inl rfl,
      closed_iff := by simp [hclosed], closed_finished := by simp [hclosed],
      agg_notStarted := fun ha => absurd (h.agg_notStarted ha) (by rw [hm]; simp),
      agg_done := fun ha => absurd (h.agg_done ha).1 (by simp [hclosed]),
      main_awaiting := fun _ => nofun, main_returned := nofun, panicked := nofun }
  | acquire hw | store _ hw | send hw | release hw | done hw =>
    exact { h with spawned := h.spawned_set hw rfl rfl, closed_finished := h.closed_set hw rfl _ }
  | handoff _ hj hempty => exact absurd hempty (hc.sem_pos hj).ne'
  | analyze _ _ hw =>
    exact { h with
      spawned := h.spawned_set hw rfl (started_afterLookup _ _ _),
      closed_finished := h.closed_set hw rfl _ }
  | close hcw hwg =>
    have hstarted := h.closer_started (by rw [hcw]; nofun)
    refine { h with
      closer_started := fun _ => hstarted, closed_iff := by simp,
      closed_finished := fun _ p hp => ?_, agg_done := fun ha => ⟨rfl, (h.agg_done ha).2⟩,
      main_awaiting := fun _ => nofun }
    obtain ⟨i, hi⟩ := List.mem_iff_getElem?.mp (show p ∈ s.workers from hp)
    have hN : spawnedCount env.domains.length s.main = env.domains.length := by
      rcases hstarted with hm | ⟨_, hm⟩ <;> rw [hm] <;> rfl
    refine WorkerPc.isFinished_of_started ((h.spawned i p hi).mpr ?_) ?_
    · rw [hN, ← hc.length]
      exact (List.getElem?_eq_some.mp hi).1
    · simpa using List.countP_eq_zero.mp (hc.wg_eq ▸ hwg) p hp
  | receive ha =>
    refine { h with
      agg_notStarted := nofun, agg_done := nofun,
      response_some := fun r hr => absurd (h.response_some r hr) (by rw [ha]; nofun),
      main_returned := fun r hm => ?_ }
    exact (h.main_returned r hm).imp_right fun hd => absurd hd (by rw [ha]; nofun)
  | finish _ _ _ hcl =>
    exact { h with
      agg_notStarted := nofun, agg_done := fun _ => ⟨hcl, .inl rfl⟩,
      response_some := fun _ _ => rfl, main_returned := fun _ _ => .inr rfl }
  | deliver hm hr =>
    exact { h with
      spawned := by simpa only [hm, spawnedCount] using h.spawned,
      spawning_le := nofun, closer_started := fun _ => .inr ⟨_, rfl⟩,
      agg_notStarted := fun _ => ⟨_, rfl⟩,
      agg_done := fun ha => ⟨(h.agg_done ha).1, .inr ⟨_, rfl⟩⟩, response_some := nofun,
      main_awaiting := nofun, main_returned := fun _ _ => .inr (h.response_some _ hr),
      panicked := nofun }

end Control

theorem control_of_reachable {env : BatchEnv} {cache : DomainCache} {now : Nat} {s : BatchState}
    (h : BatchReachable env cache now s) : Control env s :=
  h.induction (Control.init env cache now) fun hr hs hst => hs.step (counts_of_reachable hr) hst

/-! ### The results -/

/-- What the results of one call satisfy. -/
structure Results (env : BatchEnv) (s : BatchState) : Prop where
  /-- Each worker's result is valid for its own domain. -/
  valid : ∀ (i : Nat) (d : String) (p : WorkerPc), env.domains[i]? = some d →
    s.workers[i]? = some p → p.Valid d
  /-- The aggregator has folded what it received, and what it received followed by the
  buffer of `resultsChan` is, up to order, what the workers have sent. -/
  receiving : ∀ acc, s.aggregator = .receiving acc → ∃ rs,
    acc = Aggregate.ofResults env.domains.length rs ∧
      (rs ++ s.buffer).Perm (sentResults s.workers)
  /-- A response sent or returned comes after every worker has returned, and aggregates all
  their results in some order. -/
  aggregated : ∀ resp, (s.response = some resp ∨ s.main = .returned resp) →
    (∀ p ∈ s.workers, p.isFinished = true) ∧
      ∃ rs t, rs.Perm (sentResults s.workers) ∧ resp = aggregateResults env.domains.length rs t

theorem sentResults_set_perm {ws : List WorkerPc} {i : Nat} {p : WorkerPc}
    (hw : ws[i]? = some p) (q : WorkerPc) :
    (sentResults (ws.set i q) ++ p.sent?.toList).Perm (sentResults ws ++ q.sent?.toList) :=
  filterMap_set_perm hw q _

namespace Results

variable {env : BatchEnv} {s s' : BatchState} {i : Nat} {p : WorkerPc}

/-- The field `valid` after worker `i` moves to a state valid for its domain. -/
theorem valid_set (h : Results env s) (hw : s.workers[i]? = some p) {q : WorkerPc}
    (hq : ∀ d, env.domains[i]? = some d → q.Valid d) :
    ∀ (j : Nat) (d : String) (p' : WorkerPc), env.domains[j]? = some d →
      (s.workers.set i q)[j]? = some p' → p'.Valid d := by
  intro j d p' hd hj
  rw [getElem?_set_of_getElem? hw] at hj
  split at hj
  · next hij =>
    subst hij
    obtain rfl := Option.some.inj hj
    exact hq d hd
  · exact h.valid j d p' hd hj

/-- The field `receiving` after a worker moves without sending. -/
theorem receiving_set (h : Results env s) (hw : s.workers[i]? = some p) {q : WorkerPc}
    (hsent : p.sent? = q.sent?) :
    ∀ acc, s.aggregator = .receiving acc → ∃ rs, acc = Aggregate.ofResults env.domains.length rs ∧
      (rs ++ s.buffer).Perm (sentResults (s.workers.set i q)) := by
  intro acc ha
  obtain ⟨rs, hacc, hperm⟩ := h.receiving acc ha
  have := sentResults_set_perm hw q
  rw [hsent, List.perm_append_right_iff] at this
  exact ⟨rs, hacc, hperm.trans this.symm⟩

/-- No response is pending or returned while a worker has not returned. -/
theorem not_answered (h : Results env s) (hw : s.workers[i]? = some p) (hp : p.isFinished = false)
    (resp : BatchAnalysisResponse) : ¬(s.response = some resp ∨ s.main = .returned resp) :=
  fun hr => by simpa [hp] using (h.aggregated resp hr).1 p (List.getElem?_mem hw)

theorem init (env : BatchEnv) (cache : DomainCache) (now : Nat) :
    Results env (BatchState.init env cache now) := by
  unfold BatchState.init
  split
  · next hd =>
    refine { valid := by simp, receiving := nofun, aggregated := fun resp hr => ?_ }
    rcases hr with hr | hr <;> cases hr
    exact ⟨nofun, [], now, List.Perm.refl _, by rw [hd, emptyResponse_eq]; rfl⟩
  · refine { valid := fun i d p _ hp => ?_, receiving := fun acc ha => ⟨[], ?_, ?_⟩,
             aggregated := fun resp hr => ?_ }
    · obtain ⟨-, rfl⟩ := List.getElem?_eq_some.mp hp
      simp [WorkerPc.Valid]
    · cases ha
      rfl
    · simp [sentResults, List.filterMap_map, Function.comp_def, WorkerPc.sent?]
    · split at hr <;> simp at hr

theorem step (h : Results env s) (hc : Counts env.domains.length env.semCap s.workers s.sem s.wg)
    (hctl : Control env s) (hst : BatchStep env s s') : Results env s' := by
  cases hst with
  | spawn _ hw =>
    exact { valid := h.valid_set hw fun _ _ => trivial, receiving := h.receiving_set hw rfl,
            aggregated := fun resp hr =>
              (h.not_answered hw rfl resp (.inl (hr.resolve_right nofun))).elim }
  | startCloser =>
    exact { valid := h.valid, receiving := h.receiving,
            aggregated := fun resp hr => h.aggregated resp (.inl (hr.resolve_right nofun)) }
  | acquire hw =>
    exact { valid := h.valid_set hw fun _ _ => trivial, receiving := h.receiving_set hw rfl,
            aggregated := fun resp hr => (h.not_answered hw rfl resp hr).elim }
  | handoff _ hj hempty => exact absurd hempty (hc.sem_pos hj).ne'
  | analyze _ _ hw hd =>
    refine { valid := h.valid_set hw fun d hd' => ?_,
             receiving := h.receiving_set hw (sent?_afterLookup _ _ _).symm,
             aggregated := fun resp hr => (h.not_answered hw rfl resp hr).elim }
    obtain rfl := Option.some.inj (hd.symm.trans hd')
    exact valid_afterLookup _ _ _
  | store _ hw hd =>
    refine { valid := h.valid_set hw fun d hd' => ?_, receiving := h.receiving_set hw rfl,
             aggregated := fun resp hr => (h.not_answered hw rfl resp hr).elim }
    obtain rfl := Option.some.inj (hd.symm.trans hd')
    exact domainResult_ok_valid _ _ _
  | @send i r hw =>
    refine { valid := h.valid_set hw fun d hd => h.valid i d (.sending r) hd hw,
             receiving := fun acc ha => ?_,
             aggregated := fun resp hr => (h.not_answered hw rfl resp hr).elim }
    obtain ⟨rs, hacc, hperm⟩ := h.receiving acc ha
    have := sentResults_set_perm hw (.releasing r)
    simp only [WorkerPc.sent?, Option.toList, List.append_nil] at this
    exact ⟨rs, hacc, by simpa only [← List.append_assoc] using
      (hperm.append_right [r]).trans this.symm⟩
  | @release i r hw =>
    exact { valid := h.valid_set hw fun d hd => h.valid i d (.releasing r) hd hw,
            receiving := h.receiving_set hw rfl,
            aggregated := fun resp hr => (h.not_answered hw rfl resp hr).elim }
  | @done i r hw =>
    exact { valid := h.valid_set hw fun d hd => h.valid i d (.leaving r) hd hw,
            receiving := h.receiving_set hw rfl,
            aggregated := fun resp hr => (h.not_answered hw rfl resp hr).elim }
  | close => exact { valid := h.valid, receiving := h.receiving, aggregated := h.aggregated }
  | @receive acc r rest ha hb =>
    refine { valid := h.valid, receiving := fun acc' ha' => ?_, aggregated := h.aggregated }
    cases ha'
    obtain ⟨rs, hacc, hperm⟩ := h.receiving acc ha
    refine ⟨rs ++ [r], by rw [Aggregate.ofResults_concat, ← hacc], ?_⟩
    rw [hb] at hperm
    simpa using hperm
  | @finish acc t ha hb hcl =>
    refine { valid := h.valid, receiving := nofun, aggregated := fun resp hr => ?_ }
    rcases hr with hr | hr
    · obtain rfl := Option.some.inj hr
      obtain ⟨rs, hacc, hperm⟩ := h.receiving acc ha
      rw [hb, List.append_nil] at hperm
      exact ⟨hctl.closed_finished hcl, rs, t, hperm, by rw [hacc]; rfl⟩
    · exact h.aggregated resp (.inr hr)
  | deliver _ hr =>
    refine { valid := h.valid, receiving := h.receiving, aggregated := fun resp hr' => ?_ }
    rcases hr' with hr' | hr' <;> cases hr'
    exact h.aggregated _ (.inl hr)

end Results

theorem results_of_reachable {env : BatchEnv} {cache : DomainCache} {now : Nat} {s : BatchState}
    (h : BatchReachable env cache now s) : Results env s :=
  h.induction (Results.init env cache now) fun hr hs hst =>
    hs.step (counts_of_reachable hr) (control_of_reachable hr) hst

end AdsTxtAnalyzer
