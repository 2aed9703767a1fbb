import AdsTxtAnalyzer.Batch.Response

/-!
# Progress and termination of the batch goroutine system

`BatchStep` is well founded for every call (`batchStep_wellFounded`): each step lowers the
work left, `BatchState.rank`, so no interleaving runs for ever. With `maxConcurrent ≥ 1` and
a non-empty domain list, no reachable state has panicked, and every reachable state either
has returned, with every worker finished, `resultsChan` closed and the aggregator done, or
has a step (`analyzeDomains_completes`). Together: every interleaving reaches the return.

The proof of progress follows the goroutines a stuck state would have to block: the caller
waits on `responseChan` only after the loop; the aggregator then has a result to receive, or
the closed channel to end on, or the closer is waiting on a group whose active workers can
all move. An acquiring worker can move when `sem` has room; when it has none, some worker
holds a slot and can move (`exists_step_of_holdsSlot`).

Both assumptions are needed. With a negative value, `make` panics and nothing moves after it
(`eq_init_of_reachable_of_neg`). With `maxConcurrent = 0`, `sem` is unbuffered and every
worker blocks for ever on its first send, since the only receives on `sem` are in workers past
that send (`unstarted_or_acquiring_of_zero`), so the call never returns
(`analyzeDomains_never_returns_of_zero`).
-/

namespace AdsTxtAnalyzer

/-! ### Termination -/

/-- The steps a worker has left. -/
def WorkerPc.rank : WorkerPc → Nat
  | unspawned => 7
  | acquiring => 6
  | analyzing => 5
  | storing _ => 4
  | sending _ => 3
  | releasing _ => 2
  | leaving _ => 1
  | finished _ => 0

/-- The steps the caller has left, counting the start of the closer as its own. -/
def MainPc.rank : MainPc → Nat
  | spawning _ => 3
  | awaiting => 1
  | _ => 0

/-- The steps the closer has left. -/
def CloserPc.rank : CloserPc → Nat
  | notStarted => 2
  | waiting => 1
  | done => 0

/-- The aggregator has its final step left. -/
def AggregatorPc.rank : AggregatorPc → Nat
  | receiving _ => 1
  | _ => 0

/-- The work left in a state. A worker's send puts a result in `resultsChan`, which the
aggregator takes out later, so worker steps count twice and buffered results once; the
aggregator's last step puts the response in `responseChan`, so it counts twice and a pending
response once. -/
def BatchState.rank (s : BatchState) : Nat :=
  2 * (s.workers.map WorkerPc.rank).sum + s.buffer.length + s.main.rank + s.closer.rank +
    2 * s.aggregator.rank + s.response.toList.length

theorem rank_afterLookup (dom : String) (t : Nat) (l : Lookup) :
    (afterLookup dom t l).rank ≤ 4 := by
  cases l <;> simp [afterLookup, WorkerPc.rank]

/-- Every step lowers the work left. -/
theorem BatchStep.rank_lt {env : BatchEnv} {s s' : BatchState} (h : BatchStep env s s') :
    s'.rank < s.rank := by
  cases h with
  | @spawn k hm hw =>
    have := sum_map_set_of_getElem? hw .acquiring WorkerPc.rank
    simp only [BatchState.rank, hm, MainPc.rank, WorkerPc.rank] at this ⊢
    omega
  | startCloser hm =>
    have hcl : s.closer.rank ≤ 2 := by cases s.closer <;> decide
    simp only [BatchState.rank, hm, MainPc.rank, CloserPc.rank]
    omega
  | acquire hw =>
    have := sum_map_set_of_getElem? hw .analyzing WorkerPc.rank
    simp only [BatchState.rank, WorkerPc.rank] at this ⊢
    omega
  | @handoff i j r hi hj =>
    have hij : i ≠ j := by
      rintro rfl
      cases hi.symm.trans hj
    have h₁ := sum_map_set_of_getElem? hi .analyzing WorkerPc.rank
    have hj' : (s.workers.set i .analyzing)[j]? = some (.releasing r) := by
      rw [getElem?_set_of_getElem? hi, if_neg hij, hj]
    have h₂ := sum_map_set_of_getElem? hj' (.leaving r) WorkerPc.rank
    simp only [BatchState.rank, WorkerPc.rank] at h₁ h₂ ⊢
    omega
  | @analyze i dom t fetched hw =>
    have h₁ := sum_map_set_of_getElem? hw
      (afterLookup dom t (lookupDomain s.cache t dom fetched env.parse)) WorkerPc.rank
    have h₂ := rank_afterLookup dom t (lookupDomain s.cache t dom fetched env.parse)
    have h₃ : WorkerPc.analyzing.rank = 5 := rfl
    simp only [BatchState.rank]
    omega
  | @store i dom a t hw =>
    have := sum_map_set_of_getElem? hw (.sending (domainResult dom t (.ok a.analysis)))
      WorkerPc.rank
    simp only [BatchState.rank, WorkerPc.rank] at this ⊢
    omega
  | @send i r hw =>
    have := sum_map_set_of_getElem? hw (.releasing r) WorkerPc.rank
    simp only [BatchState.rank, WorkerPc.rank, List.length_append, List.length_singleton]
      at this ⊢
    omega
  | @release i r hw =>
    have := sum_map_set_of_getElem? hw (.leaving r) WorkerPc.rank
    simp only [BatchState.rank, WorkerPc.rank] at this ⊢
    omega
  | @done i r hw =>
    have := sum_map_set_of_getElem? hw (.finished r) WorkerPc.rank
    simp only [BatchState.rank, WorkerPc.rank] at this ⊢
    omega
  | close hc =>
    simp only [BatchState.rank, hc, CloserPc.rank]
    omega
  | receive ha hb =>
    simp only [BatchState.rank, ha, hb, AggregatorPc.rank, List.length_cons]
    omega
  | finish t ha hb hc hr =>
    simp only [BatchState.rank, ha, hr, AggregatorPc.rank, Option.toList, List.length_singleton,
      List.length_nil]
    omega
  | deliver hm hr =>
    simp only [BatchState.rank, hm, hr, MainPc.rank, Option.toList, List.length_singleton,
      List.length_nil]
    omega

/-- No interleaving of the goroutines of a call runs for ever. -/
theorem batchStep_wellFounded (env : BatchEnv) : WellFounded fun s' s => BatchStep env s s' :=
  Subrelation.wf (fun h => BatchStep.rank_lt h) (measure BatchState.rank).wf

/-! ### Progress -/

section Progress

variable {env : BatchEnv} {s : BatchState}

/-- A worker holding a slot can move, when `resultsChan` is open and has room. -/
theorem exists_step_of_holdsSlot (hlen : s.workers.length = env.domains.length)
    (hcl : s.closed = false) (hroom : s.buffer.length < env.domains.length) (hsem : 0 < s.sem)
    {j : Nat} {q : WorkerPc} (hw : s.workers[j]? = some q) (hq : q.holdsSlot = true) :
    ∃ s', BatchStep env s s' := by
  have hj : j < env.domains.length := hlen ▸ (List.getElem?_eq_some.mp hw).1
  have hd := List.getElem?_eq_getElem hj
  cases q with
  | analyzing => exact ⟨_, .analyze s.now (.error "") hw hd le_rfl⟩
  | storing a => exact ⟨_, .store s.now hw hd le_rfl⟩
  | sending r => exact ⟨_, .send hw hcl hroom⟩
  | releasing r => exact ⟨_, .release hw hsem⟩
  | _ => cases hq

/-- An active worker, or a worker holding a slot in its place, can move, when `resultsChan` is
open and has room and `sem` has a capacity. -/
theorem exists_step_of_active
    (hc : Counts env.domains.length env.semCap s.workers s.sem s.wg) (hcap : 0 < env.semCap)
    (hcl : s.closed = false) (hroom : s.buffer.length < env.domains.length)
    {i : Nat} {p : WorkerPc} (hw : s.workers[i]? = some p) (hp : p.active = true) :
    ∃ s', BatchStep env s s' := by
  cases p with
  | unspawned => cases hp
  | acquiring =>
    by_cases hsem : s.sem < env.semCap
    · exact ⟨_, .acquire hw hsem⟩
    · have hpos : 0 < s.workers.countP WorkerPc.holdsSlot := hc.sem_eq ▸ by omega
      obtain ⟨q, hq, hqs⟩ := List.countP_pos_iff.mp hpos
      obtain ⟨j, hj⟩ := List.mem_iff_getElem?.mp hq
      exact exists_step_of_holdsSlot hc.length hcl hroom (by omega) hj hqs
  | leaving r => exact ⟨_, .done hw⟩
  | finished r => cases hp
  | _ =>
    have hsem : 0 < s.sem := hc.sem_eq ▸ countP_pos_of_getElem? hw rfl
    exact exists_step_of_holdsSlot hc.length hcl hroom hsem hw rfl

/-- The caller waits on `responseChan` with nothing in it: some goroutine can move. -/
theorem exists_step_of_awaiting (hN : env.domains ≠ [])
    (hc : Counts env.domains.length env.semCap s.workers s.sem s.wg) (hctl : Control env s)
    (hcap : 0 < env.semCap) (hm : s.main = .awaiting) (hr : s.response = none) :
    ∃ s', BatchStep env s s' := by
  have hpos : 0 < env.domains.length := List.length_pos.mpr hN
  match ha : s.aggregator, hb : s.buffer, hcl : s.closed with
  | .notStarted, _, _ =>
    obtain ⟨_, hm'⟩ := hctl.agg_notStarted ha
    cases hm.symm.trans hm'
  | .done, _, _ =>
    rcases (hctl.agg_done ha).2 with hs | ⟨_, hm'⟩
    · simp [hr] at hs
    · cases hm.symm.trans hm'
  | .receiving _, r :: rest, _ => exact ⟨_, .receive ha hb⟩
  | .receiving _, [], true => exact ⟨_, .finish s.now ha hb hcl hr le_rfl⟩
  | .receiving _, [], false =>
    have hwait : s.closer = .waiting := by
      have := hctl.main_awaiting hm
      cases hcs : s.closer with
      | notStarted => exact absurd hcs this
      | waiting => rfl
      | done => simp [hctl.closed_iff.mpr hcs] at hcl
    by_cases hwg : s.wg = 0
    · exact ⟨_, .close hwait hwg⟩
    · obtain ⟨p, hp, hpa⟩ := List.countP_pos_iff.mp (hc.wg_eq ▸ Nat.pos_of_ne_zero hwg)
      obtain ⟨i, hi⟩ := List.mem_iff_getElem?.mp hp
      exact exists_step_of_active hc hcap hcl (by rw [hb]; exact hpos) hi hpa

/-- For a non-empty domain list and `maxConcurrent ≥ 1`, a reachable state where the caller
has not returned has a step. -/
theorem exists_step_of_not_returned {cache : DomainCache} {now : Nat} (hN : env.domains ≠ [])
    (hmc : 1 ≤ env.maxConcurrent) (h : BatchReachable env cache now s)
    (hr : ∀ resp, s.main ≠ .returned resp) : ∃ s', BatchStep env s s' := by
  have hc := counts_of_reachable h
  have hctl := control_of_reachable h
  have hcap : 0 < env.semCap := by unfold BatchEnv.semCap; omega
  match hm : s.main with
  | .spawning k =>
    rcases Nat.lt_or_ge k env.domains.length with hk | hk
    · obtain ⟨p, hp⟩ : ∃ p, s.workers[k]? = some p :=
        ⟨_, List.getElem?_eq_getElem (hc.length ▸ hk)⟩
      have hns : p.started = false := by
        simpa [hm, spawnedCount] using (hctl.spawned k p hp).not
      cases p <;> first | exact ⟨_, .spawn hm hp⟩ | cases hns
    · exact ⟨_, .startCloser (hm.trans (by rw [Nat.le_antisymm (hctl.spawning_le k hm) hk]))⟩
  | .awaiting =>
    cases hresp : s.response with
    | some resp => exact ⟨_, .deliver hm hresp⟩
    | none => exact exists_step_of_awaiting hN hc hctl hcap hm hresp
  | .returned resp => exact absurd hm (hr resp)
  | .panicked => exact absurd (hctl.panicked hm) (by omega)

/-- A call of a non-empty list that has returned has stopped: the aggregator is done, so
`resultsChan` is closed and every worker has returned. -/
theorem not_batchStep_of_returned {cache : DomainCache} {now : Nat} {resp : BatchAnalysisResponse}
    (hN : env.domains ≠ []) (h : BatchReachable env cache now s) (hm : s.main = .returned resp) :
    ¬∃ s', BatchStep env s s' := by
  have hctl := control_of_reachable h
  have hagg := (hctl.main_returned resp hm).resolve_left hN
  have hcl := (hctl.agg_done hagg).1
  have hfin : ∀ {i : Nat} {p : WorkerPc}, s.workers[i]? = some p → p.isFinished = true :=
    fun hw => hctl.closed_finished hcl _ (List.getElem?_mem hw)
  rintro ⟨s', hst⟩
  cases hst with
  | spawn hm' | startCloser hm' | deliver hm' => exact MainPc.noConfusion (hm.symm.trans hm')
  | acquire hw | handoff hw | analyze _ _ hw | store _ hw | send hw | release hw | done hw =>
    exact Bool.false_ne_true (hfin hw)
  | close hc => exact CloserPc.noConfusion ((hctl.closed_iff.mp hcl).symm.trans hc)
  | receive ha | finish _ ha => exact AggregatorPc.noConfusion (hagg.symm.trans ha)

end Progress

/-- For a non-empty domain list and `maxConcurrent ≥ 1`, no reachable state of a call has
panicked, each has either returned with every goroutine done or has a step, and no
interleaving runs for ever: every interleaving reaches the return of `AnalyzeDomains`. -/
theorem analyzeDomains_completes {env : BatchEnv} (hN : env.domains ≠ [])
    (hmc : 1 ≤ env.maxConcurrent) (cache : DomainCache) (now : Nat) :
    (∀ s, BatchReachable env cache now s → s.main ≠ .panicked ∧
      ((∃ resp, s.main = .returned resp) ∧ (∀ p ∈ s.workers, p.isFinished = true) ∧
          s.closer = .done ∧ s.aggregator = .done ∨
        ∃ s', BatchStep env s s')) ∧
      WellFounded fun s' s => BatchStep env s s' := by
  refine ⟨fun s h => ?_, batchStep_wellFounded env⟩
  have hctl := control_of_reachable h
  refine ⟨fun hp => absurd (hctl.panicked hp) (by omega), ?_⟩
  by_cases hr : ∃ resp, s.main = .returned resp
  · obtain ⟨resp, hm⟩ := hr
    have hagg := (hctl.main_returned resp hm).resolve_left hN
    exact .inl ⟨⟨resp, hm⟩, ((results_of_reachable h).aggregated resp (.inr hm)).1,
      hctl.closed_iff.mp (hctl.agg_done hagg).1, hagg⟩
  · exact .inr (exists_step_of_not_returned hN hmc h fun resp hm => hr ⟨resp, hm⟩)

theorem analyzeDomains_one_domain_completes :
    (WellFounded fun s' s => BatchStep ⟨["a"], 1, fun _ => .ok []⟩ s s') ∧
      (BatchState.init ⟨["a"], 1, fun _ => .ok []⟩ ⟨MemoryCache.empty, 0⟩ 0).main ≠ .panicked :=
  ⟨(analyzeDomains_completes (by decide) (by decide) ⟨MemoryCache.empty, 0⟩ 0).2,
    ((analyzeDomains_completes (by decide) (by decide) ⟨MemoryCache.empty, 0⟩ 0).1 _ .refl).1⟩

/-! ### Calls that do not return -/

section NoReturn

variable {env : BatchEnv} {cache : DomainCache} {now : Nat} {s : BatchState}

/-- With a negative `maxConcurrent` no step leaves the start of a call of a non-empty list:
`make` has panicked before any worker started, and the aggregator waits on a channel no one
sends on or closes. -/
theorem not_batchStep_init_of_neg (hN : env.domains ≠ []) (hmc : env.maxConcurrent < 0) :
    ¬∃ s', BatchStep env (BatchState.init env cache now) s' := by
  rintro ⟨s', hst⟩
  cases hst <;> simp_all [BatchState.init, List.getElem?_replicate]

/-- With a negative `maxConcurrent` a call of a non-empty list stays where `make` panicked. -/
theorem eq_init_of_reachable_of_neg (hN : env.domains ≠ []) (hmc : env.maxConcurrent < 0)
    (h : BatchReachable env cache now s) : s = BatchState.init env cache now := by
  induction h with
  | refl => rfl
  | tail _ hst ih =>
    subst ih
    exact absurd ⟨_, hst⟩ (not_batchStep_init_of_neg hN hmc)

/-- With `maxConcurrent = 0` no worker gets past `sem <- struct{}{}`: `sem` has no room, and
no worker is in its deferred `<-sem` to take a handed-off value. -/
theorem unstarted_or_acquiring_of_zero (hmc : env.maxConcurrent = 0)
    (h : BatchReachable env cache now s) : ∀ p ∈ s.workers, p = .unspawned ∨ p = .acquiring := by
  have hcap : env.semCap = 0 := by simp [BatchEnv.semCap, hmc]
  induction h with
  | refl =>
    intro p hp
    unfold BatchState.init at hp
    split at hp
    · cases hp
    · obtain ⟨_, _, rfl⟩ := List.mem_map.mp hp
      exact .inl rfl
  | @tail b c _ hst ih =>
    have hw : ∀ {i : Nat} {q : WorkerPc}, b.workers[i]? = some q →
        q = .unspawned ∨ q = .acquiring := fun hi => ih _ (List.getElem?_mem hi)
    cases hst with
    | spawn _ _ =>
      exact fun p hp => (List.mem_or_eq_of_mem_set hp).elim (ih p) fun h => .inr h
    | acquire _ hroom => omega
    | startCloser | close | receive | finish | deliver => exact ih
    | handoff _ hj | analyze _ _ hj | store _ hj | send hj | release hj | done hj =>
      simpa using hw hj

/-- **With `maxConcurrent = 0` a call of a non-empty list never returns**, and does not
panic: at every reachable state the caller still waits, since the aggregator can only finish
once every worker has returned. -/
theorem analyzeDomains_never_returns_of_zero (hN : env.domains ≠ [])
    (hmc : env.maxConcurrent = 0) (h : BatchReachable env cache now s) :
    (∀ resp, s.main ≠ .returned resp) ∧ s.main ≠ .panicked := by
  have hctl := control_of_reachable h
  refine ⟨fun resp hm => ?_, fun hp => absurd (hctl.panicked hp) (by omega)⟩
  have hagg := (hctl.main_returned resp hm).resolve_left hN
  have hfin := hctl.closed_finished (hctl.agg_done hagg).1
  obtain ⟨p, hp⟩ : ∃ p, p ∈ s.workers := List.exists_mem_of_ne_nil _ fun hnil => hN
    (List.length_eq_zero.mp ((counts_of_reachable h).length.symm.trans (by simp [hnil])))
  rcases unstarted_or_acquiring_of_zero hmc h p hp with rfl | rfl <;> cases hfin _ hp

end NoReturn

/-- With `maxConcurrent = 0` and with a negative value, a call can end without returning.
With `0`, the call of one domain reaches a state where the caller has not returned and no
goroutine can move: its worker blocks on the unbuffered `sem`. With `-1`, `make` panics. -/
theorem analyzeDomains_zero_or_negative_fails :
    (∃ s, BatchReachable ⟨["a"], 0, fun _ => .ok []⟩ ⟨MemoryCache.empty, 0⟩ 0 s ∧
      (∀ r, s.main ≠ .returned r) ∧ ¬∃ s', BatchStep ⟨["a"], 0, fun _ => .ok []⟩ s s') ∧
      (BatchState.init ⟨["a"], -1, fun _ => .ok []⟩ ⟨MemoryCache.empty, 0⟩ 0).main = .panicked := by
  refine ⟨?_, rfl⟩
  have h0 : BatchReachable ⟨["a"], 0, fun _ => .ok []⟩ ⟨MemoryCache.empty, 0⟩ 0
    (BatchState.init ⟨["a"], 0, fun _ => .ok []⟩ ⟨MemoryCache.empty, 0⟩ 0) := .refl
  refine ⟨_, (h0.step (.spawn rfl rfl)).step (.startCloser rfl), nofun, ?_⟩
  rintro ⟨s', hst⟩
  cases hst <;> simp_all [BatchState.init, BatchEnv.semCap, List.getElem?_cons]

end AdsTxtAnalyzer
