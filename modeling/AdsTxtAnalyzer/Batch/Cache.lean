import AdsTxtAnalyzer.Batch.Invariant

/-!
# The domain cache is keyed by the domain

The domain cache stores an analysis under `"domain:" ++ domain`, and the only analyses the
service stores are those `buildAnalysis` has just made for that domain. So every entry of the
cache is an analysis of the domain of its key (`DomainCache.Keyed`), and a hit for a domain is
an analysis of that domain (`DomainCache.Keyed.get`).

* `AnalyzeDomain` keeps the cache keyed, and an analysis it returns, fresh or cached, is one of
  its domain (`keyed_analyzeDomain`).
* The goroutines of `AnalyzeDomains` keep it keyed under every interleaving
  (`keyed_of_reachable`): a worker about to store holds an analysis of its own domain
  (`BatchKeyed`).

An entry the cache holds until a time `E` (`DomainCache.HoldsUntil`) stays until `E`: the
service stores a domain only after a miss, which comes after `E`
(`holdsUntil_analyzeDomain`, and `holdsUntil_of_reachable` under every interleaving of the
batch goroutines, through `BatchHolds`).

A batch warms the cache (`analyzeDomains_warms_cache`): when `AnalyzeDomains` returns, the
domain of each successful result it did not take from the cache is held until the result's time
plus the TTL (`BatchWarms`).

A cache whose TTL is not positive stores nothing: the store of `AnalyzeDomain` passes the TTL
`0`, which means the cache's own, and `MemoryCache.Set` refuses it. So a cache that holds nothing
(`DomainCache.Cold`) stays so, and every analysis and every batch result is fresh
(`analyzeDomain_uncached`, `analyzeDomains_uncached` through `BatchUncached`).
-/

namespace AdsTxtAnalyzer

namespace DomainCache

/-- Every analysis in the cache is stored under the key of its own domain. -/
def Keyed (dc : DomainCache) : Prop :=
  ∀ k e, dc.cache.data k = some e → k = cacheKey e.value.analysis.domain

theorem keyed_empty (ttl : Int) : (⟨.empty, ttl⟩ : DomainCache).Keyed := fun _ _ h => nomatch h

variable {dc : DomainCache} {now : Nat} {domain : String} {a : BuiltAnalysis}

/-- A hit for a domain in a keyed cache is an analysis of that domain. -/
theorem Keyed.get (h : dc.Keyed) (ha : dc.get now domain = .ok a) : a.analysis.domain = domain := by
  simp only [DomainCache.get, MemoryCache.get] at ha
  split at ha
  · cases ha
  · next e he =>
    split at ha
    · cases ha
    · cases ha
      exact (cacheKey_injective (h _ _ he)).symm

private theorem keyed_memorySet {m : MemoryCache BuiltAnalysis}
    (h : ∀ k e, m.data k = some e → k = cacheKey e.value.analysis.domain)
    (ha : a.analysis.domain = domain) (ttl : Int) :
    ∀ k e, (m.set now (cacheKey domain) a ttl).2.data k = some e →
      k = cacheKey e.value.analysis.domain := by
  intro k e he
  unfold MemoryCache.set at he
  split at he
  · exact h k e he
  · dsimp only at he
    split at he
    · next hk =>
      cases he
      rw [hk, ha]
    · exact h k e he

/-- Storing an analysis of a domain under that domain keeps the cache keyed. -/
theorem Keyed.set (h : dc.Keyed) (ha : a.analysis.domain = domain) (ttl : Int) :
    (dc.set now domain a ttl).2.Keyed :=
  keyed_memorySet h ha _

end DomainCache

section Lookup

variable {dc : DomainCache} {now : Nat} {domain : String} {fetched : Except String String}
  {parse : String → Except String (List AdsTxtEntry)} {a : BuiltAnalysis}

theorem lookupDomain_fresh (hl : lookupDomain dc now domain fetched parse = .fresh a) :
    a.analysis.domain = domain := by
  unfold lookupDomain at hl
  split at hl
  · cases hl
  · split at hl
    · cases hl
    · split at hl
      · cases hl
      · cases hl
        rfl

theorem DomainCache.Keyed.lookupDomain_hit (h : dc.Keyed)
    (hl : lookupDomain dc now domain fetched parse = .hit a) : a.analysis.domain = domain := by
  unfold lookupDomain at hl
  split at hl
  · next ha =>
    cases hl
    exact h.get ha
  · split at hl
    · cases hl
    · split at hl <;> cases hl

/-- **`AnalyzeDomain` keeps the cache keyed**, and the analysis it returns, fresh or from the
cache, is one of the domain it was asked. -/
theorem keyed_analyzeDomain (h : dc.Keyed) :
    (analyzeDomain dc now domain fetched parse).2.Keyed ∧
      ∀ a, (analyzeDomain dc now domain fetched parse).1 = .ok a → a.domain = domain := by
  unfold analyzeDomain
  split
  · next a hl =>
    refine ⟨h, fun b hb => ?_⟩
    rw [← Except.ok.inj hb]
    exact h.lookupDomain_hit (a := a) hl
  · exact ⟨h, fun _ hb => Except.noConfusion hb⟩
  · next a hl =>
    refine ⟨h.set (lookupDomain_fresh hl) 0, fun b hb => ?_⟩
    rw [← Except.ok.inj hb]
    exact lookupDomain_fresh hl

end Lookup

/-! ### Under the goroutines of `AnalyzeDomains` -/

/-- A worker about to store holds an analysis of its domain `d`. -/
def WorkerPc.StoresFor (d : String) : WorkerPc → Prop
  | storing a => a.analysis.domain = d
  | _ => True

theorem storesFor_afterLookup {dc : DomainCache} {t : Nat} {dom : String}
    {fetched : Except String String} {parse : String → Except String (List AdsTxtEntry)} :
    (afterLookup dom t (lookupDomain dc t dom fetched parse)).StoresFor dom := by
  cases hl : lookupDomain dc t dom fetched parse with
  | hit a | failed err => trivial
  | fresh a => exact lookupDomain_fresh hl

/-- The cache is keyed, and every worker about to store holds an analysis of its own domain. -/
structure BatchKeyed (env : BatchEnv) (s : BatchState) : Prop where
  cache : s.cache.Keyed
  storing : ∀ (i : Nat) (d : String) (p : WorkerPc), env.domains[i]? = some d →
    s.workers[i]? = some p → p.StoresFor d

/-- A property of every worker and its domain still holds after worker `i` moves to a `q` that
has it. -/
theorem forall_workers_set {P : String → WorkerPc → Prop} {ds : List String} {ws : List WorkerPc}
    (h : ∀ (i : Nat) (d : String) (p : WorkerPc), ds[i]? = some d → ws[i]? = some p → P d p)
    {i : Nat} {q : WorkerPc} (hq : ∀ d, ds[i]? = some d → P d q) :
    ∀ (j : Nat) (d : String) (p : WorkerPc), ds[j]? = some d → (ws.set i q)[j]? = some p →
      P d p := by
  intro j d p hd hj
  rw [List.getElem?_set] at hj
  split at hj
  · next hij =>
    subst hij
    split at hj
    · exact Option.some.inj hj ▸ hq d hd
    · cases hj
  · exact h j d p hd hj

namespace BatchKeyed

variable {env : BatchEnv} {s s' : BatchState}

theorem init (env : BatchEnv) {cache : DomainCache} (hk : cache.Keyed) (now : Nat) :
    BatchKeyed env (BatchState.init env cache now) := by
  unfold BatchState.init
  split
  · exact ⟨hk, fun _ _ _ _ hp => by simp at hp⟩
  · refine ⟨hk, fun i d p _ hp => ?_⟩
    obtain ⟨-, rfl⟩ := List.getElem?_eq_some.mp hp
    simp [WorkerPc.StoresFor]

theorem step (h : BatchKeyed env s) (hst : BatchStep env s s') : BatchKeyed env s' := by
  cases hst with
  | spawn => exact ⟨h.cache, forall_workers_set h.storing fun _ _ => trivial⟩
  | startCloser => exact ⟨h.cache, h.storing⟩
  | acquire => exact ⟨h.cache, forall_workers_set h.storing fun _ _ => trivial⟩
  | handoff =>
    exact ⟨h.cache, forall_workers_set (forall_workers_set h.storing (q := .analyzing)
      fun _ _ => trivial) fun _ _ => trivial⟩
  | analyze _ _ _ hd =>
    refine ⟨h.cache, forall_workers_set h.storing fun d hd' => ?_⟩
    obtain rfl := Option.some.inj (hd.symm.trans hd')
    exact storesFor_afterLookup
  | store _ hw hd =>
    exact ⟨h.cache.set (h.storing _ _ _ hd hw) 0, forall_workers_set h.storing fun _ _ => trivial⟩
  | send => exact ⟨h.cache, forall_workers_set h.storing fun _ _ => trivial⟩
  | release => exact ⟨h.cache, forall_workers_set h.storing fun _ _ => trivial⟩
  | done => exact ⟨h.cache, forall_workers_set h.storing fun _ _ => trivial⟩
  | close => exact ⟨h.cache, h.storing⟩
  | receive => exact ⟨h.cache, h.storing⟩
  | finish => exact ⟨h.cache, h.storing⟩
  | deliver => exact ⟨h.cache, h.storing⟩

end BatchKeyed

/-- **The goroutines of `AnalyzeDomains` keep the cache keyed**: in every state a call reaches
from a keyed cache, under any interleaving, the cache is keyed. -/
theorem keyed_of_reachable {env : BatchEnv} {cache : DomainCache} {now : Nat} {s : BatchState}
    (h : BatchReachable env cache now s) (hk : cache.Keyed) : s.cache.Keyed := by
  have hs : BatchKeyed env s := h.induction (BatchKeyed.init env hk now) fun _ hs hst => hs.step hst
  exact hs.cache

/-! ### An entry lasts until its expiry -/

namespace DomainCache

/-- The cache holds an entry for `domain` that has not expired at time `E`. -/
def HoldsUntil (dc : DomainCache) (domain : String) (E : Nat) : Prop :=
  ∃ e, dc.cache.data (cacheKey domain) = some e ∧ E ≤ e.expiresAt

variable {dc : DomainCache} {now t E : Nat} {domain d : String}

/-- Up to `E` a lookup of the domain is a hit. -/
theorem HoldsUntil.get (h : dc.HoldsUntil domain E) (ht : t ≤ E) : ∃ a, dc.get t domain = .ok a := by
  obtain ⟨e, he, hE⟩ := h
  refine ⟨e.value, ?_⟩
  simp only [DomainCache.get, MemoryCache.get, he]
  exact if_neg (by omega)

/-- So a miss comes after `E`. -/
theorem HoldsUntil.lt_of_get {err : CacheError} (h : dc.HoldsUntil domain E)
    (he : dc.get t domain = .error err) : E < t := by
  refine Nat.lt_of_not_le fun ht => ?_
  obtain ⟨a, ha⟩ := h.get ht
  rw [ha] at he
  cases he

private theorem holds_memorySet {m : MemoryCache BuiltAnalysis} {key k : String} {a : BuiltAnalysis}
    {ttl : Int} (h : ∃ e, m.data k = some e ∧ E ≤ e.expiresAt) (hk : k = key → E ≤ now + ttl.toNat) :
    ∃ e, (m.set now key a ttl).2.data k = some e ∧ E ≤ e.expiresAt := by
  unfold MemoryCache.set
  split
  · exact h
  · by_cases hkey : k = key
    · exact ⟨_, if_pos hkey, hk hkey⟩
    · obtain ⟨e, he, hE⟩ := h
      exact ⟨e, (if_neg hkey).trans he, hE⟩

/-- A store keeps the entry of `d` until `E` when it is of another domain or made after `E`. -/
theorem HoldsUntil.set (h : dc.HoldsUntil d E) (hd : domain = d → E < now) (a : BuiltAnalysis)
    (ttl : Int) : (dc.set now domain a ttl).2.HoldsUntil d E :=
  holds_memorySet h fun hk => by have := hd (cacheKey_injective hk).symm; omega

/-- A store of the service, with the cache's TTL, keeps the entry of `d` until `E` when it is
of another domain or does not expire before `E`. -/
theorem HoldsUntil.store (h : dc.HoldsUntil d E) (hd : domain = d → E ≤ now + dc.ttl.toNat)
    (a : BuiltAnalysis) : (dc.set now domain a 0).2.HoldsUntil d E := by
  show ∃ e, (dc.cache.set now (cacheKey domain) a (if (0 : Int) = 0 then dc.ttl else 0)).2.data
    (cacheKey d) = some e ∧ E ≤ e.expiresAt
  exact holds_memorySet h fun hk => by
    rw [if_pos rfl]
    exact hd (cacheKey_injective hk).symm

theorem HoldsUntil.mono {E' : Nat} (h : dc.HoldsUntil domain E) (hle : E' ≤ E) :
    dc.HoldsUntil domain E' :=
  let ⟨e, he, hE⟩ := h
  ⟨e, he, le_trans hle hE⟩

/-- A store with the cache's positive TTL holds the domain until the TTL runs out. -/
theorem holdsUntil_set_self (httl : 0 < dc.ttl) (a : BuiltAnalysis) :
    (dc.set now domain a 0).2.HoldsUntil domain (now + dc.ttl.toNat) := by
  show ∃ e, (dc.cache.set now (cacheKey domain) a (if (0 : Int) = 0 then dc.ttl else 0)).2.data
    (cacheKey domain) = some e ∧ now + dc.ttl.toNat ≤ e.expiresAt
  rw [if_pos rfl]
  unfold MemoryCache.set
  rw [if_neg (by omega)]
  exact ⟨_, if_pos rfl, le_rfl⟩

end DomainCache

section Lookup

variable {dc : DomainCache} {now E : Nat} {domain d : String} {fetched : Except String String}
  {parse : String → Except String (List AdsTxtEntry)}

/-- A fresh analysis is built after a miss. -/
theorem get_of_lookupDomain_fresh {a : BuiltAnalysis}
    (hl : lookupDomain dc now domain fetched parse = .fresh a) :
    ∃ err, dc.get now domain = .error err := by
  unfold lookupDomain at hl
  split at hl
  · cases hl
  · next err he => exact ⟨err, he⟩

/-- A fresh analysis is built at the time of the lookup. -/
theorem timestamp_of_lookupDomain_fresh {a : BuiltAnalysis}
    (hl : lookupDomain dc now domain fetched parse = .fresh a) : a.analysis.timestamp = now := by
  unfold lookupDomain at hl
  split at hl
  · cases hl
  · split at hl
    · cases hl
    · split at hl
      · cases hl
      · cases hl
        rfl

/-- A hit is answered marked cached, and leaves the cache as it was. -/
theorem analyzeDomain_of_get {a : BuiltAnalysis} (ha : dc.get now domain = .ok a) :
    analyzeDomain dc now domain fetched parse = (.ok a.markCached.analysis, dc) := by
  simp only [analyzeDomain, lookupDomain, ha]

/-- **`AnalyzeDomain` keeps an entry until its expiry**: it stores a domain only after a miss. -/
theorem holdsUntil_analyzeDomain (h : dc.HoldsUntil d E) :
    (analyzeDomain dc now domain fetched parse).2.HoldsUntil d E := by
  unfold analyzeDomain
  split
  · exact h
  · exact h
  · next a hl =>
    obtain ⟨err, he⟩ := get_of_lookupDomain_fresh hl
    exact h.set (fun hd => h.lt_of_get (hd ▸ he)) a 0

/-- An analysis `AnalyzeDomain` returns unmarked is fresh, and the cache holds its domain until
the TTL runs out. -/
theorem holdsUntil_analyzeDomain_fresh (httl : 0 < dc.ttl) {a : DomainAnalysis}
    (ha : (analyzeDomain dc now domain fetched parse).1 = .ok a) (hc : a.cached = false) :
    (analyzeDomain dc now domain fetched parse).2.HoldsUntil domain (now + dc.ttl.toNat) := by
  unfold analyzeDomain at ha ⊢
  split at ha
  · cases Except.ok.inj ha
    cases hc
  · cases ha
  · exact DomainCache.holdsUntil_set_self httl _

end Lookup

/-- A worker about to store looked its domain up after `E`, at the latest at `now`. -/
def WorkerPc.LookedUpAfter (E now : Nat) : WorkerPc → Prop
  | storing _ => E < now
  | _ => True

theorem WorkerPc.LookedUpAfter.mono {p : WorkerPc} {E now now' : Nat} (h : p.LookedUpAfter E now)
    (hle : now ≤ now') : p.LookedUpAfter E now' := by
  cases p
  case storing => exact Nat.lt_of_lt_of_le h hle
  all_goals trivial

theorem lookedUpAfter_afterLookup {dc : DomainCache} {t E : Nat} {d : String}
    {fetched : Except String String} {parse : String → Except String (List AdsTxtEntry)}
    (h : dc.HoldsUntil d E) : (afterLookup d t (lookupDomain dc t d fetched parse)).LookedUpAfter E t := by
  cases hl : lookupDomain dc t d fetched parse with
  | hit a | failed err => trivial
  | fresh a =>
    obtain ⟨err, he⟩ := get_of_lookupDomain_fresh hl
    exact h.lt_of_get he

/-- The cache holds `d` until `E`, and every worker of `d` about to store looked it up after
`E`. -/
structure BatchHolds (env : BatchEnv) (d : String) (E : Nat) (s : BatchState) : Prop where
  cache : s.cache.HoldsUntil d E
  storing : ∀ (i : Nat) (dom : String) (p : WorkerPc), env.domains[i]? = some dom →
    s.workers[i]? = some p → dom = d → p.LookedUpAfter E s.now

namespace BatchHolds

variable {env : BatchEnv} {d : String} {E : Nat} {s s' : BatchState}

theorem init (env : BatchEnv) {cache : DomainCache} (hh : cache.HoldsUntil d E) (now : Nat) :
    BatchHolds env d E (BatchState.init env cache now) := by
  unfold BatchState.init
  split
  · exact ⟨hh, fun _ _ _ _ hp => by simp at hp⟩
  · refine ⟨hh, fun i dom p _ hp _ => ?_⟩
    obtain ⟨-, rfl⟩ := List.getElem?_eq_some.mp hp
    simp [WorkerPc.LookedUpAfter]

/-- The field `storing` at a later time. -/
theorem storing_mono (h : BatchHolds env d E s) {now' : Nat} (hle : s.now ≤ now') :
    ∀ (i : Nat) (dom : String) (p : WorkerPc), env.domains[i]? = some dom →
      s.workers[i]? = some p → dom = d → p.LookedUpAfter E now' :=
  fun i dom p hd hp hdd => (h.storing i dom p hd hp hdd).mono hle

theorem step (h : BatchHolds env d E s) (hst : BatchStep env s s') : BatchHolds env d E s' := by
  cases hst with
  | spawn => exact ⟨h.cache, forall_workers_set h.storing fun _ _ _ => trivial⟩
  | startCloser => exact ⟨h.cache, h.storing⟩
  | acquire => exact ⟨h.cache, forall_workers_set h.storing fun _ _ _ => trivial⟩
  | handoff =>
    exact ⟨h.cache, forall_workers_set (forall_workers_set h.storing (q := .analyzing)
      fun _ _ _ => trivial) fun _ _ _ => trivial⟩
  | analyze _ _ _ hd ht =>
    refine ⟨h.cache, forall_workers_set (h.storing_mono ht) fun dom hd' hdd => ?_⟩
    obtain rfl := Option.some.inj (hd.symm.trans hd')
    subst hdd
    exact lookedUpAfter_afterLookup h.cache
  | store _ hw hd ht =>
    exact ⟨h.cache.set (fun hdd => Nat.lt_of_lt_of_le (h.storing _ _ _ hd hw hdd) ht) _ 0,
      forall_workers_set (h.storing_mono ht) fun _ _ _ => trivial⟩
  | send => exact ⟨h.cache, forall_workers_set h.storing fun _ _ _ => trivial⟩
  | release => exact ⟨h.cache, forall_workers_set h.storing fun _ _ _ => trivial⟩
  | done => exact ⟨h.cache, forall_workers_set h.storing fun _ _ _ => trivial⟩
  | close => exact ⟨h.cache, h.storing⟩
  | receive => exact ⟨h.cache, h.storing⟩
  | finish _ _ _ _ _ ht => exact ⟨h.cache, h.storing_mono ht⟩
  | deliver => exact ⟨h.cache, h.storing⟩

end BatchHolds

/-- **The goroutines of `AnalyzeDomains` keep an entry until its expiry**: a worker stores a
domain only after a miss, so in every state a call reaches, under any interleaving, the cache
still holds every domain its start held until the same time. -/
theorem holdsUntil_of_reachable {env : BatchEnv} {cache : DomainCache} {now : Nat} {s : BatchState}
    {d : String} {E : Nat} (h : BatchReachable env cache now s) (hh : cache.HoldsUntil d E) :
    s.cache.HoldsUntil d E := by
  have hs : BatchHolds env d E s :=
    h.induction (BatchHolds.init env hh now) fun _ hs hst => hs.step hst
  exact hs.cache

/-! ### A batch warms the cache -/

/-- What a worker holds is in the cache `dc` by the time `now`, for the TTL `ttl`: an analysis
about to be stored was built by `now`, and a successful result not taken from the cache was
made by `now`, with its domain held until the result's time plus the TTL. -/
def WorkerPc.Warms (dc : DomainCache) (ttl now : Nat) : WorkerPc → Prop
  | storing a => a.analysis.timestamp ≤ now
  | sending r | releasing r | leaving r | finished r =>
    r.success = true → r.cached = false → r.timestamp ≤ now ∧ dc.HoldsUntil r.domain (r.timestamp + ttl)
  | _ => True

namespace WorkerPc.Warms

variable {p : WorkerPc} {dc : DomainCache} {ttl now : Nat}

theorem mono (h : p.Warms dc ttl now) {now' : Nat} (hle : now ≤ now') : p.Warms dc ttl now' := by
  cases p
  case storing => exact le_trans h hle
  case sending | releasing | leaving | finished =>
    exact fun hs hc => ⟨le_trans (h hs hc).1 hle, (h hs hc).2⟩
  all_goals trivial

/-- A later store of the service keeps what a worker holds in the cache. -/
theorem store (h : p.Warms dc ttl now) {t : Nat} (hle : now ≤ t) (httl : dc.ttl.toNat = ttl)
    (dom : String) (a : BuiltAnalysis) : p.Warms (dc.set t dom a 0).2 ttl t := by
  cases p
  case storing => exact le_trans h hle
  case sending r | releasing r | leaving r | finished r =>
    exact fun hs hc => ⟨le_trans (h hs hc).1 hle,
      (h hs hc).2.store (fun _ => by have := (h hs hc).1; omega) a⟩
  all_goals trivial

theorem of_sent (h : p.Warms dc ttl now) {r : DomainResult} (hr : p.sent? = some r)
    (hs : r.success = true) (hc : r.cached = false) :
    r.timestamp ≤ now ∧ dc.HoldsUntil r.domain (r.timestamp + ttl) := by
  cases p <;> cases hr <;> exact h hs hc

end WorkerPc.Warms

theorem warms_afterLookup {dc : DomainCache} {ttl t : Nat} {dom : String}
    {fetched : Except String String} {parse : String → Except String (List AdsTxtEntry)} :
    (afterLookup dom t (lookupDomain dc t dom fetched parse)).Warms dc ttl t := by
  cases hl : lookupDomain dc t dom fetched parse with
  | hit a => exact fun _ hc => Bool.noConfusion hc
  | failed err => exact fun hs => Bool.noConfusion hs
  | fresh a => exact le_of_eq (timestamp_of_lookupDomain_fresh hl)

theorem forall_mem_set {P : WorkerPc → Prop} {ws : List WorkerPc} (h : ∀ p ∈ ws, P p) {i : Nat}
    {q : WorkerPc} (hq : P q) : ∀ p ∈ ws.set i q, P p := fun p hp =>
  (List.mem_or_eq_of_mem_set hp).elim (h p) fun hpq => hpq ▸ hq

/-- The cache keeps the TTL `T`, and what every worker holds is in it. -/
structure BatchWarms (T : Int) (s : BatchState) : Prop where
  ttl : s.cache.ttl = T
  workers : ∀ p ∈ s.workers, p.Warms s.cache T.toNat s.now

namespace BatchWarms

variable {env : BatchEnv} {T : Int} {s s' : BatchState}

theorem init (env : BatchEnv) {cache : DomainCache} (now : Nat) :
    BatchWarms cache.ttl (BatchState.init env cache now) := by
  unfold BatchState.init
  split
  · exact ⟨rfl, fun _ hp => nomatch hp⟩
  · refine ⟨rfl, fun p hp => ?_⟩
    obtain ⟨_, -, rfl⟩ := List.mem_map.mp hp
    trivial

/-- A worker that moves to a program counter carrying what it carried before. -/
theorem workers_set (h : BatchWarms T s) {i : Nat} {p q : WorkerPc} (hw : s.workers[i]? = some p)
    (hq : p.Warms s.cache T.toNat s.now → q.Warms s.cache T.toNat s.now) :
    ∀ p ∈ s.workers.set i q, p.Warms s.cache T.toNat s.now :=
  forall_mem_set h.workers (hq (h.workers p (List.getElem?_mem hw)))

theorem step (hT : 0 < T) (h : BatchWarms T s) (hst : BatchStep env s s') : BatchWarms T s' := by
  cases hst with
  | spawn _ hw => exact ⟨h.ttl, h.workers_set hw fun _ => trivial⟩
  | startCloser => exact ⟨h.ttl, h.workers⟩
  | acquire hw => exact ⟨h.ttl, h.workers_set hw fun _ => trivial⟩
  | handoff hi hj =>
    exact ⟨h.ttl, forall_mem_set (h.workers_set hi (q := .analyzing) fun _ => trivial)
      (h.workers _ (List.getElem?_mem hj) : WorkerPc.Warms _ _ _ (.releasing _))⟩
  | analyze _ _ _ _ ht =>
    exact ⟨h.ttl, forall_mem_set (fun p hp => (h.workers p hp).mono ht) warms_afterLookup⟩
  | @store _ dom a t hw _ ht =>
    have hs : a.analysis.timestamp ≤ s.now := h.workers _ (List.getElem?_mem hw)
    have httl : 0 < s.cache.ttl := h.ttl ▸ hT
    refine ⟨h.ttl, forall_mem_set (fun p hp => (h.workers p hp).store ht (by rw [h.ttl]) dom a)
      fun _ _ => ⟨le_trans hs ht, ?_⟩⟩
    have hheld : (s.cache.set t dom a 0).2.HoldsUntil dom (t + s.cache.ttl.toNat) :=
      DomainCache.holdsUntil_set_self httl a
    rw [h.ttl] at hheld
    exact hheld.mono (show a.analysis.timestamp + T.toNat ≤ t + T.toNat by omega)
  | send hw => exact ⟨h.ttl, h.workers_set hw id⟩
  | release hw => exact ⟨h.ttl, h.workers_set hw id⟩
  | done hw => exact ⟨h.ttl, h.workers_set hw id⟩
  | close => exact ⟨h.ttl, h.workers⟩
  | receive => exact ⟨h.ttl, h.workers⟩
  | finish _ _ _ _ _ ht => exact ⟨h.ttl, fun p hp => (h.workers p hp).mono ht⟩
  | deliver => exact ⟨h.ttl, h.workers⟩

end BatchWarms

/-- **A batch warms the cache.** With a positive TTL, whenever `AnalyzeDomains` returns, under
any interleaving of its goroutines, the domain of every successful result it did not take from
the cache is held in the cache it leaves until the result's time plus the TTL. -/
theorem analyzeDomains_warms_cache {env : BatchEnv} {cache : DomainCache} {now : Nat}
    {s : BatchState} {resp : BatchAnalysisResponse} (h : BatchReachable env cache now s)
    (hm : s.main = .returned resp) (httl : 0 < cache.ttl) {r : DomainResult}
    (hr : r ∈ resp.results) (hs : r.success = true) (hc : r.cached = false) :
    s.cache.HoldsUntil r.domain (r.timestamp + cache.ttl.toNat) := by
  have hw : BatchWarms cache.ttl s :=
    h.induction (BatchWarms.init env now) fun _ hw hst => hw.step httl hst
  obtain ⟨-, rs, t, hperm, rfl⟩ := (results_of_reachable h).aggregated _ (.inr hm)
  rw [aggregateResults_results] at hr
  obtain ⟨p, hp, hsent⟩ := List.mem_filterMap.mp (hperm.subset hr)
  exact ((hw.workers p hp).of_sent hsent hs hc).2

/-! ### A cache that stores nothing -/

namespace DomainCache

variable {dc : DomainCache}

/-- Every lookup misses. -/
def Cold (dc : DomainCache) : Prop :=
  ∀ now domain, ∃ err, dc.get now domain = .error err

theorem cold_empty (ttl : Int) : (⟨.empty, ttl⟩ : DomainCache).Cold :=
  fun now domain => ⟨_, get_empty ttl now domain⟩

/-- With a TTL that is not positive, the store of `AnalyzeDomain` (the TTL `0`, which means the
cache's own) stores nothing. -/
theorem set_of_ttl_nonpos (h : dc.ttl ≤ 0) (now : Nat) (domain : String) (a : BuiltAnalysis) :
    (dc.set now domain a 0).2 = dc := by
  show { dc with
    cache := (dc.cache.set now (cacheKey domain) a (if (0 : Int) = 0 then dc.ttl else 0)).2 } = dc
  rw [if_pos rfl, MemoryCache.set_of_nonpos h]

end DomainCache

section Uncached

variable {dc : DomainCache} {now : Nat} {domain : String} {fetched : Except String String}
  {parse : String → Except String (List AdsTxtEntry)}

theorem analyzeDomain_cache_of_ttl_nonpos (h : dc.ttl ≤ 0) :
    (analyzeDomain dc now domain fetched parse).2 = dc := by
  unfold analyzeDomain
  split
  · rfl
  · rfl
  · exact DomainCache.set_of_ttl_nonpos h _ _ _

theorem lookupDomain_ne_hit (h : dc.Cold) (a : BuiltAnalysis) :
    lookupDomain dc now domain fetched parse ≠ .hit a := by
  obtain ⟨e, he⟩ := h now domain
  rw [lookupDomain_of_miss fetched parse he]
  split
  · nofun
  · split <;> nofun

theorem cached_of_lookupDomain_fresh {a : BuiltAnalysis}
    (hl : lookupDomain dc now domain fetched parse = .fresh a) : a.analysis.cached = false := by
  unfold lookupDomain at hl
  split at hl
  · cases hl
  · split at hl
    · cases hl
    · split at hl
      · cases hl
      · cases hl
        rfl

/-- **On a cold cache `AnalyzeDomain` is fresh**: an analysis it returns is not marked cached. -/
theorem analyzeDomain_uncached (h : dc.Cold) {a : DomainAnalysis}
    (ha : (analyzeDomain dc now domain fetched parse).1 = .ok a) : a.cached = false := by
  unfold analyzeDomain at ha
  split at ha
  · next b hl => exact absurd hl (lookupDomain_ne_hit h b)
  · cases ha
  · next b hl =>
    cases ha
    exact cached_of_lookupDomain_fresh hl

end Uncached

/-- What the worker holds was not taken from the cache. -/
def WorkerPc.Uncached : WorkerPc → Prop
  | storing a => a.analysis.cached = false
  | sending r | releasing r | leaving r | finished r => r.cached = false
  | _ => True

theorem WorkerPc.Uncached.of_sent {p : WorkerPc} (h : p.Uncached) {r : DomainResult}
    (hr : p.sent? = some r) : r.cached = false := by
  cases p <;> cases hr <;> exact h

theorem uncached_afterLookup {dc : DomainCache} {t : Nat} {dom : String}
    {fetched : Except String String} {parse : String → Except String (List AdsTxtEntry)}
    (h : dc.Cold) : (afterLookup dom t (lookupDomain dc t dom fetched parse)).Uncached := by
  cases hl : lookupDomain dc t dom fetched parse with
  | hit a => exact absurd hl (lookupDomain_ne_hit h a)
  | failed err => rfl
  | fresh a => exact cached_of_lookupDomain_fresh hl

/-- The cache is the one the call started on, and nothing a worker holds was taken from it. -/
structure BatchUncached (cache : DomainCache) (s : BatchState) : Prop where
  cache : s.cache = cache
  workers : ∀ p ∈ s.workers, p.Uncached

namespace BatchUncached

variable {env : BatchEnv} {cache : DomainCache} {s s' : BatchState}

theorem init (env : BatchEnv) (cache : DomainCache) (now : Nat) :
    BatchUncached cache (BatchState.init env cache now) := by
  unfold BatchState.init
  split
  · exact ⟨rfl, fun _ hp => nomatch hp⟩
  · refine ⟨rfl, fun p hp => ?_⟩
    obtain ⟨_, -, rfl⟩ := List.mem_map.mp hp
    trivial

/-- A worker that moves to a program counter carrying what it carried before. -/
theorem workers_set (h : BatchUncached cache s) {i : Nat} {p q : WorkerPc}
    (hw : s.workers[i]? = some p) (hq : p.Uncached → q.Uncached) :
    ∀ p ∈ s.workers.set i q, p.Uncached :=
  forall_mem_set h.workers (hq (h.workers p (List.getElem?_mem hw)))

theorem step (httl : cache.ttl ≤ 0) (hcold : cache.Cold) (h : BatchUncached cache s)
    (hst : BatchStep env s s') : BatchUncached cache s' := by
  cases hst with
  | spawn _ hw => exact ⟨h.cache, h.workers_set hw fun _ => trivial⟩
  | startCloser => exact ⟨h.cache, h.workers⟩
  | acquire hw => exact ⟨h.cache, h.workers_set hw fun _ => trivial⟩
  | handoff hi hj =>
    exact ⟨h.cache, forall_mem_set (h.workers_set hi (q := .analyzing) fun _ => trivial)
      (h.workers _ (List.getElem?_mem hj) : WorkerPc.Uncached (.releasing _))⟩
  | analyze =>
    refine ⟨h.cache, forall_mem_set h.workers ?_⟩
    rw [h.cache]
    exact uncached_afterLookup hcold
  | @store _ dom a t hw =>
    refine ⟨?_, h.workers_set hw id⟩
    show (s.cache.set t dom a 0).2 = cache
    rw [h.cache]
    exact DomainCache.set_of_ttl_nonpos httl t dom a
  | send hw | release hw | done hw => exact ⟨h.cache, h.workers_set hw id⟩
  | close | receive | finish | deliver => exact ⟨h.cache, h.workers⟩

end BatchUncached

/-- **A batch on a cold cache with a TTL that is not positive takes nothing from it and stores
nothing.** Under any interleaving of the goroutines of `AnalyzeDomains`, the cache stays the one
the call started on, and no result the call returns is marked cached. -/
theorem analyzeDomains_uncached {env : BatchEnv} {cache : DomainCache} {now : Nat}
    {s : BatchState} (h : BatchReachable env cache now s) (httl : cache.ttl ≤ 0)
    (hcold : cache.Cold) :
    s.cache = cache ∧ ∀ resp, s.main = .returned resp → ∀ r ∈ resp.results, r.cached = false := by
  have hu : BatchUncached cache s :=
    h.induction (BatchUncached.init env cache now) fun _ hu hst => hu.step httl hcold hst
  refine ⟨hu.cache, fun resp hm r hr => ?_⟩
  obtain ⟨-, rs, t, hperm, rfl⟩ := (results_of_reachable h).aggregated _ (.inr hm)
  rw [aggregateResults_results] at hr
  obtain ⟨p, hp, hsent⟩ := List.mem_filterMap.mp (hperm.subset hr)
  exact (hu.workers p hp).of_sent hsent

end AdsTxtAnalyzer
