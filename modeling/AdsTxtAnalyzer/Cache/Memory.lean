import Mathlib.Data.List.Basic

/-!
# The in-memory cache and the timed map it implements

`MemoryCache` (`internal/cache/interface.go`) is a map from keys to entries carrying an
expiry time. `Set` stores `now + ttl` and refuses a TTL that is not positive, `Get` answers
`ErrCacheUnavailable` for a missing key and for an entry whose expiry is before the current
time, `Delete` removes a key, and a background task runs `cleanupExpired`, which drops the
entries already expired. Times are nanoseconds on the process clock; a TTL is a
`time.Duration`, an integer number of nanoseconds.

The abstract model is the history itself: `specGet ops key t` finds the most recent
successful `Set` of `key` in the operation sequence `ops` that no later `Delete` of `key`
cancelled, and answers its value when `t` is within its TTL (`lastWrite`). The refinement
theorem `memoryCache_refines_timedMap` says that after any sequence of operations at
non-decreasing times, `Get` answers exactly `specGet`, that a `Set` with a non-positive TTL
fails and changes nothing, and that sequences differing only in their cleanup passes answer
every `Get` alike. Its proof is one invariant, `Agrees`: the store answers like the history
at every time from the current one on. A cleanup pass keeps it because it only drops entries
that are already unavailable at every later time.
-/

namespace AdsTxtAnalyzer

/-- The record `cacheEntry`: a value and its expiry time. -/
structure CacheEntry (α : Type) where
  value : α
  expiresAt : Nat

/-- The errors of `MemoryCache`: `models.ErrCacheUnavailable` ("cache service unavailable")
and the `Set` error "TTL must be positive, got: %v". -/
inductive CacheError
  | cacheUnavailable
  | ttlNotPositive (ttl : Int)
  deriving DecidableEq, Repr

/-- The store of a `MemoryCache`, its field `data`. -/
structure MemoryCache (α : Type) where
  data : String → Option (CacheEntry α)

namespace MemoryCache

variable {α : Type}

/-- The empty store of `newMemoryCache`. -/
def empty : MemoryCache α := ⟨fun _ => none⟩

/-- The method `Get` at time `now`. -/
def get (m : MemoryCache α) (now : Nat) (key : String) : Except CacheError α :=
  match m.data key with
  | none => .error .cacheUnavailable
  | some e => if now > e.expiresAt then .error .cacheUnavailable else .ok e.value

/-- The method `Set` at time `now`: its error, if any, and the store after it. -/
def set (m : MemoryCache α) (now : Nat) (key : String) (value : α) (ttl : Int) :
    Option CacheError × MemoryCache α :=
  if ttl ≤ 0 then (some (.ttlNotPositive ttl), m)
  else (none, ⟨fun k => if k = key then some ⟨value, now + ttl.toNat⟩ else m.data k⟩)

/-- The method `Delete`. -/
def delete (m : MemoryCache α) (key : String) : MemoryCache α :=
  ⟨fun k => if k = key then none else m.data k⟩

/-- One pass of the loop of `cleanupExpired` at time `now`: every entry whose expiry is
before `now` is deleted. -/
def cleanupExpired (m : MemoryCache α) (now : Nat) : MemoryCache α :=
  ⟨fun k => (m.data k).filter fun e => !(now > e.expiresAt)⟩

/-- A `Set` with a TTL that is not positive fails and leaves the store as it was. -/
theorem set_of_nonpos {ttl : Int} (h : ttl ≤ 0) (m : MemoryCache α) (now : Nat) (key : String)
    (value : α) : m.set now key value ttl = (some (.ttlNotPositive ttl), m) := by
  simp [set, h]

/-- Right after a successful `Set`, its key answers the value until the expiry. -/
theorem get_set_self (m : MemoryCache α) (now t : Nat) (key : String) (value : α) {ttl : Int}
    (h : 0 < ttl) :
    ((m.set now key value ttl).2).get t key =
      if (t : Int) ≤ now + ttl then .ok value else .error .cacheUnavailable := by
  have : ¬ ttl ≤ 0 := by omega
  by_cases ht : (t : Int) ≤ now + ttl
  · simp [set, get, this, ht]; omega
  · simp [set, get, this, ht]; omega

theorem get_set_ne (m : MemoryCache α) (now t : Nat) {key k : String} (value : α) (ttl : Int)
    (h : k ≠ key) : ((m.set now key value ttl).2).get t k = m.get t k := by
  unfold set; split <;> simp [get, h]

theorem get_delete (m : MemoryCache α) (t : Nat) (key k : String) :
    (m.delete key).get t k = if k = key then .error .cacheUnavailable else m.get t k := by
  by_cases h : k = key <;> simp [delete, get, h]

/-- A cleanup pass at time `c` changes no answer at any time from `c` on. -/
theorem get_cleanupExpired (m : MemoryCache α) {c t : Nat} (h : c ≤ t) (k : String) :
    (m.cleanupExpired c).get t k = m.get t k := by
  simp only [cleanupExpired, get]
  cases m.data k with
  | none => rfl
  | some e =>
    by_cases hc : c > e.expiresAt
    · have ht : t > e.expiresAt := by omega
      simp [Option.filter, hc, ht]
    · simp [Option.filter, hc]

end MemoryCache

/-! ### The timed map of the specification -/

/-- One call on the cache in a run: `Get`, `Set`, `Delete`, or a pass of `cleanupExpired`. -/
inductive CacheOp (α : Type)
  | get (key : String)
  | set (key : String) (value : α) (ttl : Int)
  | delete (key : String)
  | cleanup

namespace CacheOp

variable {α : Type}

/-- The effect of a call made at time `t` on the store. -/
def apply (m : MemoryCache α) : Nat × CacheOp α → MemoryCache α
  | (_, .get _) => m
  | (t, .set key value ttl) => (m.set t key value ttl).2
  | (_, .delete key) => m.delete key
  | (t, .cleanup) => m.cleanupExpired t

/-- The store after a sequence of timed calls. -/
def run (m : MemoryCache α) (ops : List (Nat × CacheOp α)) : MemoryCache α :=
  ops.foldl apply m

/-- Whether a call is a cleanup pass. -/
def isCleanup : CacheOp α → Bool
  | .cleanup => true
  | _ => false

/-- How one call changes the last write of `key`: a successful `Set` of `key` replaces it, a
`Delete` of `key` cancels it. -/
def writeOf (key : String) (w : Option (α × Nat × Int)) : Nat × CacheOp α → Option (α × Nat × Int)
  | (s, .set k v ttl) => if k = key ∧ 0 < ttl then some (v, s, ttl) else w
  | (_, .delete k) => if k = key then none else w
  | _ => w

/-- The most recent successful `Set(key, v, ttl)` of a history, with its time, unless a later
`Delete(key)` cancelled it. -/
def lastWrite (key : String) (ops : List (Nat × CacheOp α)) : Option (α × Nat × Int) :=
  ops.foldl (writeOf key) none

/-- The specification of `Get(key)` at time `t` after a history: the value of the last
successful `Set` of `key` not deleted since, if `t` is within its TTL, and
`ErrCacheUnavailable` otherwise. -/
def specGet (ops : List (Nat × CacheOp α)) (key : String) (t : Nat) : Except CacheError α :=
  match lastWrite key ops with
  | some (v, s, ttl) => if (t : Int) ≤ s + ttl then .ok v else .error .cacheUnavailable
  | none => .error .cacheUnavailable

/-- Dropping items that a fold skips does not change the fold. -/
private theorem foldl_filter_of_skip {β γ : Type} (f : β → γ → β) (p : γ → Bool)
    (h : ∀ x w, p x = false → f w x = w) (l : List γ) (w : β) :
    (l.filter p).foldl f w = l.foldl f w := by
  induction l generalizing w with
  | nil => rfl
  | cons x l ih =>
    by_cases hp : p x = true
    · simp [List.filter_cons, hp, ih]
    · rw [List.filter_cons, if_neg hp, List.foldl_cons, h x w (by simpa using hp), ih]

/-- A cleanup pass is invisible to the specification. -/
theorem lastWrite_filter_cleanup (key : String) (ops : List (Nat × CacheOp α)) :
    lastWrite key (ops.filter fun op => !isCleanup op.2) = lastWrite key ops :=
  foldl_filter_of_skip _ _ (fun ⟨_, op⟩ w h => by cases op <;> simp_all [isCleanup, writeOf]) _ _

/-- The store answers like the history at every time from `now` on. -/
def Agrees (m : MemoryCache α) (ops : List (Nat × CacheOp α)) (now : Nat) : Prop :=
  ∀ key t, now ≤ t → m.get t key = specGet ops key t

theorem agrees_empty : Agrees (MemoryCache.empty : MemoryCache α) [] 0 := by
  intro key t _
  rfl

/-- One call at a time `t` not before `now` keeps the store in agreement with the history. -/
theorem agrees_apply {m : MemoryCache α} {ops : List (Nat × CacheOp α)} {now : Nat}
    (h : Agrees m ops now) {t : Nat} (ht : now ≤ t) (op : CacheOp α) :
    Agrees (apply m (t, op)) (ops ++ [(t, op)]) t := by
  intro k u hu
  have hold := h k u (by omega)
  simp only [specGet, lastWrite, List.foldl_append, List.foldl_cons, List.foldl_nil, writeOf]
    at hold ⊢
  cases op with
  | get key => simpa [apply] using hold
  | set key v ttl =>
    by_cases hk : k = key
    · subst hk
      by_cases httl : 0 < ttl
      · simp [apply, MemoryCache.get_set_self _ _ _ _ _ httl, httl]
      · have hle : ttl ≤ 0 := by omega
        simpa [apply, MemoryCache.set_of_nonpos hle, httl] using hold
    · simpa [apply, MemoryCache.get_set_ne _ _ _ _ _ hk, Ne.symm hk] using hold
  | delete key =>
    by_cases hk : k = key
    · subst hk; simp [apply, MemoryCache.get_delete]
    · simpa [apply, MemoryCache.get_delete, hk, Ne.symm hk] using hold
  | cleanup => simpa [apply, MemoryCache.get_cleanupExpired _ hu] using hold

/-- A run at non-decreasing times, all from `now` on, keeps the agreement up to any time not
before its calls. -/
theorem agrees_run {m : MemoryCache α} {hist : List (Nat × CacheOp α)} {now : Nat}
    (h : Agrees m hist now) (ops : List (Nat × CacheOp α))
    (hmono : (ops.map Prod.fst).Pairwise (· ≤ ·)) (hnow : ∀ op ∈ ops, now ≤ op.1) {t : Nat}
    (hnt : now ≤ t) (ht : ∀ op ∈ ops, op.1 ≤ t) : Agrees (run m ops) (hist ++ ops) t := by
  induction ops generalizing m hist now with
  | nil => simpa [run] using fun key u hu => h key u (le_trans hnt hu)
  | cons op ops ih =>
    obtain ⟨s, o⟩ := op
    rw [List.map_cons, List.pairwise_cons] at hmono
    have hs : now ≤ s := hnow _ (List.mem_cons_self _ _)
    simpa [run] using ih (agrees_apply h hs o) hmono.2
      (fun op hop => hmono.1 _ (List.mem_map_of_mem _ hop)) (ht _ (List.mem_cons_self _ _))
      (fun op hop => ht op (List.mem_cons_of_mem _ hop))

end CacheOp

open CacheOp in
/-- The memory cache refines the timed map. After any sequence of calls at non-decreasing
times (with cleanup passes anywhere), `Get(key)` at a time `t` not before any of them answers
`specGet`: the value of the most recent successful `Set` of `key` at `s` with `ttl` when no
`Delete(key)` followed and `t ≤ s + ttl`, and `ErrCacheUnavailable` otherwise. A `Set` with
`ttl ≤ 0` returns an error and leaves the store unchanged. Two sequences that differ only in
their cleanup passes answer every `Get` alike. -/
theorem memoryCache_refines_timedMap {α : Type} :
    (∀ (ops : List (Nat × CacheOp α)) (key : String) (t : Nat),
      (ops.map Prod.fst).Pairwise (· ≤ ·) → (∀ op ∈ ops, op.1 ≤ t) →
        (run MemoryCache.empty ops).get t key = specGet ops key t) ∧
    (∀ (m : MemoryCache α) (now : Nat) (key : String) (value : α) (ttl : Int), ttl ≤ 0 →
      m.set now key value ttl = (some (.ttlNotPositive ttl), m)) ∧
    (∀ (ops₁ ops₂ : List (Nat × CacheOp α)) (key : String) (t : Nat),
      (ops₁.map Prod.fst).Pairwise (· ≤ ·) → (∀ op ∈ ops₁, op.1 ≤ t) →
      (ops₂.map Prod.fst).Pairwise (· ≤ ·) → (∀ op ∈ ops₂, op.1 ≤ t) →
      ops₁.filter (fun op => !isCleanup op.2) = ops₂.filter (fun op => !isCleanup op.2) →
        (run MemoryCache.empty ops₁).get t key = (run MemoryCache.empty ops₂).get t key) := by
  have hget : ∀ (ops : List (Nat × CacheOp α)) (key : String) (t : Nat),
      (ops.map Prod.fst).Pairwise (· ≤ ·) → (∀ op ∈ ops, op.1 ≤ t) →
        (run MemoryCache.empty ops).get t key = specGet ops key t := by
    intro ops key t hmono hle
    simpa using agrees_run agrees_empty ops hmono (fun _ _ => Nat.zero_le _) (Nat.zero_le t) hle
      key t le_rfl
  refine ⟨hget, fun m now key value ttl h => MemoryCache.set_of_nonpos h m now key value,
    fun ops₁ ops₂ key t h₁ hle₁ h₂ hle₂ hf => ?_⟩
  rw [hget ops₁ key t h₁ hle₁, hget ops₂ key t h₂ hle₂, specGet, specGet,
    ← lastWrite_filter_cleanup, hf, lastWrite_filter_cleanup]

end AdsTxtAnalyzer
