import AdsTxtAnalyzer.Models

/-!
# Go's `map[string]int` of advertiser counts

Both places that count advertisers keep a Go `map[string]int`: `Parser.CountAdvertisers`
runs `counts[entry.ExchangeDomain]++` over the entries of a file, and `aggregateResults` runs
`advertiserCounts[advertiser.Domain] += advertiser.Count` over the advertisers of each
successful result. A `CountMap` is such a map, stored as its entries in insertion order; its
keys are distinct by construction (`CountMap.nodup`), as the keys of a Go map are.

The two loops are one fold, `CountMap.addAll`, over a key and a value function. Its
specification has three parts, each by induction over the list: the count of a key is the
sum of the values of the items with that key (`get_addAll`), the keys are the keys met
(`mem_keys_addAll`), and the counts add up to the sum of all values (`total_addAll`). Go
ranges over a map in an unspecified order; the sorted list built from it in
`Analysis/Sort.lean` does not depend on that order, so the model ranges in insertion order.
-/

namespace AdsTxtAnalyzer

/-! ### The entry list -/

/-- Go's `m[k] += c` on the entry list of a map: the entry of `k` grows by `c`, or `(k, c)`
is appended (a missing key reads as `0`). -/
def insertAdd : List (String × Nat) → String → Nat → List (String × Nat)
  | [], k, c => [(k, c)]
  | (k', v) :: m, k, c => if k' = k then (k', v + c) :: m else (k', v) :: insertAdd m k c

/-- Go's `m[k]` on the entry list of a map, with the zero value for a missing key. -/
def lookupCount : List (String × Nat) → String → Nat
  | [], _ => 0
  | (k', v) :: m, k => if k' = k then v else lookupCount m k

theorem mem_keys_insertAdd (m : List (String × Nat)) (k k' : String) (c : Nat) :
    k' ∈ (insertAdd m k c).map Prod.fst ↔ k' ∈ m.map Prod.fst ∨ k' = k := by
  induction m with
  | nil => simp [insertAdd]
  | cons e m ih =>
    obtain ⟨k₀, v⟩ := e
    by_cases h : k₀ = k
    · subst h; simp only [insertAdd, if_true, List.map_cons, List.mem_cons]; tauto
    · simp only [insertAdd, h, if_false, List.map_cons, List.mem_cons, ih]; tauto

theorem nodup_keys_insertAdd {m : List (String × Nat)} (h : (m.map Prod.fst).Nodup)
    (k : String) (c : Nat) : ((insertAdd m k c).map Prod.fst).Nodup := by
  induction m with
  | nil => simp [insertAdd]
  | cons e m ih =>
    obtain ⟨k₀, v⟩ := e
    rw [List.map_cons, List.nodup_cons] at h
    by_cases hk : k₀ = k
    · subst hk; simpa [insertAdd] using h
    · simp only [insertAdd, hk, if_false, List.map_cons, List.nodup_cons, mem_keys_insertAdd]
      exact ⟨by tauto, ih h.2⟩

theorem lookupCount_insertAdd (m : List (String × Nat)) (k k' : String) (c : Nat) :
    lookupCount (insertAdd m k c) k' = lookupCount m k' + if k = k' then c else 0 := by
  induction m with
  | nil => by_cases h : k = k' <;> simp [insertAdd, lookupCount, h]
  | cons e m ih =>
    obtain ⟨k₀, v⟩ := e
    by_cases hk : k₀ = k
    · subst hk; by_cases h : k₀ = k' <;> simp [insertAdd, lookupCount, h]
    · by_cases h : k₀ = k'
      · subst h; simp [insertAdd, lookupCount, hk, Ne.symm hk]
      · simp [insertAdd, lookupCount, hk, h, ih]

theorem sum_insertAdd (m : List (String × Nat)) (k : String) (c : Nat) :
    ((insertAdd m k c).map Prod.snd).sum = (m.map Prod.snd).sum + c := by
  induction m with
  | nil => simp [insertAdd]
  | cons e m ih =>
    obtain ⟨k₀, v⟩ := e
    by_cases hk : k₀ = k <;> simp [insertAdd, hk, ih] <;> omega

/-- On a duplicate-free entry list, an entry is a key with its looked-up count. -/
theorem mem_iff_lookupCount {m : List (String × Nat)} (h : (m.map Prod.fst).Nodup)
    (k : String) (v : Nat) : (k, v) ∈ m ↔ k ∈ m.map Prod.fst ∧ lookupCount m k = v := by
  induction m with
  | nil => simp
  | cons e m ih =>
    obtain ⟨k₀, v₀⟩ := e
    rw [List.map_cons, List.nodup_cons] at h
    by_cases hk : k₀ = k
    · subst hk
      have hm : (k₀, v) ∉ m := fun hm => h.1 (List.mem_map.mpr ⟨_, hm, rfl⟩)
      simp [lookupCount, hm, eq_comm]
    · simp [lookupCount, hk, Ne.symm hk, ih h.2]

/-! ### The map -/

/-- A Go `map[string]int`, as its entries in insertion order; a map has distinct keys. -/
structure CountMap where
  entries : List (String × Nat)
  nodup : (entries.map Prod.fst).Nodup

namespace CountMap

/-- The empty map of `make(map[string]int)`. -/
def empty : CountMap := ⟨[], List.nodup_nil⟩

/-- The keys of the map. -/
def keys (m : CountMap) : List String := m.entries.map Prod.fst

/-- The count of a key, `0` when absent. -/
def get (m : CountMap) (k : String) : Nat := lookupCount m.entries k

/-- The sum of all counts. -/
def total (m : CountMap) : Nat := (m.entries.map Prod.snd).sum

/-- The statement `m[k] += c`. -/
def add (m : CountMap) (k : String) (c : Nat) : CountMap :=
  ⟨insertAdd m.entries k c, nodup_keys_insertAdd m.nodup k c⟩

/-- The loop `for _, x := range xs { m[key(x)] += val(x) }`. -/
def addAll {α : Type} (key : α → String) (val : α → Nat) (m : CountMap) (xs : List α) :
    CountMap :=
  xs.foldl (fun m x => m.add (key x) (val x)) m

@[simp] theorem get_empty (k : String) : empty.get k = 0 := rfl

@[simp] theorem keys_empty : empty.keys = [] := rfl

@[simp] theorem total_empty : empty.total = 0 := rfl

@[simp]
theorem get_add (m : CountMap) (k k' : String) (c : Nat) :
    (m.add k c).get k' = m.get k' + if k = k' then c else 0 :=
  lookupCount_insertAdd _ _ _ _

@[simp]
theorem mem_keys_add (m : CountMap) (k k' : String) (c : Nat) :
    k' ∈ (m.add k c).keys ↔ k' ∈ m.keys ∨ k' = k :=
  mem_keys_insertAdd _ _ _ _

@[simp]
theorem total_add (m : CountMap) (k : String) (c : Nat) : (m.add k c).total = m.total + c :=
  sum_insertAdd _ _ _

/-- An entry of a map is a key with its count. -/
theorem mem_entries (m : CountMap) (k : String) (v : Nat) :
    (k, v) ∈ m.entries ↔ k ∈ m.keys ∧ m.get k = v :=
  mem_iff_lookupCount m.nodup k v

section AddAll

variable {α : Type} (key : α → String) (val : α → Nat)

@[simp]
theorem addAll_nil (m : CountMap) : addAll key val m [] = m := rfl

@[simp]
theorem addAll_cons (m : CountMap) (x : α) (xs : List α) :
    addAll key val m (x :: xs) = addAll key val (m.add (key x) (val x)) xs := rfl

theorem addAll_append (m : CountMap) (xs ys : List α) :
    addAll key val m (xs ++ ys) = addAll key val (addAll key val m xs) ys :=
  List.foldl_append _ _ _ _

/-- The count of a key after the loop: what it was, plus the values of the items with that
key. -/
theorem get_addAll (m : CountMap) (xs : List α) (k : String) :
    (addAll key val m xs).get k = m.get k + ((xs.filter (key · = k)).map val).sum := by
  induction xs generalizing m with
  | nil => simp
  | cons x xs ih =>
    by_cases h : key x = k
    · simp [ih, h]; omega
    · simp [ih, h]

theorem mem_keys_addAll (m : CountMap) (xs : List α) (k : String) :
    k ∈ (addAll key val m xs).keys ↔ k ∈ m.keys ∨ k ∈ xs.map key := by
  induction xs generalizing m with
  | nil => simp
  | cons x xs ih => simp only [addAll_cons, ih, mem_keys_add, List.map_cons, List.mem_cons]; tauto

theorem total_addAll (m : CountMap) (xs : List α) :
    (addAll key val m xs).total = m.total + (xs.map val).sum := by
  induction xs generalizing m with
  | nil => simp
  | cons x xs ih => simp [ih]; omega

end AddAll

end CountMap

end AdsTxtAnalyzer
