import AdsTxtAnalyzer.CountMap
import Mathlib.Data.String.Basic

/-!
# The sorted advertiser list

`buildAnalysis` and `aggregateResults` end the same way: they range over a count map,
append each entry as an `AdvertiserInfo` while adding its count to `totalCount`, and sort
the slice with `sort.Slice` and the comparator `advertiserLess` (count descending, then
domain ascending). `CountMap.toAdvertisers` is that conclusion.

`sort.Slice` is not stable and Go's map iteration order is unspecified, so two facts make
the output well defined, and the model may fix both choices:

* `advertiserLess` is a strict total order on advertisers (`advertiserLess_iff`), so a list
  without repeats has exactly one permutation sorted by it (`eq_of_pairwise_of_mem_iff`).
  The model sorts with `List.mergeSort`; every correct `sort.Slice` gives the same list.
* `toAdvertisers_of_perm`: ranging over the entries in any order gives the same sorted
  slice and the same total.

The specification of the conclusion is `mem_toAdvertisers`, `nodup_toAdvertisers`,
`pairwise_toAdvertisers` and `total_toAdvertisers`: each key appears once with its count,
in strictly decreasing order, and `totalCount` is the sum of the counts.
-/

namespace AdsTxtAnalyzer

/-! ### The comparator -/

/-- The comparator `less(i, j)` that `buildAnalysis` and `aggregateResults` pass to
`sort.Slice`. -/
def advertiserLess (a b : AdvertiserInfo) : Bool :=
  if a.count = b.count then decide (a.domain < b.domain) else decide (a.count > b.count)

/-- The comparator as an order: more entries first, then the smaller domain. -/
theorem advertiserLess_iff (a b : AdvertiserInfo) :
    advertiserLess a b = true ↔ b.count < a.count ∨ a.count = b.count ∧ a.domain < b.domain := by
  unfold advertiserLess
  by_cases h : a.count = b.count
  · simp [h]
  · simp only [h, if_false, decide_eq_true_eq, false_and, or_false, gt_iff_lt]

theorem advertiserLess_irrefl (a : AdvertiserInfo) : advertiserLess a a = false := by
  simp [advertiserLess]

theorem advertiserLess_asymm {a b : AdvertiserInfo} (h : advertiserLess a b = true) :
    advertiserLess b a = false := by
  rw [advertiserLess_iff] at h
  rw [Bool.eq_false_iff, ne_eq, advertiserLess_iff]
  rcases h with h | ⟨h, h'⟩
  · omega
  · rintro (h'' | ⟨_, h''⟩)
    · omega
    · exact lt_asymm h' h''

/-- Two different advertisers are ordered one way or the other. -/
theorem advertiserLess_total_of_ne {a b : AdvertiserInfo} (h : a ≠ b) :
    advertiserLess a b = true ∨ advertiserLess b a = true := by
  simp only [advertiserLess_iff]
  rcases Nat.lt_trichotomy a.count b.count with hc | hc | hc
  · omega
  · rcases lt_trichotomy a.domain b.domain with hd | hd | hd
    · exact Or.inl (Or.inr ⟨hc, hd⟩)
    · exact absurd (by cases a; cases b; simp_all) h
    · exact Or.inr (Or.inr ⟨hc.symm, hd⟩)
  · omega

/-- The non-strict order that `mergeSort` is given: `a` may come before `b` unless `b` must
come first. -/
theorem not_advertiserLess_trans (a b c : AdvertiserInfo) :
    (!advertiserLess b a) = true → (!advertiserLess c b) = true → (!advertiserLess c a) = true := by
  simp only [Bool.not_eq_true', Bool.eq_false_iff, ne_eq, advertiserLess_iff, not_or, not_and,
    not_lt]
  exact fun h₁ h₂ => ⟨by omega, fun hc => le_trans (h₁.2 (by omega)) (h₂.2 (by omega))⟩

theorem not_advertiserLess_total (a b : AdvertiserInfo) :
    ((!advertiserLess b a) || (!advertiserLess a b)) = true := by
  cases hab : advertiserLess a b
  · simp
  · simp [advertiserLess_asymm hab]

/-! ### The sort -/

/-- The model of `sort.Slice` with `advertiserLess`: a merge sort, which keeps `a` before
`b` unless `advertiserLess b a`. -/
def sortAdvertisers (l : List AdvertiserInfo) : List AdvertiserInfo :=
  l.mergeSort fun a b => !advertiserLess b a

theorem sortAdvertisers_perm (l : List AdvertiserInfo) : (sortAdvertisers l).Perm l :=
  List.mergeSort_perm l _

/-- Sorting a list without repeats orders it strictly. -/
theorem pairwise_sortAdvertisers {l : List AdvertiserInfo} (h : l.Nodup) :
    (sortAdvertisers l).Pairwise (advertiserLess · · = true) := by
  have hle := List.sorted_mergeSort not_advertiserLess_trans not_advertiserLess_total l
  refine (hle.and ((sortAdvertisers_perm l).nodup_iff.mpr h)).imp fun {a b} ⟨hab, hne⟩ => ?_
  rcases advertiserLess_total_of_ne hne with h' | h'
  · exact h'
  · simp [h'] at hab

/-- A list sorted strictly by `advertiserLess` is determined by its members. -/
theorem eq_of_pairwise_of_mem_iff {l₁ l₂ : List AdvertiserInfo}
    (h₁ : l₁.Pairwise (advertiserLess · · = true)) (h₂ : l₂.Pairwise (advertiserLess · · = true))
    (h : ∀ a, a ∈ l₁ ↔ a ∈ l₂) : l₁ = l₂ := by
  have hn : ∀ {l : List AdvertiserInfo}, l.Pairwise (advertiserLess · · = true) → l.Nodup :=
    fun hl => hl.imp fun {a b} hab hne => by subst hne; simp [advertiserLess_irrefl] at hab
  refine List.Perm.eq_of_sorted (fun a b _ _ hab hba => ?_) h₁ h₂
    ((List.perm_ext_iff_of_nodup (hn h₁) (hn h₂)).mpr h)
  simp [advertiserLess_asymm hab] at hba

/-- Every permutation sorted by `advertiserLess` is the model's sorted list, so the choice of
sorting algorithm does not matter. -/
theorem eq_sortAdvertisers {l l' : List AdvertiserInfo} (hp : l'.Perm l)
    (hs : l'.Pairwise (advertiserLess · · = true)) : l' = sortAdvertisers l := by
  have hnd : l.Nodup :=
    hp.nodup_iff.mp (hs.imp fun {a b} hab hne => by subst hne; simp [advertiserLess_irrefl] at hab)
  exact eq_of_pairwise_of_mem_iff hs (pairwise_sortAdvertisers hnd)
    fun a => hp.mem_iff.trans (sortAdvertisers_perm l).mem_iff.symm

/-! ### From the count map to the sorted slice -/

/-- The loop `for domain, count := range counts`: append `{domain, count}` and add `count` to
`totalCount`. -/
def rangeCounts (es : List (String × Nat)) : List AdvertiserInfo × Nat :=
  es.foldl (fun acc e => (acc.1 ++ [⟨e.1, e.2⟩], acc.2 + e.2)) ([], 0)

theorem rangeCounts_eq (es : List (String × Nat)) :
    rangeCounts es = (es.map fun e => ⟨e.1, e.2⟩, (es.map Prod.snd).sum) := by
  suffices h : ∀ acc : List AdvertiserInfo × Nat,
      es.foldl (fun acc e => (acc.1 ++ [⟨e.1, e.2⟩], acc.2 + e.2)) acc =
        (acc.1 ++ es.map fun e => ⟨e.1, e.2⟩, acc.2 + (es.map Prod.snd).sum) from
    (h ([], 0)).trans (by simp)
  induction es with
  | nil => simp
  | cons e es ih => intro acc; simp [ih, Nat.add_assoc]

/-- The end of `buildAnalysis` and `aggregateResults`: the sorted slice and the total. -/
def CountMap.toAdvertisers (m : CountMap) : List AdvertiserInfo × Nat :=
  (sortAdvertisers (rangeCounts m.entries).1, (rangeCounts m.entries).2)

namespace CountMap

variable (m : CountMap)

/-- Each entry of the sorted slice is a key of the map with its count. -/
theorem mem_toAdvertisers (a : AdvertiserInfo) :
    a ∈ m.toAdvertisers.1 ↔ a.domain ∈ m.keys ∧ m.get a.domain = a.count := by
  rw [toAdvertisers, (sortAdvertisers_perm _).mem_iff, rangeCounts_eq, ← m.mem_entries]
  cases a
  simp

theorem nodup_toAdvertisers : (m.toAdvertisers.1.map AdvertiserInfo.domain).Nodup := by
  rw [toAdvertisers, ((sortAdvertisers_perm _).map _).nodup_iff, rangeCounts_eq, List.map_map]
  exact m.nodup

theorem pairwise_toAdvertisers :
    m.toAdvertisers.1.Pairwise (advertiserLess · · = true) := by
  refine pairwise_sortAdvertisers (List.Nodup.of_map AdvertiserInfo.domain ?_)
  rw [rangeCounts_eq, List.map_map]
  exact m.nodup

theorem total_toAdvertisers : m.toAdvertisers.2 = m.total := by
  simp [toAdvertisers, rangeCounts_eq, total]

/-- The sum of the sorted slice's counts is the map's total. -/
theorem countSum_toAdvertisers : AdvertiserInfo.countSum m.toAdvertisers.1 = m.total := by
  rw [toAdvertisers, AdvertiserInfo.countSum, ((sortAdvertisers_perm _).map _).sum_eq,
    rangeCounts_eq, List.map_map]
  rfl

/-- Go ranges over a map in an unspecified order: any order gives the same sorted slice and
the same total. -/
theorem toAdvertisers_of_perm {es : List (String × Nat)} (h : es.Perm m.entries) :
    (sortAdvertisers (rangeCounts es).1, (rangeCounts es).2) = m.toAdvertisers := by
  have hmap : ∀ {l₁ l₂ : List (String × Nat)}, l₁.Perm l₂ →
      (l₁.map fun e => (⟨e.1, e.2⟩ : AdvertiserInfo)).Perm (l₂.map fun e => ⟨e.1, e.2⟩) :=
    fun h => h.map _
  have hsorted := m.pairwise_toAdvertisers
  simp only [toAdvertisers, rangeCounts_eq, Prod.mk.injEq] at hsorted ⊢
  refine ⟨(eq_sortAdvertisers (((sortAdvertisers_perm _).trans (hmap (List.Perm.refl _))).trans
    (hmap h).symm) hsorted).symm, (h.map _).sum_eq⟩

end CountMap

end AdsTxtAnalyzer
