import Mathlib.Data.List.Perm.Basic
import Mathlib.Algebra.Order.Ring.Nat

/-!
# Updating one entry of a list of program counters

Both concurrent models keep their goroutines in a list and let a step change one entry with
`List.set`. These lemmas say what such an update does to a lookup, a count, a sum and the
values the entries carry, given the entry it replaces.
-/

namespace AdsTxtAnalyzer

section ListSet

variable {α β : Type} {l : List α} {i : Nat} {p : α}

theorem getElem?_set_of_getElem? (h : l[i]? = some p) (a : α) (j : Nat) :
    (l.set i a)[j]? = if i = j then some a else l[j]? := by
  obtain ⟨hi, -⟩ := List.getElem?_eq_some.mp h
  simp [List.getElem?_set, hi]

theorem countP_pos_of_getElem? (h : l[i]? = some p) {q : α → Bool} (hp : q p = true) :
    0 < l.countP q :=
  List.countP_pos_iff.mpr ⟨p, List.getElem?_mem h, hp⟩

theorem countP_set_of_getElem? (h : l[i]? = some p) (a : α) (q : α → Bool) :
    (l.set i a).countP q + (if q p then 1 else 0) = l.countP q + (if q a then 1 else 0) := by
  obtain ⟨hi, rfl⟩ := List.getElem?_eq_some.mp h
  have := List.boole_getElem_le_countP q l i hi
  rw [List.countP_set q l i a hi]
  omega

theorem countP_set_of_eq (h : l[i]? = some p) {a : α} {q : α → Bool} (hq : q a = q p) :
    (l.set i a).countP q = l.countP q := by
  have := countP_set_of_getElem? h a q
  rw [hq] at this
  omega

theorem countP_set_of_false (h : l[i]? = some p) (a : α) {q : α → Bool} (hq : q p = false) :
    (l.set i a).countP q = l.countP q + if q a then 1 else 0 := by
  have := countP_set_of_getElem? h a q
  rw [hq] at this
  simpa using this

theorem sum_map_set_of_getElem? (h : l[i]? = some p) (a : α) (f : α → Nat) :
    ((l.set i a).map f).sum + f p = (l.map f).sum + f a := by
  induction l generalizing i with
  | nil => simp at h
  | cons x l ih =>
    cases i with
    | zero =>
      simp only [List.getElem?_cons_zero, Option.some.injEq] at h
      subst h
      simp only [List.set_cons_zero, List.map_cons, List.sum_cons]
      omega
    | succ i =>
      simp only [List.getElem?_cons_succ] at h
      simp only [List.set_cons_succ, List.map_cons, List.sum_cons]
      have := ih h
      omega

theorem filterMap_set_perm (h : l[i]? = some p) (a : α) (f : α → Option β) :
    ((l.set i a).filterMap f ++ (f p).toList).Perm (l.filterMap f ++ (f a).toList) := by
  induction l generalizing i with
  | nil => simp at h
  | cons x l ih =>
    cases i with
    | zero =>
      simp only [List.getElem?_cons_zero, Option.some.injEq] at h
      subst h
      cases hp : f x <;> cases ha : f a <;> simp [List.filterMap_cons, hp, ha]
      · exact (List.perm_append_singleton _ _).symm
      · exact ((List.perm_append_singleton _ _).cons _).trans
          ((List.Perm.swap _ _ _).trans ((List.perm_append_singleton _ _).symm.cons _))
    | succ i =>
      simp only [List.getElem?_cons_succ] at h
      cases hx : f x <;> simp [List.filterMap_cons, hx, ih h]

end ListSet

end AdsTxtAnalyzer
