import AdsTxtAnalyzer.GoStrings
import AdsTxtAnalyzer.Regex

/-!
# Domain names: `Parser.isValidDomain`

`isValidDomain` rejects the empty text and any text longer than 253 bytes, removes one
trailing dot, and then asks for a dot, more than one character and a match of the pattern

  `^[a-zA-Z0-9]([a-zA-Z0-9\-]{0,61}[a-zA-Z0-9])?(\.[a-zA-Z0-9]([a-zA-Z0-9\-]{0,61}[a-zA-Z0-9])?)*$`.

The pattern's language is the names made of labels of 1 to 63 letters, digits and hyphens,
neither starting nor ending with a hyphen, separated by single dots (`matches_domainRegex`,
read through `Regex.matchString_iff`). **`isValidDomain_iff`** is then the whole function: a
text is valid exactly when it has at most 253 characters and, without one trailing dot, is a
name of at least two such labels (`ValidName`).

The length is measured before the trailing dot is removed, so a valid name of 253 characters
is no longer valid once written with its trailing dot (`isValidDomain_trailing_dot_at_253`).
-/

namespace AdsTxtAnalyzer

/-! ### The pattern -/

/-- The class `[a-zA-Z0-9\-]`. -/
def isLDH (c : Char) : Bool := isAlnum c || c == '-'

/-- A label, `[a-zA-Z0-9]([a-zA-Z0-9\-]{0,61}[a-zA-Z0-9])?`, with its group numbered `i`. -/
def labelRegex (i : Nat) : Regex :=
  .cat (.cls isAlnum) (.opt (.group i (.cat (.upTo 61 (.cls isLDH)) (.cls isAlnum))))

/-- The pattern `domainRegex` of `isValidDomain`: a label, then any number of dotted ones. -/
def domainRegex : Regex :=
  .cat (labelRegex 1) (.star (.group 2 (.cat (.char '.') (labelRegex 3))))

/-- The method `Parser.isValidDomain`. Go's `len` counts bytes where `length` counts
characters; the two differ only on text outside ASCII, which the pattern rejects either way. -/
def isValidDomain (domain : String) : Bool :=
  if domain = "" ∨ domain.length > 253 then false
  else
    let domain := Strings.trimSuffix domain "."
    if !Strings.contains domain "." ∨ domain.length ≤ 1 then false
    else domainRegex.matchString domain

/-! ### Labels and names -/

/-- A DNS label: 1 to 63 letters, digits and hyphens, neither starting nor ending with a
hyphen. -/
def ValidLabel (w : List Char) : Prop :=
  w ≠ [] ∧ w.length ≤ 63 ∧ (∀ c ∈ w, isLDH c = true) ∧ w.head? ≠ some '-' ∧
    w.getLast? ≠ some '-'

instance : DecidablePred ValidLabel := fun _ =>
  inferInstanceAs (Decidable (_ ∧ _ ∧ _ ∧ _ ∧ _))

/-- A name of at least two labels separated by dots. -/
def ValidName (d : List Char) : Prop :=
  2 ≤ (d.splitOn '.').length ∧ ∀ l ∈ d.splitOn '.', ValidLabel l

instance : DecidablePred ValidName := fun _ => inferInstanceAs (Decidable (_ ∧ _))

theorem isAlnum_iff {c : Char} : isAlnum c = true ↔ isLDH c = true ∧ c ≠ '-' := by
  unfold isLDH
  constructor
  · intro h
    refine ⟨by rw [h, Bool.true_or], fun he => ?_⟩
    subst he
    exact absurd h (by decide)
  · rintro ⟨h, hne⟩
    simpa [hne] using h

/-- No label has a dot. -/
theorem ValidLabel.dot_not_mem {w : List Char} (h : ValidLabel w) : '.' ∉ w := fun hd =>
  absurd (h.2.2.1 '.' hd) (by decide)

/-- The pattern's labels are the DNS labels. -/
theorem matches_labelRegex (i : Nat) {w : List Char} : (labelRegex i).Matches w ↔ ValidLabel w := by
  simp only [labelRegex, Regex.matches_cat, Regex.matches_cls, Regex.matches_opt,
    Regex.matches_group, Regex.matches_upTo_cls]
  constructor
  · rintro ⟨_, v, rfl, ⟨c, rfl, hc⟩, ⟨m, _, rfl, ⟨hm, hmc⟩, ⟨d, rfl, hd⟩⟩ | rfl⟩
    · obtain ⟨hcl, hc'⟩ := isAlnum_iff.mp hc
      obtain ⟨hdl, hd'⟩ := isAlnum_iff.mp hd
      refine ⟨by simp, by simp; omega, ?_, by simpa using hc', ?_⟩
      · simp only [List.singleton_append, List.mem_cons, List.mem_append, List.mem_singleton,
          List.not_mem_nil, or_false]
        rintro x (rfl | hx | rfl)
        exacts [hcl, hmc x hx, hdl]
      · rw [List.singleton_append, ← List.cons_append, List.getLast?_concat]
        simpa using hd'
    · obtain ⟨hcl, hc'⟩ := isAlnum_iff.mp hc
      exact ⟨by simp, by simp, by simpa using hcl, by simpa using hc', by simpa using hc'⟩
  · rintro ⟨hne, hlen, hall, hhead, hlast⟩
    obtain ⟨c, r, rfl⟩ := List.exists_cons_of_ne_nil hne
    have hc : isAlnum c = true := isAlnum_iff.mpr ⟨hall c (by simp), by simpa using hhead⟩
    refine ⟨[c], r, rfl, ⟨c, rfl, hc⟩, ?_⟩
    rcases List.eq_nil_or_concat r with rfl | ⟨m, d, rfl⟩
    · exact .inr rfl
    · rw [List.concat_eq_append] at hall hlast hlen ⊢
      rw [← List.cons_append, List.getLast?_concat] at hlast
      have hd : isAlnum d = true :=
        isAlnum_iff.mpr ⟨hall d (by simp), by simpa using hlast⟩
      refine .inl ⟨m, [d], rfl, ⟨by simp at hlen; omega, fun x hx => hall x (by simp [hx])⟩,
        d, rfl, hd⟩

/-- The starred part: dotted labels. -/
theorem matches_dotLabels {s : List Char} :
    (Regex.star (.group 2 (.cat (.char '.') (labelRegex 3)))).Matches s ↔
      ∃ ls : List (List Char), s = (ls.map ('.' :: ·)).flatten ∧ ∀ l ∈ ls, ValidLabel l := by
  have hdot : ∀ w, (Regex.cat (.char '.') (labelRegex 3)).Matches w ↔
      ∃ l, w = '.' :: l ∧ ValidLabel l := by
    intro w
    simp only [Regex.matches_cat, Regex.char, Regex.matches_cls, beq_iff_eq, matches_labelRegex]
    constructor
    · rintro ⟨_, l, rfl, ⟨c, rfl, rfl⟩, hl⟩; exact ⟨l, rfl, hl⟩
    · rintro ⟨l, rfl, hl⟩; exact ⟨['.'], l, rfl, ⟨'.', rfl, rfl⟩, hl⟩
  simp only [Regex.matches_star, Regex.matches_group, hdot]
  constructor
  · rintro ⟨ws, rfl, hws⟩
    refine ⟨ws.map List.tail, ?_, fun l hl => ?_⟩
    · congr 1
      rw [List.map_map]
      conv_lhs => rw [← List.map_id ws]
      refine List.map_congr_left fun w hw => ?_
      obtain ⟨-, l, rfl, -⟩ := hws w hw
      rfl
    · obtain ⟨w, hw, rfl⟩ := List.mem_map.mp hl
      obtain ⟨-, l, rfl, hl'⟩ := hws w hw
      exact hl'
  · rintro ⟨ls, rfl, hls⟩
    refine ⟨ls.map ('.' :: ·), rfl, fun w hw => ?_⟩
    obtain ⟨l, hl, rfl⟩ := List.mem_map.mp hw
    exact ⟨List.cons_ne_nil _ _, l, rfl, hls l hl⟩

/-- A label followed by dotted labels is their dot-separated join. -/
private theorem intercalate_dot (l : List Char) (ls : List (List Char)) :
    ['.'].intercalate (l :: ls) = l ++ (ls.map ('.' :: ·)).flatten := by
  induction ls generalizing l with
  | nil => simp [List.intercalate]
  | cons m ms ih =>
    have := ih m
    simp only [List.intercalate, List.intersperse_cons_cons, List.flatten_cons] at this ⊢
    simp [this]

/-- **The domain pattern's language**: the texts whose dot-separated pieces are all labels. -/
theorem matches_domainRegex {s : List Char} :
    domainRegex.Matches s ↔ ∀ l ∈ s.splitOn '.', ValidLabel l := by
  simp only [domainRegex, Regex.matches_cat, matches_labelRegex, matches_dotLabels]
  constructor
  · rintro ⟨l, _, rfl, hl, ls, rfl, hls⟩
    rw [← intercalate_dot, List.splitOn_intercalate _ _ _ (List.cons_ne_nil _ _)]
    · simpa using ⟨hl, hls⟩
    · simp only [List.mem_cons]
      rintro w (rfl | hw)
      exacts [hl.dot_not_mem, (hls w hw).dot_not_mem]
  · intro h
    obtain ⟨l, ls, hsplit⟩ := List.exists_cons_of_ne_nil (List.splitOnP_ne_nil (· == '.') s)
    have hs : s = ['.'].intercalate (l :: ls) := by
      rw [← hsplit]; exact (List.intercalate_splitOn s '.').symm
    rw [intercalate_dot] at hs
    have hv : ∀ w ∈ l :: ls, ValidLabel w := fun w hw => h w (by rw [List.splitOn, hsplit]; exact hw)
    exact ⟨l, _, hs, hv l (by simp), ls, rfl, fun w hw => hv w (by simp [hw])⟩

/-! ### The function -/

/-- Splitting on a character gives one piece more than it occurs. -/
theorem length_splitOn (x : Char) (l : List Char) : (l.splitOn x).length = l.count x + 1 := by
  induction l with
  | nil => rfl
  | cons c l ih =>
    rw [List.splitOn, List.splitOnP_cons, List.count_cons]
    rw [List.splitOn] at ih
    by_cases hc : c = x
    · simp [hc, ih]
    · simp [hc, ih, List.length_modifyHead]

theorem contains_dot_iff {d : String} : Strings.contains d "." = true ↔ '.' ∈ d.data := by
  rw [Strings.contains_iff]
  constructor
  · rintro ⟨s, t, h⟩; rw [← h]; simp
  · intro h
    obtain ⟨s, t, h⟩ := List.append_of_mem h
    exact ⟨s, t, by simp [h]⟩

/-- What the pattern adds to the dot and length tests: a name of at least two labels. -/
theorem validName_iff {d : String} :
    ValidName d.data ↔
      Strings.contains d "." = true ∧ ¬ d.length ≤ 1 ∧ domainRegex.matchString d = true := by
  rw [Regex.matchString_iff, matches_domainRegex, contains_dot_iff, ValidName, length_splitOn]
  constructor
  · rintro ⟨h2, hl⟩
    have hdot : '.' ∈ d.data := List.count_pos_iff.mp (by omega)
    refine ⟨hdot, fun hlen => ?_, hl⟩
    have hone : d.data = ['.'] := by
      match hd : d.data, hdot with
      | [_], h => simp only [List.mem_singleton] at h; rw [h]
      | [], h => cases h
      | _ :: _ :: _, _ => simp [String.length, hd] at hlen
    exact (hl [] (by rw [hone]; decide)).1 rfl
  · rintro ⟨hdot, -, hl⟩
    exact ⟨by have := List.count_pos_iff.mpr hdot; omega, hl⟩

/-- **`isValidDomain` as it is**: at most 253 characters, and without one trailing dot a name
of at least two labels. -/
theorem isValidDomain_iff (d : String) :
    isValidDomain d = true ↔ d.length ≤ 253 ∧ ValidName (Strings.trimSuffix d ".").data := by
  rw [validName_iff]
  unfold isValidDomain
  by_cases hd : d = ""
  · subst hd
    have : Strings.trimSuffix "" "." = "" := Strings.trimSuffix_of_not_suffix (by decide)
    simp [this]
  · by_cases hlen : d.length > 253
    · simp [hlen]
    · have h253 : d.length ≤ 253 := by omega
      by_cases hc : Strings.contains (Strings.trimSuffix d ".") "." = true <;>
        by_cases hl : (Strings.trimSuffix d ".").length ≤ 1 <;> simp [hd, hlen, h253, hc, hl]

/-- A name of 253 characters: three labels of 63 letters and one of 61. -/
def name253 : String :=
  ⟨['.'].intercalate [List.replicate 63 'a', List.replicate 63 'a', List.replicate 63 'a',
    List.replicate 61 'a']⟩

set_option maxRecDepth 20000 in
theorem isValidDomain_trailing_dot_at_253 :
    isValidDomain name253 = true ∧ isValidDomain (name253 ++ ".") = false := by
  decide

end AdsTxtAnalyzer
