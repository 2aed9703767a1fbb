import AdsTxtAnalyzer.Parser.AdsTxt

/-!
# The record lines `parseLine` keeps

A record line of `validLineRegex` is `D,<s₁>P,<s₂>T<s₃>` or `D,<s₁>P,<s₂>T,<s₄>C<s₃>`: the
fields `D`, `P` and `C` are non-empty texts without commas and without the white space of
`\s`, the `sᵢ` are texts of that white space, and `T` is one of the four spellings
`DIRECT`, `RESELLER`, `direct` and `reseller`.

**`validLineRegex` reads a record line one way only** (`derives_recordLine`): every
derivation of it (there is one, `derives_recordLine_of`) captures `D`, `P`, `T` and `C` as
its groups 1 to 4. The fields end at the first comma, the white space at the first character
that is not white space, and no spelling of the account type begins another. So the
leftmost-first match reports these captures, and `parseLine` turns the line into the entry
of `D`, `P`, `T` and `C` whenever the exchange domain is valid (`parseLine_recordLine`).
-/

namespace AdsTxtAnalyzer

/-- A field of a record line: a non-empty text of the class `[^,\s]`. -/
def IsField (u : List Char) : Prop := u ≠ [] ∧ ∀ c ∈ u, isField c = true

/-- White space of the class `\s`. -/
def IsSpaces (w : List Char) : Prop := ∀ c ∈ w, isRegexSpace c = true

/-- The spellings of the account type that `validLineRegex` lists. -/
def accountTypeSpellings : List (List Char) :=
  ["DIRECT".data, "RESELLER".data, "direct".data, "reseller".data]

/-- The optional `,<s₄>C` of a record line, given as the white space `s₄` and the field `C`. -/
def certPart : Option (List Char × List Char) → List Char
  | none => []
  | some (s4, c) => ',' :: s4 ++ c

/-- The capture the optional part adds. -/
def certCaps : Option (List Char × List Char) → List (Nat × List Char)
  | none => []
  | some (_, c) => [(4, c)]

/-- The optional part is white space and a field. -/
def CertOk : Option (List Char × List Char) → Prop
  | none => True
  | some (s4, c) => IsSpaces s4 ∧ IsField c

/-! ### Splitting a line -/

/-- **A run of a class ends at the first character outside it.** Two texts that each start
with a run of `p` followed by a character outside `p`, or by nothing, split the same way. -/
theorem append_eq_append_of_run {p : Char → Bool} {u v d w : List Char}
    (hu : ∀ c ∈ u, p c = true) (hd : ∀ c ∈ d, p c = true) (hv : ∀ c ∈ v.head?, p c = false)
    (hw : ∀ c ∈ w.head?, p c = false) (h : u ++ v = d ++ w) : u = d ∧ v = w := by
  induction u generalizing d with
  | nil =>
    cases d with
    | nil => exact ⟨rfl, h⟩
    | cons x d =>
      rw [List.nil_append] at h
      subst h
      exact absurd (hd x (.head _)) (by simp [hv x rfl])
  | cons x u ih =>
    cases d with
    | nil =>
      rw [List.nil_append] at h
      subst h
      exact absurd (hu x (.head _)) (by simp [hw x rfl])
    | cons y d =>
      simp only [List.cons_append, List.cons.injEq] at h
      obtain ⟨rfl, h⟩ := h
      obtain ⟨rfl, rfl⟩ := ih (fun c hc => hu c (.tail _ hc)) (fun c hc => hd c (.tail _ hc)) h
      exact ⟨rfl, rfl⟩

/-- No spelling of the account type begins another: they start with four different letters. -/
theorem eq_of_append_accountType {t t' v v' : List Char} (ht : t ∈ accountTypeSpellings)
    (ht' : t' ∈ accountTypeSpellings) (h : t ++ v = t' ++ v') : t = t' ∧ v = v' := by
  have hhead : ∀ s ∈ accountTypeSpellings, ∀ s' ∈ accountTypeSpellings,
      s.head? = s'.head? → s = s' := by decide
  have hne : ∀ s ∈ accountTypeSpellings, s ≠ [] := by decide
  have heq : t = t' := hhead t ht t' ht' (by
    obtain ⟨x, xs, rfl⟩ := List.exists_cons_of_ne_nil (hne t ht)
    obtain ⟨y, ys, rfl⟩ := List.exists_cons_of_ne_nil (hne t' ht')
    simp only [List.cons_append, List.cons_eq_cons] at h
    simp [h.1])
  subst heq
  exact ⟨rfl, List.append_cancel_left h⟩

/-! ### Derivations of the line pattern -/

/-- A derivation of a one-character pattern. -/
theorem derives_char_iff {x : Char} {s : List Char} {cs : List (Nat × List Char)} :
    (Regex.char x).Derives s cs ↔ s = [x] ∧ cs = [] := by
  rw [Regex.char, Regex.derives_cls_iff]
  constructor
  · rintro ⟨⟨c, rfl, hc⟩, rfl⟩
    exact ⟨by rw [beq_iff_eq.mp hc], rfl⟩
  · rintro ⟨rfl, rfl⟩
    exact ⟨⟨x, rfl, by simp⟩, rfl⟩

/-- A character in front of a pattern: the text starts with it. -/
theorem derives_char_cat_iff {x : Char} {r : Regex} {s : List Char}
    {cs : List (Nat × List Char)} :
    (Regex.cat (.char x) r).Derives s cs ↔ ∃ v, s = x :: v ∧ r.Derives v cs := by
  simp only [Regex.derives_cat_iff, derives_char_iff]
  constructor
  · rintro ⟨_, v, _, _, rfl, rfl, ⟨rfl, rfl⟩, h⟩
    exact ⟨v, rfl, by simpa using h⟩
  · rintro ⟨v, rfl, h⟩
    exact ⟨[x], v, [], cs, rfl, by simp, ⟨rfl, rfl⟩, h⟩

/-- A group of a field captures the field. -/
theorem derives_field_iff {i : Nat} {u : List Char} {cs : List (Nat × List Char)} :
    (Regex.group i (.plus (.cls isField))).Derives u cs ↔ cs = [(i, u)] ∧ IsField u := by
  simp only [Regex.derives_group_iff, Regex.derives_plus_cls_iff, IsField]
  constructor
  · rintro ⟨_, rfl, rfl, h⟩
    exact ⟨rfl, h⟩
  · rintro ⟨rfl, h⟩
    exact ⟨[], rfl, rfl, h⟩

/-- **What a derivation of the line pattern is made of**: a record line, with its fields,
account type and certification authority as the captures. -/
theorem derives_validLineRegex {line : List Char} {caps : List (Nat × List Char)}
    (h : validLineRegex.Derives line caps) :
    ∃ d s1 p s2 t cert s3, line = d ++ ',' :: s1 ++ p ++ ',' :: s2 ++ t ++ certPart cert ++ s3 ∧
      caps = certCaps cert ++ [(3, t), (2, p), (1, d)] ∧
      IsField d ∧ IsSpaces s1 ∧ IsField p ∧ IsSpaces s2 ∧ t ∈ accountTypeSpellings ∧
      CertOk cert ∧ IsSpaces s3 := by
  simp only [validLineRegex] at h
  obtain ⟨d, _, _, _, rfl, rfl, hg1, h1⟩ := Regex.derives_cat_iff.mp h
  obtain ⟨rfl, hd⟩ := derives_field_iff.mp hg1
  obtain ⟨_, rfl, h2⟩ := derives_char_cat_iff.mp h1
  obtain ⟨s1, _, _, _, rfl, rfl, hw1, h3⟩ := Regex.derives_cat_iff.mp h2
  obtain ⟨rfl, hs1⟩ := Regex.derives_star_cls_iff.mp hw1
  obtain ⟨p, _, _, _, rfl, rfl, hg2, h4⟩ := Regex.derives_cat_iff.mp h3
  obtain ⟨rfl, hp⟩ := derives_field_iff.mp hg2
  obtain ⟨_, rfl, h5⟩ := derives_char_cat_iff.mp h4
  obtain ⟨s2, _, _, _, rfl, rfl, hw2, h6⟩ := Regex.derives_cat_iff.mp h5
  obtain ⟨rfl, hs2⟩ := Regex.derives_star_cls_iff.mp hw2
  obtain ⟨t, _, _, _, rfl, rfl, hg3, h7⟩ := Regex.derives_cat_iff.mp h6
  obtain ⟨ct, rfl, hlit⟩ := Regex.derives_group_iff.mp hg3
  have hlit' : t ∈ accountTypeSpellings ∧ ct = [] := by
    simp only [Regex.derives_alt_iff, Regex.derives_lit_iff] at hlit
    rcases hlit with h' | h' | h' | h' <;> exact ⟨by simp [accountTypeSpellings, h'.1], h'.2⟩
  obtain ⟨ht, rfl⟩ := hlit'
  obtain ⟨o, s3, _, _, rfl, rfl, ho, hw3⟩ := Regex.derives_cat_iff.mp h7
  obtain ⟨rfl, hs3⟩ := Regex.derives_star_cls_iff.mp hw3
  rcases Regex.derives_opt_iff.mp ho with ho' | ⟨rfl, rfl⟩
  · obtain ⟨_, rfl, h8⟩ := derives_char_cat_iff.mp ho'
    obtain ⟨s4, c, _, _, rfl, rfl, hw4, hg4⟩ := Regex.derives_cat_iff.mp h8
    obtain ⟨rfl, hs4⟩ := Regex.derives_star_cls_iff.mp hw4
    obtain ⟨rfl, hcert⟩ := derives_field_iff.mp hg4
    exact ⟨d, s1, p, s2, t, some (s4, c), s3, by simp [certPart], by simp [certCaps], hd, hs1, hp,
      hs2, ht, ⟨hs4, hcert⟩, hs3⟩
  · exact ⟨d, s1, p, s2, t, none, s3, by simp [certPart], by simp [certCaps], hd, hs1, hp, hs2,
      ht, trivial, hs3⟩

/-! ### One reading of a record line -/

theorem IsField.head_not_space {u : List Char} (hu : IsField u) (x : List Char) :
    ∀ c ∈ (u ++ x).head?, isRegexSpace c = false := by
  obtain ⟨a, u, rfl⟩ := List.exists_cons_of_ne_nil hu.1
  intro c hc
  obtain rfl : a = c := by simpa using hc
  exact (by simpa [isField] using hu.2 a (.head _) : _ ∧ _).2

theorem IsSpaces.head_not_field {w : List Char} (hw : IsSpaces w) :
    ∀ c ∈ w.head?, isField c = false := by
  intro c hc
  simp [isField, hw c (List.mem_of_mem_head? hc)]

theorem head_not_field_comma (x : List Char) : ∀ c ∈ (',' :: x).head?, isField c = false := by
  intro c hc
  obtain rfl : ',' = c := by simpa using hc
  decide

theorem accountType_head_not_space {t : List Char} (ht : t ∈ accountTypeSpellings)
    (x : List Char) : ∀ c ∈ (t ++ x).head?, isRegexSpace c = false := by
  simp only [accountTypeSpellings, List.mem_cons, List.not_mem_nil, or_false] at ht
  intro c hc
  rcases ht with rfl | rfl | rfl | rfl <;> (obtain rfl := Option.mem_some_iff.mp hc; decide)

/-- **A record line has one derivation**, whose captures are its fields, its account type
and its certification authority. -/
theorem derives_recordLine {d s1 p s2 t s3 : List Char} {cert : Option (List Char × List Char)}
    {caps : List (Nat × List Char)} (hd : IsField d) (hs1 : IsSpaces s1) (hp : IsField p)
    (hs2 : IsSpaces s2) (ht : t ∈ accountTypeSpellings) (hcert : CertOk cert) (hs3 : IsSpaces s3)
    (h : validLineRegex.Derives (d ++ ',' :: s1 ++ p ++ ',' :: s2 ++ t ++ certPart cert ++ s3)
      caps) :
    caps = certCaps cert ++ [(3, t), (2, p), (1, d)] := by
  obtain ⟨d', s1', p', s2', t', cert', s3', hline, rfl, hd', hs1', hp', hs2', ht', hcert', hs3'⟩ :=
    derives_validLineRegex h
  simp only [List.append_assoc, List.cons_append] at hline
  obtain ⟨rfl, h1⟩ := append_eq_append_of_run hd.2 hd'.2 (head_not_field_comma _)
    (head_not_field_comma _) hline
  obtain ⟨rfl, h2⟩ := append_eq_append_of_run hs1 hs1' (hp.head_not_space _)
    (hp'.head_not_space _) (List.cons.inj h1).2
  obtain ⟨rfl, h3⟩ := append_eq_append_of_run hp.2 hp'.2 (head_not_field_comma _)
    (head_not_field_comma _) h2
  obtain ⟨rfl, h4⟩ := append_eq_append_of_run hs2 hs2' (accountType_head_not_space ht _)
    (accountType_head_not_space ht' _) (List.cons.inj h3).2
  obtain ⟨rfl, h5⟩ := eq_of_append_accountType ht ht' h4
  rcases cert with _ | ⟨s4, c⟩ <;> rcases cert' with _ | ⟨s4', c'⟩
  · rfl
  · simp only [certPart, List.nil_append, List.cons_append] at h5
    exact absurd (hs3 ',' (h5 ▸ List.mem_cons_self _ _)) (by decide)
  · simp only [certPart, List.nil_append, List.cons_append] at h5
    exact absurd (hs3' _ (h5 ▸ List.mem_cons_self ',' _)) (by decide)
  · simp only [certPart, List.cons_append, List.append_assoc, List.cons.injEq, true_and] at h5
    obtain ⟨hs4, hc⟩ := hcert
    obtain ⟨hs4', hc'⟩ := hcert'
    obtain ⟨rfl, h6⟩ := append_eq_append_of_run hs4 hs4' (hc.head_not_space _)
      (hc'.head_not_space _) h5
    obtain ⟨rfl, -⟩ := append_eq_append_of_run hc.2 hc'.2 hs3.head_not_field hs3'.head_not_field h6
    rfl

/-- Every record line has a derivation. -/
theorem derives_recordLine_of {d s1 p s2 t s3 : List Char} {cert : Option (List Char × List Char)}
    (hd : IsField d) (hs1 : IsSpaces s1) (hp : IsField p) (hs2 : IsSpaces s2)
    (ht : t ∈ accountTypeSpellings) (hcert : CertOk cert) (hs3 : IsSpaces s3) :
    validLineRegex.Derives (d ++ ',' :: s1 ++ p ++ ',' :: s2 ++ t ++ certPart cert ++ s3)
      (certCaps cert ++ [(3, t), (2, p), (1, d)]) := by
  have hfield : ∀ {i u}, IsField u → (Regex.group i (.plus (.cls isField))).Derives u [(i, u)] :=
    fun hu => derives_field_iff.mpr ⟨rfl, hu⟩
  have hspaces : ∀ {w}, IsSpaces w → (Regex.star (.cls isRegexSpace)).Derives w [] :=
    fun hw => Regex.derives_star_cls_iff.mpr ⟨rfl, hw⟩
  have hcomma : (Regex.char ',').Derives [','] [] := derives_char_iff.mpr ⟨rfl, rfl⟩
  have hlit : (Regex.alt (.lit "DIRECT".data) (.alt (.lit "RESELLER".data)
      (.alt (.lit "direct".data) (.lit "reseller".data)))).Derives t [] := by
    simp only [accountTypeSpellings, List.mem_cons, List.not_mem_nil, or_false] at ht
    simpa only [Regex.derives_alt_iff, Regex.derives_lit_iff, and_true] using ht
  have hopt : (Regex.opt (.cat (.char ',') (.cat (.star (.cls isRegexSpace))
      (.group 4 (.plus (.cls isField)))))).Derives (certPart cert) (certCaps cert) := by
    rcases cert with _ | ⟨s4, c⟩
    · exact Regex.derives_opt_iff.mpr (.inr ⟨rfl, rfl⟩)
    · exact Regex.derives_opt_iff.mpr
        (.inl (.cat hcomma (.cat (hspaces hcert.1) (hfield hcert.2))))
  -- the pattern's parts in order, one derivation each
  have h := Regex.Derives.cat (hfield (i := 1) hd) (.cat hcomma (.cat (hspaces hs1)
    (.cat (hfield (i := 2) hp) (.cat hcomma (.cat (hspaces hs2)
      (.cat (.group (i := 3) hlit) (.cat hopt (hspaces hs3))))))))
  simpa [validLineRegex] using h

/-- The leftmost-first match of a record line captures its parts. -/
theorem firstMatch_recordLine {d s1 p s2 t s3 : List Char} {cert : Option (List Char × List Char)}
    (hd : IsField d) (hs1 : IsSpaces s1) (hp : IsField p) (hs2 : IsSpaces s2)
    (ht : t ∈ accountTypeSpellings) (hcert : CertOk cert) (hs3 : IsSpaces s3) :
    validLineRegex.firstMatch (d ++ ',' :: s1 ++ p ++ ',' :: s2 ++ t ++ certPart cert ++ s3) =
      some (certCaps cert ++ [(3, t), (2, p), (1, d)]) := by
  have hex := derives_recordLine_of hd hs1 hp hs2 ht hcert hs3
  obtain ⟨caps, hcaps⟩ := Option.isSome_iff_exists.mp
    ((Regex.matchString_iff validLineRegex ⟨_⟩).mpr hex.matches)
  rw [hcaps, derives_recordLine hd hs1 hp hs2 ht hcert hs3 (Regex.firstMatch_derives hcaps)]

/-- **`parseLine` keeps every record line**: its entry is the exchange domain in lower case,
the publisher id, the account type in upper case and the certification authority, once the
exchange domain is valid. -/
theorem parseLine_recordLine {d s1 p s2 t s3 : List Char} {cert : Option (List Char × List Char)}
    (hd : IsField d) (hs1 : IsSpaces s1) (hp : IsField p) (hs2 : IsSpaces s2)
    (ht : t ∈ accountTypeSpellings) (hcert : CertOk cert) (hs3 : IsSpaces s3)
    (hvalid : isValidDomain (Strings.toLower (Strings.trimSpace ⟨d⟩)) = true) :
    parseLine ⟨d ++ ',' :: s1 ++ p ++ ',' :: s2 ++ t ++ certPart cert ++ s3⟩ =
      .ok ⟨Strings.toLower (Strings.trimSpace ⟨d⟩), Strings.trimSpace ⟨p⟩,
        Strings.toUpper (Strings.trimSpace ⟨t⟩),
        match cert with
        | none => ""
        | some (_, c) => Strings.trimSpace ⟨c⟩⟩ := by
  unfold parseLine
  rw [Regex.findStringSubmatch_of_firstMatch (firstMatch_recordLine hd hs1 hp hs2 ht hcert hs3)]
  rcases cert with _ | ⟨s4, c⟩
  · simp [certCaps, Regex.capture, hvalid]
  · have hc : (⟨c⟩ : String) ≠ "" := fun h => hcert.2.1 (congrArg String.data h)
    simp [certCaps, Regex.capture, hvalid, hc]

end AdsTxtAnalyzer
