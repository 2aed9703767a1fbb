import Mathlib.Data.List.Basic

/-!
# Go's regular expressions

`internal/parser` uses two regular expressions, both anchored at both ends: the record-line
pattern of `newParser` and the domain pattern of `isValidDomain`. Go's `regexp` package
gives them **leftmost-first** semantics. Among the ways a pattern can match, it takes the one
a backtracking matcher finds first. Such a matcher tries the left branch of an alternation
first, and for the greedy operators `*`, `+`, `?` and `{0,n}` it tries more repetitions before
fewer. `FindStringSubmatch` reports the text each capturing group matched in that match, and
`MatchString` whether there is one.

`Regex` is the syntax tree Go's parser builds for such a pattern. `+`, `?` and `{0,n}` are
written the way `regexp/syntax` simplifies them (`plus`, `opt`, `upTo`). `Regex.parses`
lists the ways a pattern matches a prefix of a text, in Go's order, with the captures of each.
It is structural in a fuel, the number of `*` iterations left, and in the pattern, so it runs
by `decide`. A match of `^r$` is the first parse that consumes the whole text
(`Regex.firstMatch`).

`Regex.Matches` is the language of a pattern. **`matchString_iff`** says the engine decides
it: `MatchString` answers `true` exactly on the texts of the language. It rests on
`parses_sound` (every parse consumes a text of the language) and `parses_complete` (every text
of the language is consumed by some parse, given a fuel above the text's length). An iteration
of `*` that matches the empty text is never tried. The starred expressions of the program
never match it, and leaving such iterations out does not change the language.

Soundness is stated with the captures: a parse derives the text it consumes (`Derives`), with
the captures it records. So the captures of a match are those of a derivation of the whole text
(`firstMatch_derives`). Each is a text that the pattern of its group matches
(`Derives.captures`), and each group outside every `*` and on both sides of every alternation
is captured (`Derives.mandatory`).
-/

namespace AdsTxtAnalyzer

/-- A regular expression over characters, as `regexp/syntax` represents the program's
patterns: the empty pattern, a character class, concatenation, alternation, greedy `*`, and a
capturing group with its number. -/
inductive Regex
  | empty
  | cls (p : Char → Bool)
  | cat (r s : Regex)
  | alt (r s : Regex)
  | star (r : Regex)
  | group (i : Nat) (r : Regex)

namespace Regex

/-- `r?`, greedy: `r` first, then nothing. -/
def opt (r : Regex) : Regex := alt r empty

/-- `r+`, which `regexp/syntax` treats as `rr*`. -/
def plus (r : Regex) : Regex := cat r (star r)

/-- `r{0,n}`, which `regexp/syntax` expands to the nested `(r(r(…)?)?)?`. -/
def upTo : Nat → Regex → Regex
  | 0, _ => empty
  | n + 1, r => opt (cat r (upTo n r))

/-- One literal character. -/
def char (c : Char) : Regex := cls (· == c)

/-- A literal text. -/
def lit : List Char → Regex
  | [] => empty
  | c :: cs => cat (char c) (lit cs)

/-! ### The engine -/

/-- One way a pattern matches a prefix of a text: the captures made, the latest first, and
the rest of the text. -/
structure Parse where
  caps : List (Nat × List Char)
  rest : List Char

/-- The parses of `r` on `s` in Go's order, where `more` gives the parses of a `*` on the
shorter text left after one iteration. -/
def parsesWith (more : Regex → List Char → List Parse) : Regex → List Char → List Parse
  | empty, s => [⟨[], s⟩]
  | cls _, [] => []
  | cls p, c :: s => if p c then [⟨[], s⟩] else []
  | cat a b, s => (parsesWith more a s).flatMap fun x =>
      (parsesWith more b x.rest).map fun y => ⟨y.caps ++ x.caps, y.rest⟩
  | alt a b, s => parsesWith more a s ++ parsesWith more b s
  | star a, s =>
      ((parsesWith more a s).filter fun x => x.rest.length < s.length).flatMap (fun x =>
        (more (star a) x.rest).map fun y => ⟨y.caps ++ x.caps, y.rest⟩) ++ [⟨[], s⟩]
  | group i a, s => (parsesWith more a s).map fun x =>
      ⟨(i, s.take (s.length - x.rest.length)) :: x.caps, x.rest⟩

/-- The parses of `r` on `s` in Go's order, with `n` levels of `*` iterations. -/
def parses : Nat → Regex → List Char → List Parse
  | 0 => parsesWith fun _ _ => []
  | n + 1 => parsesWith (parses n)

/-- The captures of the match of `^r$` on `s`: the first parse that consumes the whole text. -/
def firstMatch (r : Regex) (s : List Char) : Option (List (Nat × List Char)) :=
  ((r.parses (s.length + 1) s).find? fun x => x.rest.isEmpty).map Parse.caps

/-- `MatchString(s)` for the pattern `^r$`. -/
def matchString (r : Regex) (s : String) : Bool := (r.firstMatch s.data).isSome

/-- The text group `i` captured, `""` if it took no part in the match. -/
def capture (caps : List (Nat × List Char)) (i : Nat) : String :=
  ⟨((caps.find? fun x => x.1 == i).map Prod.snd).getD []⟩

/-- `FindStringSubmatch(s)` for the pattern `^r$` with `n` groups: the whole text and the text
of each group, or the empty list (Go's `nil`) when it does not match. -/
def findStringSubmatch (r : Regex) (n : Nat) (s : String) : List String :=
  match r.firstMatch s.data with
  | none => []
  | some caps => s :: (List.range n).map fun i => capture caps (i + 1)

/-! ### The language -/

/-- The texts a pattern matches. The iterations of a `*` are non-empty texts, which loses
nothing: an empty iteration adds no text. -/
def Matches : Regex → List Char → Prop
  | empty, s => s = []
  | cls p, s => ∃ c, s = [c] ∧ p c = true
  | cat a b, s => ∃ u v, s = u ++ v ∧ a.Matches u ∧ b.Matches v
  | alt a b, s => a.Matches s ∨ b.Matches s
  | star a, s => ∃ ws : List (List Char), s = ws.flatten ∧ ∀ w ∈ ws, w ≠ [] ∧ a.Matches w
  | group _ a, s => a.Matches s

/-- A match of a text by a pattern, with the captures it records, the latest first, as the
engine records them. -/
inductive Derives : Regex → List Char → List (Nat × List Char) → Prop
  | empty : Derives .empty [] []
  | cls {p : Char → Bool} {c : Char} (h : p c = true) : Derives (.cls p) [c] []
  | cat {a b : Regex} {u v : List Char} {ca cb : List (Nat × List Char)} :
      Derives a u ca → Derives b v cb → Derives (.cat a b) (u ++ v) (cb ++ ca)
  | altLeft {a b : Regex} {s : List Char} {cs : List (Nat × List Char)} :
      Derives a s cs → Derives (.alt a b) s cs
  | altRight {a b : Regex} {s : List Char} {cs : List (Nat × List Char)} :
      Derives b s cs → Derives (.alt a b) s cs
  | starNil {a : Regex} : Derives (.star a) [] []
  | starCons {a : Regex} {u v : List Char} {ca cb : List (Nat × List Char)} :
      u ≠ [] → Derives a u ca → Derives (.star a) v cb → Derives (.star a) (u ++ v) (cb ++ ca)
  | group {i : Nat} {a : Regex} {s : List Char} {cs : List (Nat × List Char)} :
      Derives a s cs → Derives (.group i a) s ((i, s) :: cs)

/-- One more iteration of a `*` in front of iterations already matched. -/
theorem matches_star_cons {a : Regex} {u v : List Char} (hu : u ≠ []) (ha : a.Matches u)
    (hv : (star a).Matches v) : (star a).Matches (u ++ v) := by
  obtain ⟨ws, rfl, hws⟩ := hv
  exact ⟨u :: ws, rfl, by simpa using ⟨⟨hu, ha⟩, hws⟩⟩

/-- A derivation matches its text. -/
theorem Derives.matches {r : Regex} {u : List Char} {cs : List (Nat × List Char)}
    (h : Derives r u cs) : r.Matches u := by
  induction h with
  | empty => rfl
  | @cls _ c hc => exact ⟨c, rfl, hc⟩
  | @cat _ _ u v _ _ _ _ iha ihb => exact ⟨u, v, rfl, iha, ihb⟩
  | altLeft _ ih => exact .inl ih
  | altRight _ ih => exact .inr ih
  | starNil => exact ⟨[], rfl, by simp⟩
  | starCons hne _ _ iha ihs => exact matches_star_cons hne iha ihs
  | group _ ih => exact ih

section Engine

variable {more : Regex → List Char → List Parse}

/-- `more` only gives parses of a `*` that derive the text they consume. -/
def SoundFor (more : Regex → List Char → List Parse) : Prop :=
  ∀ a s, ∀ x ∈ more (star a) s, ∃ u, s = u ++ x.rest ∧ Derives (star a) u x.caps

/-- `more` finds every text of a `*`'s language in an input shorter than `n`. -/
def CompleteFor (more : Regex → List Char → List Parse) (n : Nat) : Prop :=
  ∀ a u t, (u ++ t).length < n → (star a).Matches u → ∃ x ∈ more (star a) (u ++ t), x.rest = t

theorem parsesWith_sound (hm : SoundFor more) (r : Regex) (s : List Char) :
    ∀ x ∈ parsesWith more r s, ∃ u, s = u ++ x.rest ∧ Derives r u x.caps := by
  induction r generalizing s with
  | empty => simpa [parsesWith] using Derives.empty
  | cls p =>
    cases s with
    | nil => simp [parsesWith]
    | cons c s =>
      intro x hx
      simp only [parsesWith] at hx
      split at hx
      · next hp => simp only [List.mem_singleton] at hx; subst hx; exact ⟨[c], rfl, .cls hp⟩
      · cases hx
  | cat a b iha ihb =>
    intro x hx
    simp only [parsesWith, List.mem_flatMap, List.mem_map] at hx
    obtain ⟨y, hy, z, hz, rfl⟩ := hx
    obtain ⟨u, rfl, hu⟩ := iha s y hy
    obtain ⟨v, hv, hb⟩ := ihb y.rest z hz
    exact ⟨u ++ v, by simp [hv], .cat hu hb⟩
  | alt a b iha ihb =>
    intro x hx
    rcases List.mem_append.mp hx with hx | hx
    · obtain ⟨u, hs, hu⟩ := iha s x hx; exact ⟨u, hs, .altLeft hu⟩
    · obtain ⟨u, hs, hu⟩ := ihb s x hx; exact ⟨u, hs, .altRight hu⟩
  | star a iha =>
    intro x hx
    simp only [parsesWith, List.mem_append, List.mem_flatMap, List.mem_filter, List.mem_map,
      List.mem_singleton, decide_eq_true_eq] at hx
    rcases hx with ⟨y, ⟨hy, hlt⟩, z, hz, rfl⟩ | rfl
    · obtain ⟨u, rfl, hu⟩ := iha s y hy
      obtain ⟨v, hv, hstar⟩ := hm a y.rest z hz
      have hne : u ≠ [] := by rintro rfl; simp at hlt
      exact ⟨u ++ v, by simp [hv], .starCons hne hu hstar⟩
    · exact ⟨[], rfl, .starNil⟩
  | group i a iha =>
    intro x hx
    simp only [parsesWith, List.mem_map] at hx
    obtain ⟨y, hy, rfl⟩ := hx
    obtain ⟨u, rfl, hu⟩ := iha s y hy
    have hcap : (u ++ y.rest).take ((u ++ y.rest).length - y.rest.length) = u := by simp
    refine ⟨u, rfl, ?_⟩
    dsimp only
    rw [hcap]
    exact .group hu

/-- **Soundness.** Every parse derives the text it consumes, with the captures it records. -/
theorem parses_sound (n : Nat) (r : Regex) (s : List Char) :
    ∀ x ∈ parses n r s, ∃ u, s = u ++ x.rest ∧ Derives r u x.caps := by
  induction n generalizing r s with
  | zero => exact parsesWith_sound (fun _ _ _ h => (List.not_mem_nil _ h).elim) r s
  | succ n ih => exact parsesWith_sound (fun a => ih (star a)) r s

theorem parsesWith_complete {n : Nat} (hm : CompleteFor more n) (r : Regex) :
    ∀ u t, (u ++ t).length ≤ n → r.Matches u → ∃ x ∈ parsesWith more r (u ++ t), x.rest = t := by
  induction r with
  | empty => rintro u t - rfl; simp [parsesWith]
  | cls p => rintro u t - ⟨c, rfl, hp⟩; simp [parsesWith, hp]
  | cat a b iha ihb =>
    rintro _ t hn ⟨u, v, rfl, hu, hv⟩
    obtain ⟨y, hy, hyr⟩ := iha u (v ++ t) (by simpa using hn) hu
    obtain ⟨z, hz, rfl⟩ := ihb v t (by simp at hn ⊢; omega) hv
    refine ⟨⟨z.caps ++ y.caps, z.rest⟩, ?_, rfl⟩
    simp only [parsesWith, List.append_assoc, List.mem_flatMap, List.mem_map]
    exact ⟨y, hy, z, hyr ▸ hz, rfl⟩
  | alt a b iha ihb =>
    rintro u t hn (hu | hu)
    · obtain ⟨x, hx, rfl⟩ := iha u t hn hu
      exact ⟨x, List.mem_append_left _ hx, rfl⟩
    · obtain ⟨x, hx, rfl⟩ := ihb u t hn hu
      exact ⟨x, List.mem_append_right _ hx, rfl⟩
  | star a iha =>
    rintro _ t hn ⟨_ | ⟨w, ws⟩, rfl, hws⟩
    · exact ⟨⟨[], t⟩, by simp [parsesWith], rfl⟩
    · simp only [List.mem_cons, forall_eq_or_imp] at hws
      obtain ⟨⟨hne, hw⟩, hws⟩ := hws
      have hwlen : 0 < w.length := List.length_pos.mpr hne
      simp only [List.flatten_cons, List.append_assoc, List.length_append] at hn ⊢
      obtain ⟨y, hy, hyr⟩ := iha w (ws.flatten ++ t) (by simpa using hn) hw
      obtain ⟨z, hz, rfl⟩ := hm a ws.flatten t (by rw [List.length_append]; omega) ⟨ws, rfl, hws⟩
      refine ⟨⟨z.caps ++ y.caps, z.rest⟩, ?_, rfl⟩
      simp only [parsesWith, List.mem_append, List.mem_flatMap, List.mem_filter, List.mem_map,
        decide_eq_true_eq]
      exact .inl ⟨y, ⟨hy, by simp [hyr]; omega⟩, z, hyr ▸ hz, rfl⟩
  | group i a iha =>
    intro u t hn hu
    obtain ⟨x, hx, rfl⟩ := iha u t hn hu
    exact ⟨_, List.mem_map_of_mem _ hx, rfl⟩

/-- **Completeness.** Given a fuel above the input's length, every text of the pattern's
language at the front of the input is consumed by some parse. -/
theorem parses_complete (n : Nat) (r : Regex) {u t : List Char} (hn : (u ++ t).length < n)
    (hu : r.Matches u) : ∃ x ∈ parses n r (u ++ t), x.rest = t := by
  induction n generalizing r u t with
  | zero => omega
  | succ n ih =>
    exact parsesWith_complete (fun a _ _ h hs => ih (star a) h hs) r u t (by omega) hu

end Engine

/-- **The captures of a match are those of a derivation of the whole text.** -/
theorem firstMatch_derives {r : Regex} {s : List Char} {caps : List (Nat × List Char)}
    (h : r.firstMatch s = some caps) : Derives r s caps := by
  obtain ⟨x, hx, rfl⟩ := Option.map_eq_some'.mp h
  obtain ⟨u, hs, hu⟩ := parses_sound _ r s x (List.mem_of_find?_eq_some hx)
  have hrest : x.rest.isEmpty = true := List.find?_some (p := fun x : Parse => x.rest.isEmpty) hx
  rw [List.isEmpty_iff.mp hrest, List.append_nil] at hs
  exact hs ▸ hu

/-- **`MatchString` decides the language.** -/
theorem matchString_iff (r : Regex) (s : String) : r.matchString s = true ↔ r.Matches s.data := by
  constructor
  · intro h
    obtain ⟨caps, hcaps⟩ := Option.isSome_iff_exists.mp h
    exact (firstMatch_derives hcaps).matches
  · intro h
    rw [matchString, firstMatch, Option.isSome_map', List.find?_isSome]
    obtain ⟨x, hx, hrest⟩ := parses_complete (s.data.length + 1) r
      (by rw [List.append_nil]; omega : (s.data ++ []).length < s.data.length + 1) h
    rw [List.append_nil] at hx
    exact ⟨x, hx, by simp [hrest]⟩

/-! ### Captures -/

/-- `r` has a group `i` whose pattern matches `v`: what group `i` can capture. -/
def Captures : Regex → Nat → List Char → Prop
  | empty, _, _ => False
  | cls _, _, _ => False
  | cat a b, i, v => a.Captures i v ∨ b.Captures i v
  | alt a b, i, v => a.Captures i v ∨ b.Captures i v
  | star a, i, v => a.Captures i v
  | group j a, i, v => (j = i ∧ a.Matches v) ∨ a.Captures i v

/-- Whether every match of `r` passes through group `i`: a group outside every `*` and on both
sides of every alternation around it. -/
def mandatory : Regex → Nat → Bool
  | empty, _ => false
  | cls _, _ => false
  | cat a b, i => a.mandatory i || b.mandatory i
  | alt a b, i => a.mandatory i && b.mandatory i
  | star _, _ => false
  | group j a, i => j == i || a.mandatory i

/-- Every capture of a derivation is a text its group's pattern matches. -/
theorem Derives.captures {r : Regex} {u : List Char} {cs : List (Nat × List Char)}
    (h : Derives r u cs) : ∀ c ∈ cs, r.Captures c.1 c.2 := by
  induction h with
  | empty | cls _ | starNil => simp
  | cat _ _ iha ihb =>
    intro c hc
    rcases List.mem_append.mp hc with hc | hc
    · exact .inr (ihb c hc)
    · exact .inl (iha c hc)
  | altLeft _ ih => exact fun c hc => .inl (ih c hc)
  | altRight _ ih => exact fun c hc => .inr (ih c hc)
  | starCons _ _ _ iha ihs =>
    intro c hc
    rcases List.mem_append.mp hc with hc | hc
    · exact ihs c hc
    · exact iha c hc
  | group ha ih =>
    intro c hc
    rcases List.mem_cons.mp hc with rfl | hc
    · exact .inl ⟨rfl, ha.matches⟩
    · exact .inr (ih c hc)

/-- Every derivation records a capture of each mandatory group. -/
theorem Derives.mandatory {r : Regex} {u : List Char} {cs : List (Nat × List Char)}
    (h : Derives r u cs) {i : Nat} (hi : r.mandatory i = true) : ∃ v, (i, v) ∈ cs := by
  induction h with
  | empty | cls _ | starNil | starCons _ _ _ _ _ => cases hi
  | cat _ _ iha ihb =>
    rcases Bool.or_eq_true_iff.mp hi with hi | hi
    · obtain ⟨v, hv⟩ := iha hi
      exact ⟨v, List.mem_append_right _ hv⟩
    · obtain ⟨v, hv⟩ := ihb hi
      exact ⟨v, List.mem_append_left _ hv⟩
  | altLeft _ ih => exact ih (Bool.and_eq_true_iff.mp hi).1
  | altRight _ ih => exact ih (Bool.and_eq_true_iff.mp hi).2
  | group _ ih =>
    rcases Bool.or_eq_true_iff.mp hi with hj | hi
    · obtain rfl := beq_iff_eq.mp hj
      exact ⟨_, List.mem_cons_self _ _⟩
    · obtain ⟨v, hv⟩ := ih hi
      exact ⟨v, List.mem_cons_of_mem _ hv⟩

/-- A group that captured something reports its first capture. -/
theorem mem_capture {caps : List (Nat × List Char)} {i : Nat} (h : ∃ v, (i, v) ∈ caps) :
    (i, (capture caps i).data) ∈ caps := by
  obtain ⟨v, hv⟩ := h
  obtain ⟨c, hc⟩ := Option.isSome_iff_exists.mp
    ((List.find?_isSome (p := fun x : Nat × List Char => x.1 == i)).mpr ⟨(i, v), hv, by simp⟩)
  have hci : c.1 = i := by simpa using List.find?_some hc
  rw [capture, hc]
  simpa [← hci] using List.mem_of_find?_eq_some hc

/-- `FindStringSubmatch` of a text that matches: the text, then the capture of each group. -/
theorem findStringSubmatch_of_firstMatch {r : Regex} {n : Nat} {s : String}
    {caps : List (Nat × List Char)} (h : r.firstMatch s.data = some caps) :
    r.findStringSubmatch n s = s :: (List.range n).map fun i => capture caps (i + 1) := by
  rw [findStringSubmatch, h]

theorem findStringSubmatch_of_ne_nil {r : Regex} {n : Nat} {s : String}
    (h : r.findStringSubmatch n s ≠ []) : ∃ caps, r.firstMatch s.data = some caps := by
  unfold findStringSubmatch at h
  split at h
  · exact absurd rfl h
  · exact ⟨_, ‹_›⟩

/-! ### The derived operators -/

@[simp] theorem matches_empty {s : List Char} : empty.Matches s ↔ s = [] := Iff.rfl

@[simp] theorem matches_cls {p : Char → Bool} {s : List Char} :
    (cls p).Matches s ↔ ∃ c, s = [c] ∧ p c = true := Iff.rfl

@[simp] theorem matches_cat {a b : Regex} {s : List Char} :
    (cat a b).Matches s ↔ ∃ u v, s = u ++ v ∧ a.Matches u ∧ b.Matches v := Iff.rfl

@[simp] theorem matches_alt {a b : Regex} {s : List Char} :
    (alt a b).Matches s ↔ a.Matches s ∨ b.Matches s := Iff.rfl

@[simp] theorem matches_star {a : Regex} {s : List Char} :
    (star a).Matches s ↔ ∃ ws : List (List Char), s = ws.flatten ∧ ∀ w ∈ ws, w ≠ [] ∧ a.Matches w :=
  Iff.rfl

@[simp] theorem matches_group {i : Nat} {a : Regex} {s : List Char} :
    (group i a).Matches s ↔ a.Matches s := Iff.rfl

theorem matches_opt {a : Regex} {s : List Char} : a.opt.Matches s ↔ a.Matches s ∨ s = [] :=
  Iff.rfl

/-! ### Derivations, form by form -/

theorem derives_cat_iff {a b : Regex} {s : List Char} {cs : List (Nat × List Char)} :
    Derives (cat a b) s cs ↔
      ∃ u v ca cb, s = u ++ v ∧ cs = cb ++ ca ∧ Derives a u ca ∧ Derives b v cb := by
  constructor
  · rintro ⟨⟩
    exact ⟨_, _, _, _, rfl, rfl, ‹_›, ‹_›⟩
  · rintro ⟨u, v, ca, cb, rfl, rfl, ha, hb⟩
    exact .cat ha hb

theorem derives_alt_iff {a b : Regex} {s : List Char} {cs : List (Nat × List Char)} :
    Derives (alt a b) s cs ↔ Derives a s cs ∨ Derives b s cs := by
  constructor
  · intro h
    cases h with
    | altLeft h => exact .inl h
    | altRight h => exact .inr h
  · rintro (h | h)
    · exact .altLeft h
    · exact .altRight h

theorem derives_group_iff {i : Nat} {a : Regex} {s : List Char} {cs : List (Nat × List Char)} :
    Derives (group i a) s cs ↔ ∃ cs', cs = (i, s) :: cs' ∧ Derives a s cs' := by
  constructor
  · rintro ⟨⟩
    exact ⟨_, rfl, ‹_›⟩
  · rintro ⟨cs', rfl, h⟩
    exact .group h

theorem derives_cls_iff {p : Char → Bool} {s : List Char} {cs : List (Nat × List Char)} :
    Derives (cls p) s cs ↔ (∃ c, s = [c] ∧ p c = true) ∧ cs = [] := by
  constructor
  · rintro ⟨⟩
    exact ⟨⟨_, rfl, ‹_›⟩, rfl⟩
  · rintro ⟨⟨c, rfl, hc⟩, rfl⟩
    exact .cls hc

theorem derives_opt_iff {a : Regex} {s : List Char} {cs : List (Nat × List Char)} :
    Derives a.opt s cs ↔ Derives a s cs ∨ (s = [] ∧ cs = []) := by
  rw [opt, derives_alt_iff]
  constructor
  · rintro (h | h)
    · exact .inl h
    · cases h
      exact .inr ⟨rfl, rfl⟩
  · rintro (h | ⟨rfl, rfl⟩)
    · exact .inl h
    · exact .inr .empty

/-- A `*` of a class derives the texts of the class's characters, with no capture. -/
theorem derives_star_cls_iff {p : Char → Bool} {s : List Char} {cs : List (Nat × List Char)} :
    Derives (star (cls p)) s cs ↔ cs = [] ∧ ∀ c ∈ s, p c = true := by
  constructor
  · intro h
    generalize hr : star (cls p) = r at h
    induction h with
    | starNil => simp
    | starCons _ h1 _ _ ih =>
      cases hr
      obtain ⟨⟨c, rfl, hc⟩, rfl⟩ := derives_cls_iff.mp h1
      obtain ⟨rfl, hv⟩ := ih rfl
      exact ⟨rfl, by simpa [hc] using hv⟩
    | _ => cases hr
  · rintro ⟨rfl, hs⟩
    induction s with
    | nil => exact .starNil
    | cons c s ih =>
      simp only [List.mem_cons, forall_eq_or_imp] at hs
      exact .starCons (u := [c]) (List.cons_ne_nil _ _) (.cls hs.1) (ih hs.2)

/-- `c+` for a class `c`: a non-empty text of the class's characters, with no capture. -/
theorem derives_plus_cls_iff {p : Char → Bool} {s : List Char} {cs : List (Nat × List Char)} :
    Derives (plus (cls p)) s cs ↔ cs = [] ∧ s ≠ [] ∧ ∀ c ∈ s, p c = true := by
  rw [plus, derives_cat_iff]
  constructor
  · rintro ⟨_, v, _, _, rfl, rfl, h1, h2⟩
    obtain ⟨⟨c, rfl, hc⟩, rfl⟩ := derives_cls_iff.mp h1
    obtain ⟨rfl, hv⟩ := derives_star_cls_iff.mp h2
    exact ⟨rfl, List.cons_ne_nil _ _, by simpa [hc] using hv⟩
  · rintro ⟨rfl, hne, hs⟩
    obtain ⟨c, s, rfl⟩ := List.exists_cons_of_ne_nil hne
    simp only [List.mem_cons, forall_eq_or_imp] at hs
    exact ⟨[c], s, [], [], rfl, rfl, .cls hs.1, derives_star_cls_iff.mpr ⟨rfl, hs.2⟩⟩

/-- A literal derives itself only, with no capture. -/
theorem derives_lit_iff {w s : List Char} {cs : List (Nat × List Char)} :
    Derives (lit w) s cs ↔ s = w ∧ cs = [] := by
  induction w generalizing s cs with
  | nil =>
    constructor
    · rintro ⟨⟩
      exact ⟨rfl, rfl⟩
    · rintro ⟨rfl, rfl⟩
      exact .empty
  | cons c w ih =>
    rw [lit, derives_cat_iff]
    constructor
    · rintro ⟨_, v, _, _, rfl, rfl, h1, h2⟩
      obtain ⟨⟨x, rfl, hx⟩, rfl⟩ := derives_cls_iff.mp h1
      obtain ⟨rfl, rfl⟩ := ih.mp h2
      exact ⟨by simpa using hx, rfl⟩
    · rintro ⟨rfl, rfl⟩
      exact ⟨[c], w, [], [], rfl, rfl, .cls (by simp), ih.mpr ⟨rfl, rfl⟩⟩

/-- A literal matches itself only. -/
theorem matches_lit {w v : List Char} : (lit w).Matches v ↔ v = w := by
  induction w generalizing v with
  | nil => rfl
  | cons c w ih =>
    simp only [lit, char, matches_cat, matches_cls, ih, beq_iff_eq]
    constructor
    · rintro ⟨_, _, rfl, ⟨_, rfl, rfl⟩, rfl⟩
      rfl
    · rintro rfl
      exact ⟨[c], w, rfl, ⟨c, rfl, rfl⟩, rfl⟩

/-- A literal has no group. -/
theorem not_captures_lit {w v : List Char} {i : Nat} : ¬ (lit w).Captures i v := by
  induction w with
  | nil => exact id
  | cons c w ih => exact fun h => h.elim id ih

/-- `c{0,n}` for a class `c`: at most `n` characters of the class. -/
theorem matches_upTo_cls {p : Char → Bool} (n : Nat) {s : List Char} :
    (upTo n (cls p)).Matches s ↔ s.length ≤ n ∧ ∀ c ∈ s, p c = true := by
  induction n generalizing s with
  | zero =>
    simp only [upTo, matches_empty, Nat.le_zero, List.length_eq_zero]
    exact ⟨fun h => ⟨h, by simp [h]⟩, And.left⟩
  | succ n ih =>
    rw [upTo, matches_opt]
    constructor
    · rintro (⟨_, v, rfl, ⟨c, rfl, hc⟩, hv⟩ | rfl)
      · obtain ⟨hlen, hall⟩ := ih.mp hv
        exact ⟨by simp; omega, by simpa [hc] using hall⟩
      · simp
    · rintro ⟨hlen, hall⟩
      cases s with
      | nil => exact .inr rfl
      | cons c s =>
        simp only [List.mem_cons, forall_eq_or_imp, List.length_cons] at hall hlen
        exact .inl ⟨[c], s, rfl, ⟨c, rfl, hall.1⟩, ih.mpr ⟨by omega, hall.2⟩⟩

end Regex

end AdsTxtAnalyzer
