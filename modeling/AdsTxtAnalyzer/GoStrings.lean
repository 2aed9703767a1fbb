import Mathlib.Data.List.Basic
import Mathlib.Data.List.Infix

/-!
# Go's string functions

The functions of Go's `strings` and `unicode` packages that the parser, the fetcher and the
HTTP handler call, on Lean strings. A Go `string` is a sequence of bytes and a Lean `String` a
sequence of Unicode characters; every text the model reads is valid UTF-8, where the two agree
on everything these functions do but two things:

* `len` counts bytes. The parser compares lengths only of text it then requires to be ASCII,
  where bytes and characters are the same (see `isValidDomain`).
* `strings.ToLower` and `strings.ToUpper` map every Unicode letter; the model maps the ASCII
  ones (`Char.toLower`, `Char.toUpper`) and leaves the others as they are. Every claim about
  case is about ASCII text.

`strings.Split` and `strings.Cut` are called with a one-character separator only, and are
modelled for that case.
-/

namespace AdsTxtAnalyzer

/-- A Go call returning a value or an error is an `Except`; its outcomes can be compared. -/
instance instDecidableEqExcept {ε α : Type} [DecidableEq ε] [DecidableEq α] :
    DecidableEq (Except ε α)
  | .error a, .error b => decidable_of_iff (a = b) ⟨congrArg _, Except.error.inj⟩
  | .ok a, .ok b => decidable_of_iff (a = b) ⟨congrArg _, Except.ok.inj⟩
  | .error _, .ok _ => isFalse Except.noConfusion
  | .ok _, .error _ => isFalse Except.noConfusion

/-- An ASCII letter or digit: the class `[a-zA-Z0-9]`, and the first test of `net/url`'s
`shouldEscape`. -/
def isAlnum (c : Char) : Bool := ('a' ≤ c && c ≤ 'z') || ('A' ≤ c && c ≤ 'Z') || ('0' ≤ c && c ≤ '9')

/-- `unicode.IsSpace`: the Latin-1 spaces `\t \n \v \f \r`, space, U+0085 and U+00A0, and
the other characters of Unicode's `White_Space` property. -/
def Unicode.isSpace (c : Char) : Bool :=
  let n := c.toNat
  (9 ≤ n && n ≤ 13) || n == 32 || n == 0x85 || n == 0xA0 || n == 0x1680 ||
    (0x2000 ≤ n && n ≤ 0x200A) || n == 0x2028 || n == 0x2029 || n == 0x202F ||
    n == 0x205F || n == 0x3000

namespace Strings

/-- `strings.TrimSpace`: the text without its leading and trailing white space. -/
def trimSpace (s : String) : String :=
  ⟨((s.data.dropWhile Unicode.isSpace).reverse.dropWhile Unicode.isSpace).reverse⟩

/-- `strings.HasPrefix`. -/
def hasPrefix (s pre : String) : Bool := pre.data.isPrefixOf s.data

/-- `strings.TrimPrefix`: the text without the prefix, if it starts with it. -/
def trimPrefix (s pre : String) : String :=
  if hasPrefix s pre then ⟨s.data.drop pre.length⟩ else s

/-- `strings.TrimSuffix`: the text without the suffix, if it ends with it. -/
def trimSuffix (s suf : String) : String :=
  if suf.data.isSuffixOf s.data then ⟨s.data.take (s.length - suf.length)⟩ else s

/-- `strings.Contains`. -/
def contains (s sub : String) : Bool := decide (sub.data <:+: s.data)

/-- `strings.Split(s, sep)` for a one-character separator: the pieces between its
occurrences, empty ones included. -/
def split (s : String) (sep : Char) : List String := (s.data.splitOn sep).map String.mk

/-- `strings.ToLower` on ASCII letters. -/
def toLower (s : String) : String := ⟨s.data.map Char.toLower⟩

/-- `strings.ToUpper` on ASCII letters. -/
def toUpper (s : String) : String := ⟨s.data.map Char.toUpper⟩

section Lemmas

variable {s t : String}

theorem contains_iff : contains s t = true ↔ t.data <:+: s.data := decide_eq_true_iff

/-- A text contains every text it ends with. -/
theorem contains_of_suffix (h : t.data <:+ s.data) : contains s t = true :=
  contains_iff.mpr h.isInfix

/-- `Contains` looks into every part of a concatenation. -/
theorem contains_append_left {u : String} (h : contains s t = true) :
    contains (u ++ s) t = true := by
  rw [contains_iff, String.data_append] at *
  exact h.trans (List.suffix_append _ _).isInfix

theorem contains_append_right {u : String} (h : contains s t = true) :
    contains (s ++ u) t = true := by
  rw [contains_iff, String.data_append] at *
  exact h.trans (List.prefix_append _ _).isInfix

theorem trimPrefix_of_hasPrefix {pre : String} (h : hasPrefix s pre = true) :
    trimPrefix s pre = ⟨s.data.drop pre.length⟩ := if_pos h

theorem trimPrefix_of_not_hasPrefix {pre : String} (h : hasPrefix s pre = false) :
    trimPrefix s pre = s := if_neg (by simp [h])

/-- Where a text can be found in a concatenation: in one part, or across the joint. -/
theorem infix_append_iff {α : Type} {w a b : List α} :
    w <:+: a ++ b ↔ w <:+: a ∨ w <:+: b ∨
      ∃ i, 0 < i ∧ i < w.length ∧ w.take i <:+ a ∧ w.drop i <+: b := by
  constructor
  · rintro ⟨s, t, h⟩
    rw [List.append_assoc, List.append_eq_append_iff] at h
    rcases h with ⟨a', rfl, h⟩ | ⟨c', -, rfl⟩
    · rcases List.append_eq_append_iff.mp h with ⟨x, rfl, -⟩ | ⟨y, rfl, rfl⟩
      · exact .inl ⟨s, x, by simp⟩
      · rcases a' with _ | ⟨p, a'⟩
        · exact .inr (.inl ⟨[], t, by simp⟩)
        rcases y with _ | ⟨q, y⟩
        · exact .inl ⟨s, [], by simp⟩
        exact .inr (.inr ⟨(p :: a').length, by simp, by simp, ⟨s, by simp⟩, ⟨t, by simp⟩⟩)
    · exact .inr (.inl ⟨c', t, by simp⟩)
  · rintro (h | h | ⟨i, -, -, ⟨s, hs⟩, ⟨t, ht⟩⟩)
    · exact h.trans (List.prefix_append _ _).isInfix
    · exact h.trans (List.suffix_append _ _).isInfix
    · refine ⟨s, t, ?_⟩
      rw [← hs, ← ht]
      simp only [List.append_assoc]
      rw [← List.append_assoc (List.take i w), List.take_append_drop]

/-- A text does not start with a prefix that holds a character the text lacks. -/
theorem hasPrefix_eq_false_of_not_mem {pre : String} {c : Char} (hc : c ∈ pre.data)
    (hs : c ∉ s.data) : hasPrefix s pre = false := by
  rw [hasPrefix, Bool.eq_false_iff, ne_eq, List.isPrefixOf_iff_prefix]
  exact fun h => hs (h.subset hc)

/-- Of two texts that each run up to a first separator `c`, one starts with the other only if
the parts before the separator agree. -/
theorem eq_of_prefix_of_sep {a b x y : List Char} {c : Char} (ha : c ∉ a) (hb : c ∉ b)
    (h : a ++ c :: x <+: b ++ c :: y) : a = b := by
  induction a generalizing b with
  | nil =>
    cases b with
    | nil => rfl
    | cons d b => simp_all
  | cons e a ih =>
    cases b with
    | nil => simp_all
    | cons d b =>
      simp only [List.mem_cons, not_or, List.cons_append, List.cons_prefix_cons] at ha hb h
      rw [h.1, ih ha.2 hb.2 h.2]

/-- A text whose first separator `c` comes after `b` does not start with a prefix whose first
separator comes after another part `a`. -/
theorem hasPrefix_eq_false_of_sep {a b x y : List Char} {c : Char} (ha : c ∉ a) (hb : c ∉ b)
    (hne : a ≠ b) : hasPrefix ⟨b ++ c :: y⟩ ⟨a ++ c :: x⟩ = false := by
  rw [hasPrefix, Bool.eq_false_iff, ne_eq, List.isPrefixOf_iff_prefix]
  exact fun h => hne (eq_of_prefix_of_sep ha hb h)

/-- Trimming a prefix the text starts with gives back the rest. -/
@[simp] theorem trimPrefix_append (pre s : String) : trimPrefix (pre ++ s) pre = s := by
  have h : hasPrefix (pre ++ s) pre = true := by
    simp [hasPrefix, List.isPrefixOf_iff_prefix, String.data_append]
  rw [trimPrefix_of_hasPrefix h, String.data_append, String.length, List.drop_left]

/-- Trimming a suffix the text ends with gives back the rest. -/
@[simp] theorem trimSuffix_append (s suf : String) : trimSuffix (s ++ suf) suf = s := by
  have h : suf.data.isSuffixOf (s ++ suf).data = true := by
    rw [List.isSuffixOf_iff_suffix, String.data_append]
    exact List.suffix_append _ _
  rw [trimSuffix, if_pos h]
  apply String.ext
  show List.take ((s.data ++ suf.data).length - suf.data.length) (s.data ++ suf.data) = s.data
  simp

/-- A text that does not end with the suffix is its own trim. -/
theorem trimSuffix_of_not_suffix {suf : String} (h : ¬ suf.data <:+ s.data) :
    trimSuffix s suf = s := by
  simp [trimSuffix, List.isSuffixOf_iff_suffix, h]

end Lemmas

end Strings

end AdsTxtAnalyzer
