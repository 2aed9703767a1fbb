import Mathlib.Algebra.Group.Nat.Basic
import AdsTxtAnalyzer.RateLimit.TokenBucket

/-!
# `strconv.Atoi`

The configuration reads its integer variables with `strconv.Atoi` (`getIntEnv`,
`getDurationEnv`). On a 64-bit platform `Atoi` has two paths:

* the **fast path**, for strings of 1 to 18 bytes: an optional sign, then the loop
  `n = n*10 + int(ch - '0')`, which fails at the first byte that is not a digit;
* every other string goes through **`ParseInt(s, 10, 0)`**, which takes off the sign and hands
  the rest to `ParseUint(s, 10, 64)`, whose loop fails at the first byte that is not a digit and
  at the first digit that overflows `uint64`; `ParseInt` then checks the `int64` range.

`atoi_eq_decimal`: both compute what the documentation of `ParseInt` says, an optional sign `+`
or `-` and one or more decimal digits whose value is in the `int64` range (`decimal?`). So the
fast path agrees with `ParseInt` on every string it takes, and `Atoi` accepts exactly the
decimal texts of the `int64` values.

A failure is `none`: the callers only test `err == nil`. No byte of a character outside ASCII
is a digit or a sign, so the model reads characters where the code reads bytes; the length
that picks the path is the byte length.
-/

namespace AdsTxtAnalyzer

namespace Strconv

/-- `n*10 + int(ch - '0')`, one step of the digit loops. -/
def digitStep (n : Nat) (ch : Char) : Nat := n * 10 + (ch.toNat - 48)

/-- The value of a list of decimal digits. -/
def digitsValue (ds : List Char) : Nat := ds.foldl digitStep 0

/-- What `ParseInt(s, 10, 64)` accepts by its documentation: an optional sign `+` or `-`, then
one or more decimal digits, whose value is in the `int64` range. -/
def decimal? : List Char → Option Int
  | [] => none
  | c :: cs =>
    let ds := if c = '-' ∨ c = '+' then cs else c :: cs
    if ds ≠ [] ∧ ∀ x ∈ ds, x.isDigit then
      let v : Int := if c = '-' then -(digitsValue ds : Int) else digitsValue ds
      if minInt64 ≤ v ∧ v ≤ maxInt64 then some v else none
    else none

/-! ### The two paths -/

/-- The loop of the fast path from the value `n`: `ch -= '0'` fails above `9`. -/
def fastLoop : Nat → List Char → Option Nat
  | n, [] => some n
  | n, ch :: rest => if ch.isDigit then fastLoop (digitStep n ch) rest else none

/-- The fast path of `Atoi`: the sign, an empty rest after it failing, then the loop, and the
value negated after a `-`. -/
def atoiFast : List Char → Option Int
  | [] => none
  | c :: cs =>
    let s := if c = '-' ∨ c = '+' then cs else c :: cs
    if s = [] then none
    else (fastLoop 0 s).map fun (n : Nat) => if c = '-' then -(n : Int) else (n : Int)

/-- `maxUint64`, `2^64 - 1`. -/
def maxUint64 : Nat := 18446744073709551615

/-- The loop of `ParseUint(s, 10, 64)` from the value `n`. A byte that is not a digit fails (a
letter reads as a digit of at least `10`, too big for base `10`); so does a value of at least
`cutoff = maxUint64/10 + 1` before the step, or above `maxUint64` after it. -/
def parseUintLoop : Nat → List Char → Option Nat
  | n, [] => some n
  | n, c :: rest =>
    if c.isDigit then
      if maxUint64 / 10 + 1 ≤ n then none
      else if maxUint64 < digitStep n c then none
      else parseUintLoop (digitStep n c) rest
    else none

/-- `ParseUint(s, 10, 64)`. -/
def parseUint (s : List Char) : Option Nat := if s = [] then none else parseUintLoop 0 s

/-- `ParseInt(s, 10, 0)`: the sign, `ParseUint` of the rest, then the `int64` range, at most
`2^63 - 1`, or `2^63` after a `-`. -/
def parseInt : List Char → Option Int
  | [] => none
  | c :: cs =>
    let neg := c = '-'
    let rest := if c = '+' then cs else if c = '-' then cs else c :: cs
    (parseUint rest).bind fun un =>
      if ¬neg ∧ 2 ^ 63 ≤ un then none
      else if neg ∧ 2 ^ 63 < un then none
      else some (if neg then -(un : Int) else un)

/-- `strconv.Atoi` on a 64-bit platform. -/
def atoi (s : String) : Option Int :=
  if 0 < s.utf8ByteSize ∧ s.utf8ByteSize < 19 then atoiFast s.toList else parseInt s.toList

/-! ### The digit loops -/

theorem digit_bounds {c : Char} (h : c.isDigit = true) : 48 ≤ c.toNat ∧ c.toNat ≤ 57 := by
  simp only [Char.isDigit, Bool.and_eq_true, decide_eq_true_eq] at h
  exact h

theorem le_foldl_digitStep : ∀ (ds : List Char) (n : Nat), n ≤ ds.foldl digitStep n
  | [], _ => le_rfl
  | c :: ds, n => le_trans (by unfold digitStep; omega) (le_foldl_digitStep ds (digitStep n c))

/-- `k` digits after the value `n` make less than `(n + 1)·10^k`. -/
theorem foldl_digitStep_lt :
    ∀ (ds : List Char) (n : Nat), (∀ c ∈ ds, c.isDigit) → ds.foldl digitStep n < (n + 1) * 10 ^ ds.length
  | [], _, _ => by simp
  | c :: ds, n, h => by
    have hc := digit_bounds (h c (.head _))
    have ih := foldl_digitStep_lt ds (digitStep n c) fun x hx => h x (.tail _ hx)
    calc (c :: ds).foldl digitStep n = ds.foldl digitStep (digitStep n c) := rfl
      _ < (digitStep n c + 1) * 10 ^ ds.length := ih
      _ ≤ (n + 1) * 10 * 10 ^ ds.length :=
        Nat.mul_le_mul_right _ (by unfold digitStep; omega)
      _ = (n + 1) * 10 ^ (c :: ds).length := by
        rw [List.length_cons, Nat.pow_succ, Nat.mul_assoc, Nat.mul_comm 10]

theorem fastLoop_eq :
    ∀ (n : Nat) (ds : List Char),
      fastLoop n ds = if ∀ c ∈ ds, c.isDigit then some (ds.foldl digitStep n) else none
  | _, [] => by simp [fastLoop]
  | n, c :: ds => by
    by_cases hc : c.isDigit = true
    · simp [fastLoop, hc, fastLoop_eq _ ds]
    · simp [fastLoop, hc]

theorem parseUintLoop_eq :
    ∀ (n : Nat) (ds : List Char), n ≤ maxUint64 →
      parseUintLoop n ds =
        if (∀ c ∈ ds, c.isDigit) ∧ ds.foldl digitStep n ≤ maxUint64 then
          some (ds.foldl digitStep n)
        else none
  | _, [], hn => by simp [parseUintLoop, hn]
  | n, c :: ds, hn => by
    have hge := le_foldl_digitStep ds (digitStep n c)
    by_cases hc : c.isDigit = true
    · simp only [parseUintLoop, hc, if_true, List.forall_mem_cons, List.foldl_cons, true_and]
      by_cases hcut : maxUint64 / 10 + 1 ≤ n
      · rw [if_pos hcut, if_neg (fun h => by unfold digitStep maxUint64 at *; omega)]
      · rw [if_neg hcut]
        by_cases hover : maxUint64 < digitStep n c
        · rw [if_pos hover, if_neg (fun h => by omega)]
        · rw [if_neg hover, parseUintLoop_eq _ ds (by omega)]
    · simp [parseUintLoop, hc]

theorem parseUint_eq (ds : List Char) :
    parseUint ds =
      if ds ≠ [] ∧ (∀ c ∈ ds, c.isDigit) ∧ digitsValue ds ≤ maxUint64 then some (digitsValue ds)
      else none := by
  unfold parseUint digitsValue
  by_cases hd : ds = []
  · simp [hd]
  · rw [if_neg hd, parseUintLoop_eq 0 ds (by decide)]
    simp only [ne_eq, hd, not_false_eq_true, true_and]

/-! ### Both paths read decimals -/

/-- `ParseInt` after the sign: `ParseUint` and the range checks accept the digits `ds` when
the signed value is in the `int64` range. -/
theorem parseUint_bind_range (neg : Prop) [Decidable neg] (ds : List Char) :
    ((parseUint ds).bind fun un =>
      if ¬neg ∧ 2 ^ 63 ≤ un then none
      else if neg ∧ 2 ^ 63 < un then none
      else some (if neg then -(un : Int) else un)) =
    if ds ≠ [] ∧ ∀ x ∈ ds, x.isDigit then
      if minInt64 ≤ (if neg then -(digitsValue ds : Int) else digitsValue ds) ∧
          (if neg then -(digitsValue ds : Int) else digitsValue ds) ≤ maxInt64 then
        some (if neg then -(digitsValue ds : Int) else digitsValue ds)
      else none
    else none := by
  rw [parseUint_eq]
  by_cases hd : ds ≠ [] ∧ ∀ x ∈ ds, x.isDigit
  · rw [if_pos hd]
    by_cases hmax : digitsValue ds ≤ maxUint64
    · rw [if_pos ⟨hd.1, hd.2, hmax⟩, Option.some_bind]
      unfold minInt64 maxInt64
      by_cases hn : neg <;>
        simp only [hn, not_true, not_false_eq_true, true_and, false_and, if_true, if_false] <;>
        split_ifs <;> first | rfl | omega
    · rw [if_neg (fun h => hmax h.2.2), Option.none_bind]
      unfold maxUint64 minInt64 maxInt64 at *
      split_ifs <;> first | rfl | omega
  · rw [if_neg (fun h => hd ⟨h.1, h.2.1⟩), if_neg hd, Option.none_bind]

theorem parseInt_eq_decimal : ∀ s : List Char, parseInt s = decimal? s
  | [] => rfl
  | c :: cs => by
    have hrest : (if c = '+' then cs else if c = '-' then cs else c :: cs) =
        if c = '-' ∨ c = '+' then cs else c :: cs := by
      by_cases h₁ : c = '+' <;> by_cases h₂ : c = '-' <;> simp [h₁, h₂]
    simp only [parseInt, decimal?, hrest]
    exact parseUint_bind_range _ _

theorem atoiFast_eq_decimal : ∀ s : List Char, s.length ≤ 18 → atoiFast s = decimal? s
  | [], _ => rfl
  | c :: cs, hlen => by
    have hlen' : (if c = '-' ∨ c = '+' then cs else c :: cs).length ≤ 18 := by
      split <;> simp only [List.length_cons] at hlen ⊢ <;> omega
    simp only [atoiFast, decimal?]
    generalize (if c = '-' ∨ c = '+' then cs else c :: cs) = ds at hlen' ⊢
    by_cases hds : ds = []
    · simp [hds]
    · rw [if_neg hds, fastLoop_eq]
      by_cases hd : ∀ x ∈ ds, x.isDigit
      · have hlt : digitsValue ds < 10 ^ 18 := calc
          digitsValue ds < (0 + 1) * 10 ^ ds.length := foldl_digitStep_lt ds 0 hd
          _ ≤ 10 ^ 18 := by
            rw [Nat.zero_add, Nat.one_mul]
            exact Nat.pow_le_pow_right (by decide) hlen'
        rw [if_pos hd, if_pos ⟨hds, hd⟩, Option.map_some']
        unfold digitsValue minInt64 maxInt64 at *
        split_ifs <;> first | rfl | omega
      · rw [if_neg hd, if_neg (fun h => hd h.2)]
        rfl

theorem length_le_utf8ByteSize (s : String) : s.length ≤ s.utf8ByteSize := by
  obtain ⟨cs⟩ := s
  show cs.length ≤ String.utf8ByteSize.go cs
  induction cs with
  | nil => exact le_rfl
  | cons c cs ih =>
    have := c.utf8Size_pos
    simp only [String.utf8ByteSize.go, List.length_cons]
    omega

/-- **`Atoi` reads decimals.** On every string both paths of `strconv.Atoi` compute what the
documentation of `ParseInt` says: an optional sign and one or more decimal digits, read as an
`int64` when the value is in range, and a failure otherwise. -/
theorem atoi_eq_decimal (s : String) : atoi s = decimal? s.toList := by
  unfold atoi
  split
  · next h => exact atoiFast_eq_decimal _ (by
      have := length_le_utf8ByteSize s
      simp only [String.length] at this
      exact Nat.le_of_lt_succ (lt_of_le_of_lt this h.2))
  · exact parseInt_eq_decimal _

example : atoi "-42" = some (-42) := by decide

end Strconv

end AdsTxtAnalyzer
