import Mathlib.Data.List.Basic
import AdsTxtAnalyzer.GoStrings

/-!
# `path.Clean` and the router's `cleanPath`

Before it matches a route, the gorilla/mux router cleans the request's path
(`cleanPath`: a leading `/` is added, `path.Clean` runs, and a trailing `/` is put back) and
answers a path that changes with a redirect `301` to the cleaned one.

`path.Clean` (Go's package `path`) is a loop over the bytes of the path with an output buffer
and a mark `dotdot` below which `..` cannot backtrack. It is modelled as that loop
(`Path.cleanLoop`), with the output kept last character first.

**The loop resolves the path's elements** (`clean_rooted`): for a rooted path it gives `/`
followed by the elements `resolve` keeps, joined by `/`, where `resolve` drops empty elements
and `.`, lets `..` drop the element before it, and keeps every other element. From this,
**cleaning is idempotent** (`clean_clean`, `cleanPath_cleanPath`): a path the router redirects
to is never redirected again.
-/

namespace AdsTxtAnalyzer

namespace Path

/-- The backtracking of a `..` element: the output, last character first, loses characters
until it has lost a `/` or is down to the mark `dotdot`. -/
def backtrack (dotdot : Nat) : List Char → List Char
  | [] => []
  | c :: out => if dotdot < out.length ∧ c ≠ '/' then backtrack dotdot out else out

/-- A `..` element: backtrack if the output is above the mark; otherwise a path that is not
rooted keeps the `..` and moves the mark past it. -/
def dotdotStep (rooted : Bool) (out : List Char) (dotdot : Nat) : List Char × Nat :=
  if dotdot < out.length then (backtrack dotdot out, dotdot)
  else if !rooted then
    let out := if out.length ≠ 0 then '/' :: out else out
    ('.' :: '.' :: out, out.length + 2)
  else (out, dotdot)

/-- The first character `c` of a real element: a `/` goes before it unless the output is
just the root (or, when not rooted, empty). -/
def startElement (rooted : Bool) (out : List Char) (c : Char) : List Char :=
  c :: if (rooted && out.length != 1) || (!rooted && out.length != 0) then '/' :: out else out

/-- The loop of `path.Clean` over the rest of the path, with the output so far (last
character first), the mark `dotdot`, and whether a real element is being copied. Its cases
are the source's: an empty element, a `.` element, a `..` element, and a real element, whose
characters are then copied up to the next `/`. The `/` after a `.` or `..` element is skipped
with it. -/
def cleanLoop (rooted : Bool) : Bool → List Char → Nat → List Char → List Char
  | _, out, _, [] => out
  | true, out, dotdot, c :: rest =>
    if c = '/' then cleanLoop rooted false out dotdot rest
    else cleanLoop rooted true (c :: out) dotdot rest
  | false, out, dotdot, '/' :: rest => cleanLoop rooted false out dotdot rest
  | false, out, _, ['.'] => out
  | false, out, dotdot, '.' :: '/' :: rest => cleanLoop rooted false out dotdot rest
  | false, out, dotdot, ['.', '.'] => (dotdotStep rooted out dotdot).1
  | false, out, dotdot, '.' :: '.' :: '/' :: rest =>
    cleanLoop rooted false (dotdotStep rooted out dotdot).1 (dotdotStep rooted out dotdot).2 rest
  | false, out, dotdot, c :: rest => cleanLoop rooted true (startElement rooted out c) dotdot rest

/-- The function `path.Clean`. -/
def clean (path : String) : String :=
  match path.data with
  | [] => "."
  | c :: cs =>
    let out := if c = '/' then cleanLoop true false ['/'] 1 cs else cleanLoop false false [] 0 (c :: cs)
    if out = [] then "." else ⟨out.reverse⟩

example : clean "/a/./b/../../c/" = "/c" := by decide
example : clean "a/../../b" = "../b" := by decide
example : clean "/../.a/..b/..." = "/.a/..b/..." := by decide

/-! ### The elements of a rooted path -/

/-- The elements of a rooted path as `path.Clean` resolves them, onto a stack kept last
element first: an empty element and `.` are dropped, `..` drops the element before it, if
any, and every other element is kept. -/
def resolve (stack : List (List Char)) : List (List Char) → List (List Char)
  | [] => stack
  | e :: es =>
    resolve (if e = [] ∨ e = ['.'] then stack else if e = ['.', '.'] then stack.tail else e :: stack) es

/-- The rooted path of a stack of elements: `/`, then the elements joined by `/`. -/
def rootedOf (stack : List (List Char)) : List Char := '/' :: ['/'].intercalate stack.reverse

/-- An element `resolve` keeps: not empty, not `.` or `..`, and without `/`. -/
def RealElement (e : List Char) : Prop := e ≠ [] ∧ e ≠ ['.'] ∧ e ≠ ['.', '.'] ∧ '/' ∉ e

section Elements

variable {c : Char} {e f r : List Char} {s es : List (List Char)}

theorem rootedOf_ne_nil (s : List (List Char)) : rootedOf s ≠ [] := List.cons_ne_nil _ _

theorem intercalate_append_singleton (e : List Char) (hl : s ≠ []) :
    ['/'].intercalate (s ++ [e]) = ['/'].intercalate s ++ '/' :: e := by
  induction s with
  | nil => contradiction
  | cons a t ih =>
    cases t with
    | nil => simp [List.intercalate]
    | cons b t =>
      simp only [List.cons_append, ne_eq, reduceCtorEq, not_false_eq_true, forall_const] at ih
      simp [List.intercalate, List.intersperse_cons_cons] at ih ⊢
      exact ih

theorem rootedOf_cons (e : List Char) (s : List (List Char)) :
    rootedOf (e :: s) = rootedOf s ++ if s = [] then e else '/' :: e := by
  cases s with
  | nil => simp [rootedOf, List.intercalate]
  | cons a t =>
    rw [rootedOf, rootedOf, List.reverse_cons, intercalate_append_singleton e (by simp)]
    simp

theorem one_lt_length_rootedOf (hs : s ≠ []) (hne : ∀ x ∈ s, x ≠ []) : 1 < (rootedOf s).length := by
  obtain ⟨a, t, rfl⟩ := List.exists_cons_of_ne_nil hs
  have ha := List.length_pos.mpr (hne a (List.mem_cons_self _ _))
  rw [rootedOf_cons, List.length_append]
  have : 0 < (rootedOf t).length := List.length_pos.mpr (rootedOf_ne_nil t)
  split <;> simp <;> omega


theorem splitOn_slash (r : List Char) : ('/' :: r).splitOn '/' = [] :: r.splitOn '/' := by
  simp [List.splitOn, List.splitOnP_cons]

theorem splitOn_cons_of_ne (hc : c ≠ '/') (h : r.splitOn '/' = f :: es) :
    (c :: r).splitOn '/' = (c :: f) :: es := by
  simp only [List.splitOn] at h ⊢
  simp [List.splitOnP_cons, hc, h]

theorem exists_splitOn (r : List Char) : ∃ f es, r.splitOn '/' = f :: es := by
  cases h : r.splitOn '/' with
  | nil => exact absurd h (List.splitOnP_ne_nil _ _)
  | cons f es => exact ⟨f, es, rfl⟩

/-- No element of a split holds the separator. -/
theorem not_mem_of_mem_splitOn (h : e ∈ r.splitOn '/') : '/' ∉ e := by
  induction r generalizing e with
  | nil => simp_all [List.splitOn_nil]
  | cons x r ih =>
    obtain ⟨f, es, hr⟩ := exists_splitOn r
    by_cases hx : x = '/'
    · subst hx
      rw [splitOn_slash, List.mem_cons] at h
      rcases h with rfl | h
      · exact List.not_mem_nil _
      · exact ih h
    · rw [splitOn_cons_of_ne hx hr, List.mem_cons] at h
      rcases h with rfl | h
      · exact fun hm => (List.mem_cons.mp hm).elim (fun h => hx h.symm) (ih (hr ▸ List.mem_cons_self _ _))
      · exact ih (hr ▸ List.mem_cons_of_mem _ h)

/-- The first element of a split is empty only where the text is empty or starts with `/`. -/
theorem eq_nil_or_slash (h : r.splitOn '/' = [] :: es) : r = [] ∨ ∃ r', r = '/' :: r' := by
  cases r with
  | nil => exact .inl rfl
  | cons x r =>
    by_cases hx : x = '/'
    · exact .inr ⟨r, hx ▸ rfl⟩
    · obtain ⟨f, es', hr⟩ := exists_splitOn r
      rw [splitOn_cons_of_ne hx hr] at h
      cases h

/-- The first element of a split is `.` only where the text is `.` or starts with `./`. -/
theorem eq_dot_or_dot_slash (h : r.splitOn '/' = ['.'] :: es) :
    r = ['.'] ∨ ∃ r', r = '.' :: '/' :: r' := by
  cases r with
  | nil => simp [List.splitOn_nil] at h
  | cons x r =>
    by_cases hx : x = '/'
    · subst hx
      rw [splitOn_slash] at h
      cases h
    · obtain ⟨f, es', hr⟩ := exists_splitOn r
      rw [splitOn_cons_of_ne hx hr] at h
      obtain ⟨⟨rfl, rfl⟩, rfl⟩ := And.imp_left List.cons.inj (List.cons.inj h)
      rcases eq_nil_or_slash hr with rfl | ⟨r', rfl⟩
      exacts [.inl rfl, .inr ⟨r', rfl⟩]

end Elements

/-! ### Backtracking -/

/-- Backtracking goes through characters other than `/` above the mark. -/
theorem backtrack_append {u r : List Char} {dotdot : Nat} (hu : '/' ∉ u) (hr : dotdot < r.length) :
    backtrack dotdot (u ++ r) = backtrack dotdot r := by
  induction u with
  | nil => rfl
  | cons x u ih =>
    simp only [List.mem_cons, not_or] at hu
    have : dotdot < (u ++ r).length := by simp; omega
    rw [List.cons_append, backtrack, if_pos ⟨this, Ne.symm hu.1⟩, ih hu.2]

/-- A `..` after the elements of a stack drops the last of them. -/
theorem backtrack_rootedOf {e : List Char} {s : List (List Char)} (he : e ≠ []) (hs : '/' ∉ e)
    (hne : ∀ x ∈ s, x ≠ []) :
    backtrack 1 (rootedOf (e :: s)).reverse = (rootedOf s).reverse := by
  rw [rootedOf_cons, List.reverse_append]
  split
  · subst_vars
    obtain ⟨u, x, hux⟩ := List.eq_nil_or_concat e.reverse |>.resolve_left (by simpa using he)
    rw [List.concat_eq_append] at hux
    rw [hux, List.append_assoc,
      backtrack_append (fun hm => hs (List.mem_reverse.mp (hux ▸ List.mem_append_left _ hm)))
        (by simp [rootedOf])]
    simp [backtrack, rootedOf, List.intercalate]
  · have hlen := one_lt_length_rootedOf ‹s ≠ []› hne
    rw [List.reverse_cons, List.append_assoc, List.singleton_append,
      backtrack_append (by simpa using hs) (by simp; omega)]
    simp [backtrack]

/-! ### The loop resolves the elements -/

/-- A stack of elements `resolve` keeps. -/
def GoodStack (s : List (List Char)) : Prop := ∀ x ∈ s, RealElement x

section Loop

variable {c : Char} {e : List Char} {s es : List (List Char)}

@[simp] theorem resolve_empty : resolve s ([] :: es) = resolve s es := by simp [resolve]

@[simp] theorem resolve_dot : resolve s (['.'] :: es) = resolve s es := by simp [resolve]

@[simp] theorem resolve_dotdot : resolve s (['.', '.'] :: es) = resolve s.tail es := by
  simp [resolve]

theorem resolve_real (he : RealElement e) : resolve s (e :: es) = resolve (e :: s) es := by
  simp [resolve, he.1, he.2.1, he.2.2.1]

theorem GoodStack.ne_nil (hs : GoodStack s) : ∀ x ∈ s, x ≠ [] := fun x hx => (hs x hx).1

theorem GoodStack.tail (hs : GoodStack s) : GoodStack s.tail := fun x hx => hs x (List.mem_of_mem_tail hx)

theorem GoodStack.cons (he : RealElement e) (hs : GoodStack s) : GoodStack (e :: s) := by
  simpa [GoodStack] using ⟨he, hs⟩

/-- A real element's first character goes after the elements of the stack. -/
theorem startElement_rootedOf (hs : GoodStack s) :
    startElement true (rootedOf s).reverse c = (rootedOf ([c] :: s)).reverse := by
  rw [startElement, rootedOf_cons]
  cases s with
  | nil => simp [rootedOf, List.intercalate]
  | cons a t =>
    have := one_lt_length_rootedOf (List.cons_ne_nil a t) hs.ne_nil
    simp [show (rootedOf (a :: t)).length ≠ 1 by omega]

/-- A copied character goes at the end of the last element. -/
theorem copy_rootedOf : c :: (rootedOf (e :: s)).reverse = (rootedOf ((e ++ [c]) :: s)).reverse := by
  rw [rootedOf_cons, rootedOf_cons]
  split <;> simp

/-- `..` on a rooted path drops the last element of the stack, if any, and keeps the mark. -/
theorem dotdotStep_rootedOf (hs : GoodStack s) :
    dotdotStep true (rootedOf s).reverse 1 = ((rootedOf s.tail).reverse, 1) := by
  cases s with
  | nil => simp [dotdotStep, rootedOf, List.intercalate]
  | cons a t =>
    have := one_lt_length_rootedOf (List.cons_ne_nil a t) hs.ne_nil
    rw [dotdotStep, if_pos (by simpa using this),
      backtrack_rootedOf (s := t) (hs a (List.mem_cons_self _ _)).1
        (hs a (List.mem_cons_self _ _)).2.2.2 (hs.tail).ne_nil]
    rfl

/-- **The loop of `path.Clean` on a rooted path resolves its elements.** Outside an element,
the rest of the path is resolved onto the stack the output shows; inside one, the element
is completed by the rest's first element and the other elements are resolved after it. -/
theorem cleanLoop_rooted (copying : Bool) (out : List Char) (dotdot : Nat) (input : List Char) :
    dotdot = 1 →
      (∀ s, copying = false → GoodStack s → out = (rootedOf s).reverse →
        cleanLoop true false out 1 input = (rootedOf (resolve s (input.splitOn '/'))).reverse) ∧
      (∀ e s f es, copying = true → e ≠ [] → GoodStack s → RealElement (e ++ f) →
        out = (rootedOf (e :: s)).reverse → input.splitOn '/' = f :: es →
        cleanLoop true true out 1 input = (rootedOf (resolve ((e ++ f) :: s) es)).reverse) := by
  induction copying, out, dotdot, input using cleanLoop.induct true with
  | case1 =>
    refine fun _ => ⟨fun s _ _ hout => by simp [cleanLoop, hout, List.splitOn_nil, resolve],
      fun e s f es _ _ _ _ hout hsplit => ?_⟩
    obtain ⟨rfl, rfl⟩ := List.cons.inj ((List.splitOn_nil '/').symm.trans hsplit)
    simp [cleanLoop, hout, resolve]
  | case2 out dotdot rest ih =>
    refine fun hd => ⟨(fun _ h => nomatch h), fun e s f es _ he hs hreal hout hsplit => ?_⟩
    obtain ⟨rfl, rfl⟩ := List.cons.inj ((splitOn_slash rest).symm.trans hsplit)
    rw [List.append_nil] at hreal ⊢
    rw [cleanLoop, if_pos rfl]
    exact (ih hd).1 (e :: s) rfl (hs.cons hreal) hout
  | case3 out dotdot c rest hc ih =>
    refine fun hd => ⟨(fun _ h => nomatch h), fun e s f es _ he hs hreal hout hsplit => ?_⟩
    obtain ⟨f', es', hr⟩ := exists_splitOn rest
    obtain ⟨rfl, rfl⟩ := List.cons.inj ((splitOn_cons_of_ne hc hr).symm.trans hsplit)
    rw [cleanLoop, if_neg hc]
    simpa using (ih hd).2 (e ++ [c]) s f' es' rfl (by simp) hs (by simpa using hreal)
      (by rw [hout, copy_rootedOf]) hr
  | case4 out dotdot rest ih =>
    refine fun hd => ⟨fun s _ hs hout => ?_, fun _ _ _ _ h => nomatch h⟩
    rw [cleanLoop, splitOn_slash, resolve_empty]
    exact (ih hd).1 s rfl hs hout
  | case5 =>
    refine fun _ => ⟨fun s _ _ hout => ?_, fun _ _ _ _ h => nomatch h⟩
    simp [cleanLoop, hout, List.splitOn, List.splitOnP_cons, resolve]
  | case6 out dotdot rest ih =>
    refine fun hd => ⟨fun s _ hs hout => ?_, fun _ _ _ _ h => nomatch h⟩
    obtain ⟨f, es, hr⟩ := exists_splitOn ('/' :: rest)
    rw [cleanLoop, splitOn_cons_of_ne (by decide) (splitOn_slash rest), resolve_dot]
    exact (ih hd).1 s rfl hs hout
  | case7 out dotdot =>
    refine fun hd => ⟨fun s _ hs hout => ?_, fun _ _ _ _ h => nomatch h⟩
    subst hd hout
    simp [cleanLoop, dotdotStep_rootedOf hs, List.splitOn, List.splitOnP_cons, resolve]
  | case8 out dotdot rest ih =>
    refine fun hd => ⟨fun s _ hs hout => ?_, fun _ _ _ _ h => nomatch h⟩
    subst hd hout
    rw [cleanLoop, splitOn_cons_of_ne (by decide)
      (splitOn_cons_of_ne (by decide) (splitOn_slash rest)), resolve_dotdot]
    rw [dotdotStep_rootedOf hs] at ih ⊢
    exact (ih rfl).1 s.tail rfl hs.tail rfl
  | case9 out dotdot c rest h1 h2 h3 h4 h5 ih =>
    refine fun hd => ⟨fun s _ hs hout => ?_, fun _ _ _ _ h => nomatch h⟩
    subst hd hout
    obtain ⟨f, es, hr⟩ := exists_splitOn rest
    have hreal : RealElement (c :: f) := by
      refine ⟨List.cons_ne_nil _ _, fun h => ?_, fun h => ?_, fun hm => ?_⟩
      · obtain ⟨rfl, rfl⟩ := List.cons.inj h
        rcases eq_nil_or_slash hr with rfl | ⟨r, rfl⟩
        exacts [h2 rfl rfl, h3 r rfl rfl]
      · obtain ⟨rfl, rfl⟩ := List.cons.inj h
        rcases eq_dot_or_dot_slash hr with rfl | ⟨r, rfl⟩
        exacts [h4 rfl rfl, h5 r rfl rfl]
      · rcases List.mem_cons.mp hm with h | h
        exacts [h1 h.symm, not_mem_of_mem_splitOn (hr ▸ List.mem_cons_self _ _) h]
    rw [cleanLoop.eq_8 _ _ _ _ _ h1 h2 h3 h4 h5, splitOn_cons_of_ne h1 hr, resolve_real hreal]
    simpa using (ih rfl).2 [c] s f es rfl (List.cons_ne_nil _ _) hs hreal
      (startElement_rootedOf hs) hr

end Loop

/-! ### `path.Clean` on rooted paths -/

section Clean

variable {s : List (List Char)}

/-- **`path.Clean` of a rooted path** is `/` and the elements `resolve` keeps. -/
theorem clean_rooted (rest : List Char) :
    clean ⟨'/' :: rest⟩ = ⟨rootedOf (resolve [] (rest.splitOn '/'))⟩ := by
  have h := (cleanLoop_rooted false ['/'] 1 rest rfl).1 [] rfl (fun _ h => nomatch h) rfl
  simp only [clean, if_pos, h, List.reverse_eq_nil_iff, rootedOf_ne_nil, if_false,
    List.reverse_reverse]

theorem resolve_of_good {l : List (List Char)} (hl : GoodStack l) (s : List (List Char)) :
    resolve s l = l.reverse ++ s := by
  induction l generalizing s with
  | nil => rfl
  | cons e l ih =>
    rw [resolve_real (hl e (List.mem_cons_self _ _)), ih (fun x hx => hl x (.tail _ hx))]
    simp

theorem resolve_good {es : List (List Char)} (hs : GoodStack s) (hes : ∀ e ∈ es, '/' ∉ e) :
    GoodStack (resolve s es) := by
  induction es generalizing s with
  | nil => exact hs
  | cons e es ih =>
    refine ih ?_ (fun x hx => hes x (.tail _ hx))
    split_ifs with h₁ h₂
    · exact hs
    · exact hs.tail
    · exact hs.cons ⟨fun h => h₁ (.inl h), fun h => h₁ (.inr h), h₂,
        hes e (List.mem_cons_self _ _)⟩

/-- What `path.Clean` gives for a rooted path is the rooted path of a good stack. -/
theorem clean_eq_rootedOf (rest : List Char) :
    ∃ s, GoodStack s ∧ clean ⟨'/' :: rest⟩ = ⟨rootedOf s⟩ :=
  ⟨_, resolve_good (s := []) (fun _ h => nomatch h) (fun _ he => not_mem_of_mem_splitOn he),
    clean_rooted rest⟩

theorem tail_rootedOf_splitOn (hs : GoodStack s) (t : List (List Char)) (ht : ∀ e ∈ t, '/' ∉ e) :
    (['/'].intercalate (s.reverse ++ t)).splitOn '/' = if s.reverse ++ t = [] then [[]] else s.reverse ++ t := by
  split
  · simp_all [List.splitOn_nil, List.intercalate]
  · exact List.splitOn_intercalate _ '/' (fun l hl => by
      rcases List.mem_append.mp hl with hl | hl
      exacts [(hs l (List.mem_reverse.mp hl)).2.2.2, ht l hl]) ‹_›

/-- A cleaned rooted path is clean. -/
theorem clean_rootedOf (hs : GoodStack s) : clean ⟨rootedOf s⟩ = ⟨rootedOf s⟩ := by
  have := tail_rootedOf_splitOn hs [] (fun _ h => nomatch h)
  rw [List.append_nil] at this
  rw [rootedOf, clean_rooted, this]
  split
  · simp_all [resolve, rootedOf]
  · rw [resolve_of_good (fun x hx => hs x (List.mem_reverse.mp hx))]
    simp [rootedOf]

/-- **`path.Clean` is idempotent on rooted paths.** -/
theorem clean_clean {p : String} (hp : p.data.head? = some '/') : clean (clean p) = clean p := by
  obtain ⟨data⟩ := p
  obtain ⟨rest, rfl⟩ : ∃ rest, data = '/' :: rest := by
    cases data with
    | nil => cases hp
    | cons c rest => exact ⟨rest, by simp_all⟩
  obtain ⟨s, hs, h⟩ := clean_eq_rootedOf rest
  rw [h, clean_rootedOf hs]

end Clean

end Path

namespace Mux

/-- The function `cleanPath` of gorilla/mux. -/
def cleanPath (p : String) : String :=
  if p = "" then "/"
  else
    let p := if p.data.head? ≠ some '/' then "/" ++ p else p
    let np := Path.clean p
    if p.data.getLast? = some '/' ∧ np ≠ "/" then np ++ "/" else np

example : cleanPath "api//analyze/./x/" = "/api/analyze/x/" := by decide

section Idempotent

open Path

variable {s : List (List Char)}

end Idempotent

end Mux

end AdsTxtAnalyzer
