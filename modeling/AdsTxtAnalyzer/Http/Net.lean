import AdsTxtAnalyzer.Fetch.Url

/-!
# `net.SplitHostPort` and `net.JoinHostPort`

`getClientIP` falls back on `net.SplitHostPort(r.RemoteAddr)`, and the server writes
`r.RemoteAddr` as `TCPAddr.String()`, which is `net.JoinHostPort(ip, port)`. This module models
the two functions of package `net` (Go 1.24, `net/ipsock.go`) on the characters of the text:
the separators `:`, `[` and `]` are ASCII, so positions in bytes and in characters pick out
the same parts.

**`SplitHostPort` accepts two forms only** (`splitHostPort_eq_ok_iff`): `host:port`, with no
`:` in the host, and `[host]:port`. In both the port holds no `:`, and neither part holds a
bracket. Every other text is refused, with one of the five errors of the source. So
**`SplitHostPort` undoes `JoinHostPort`** (`splitHostPort_joinHostPort`) for every host and
port without brackets and every port without `:`, IPv6 hosts included, which `JoinHostPort`
brackets.
-/

namespace AdsTxtAnalyzer

namespace Net

/-- The error `*AddrError` of package `net`. -/
structure AddrError where
  err : String
  addr : String
  deriving DecidableEq, Repr

/-- The method `(*AddrError).Error`. -/
def AddrError.error (e : AddrError) : String :=
  if e.addr = "" then e.err else "address " ++ e.addr ++ ": " ++ e.err

/-- The position of the first `c` (`bytealg.IndexByteString`), `none` for the source's `-1`. -/
def index (c : Char) : List Char → Option Nat
  | [] => none
  | x :: xs => if x = c then some 0 else (index c xs).map (· + 1)

/-- The error text `missingPort` of `SplitHostPort`. -/
def missingPort : String := "missing port in address"

/-- The error text `tooManyColons` of `SplitHostPort`. -/
def tooManyColons : String := "too many colons in address"

/-- The host and the positions `j` and `k` after which `SplitHostPort` looks for a stray `[`
and `]`, or the error, for a text whose last `:` is at `i`. -/
def splitHost (hostport : String) (i : Nat) : Except AddrError (String × Nat × Nat) :=
  let s := hostport.data
  if s.head? = some '[' then
    match index ']' s with
    | none => .error ⟨"missing ']' in address", hostport⟩
    | some e =>
      if e + 1 = s.length then .error ⟨missingPort, hostport⟩
      else if e + 1 = i then .ok (⟨(s.take e).drop 1⟩, 1, e + 1)
      else if s[e + 1]? = some ':' then .error ⟨tooManyColons, hostport⟩
      else .error ⟨missingPort, hostport⟩
  else if ':' ∈ s.take i then .error ⟨tooManyColons, hostport⟩
  else .ok (⟨s.take i⟩, 0, 0)

/-- The function `net.SplitHostPort`. The port starts after the last `:`. -/
def splitHostPort (hostport : String) : Except AddrError (String × String) :=
  let s := hostport.data
  match Url.lastIndex ':' s with
  | none => .error ⟨missingPort, hostport⟩
  | some i =>
    match splitHost hostport i with
    | .error e => .error e
    | .ok (host, j, k) =>
      if '[' ∈ s.drop j then .error ⟨"unexpected '[' in address", hostport⟩
      else if ']' ∈ s.drop k then .error ⟨"unexpected ']' in address", hostport⟩
      else .ok (host, ⟨s.drop (i + 1)⟩)

/-- The function `net.JoinHostPort`: a host with a `:` is taken for an IPv6 address and
bracketed. -/
def joinHostPort (host port : String) : String :=
  if ':' ∈ host.data then "[" ++ host ++ "]:" ++ port else host ++ ":" ++ port

example : splitHostPort "192.0.2.1:8080" = .ok ("192.0.2.1", "8080") := by decide
example : splitHostPort "[2001:db8::1]:443" = .ok ("2001:db8::1", "443") := by decide
example : (splitHostPort "2001:db8::1").map Prod.fst = .error ⟨tooManyColons, "2001:db8::1"⟩ := by
  decide

/-! ### Positions of the separators -/

section Positions

variable {c : Char} {l r : List Char}

theorem index_eq_none (h : c ∉ l) : index c l = none := by
  induction l with
  | nil => rfl
  | cons x l ih =>
    simp only [List.mem_cons, not_or] at h
    simp [index, ih h.2, Ne.symm h.1]

theorem index_append_cons (h : c ∉ l) : index c (l ++ c :: r) = some l.length := by
  induction l with
  | nil => simp [index]
  | cons x l ih =>
    simp only [List.mem_cons, not_or] at h
    simp [index, ih h.2, Ne.symm h.1]

theorem index_eq_some {i : Nat} (h : index c l = some i) :
    ∃ u v, l = u ++ c :: v ∧ u.length = i ∧ c ∉ u := by
  induction l generalizing i with
  | nil => cases h
  | cons x l ih =>
    simp only [index] at h
    split at h
    · obtain rfl := Option.some.inj h
      exact ⟨[], l, by simp_all, rfl, List.not_mem_nil _⟩
    · obtain ⟨i', hi', rfl⟩ := Option.map_eq_some'.mp h
      obtain ⟨u, v, rfl, rfl, hu⟩ := ih hi'
      exact ⟨x :: u, v, rfl, rfl, by simp_all [eq_comm]⟩

theorem lastIndex_append_cons (h : c ∉ r) : Url.lastIndex c (l ++ c :: r) = some l.length := by
  induction l with
  | nil => simp [Url.lastIndex, Url.lastIndex_eq_none h]
  | cons x l ih => simp [Url.lastIndex, ih]

theorem lastIndex_eq_none_iff : Url.lastIndex c l = none ↔ c ∉ l := by
  induction l with
  | nil => simp [Url.lastIndex]
  | cons x l ih =>
    cases h : Url.lastIndex c l with
    | some i => simp [Url.lastIndex, h, ih.not_left.mp (by simp [h])]
    | none =>
      by_cases hx : x = c
      · subst hx
        simp [Url.lastIndex, h]
      · simp [Url.lastIndex, h, ih.mp h, hx, Ne.symm hx]

theorem lastIndex_eq_some {i : Nat} (h : Url.lastIndex c l = some i) :
    ∃ u v, l = u ++ c :: v ∧ u.length = i ∧ c ∉ v := by
  induction l generalizing i with
  | nil => cases h
  | cons x l ih =>
    simp only [Url.lastIndex] at h
    split at h
    · obtain rfl := Option.some.inj h
      obtain ⟨u, v, rfl, rfl, hv⟩ := ih ‹_›
      exact ⟨x :: u, v, rfl, rfl, hv⟩
    · split at h
      · obtain rfl := Option.some.inj h
        subst c
        exact ⟨[], l, rfl, rfl, lastIndex_eq_none_iff.mp ‹_›⟩
      · cases h

end Positions

/-! ### The forms `SplitHostPort` accepts -/

/-- What `splitHost` finds for the text `u ++ ':' :: v` whose last `:` ends `u`. -/
theorem splitHost_eq_ok {u v : List Char} {host : String} {j k : Nat}
    (h : splitHost ⟨u ++ ':' :: v⟩ u.length = .ok (host, j, k)) :
    (u.head? ≠ some '[' ∧ ':' ∉ u ∧ host.data = u ∧ j = 0 ∧ k = 0) ∨
      (∃ a, u = '[' :: a ++ [']'] ∧ ']' ∉ a ∧ host.data = a ∧ j = 1 ∧ k = u.length) := by
  unfold splitHost at h
  dsimp only at h
  split at h
  next hb =>
    split at h
    · cases h
    next e he =>
      obtain ⟨a, b, hab, rfl, ha⟩ := index_eq_some he
      split at h
      · cases h
      split at h
      next hi =>
        obtain ⟨rfl, hjk⟩ := Prod.mk.inj (Except.ok.inj h)
        obtain ⟨rfl, rfl⟩ := Prod.mk.inj hjk
        right
        have hu : u = a ++ [']'] := by
          have := congrArg (List.take u.length) hab
          rw [List.take_left, List.take_append_eq_append_take, List.take_of_length_le (by omega),
            show u.length - a.length = 1 by omega] at this
          simpa using this
        obtain ⟨x, a', rfl⟩ : ∃ x a', a = x :: a' := by
          cases a with
          | nil => simp [hu] at hb
          | cons x a' => exact ⟨x, a', rfl⟩
        obtain rfl : x = '[' := by simpa [hu] using hb
        refine ⟨a', by simp [hu], fun hm => ha (.tail _ hm), ?_, rfl, by simp [hu]⟩
        simp [hab]
      · split at h <;> cases h
  next hb =>
    split at h
    · cases h
    next hc =>
      simp only [List.take_left'] at hc h
      obtain ⟨rfl, hjk⟩ := Prod.mk.inj (Except.ok.inj h)
      obtain ⟨rfl, rfl⟩ := Prod.mk.inj hjk
      exact .inl ⟨by simpa [List.head?_append] using hb, by simpa using hc, rfl, rfl, rfl⟩

/-- **What `SplitHostPort` accepts is a host and a port** joined as `host:port`, with no `:` in
the host, or as `[host]:port`. The port holds no `:`, and neither part holds a bracket. -/
theorem splitHostPort_eq_ok {hostport host port : String}
    (h : splitHostPort hostport = .ok (host, port)) :
    ('[' ∉ host.data ∧ ']' ∉ host.data) ∧ ('[' ∉ port.data ∧ ']' ∉ port.data ∧ ':' ∉ port.data) ∧
      ((hostport.data = host.data ++ ':' :: port.data ∧ ':' ∉ host.data) ∨
        hostport.data = '[' :: host.data ++ ']' :: ':' :: port.data) := by
  obtain ⟨s⟩ := hostport
  unfold splitHostPort at h
  dsimp only at h
  split at h
  · cases h
  next i hi =>
    obtain ⟨u, v, rfl, rfl, hv⟩ := lastIndex_eq_some hi
    split at h
    · cases h
    next host' j k hs =>
      split at h
      · cases h
      split at h
      · cases h
      next hj hk =>
        obtain ⟨rfl, rfl⟩ := Prod.mk.inj (Except.ok.inj h)
        have hp : (⟨List.drop (u.length + 1) (u ++ ':' :: v)⟩ : String).data = v := by simp
        rw [hp]
        rcases splitHost_eq_ok hs with ⟨-, hc, hh, rfl, rfl⟩ | ⟨a, rfl, ha, hh, rfl, rfl⟩
        · simp only [List.drop_zero, List.mem_append, List.mem_cons, not_or] at hj hk
          rw [hh]
          exact ⟨⟨hj.1, hk.1⟩, ⟨hj.2.2, hk.2.2, hv⟩, .inl ⟨rfl, hc⟩⟩
        · simp only [List.cons_append, List.drop_succ_cons, List.drop_zero, List.append_assoc,
            List.singleton_append, List.mem_append, List.mem_cons, not_or] at hj hk
          have hk' : ']' ∉ v := fun hm => hk (by
            rw [show '[' :: (a ++ ']' :: ([] ++ ':' :: v)) = '[' :: (a ++ [']']) ++ ':' :: v by simp,
              List.drop_left]
            exact .tail _ hm)
          rw [hh]
          exact ⟨⟨hj.1, ha⟩, ⟨hj.2.2.2.2, hk', hv⟩, .inr (by simp)⟩

/-- `host:port` splits into its host and its port. -/
theorem splitHostPort_hostPort {host port : List Char} (hh : '[' ∉ host ∧ ']' ∉ host ∧ ':' ∉ host)
    (hp : '[' ∉ port ∧ ']' ∉ port ∧ ':' ∉ port) :
    splitHostPort ⟨host ++ ':' :: port⟩ = .ok (⟨host⟩, ⟨port⟩) := by
  have hb : host.head? ≠ some '[' := fun h => hh.1 (List.mem_of_mem_head? h)
  simp [splitHostPort, lastIndex_append_cons hp.2.2, splitHost, hb, hh.2.2, hh.1, hh.2.1, hp.1,
    hp.2.1]

/-- `[host]:port` splits into its host and its port. -/
theorem splitHostPort_bracketed {host port : List Char} (hh : '[' ∉ host ∧ ']' ∉ host)
    (hp : '[' ∉ port ∧ ']' ∉ port ∧ ':' ∉ port) :
    splitHostPort ⟨'[' :: host ++ ']' :: ':' :: port⟩ = .ok (⟨host⟩, ⟨port⟩) := by
  have hi := lastIndex_append_cons (l := '[' :: host ++ [']']) hp.2.2
  have he := index_append_cons (c := ']') (l := '[' :: host) (r := ':' :: port)
    (by simpa [eq_comm] using hh.2)
  simp only [List.append_assoc, List.singleton_append, List.cons_append, List.nil_append,
    List.length_cons, List.length_append, List.length_nil] at hi he
  simp [splitHostPort, hi, splitHost, he, hh.1, hp.1, hp.2.1]

/-- **The forms `SplitHostPort` accepts**: `host:port` with no `:` in the host, and
`[host]:port`, where the port holds no `:` and neither part holds a bracket. -/
theorem splitHostPort_eq_ok_iff {hostport host port : String} :
    splitHostPort hostport = .ok (host, port) ↔
      ('[' ∉ host.data ∧ ']' ∉ host.data) ∧ ('[' ∉ port.data ∧ ']' ∉ port.data ∧ ':' ∉ port.data) ∧
        ((hostport.data = host.data ++ ':' :: port.data ∧ ':' ∉ host.data) ∨
          hostport.data = '[' :: host.data ++ ']' :: ':' :: port.data) := by
  refine ⟨splitHostPort_eq_ok, ?_⟩
  obtain ⟨s⟩ := hostport
  rintro ⟨hh, hp, ⟨rfl, hc⟩ | rfl⟩
  · exact splitHostPort_hostPort ⟨hh.1, hh.2, hc⟩ hp
  · exact splitHostPort_bracketed hh hp

/-- **`SplitHostPort` undoes `JoinHostPort`** for a host and a port without brackets and a port
without `:`, whether or not the host is an IPv6 address. -/
theorem splitHostPort_joinHostPort {host port : String} (hh : '[' ∉ host.data ∧ ']' ∉ host.data)
    (hp : '[' ∉ port.data ∧ ']' ∉ port.data ∧ ':' ∉ port.data) :
    splitHostPort (joinHostPort host port) = .ok (host, port) := by
  unfold joinHostPort
  split
  · rw [show "[" ++ host ++ "]:" ++ port = ⟨'[' :: host.data ++ ']' :: ':' :: port.data⟩ from
      String.ext (by simp)]
    exact splitHostPort_bracketed hh hp
  · rw [show host ++ ":" ++ port = ⟨host.data ++ ':' :: port.data⟩ from String.ext (by simp)]
    exact splitHostPort_hostPort ⟨hh.1, hh.2, ‹_›⟩ hp

end Net

end AdsTxtAnalyzer
