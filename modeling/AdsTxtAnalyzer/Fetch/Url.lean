import AdsTxtAnalyzer.GoStrings

/-!
# Go's `net/url`: parsing a URL up to its host

`HTTPFetcher.normalizeDomain` parses `"http://" + domain` with `url.Parse` and returns its
`Hostname()`, and `http.NewRequestWithContext` parses the URL it is given. This module models
`url.Parse` of Go 1.24 as far as these calls read it: whether it fails, and the host.

* The fragment after the first `#` is cut off, and must be well escaped (`setFragment`).
* A control character anywhere is an error.
* The scheme runs up to the first `:` (`getScheme`), and the query after the first `?` is
  cut off.
* A rest without a leading `/` is opaque under a scheme, with no host. Without a scheme, its
  first segment may not hold a `:`.
* After `//`, the authority runs to the next `/` (`parseAuthority`). Its host is what follows
  the last `@` (`parseHost`). The host must have a valid port after its last `:`, and only
  characters a host may carry (`unescape` in host mode). The user information before the `@`
  may hold only the characters `validUserinfo` allows.
* The path must be well escaped (`setPath`).

The router's redirect writes a URL back (`URL.String`): its path escaped (`escape`, byte by
byte over the path's UTF-8 encoding, `%XY` with upper-case digits for every byte
`shouldEscape` does not keep), then its query. **Escaping is undone by `unescape`**
(`unescape_escape_path`): the escaped text of an ASCII path decodes to that path.

`URL.hostname` is `Hostname()`: the host without its port and without the brackets of an IPv6
literal. The record `URL` keeps only `Host`, the one field the program reads. An error is its
text, with `%q` quoting written as plain double quotes, as `strconv.Quote` writes a text
without quotes, backslashes or control characters. A percent-escape decodes to a byte; the
model takes a byte above `0x7f` as the character with that number, where Go keeps the byte.
-/

namespace AdsTxtAnalyzer

namespace Url

/-- The encoding modes of `net/url` that `Parse` uses. -/
inductive Encoding
  | path
  | host
  | zone
  | userPassword
  | fragment
  deriving DecidableEq

/-- `ishex`. -/
def ishex (c : Char) : Bool := ('0' ≤ c && c ≤ '9') || ('a' ≤ c && c ≤ 'f') || ('A' ≤ c && c ≤ 'F')

/-- `unhex`. -/
def unhex (c : Char) : Nat :=
  if '0' ≤ c ∧ c ≤ '9' then c.toNat - '0'.toNat
  else if 'a' ≤ c ∧ c ≤ 'f' then c.toNat - 'a'.toNat + 10
  else if 'A' ≤ c ∧ c ≤ 'F' then c.toNat - 'A'.toNat + 10
  else 0

/-- The apostrophe, which a host and user information may carry. -/
def apostrophe : Char := Char.ofNat 39

/-- `shouldEscape(c, mode)` for an ASCII character. -/
def shouldEscape (c : Char) (mode : Encoding) : Bool :=
  if isAlnum c then false
  else if (mode = .host ∨ mode = .zone) ∧
      c ∈ ['!', '$', '&', apostrophe, '(', ')', '*', '+', ',', ';', '=', ':', '[', ']', '<', '>',
        '"'] then false
  else if c ∈ ['-', '_', '.', '~'] then false
  else if c ∈ ['$', '&', '+', ',', '/', ':', ';', '=', '?', '@'] then
    match mode with
    | .path => c == '?'
    | .userPassword => c == '@' || c == '/' || c == '?' || c == ':'
    | .fragment => false
    | .host | .zone => true
  else if mode = .fragment ∧ c ∈ ['!', '(', ')', '*'] then false
  else true

/-- `strconv.Quote` of a text without quotes, backslashes or control characters. -/
def quote (s : List Char) : String := "\"" ++ String.mk s ++ "\""

/-- `unescape(s, mode)`: the text with its percent-escapes decoded, or the first error. -/
def unescape : List Char → Encoding → Except String (List Char)
  | [], _ => .ok []
  | '%' :: h1 :: h2 :: s, mode =>
    if ishex h1 ∧ ishex h2 then
      let v := unhex h1 * 16 + unhex h2
      if mode = .host ∧ unhex h1 < 8 ∧ ¬(h1 = '2' ∧ h2 = '5') then
        .error ("invalid URL escape " ++ quote ['%', h1, h2])
      else if mode = .zone ∧ ¬(h1 = '2' ∧ h2 = '5') ∧ v ≠ 32 ∧
          (128 ≤ v ∨ shouldEscape (Char.ofNat v) .host) then
        .error ("invalid URL escape " ++ quote ['%', h1, h2])
      else (unescape s mode).map (Char.ofNat v :: ·)
    else .error ("invalid URL escape " ++ quote ['%', h1, h2])
  | '%' :: s, _ => .error ("invalid URL escape " ++ quote ('%' :: s))
  | c :: s, mode =>
    if (mode = .host ∨ mode = .zone) ∧ c.toNat < 128 ∧ shouldEscape c mode then
      .error ("invalid character " ++ quote [c] ++ " in host name")
    else (unescape s mode).map (c :: ·)

/-- The position of the last occurrence of `c`. -/
def lastIndex (c : Char) : List Char → Option Nat
  | [] => none
  | x :: xs =>
    match lastIndex c xs with
    | some i => some (i + 1)
    | none => if x = c then some 0 else none

/-- The position of the first `%25`. -/
def indexPct25 : List Char → Option Nat
  | '%' :: '2' :: '5' :: _ => some 0
  | _ :: cs => (indexPct25 cs).map (· + 1)
  | [] => none

/-- `validOptionalPort`: empty, or a colon and digits. -/
def validOptionalPort : List Char → Bool
  | [] => true
  | ':' :: digits => digits.all fun b => '0' ≤ b && b ≤ '9'
  | _ => false

/-- `stringContainsCTLByte`. -/
def containsCTL (s : List Char) : Bool := s.any fun c => c.toNat < 32 || c.toNat == 127

/-- `validUserinfo`. -/
def validUserinfo (s : List Char) : Bool :=
  s.all fun r => ('A' ≤ r && r ≤ 'Z') || ('a' ≤ r && r ≤ 'z') || ('0' ≤ r && r ≤ '9') ||
    r ∈ ['-', '.', '_', ':', '~', '!', '$', '&', apostrophe, '(', ')', '*', '+', ',', ';', '=',
      '%', '@']

/-- The scan of `getScheme` from position `i`: `some k` when a `:` at `k` ends the scheme,
`none` when the text has no scheme. -/
def schemeEnd : List Char → Nat → Option Nat
  | [], _ => none
  | c :: cs, i =>
    if ('a' ≤ c ∧ c ≤ 'z') ∨ ('A' ≤ c ∧ c ≤ 'Z') then schemeEnd cs (i + 1)
    else if ('0' ≤ c ∧ c ≤ '9') ∨ c = '+' ∨ c = '-' ∨ c = '.' then
      if i = 0 then none else schemeEnd cs (i + 1)
    else if c = ':' then some i
    else none

/-- `getScheme`: the scheme and the rest. -/
def getScheme (rawURL : List Char) : Except String (List Char × List Char) :=
  match schemeEnd rawURL 0 with
  | none => .ok ([], rawURL)
  | some 0 => .error "missing protocol scheme"
  | some (i + 1) => .ok (rawURL.take (i + 1), rawURL.drop (i + 2))

/-- `parseHost`: the host of an authority without user information. -/
def parseHost (host : List Char) : Except String (List Char) :=
  if host.head? = some '[' then
    match lastIndex ']' host with
    | none => .error "missing ']' in host"
    | some i =>
      if !validOptionalPort (host.drop (i + 1)) then
        .error ("invalid port " ++ quote (host.drop (i + 1)) ++ " after host")
      else
        match indexPct25 (host.take i) with
        | some zone =>
          match unescape (host.take zone) .host, unescape ((host.take i).drop zone) .zone,
              unescape (host.drop i) .host with
          | .ok host1, .ok host2, .ok host3 => .ok (host1 ++ host2 ++ host3)
          | .error e, _, _ => .error e
          | _, .error e, _ => .error e
          | _, _, .error e => .error e
        | none => unescape host .host
  else
    match lastIndex ':' host with
    | some i =>
      if !validOptionalPort (host.drop i) then
        .error ("invalid port " ++ quote (host.drop i) ++ " after host")
      else unescape host .host
    | none => unescape host .host

/-- `parseAuthority`: the host of an authority; the user information before its last `@` is
checked and dropped. -/
def parseAuthority (authority : List Char) : Except String (List Char) :=
  match lastIndex '@' authority with
  | none => parseHost authority
  | some i =>
    match parseHost (authority.drop (i + 1)) with
    | .error e => .error e
    | .ok host =>
      let userinfo := authority.take i
      if !validUserinfo userinfo then .error "net/url: invalid userinfo"
      else if ':' ∉ userinfo then (unescape userinfo .userPassword).map fun _ => host
      else
        match unescape (userinfo.takeWhile (· ≠ ':')) .userPassword,
            unescape ((userinfo.dropWhile (· ≠ ':')).drop 1) .userPassword with
        | .ok _, .ok _ => .ok host
        | .error e, _ => .error e
        | _, .error e => .error e

/-- The record `url.URL`, with its one field the program reads. -/
structure URL where
  host : List Char
  deriving DecidableEq

/-- The rest of a URL after its scheme, with the query cut off (`ForceQuery` when the only
`?` ends it). -/
def cutQuery (rest : List Char) : List Char :=
  if rest.getLast? = some '?' ∧ rest.count '?' = 1 then rest.dropLast
  else rest.takeWhile (· ≠ '?')

/-- The unexported `parse(rawURL, false)`: a URL without its fragment. -/
def parse (rawURL : List Char) : Except String URL :=
  if containsCTL rawURL then .error "net/url: invalid control character in URL"
  else if rawURL = ['*'] then .ok ⟨[]⟩
  else
    match getScheme rawURL with
    | .error e => .error e
    | .ok (scheme, rest) =>
      let rest := cutQuery rest
      if rest.head? ≠ some '/' ∧ scheme ≠ [] then .ok ⟨[]⟩
      else if rest.head? ≠ some '/' ∧ ':' ∈ rest.takeWhile (· ≠ '/') then
        .error "first path segment in URL cannot contain colon"
      else if (scheme ≠ [] ∨ ¬ ['/', '/', '/'] <+: rest) ∧ ['/', '/'] <+: rest then
        match parseAuthority ((rest.drop 2).takeWhile (· ≠ '/')) with
        | .error e => .error e
        | .ok host => (unescape ((rest.drop 2).dropWhile (· ≠ '/')) .path).map fun _ => ⟨host⟩
      else (unescape rest .path).map fun _ => ⟨[]⟩

/-- The method `URL.Hostname`: the host without its port, and without brackets. -/
def URL.hostname (u : URL) : String :=
  let host :=
    match lastIndex ':' u.host with
    | some i => if validOptionalPort (u.host.drop i) then u.host.take i else u.host
    | none => u.host
  if host.head? = some '[' ∧ host.getLast? = some ']' then ⟨(host.drop 1).dropLast⟩ else ⟨host⟩

/-! ### Host names -/

/-- A character of a host name: an ASCII letter or digit, `-` or `.`. -/
def isHostNameChar (c : Char) : Bool := isAlnum c || c == '-' || c == '.'

/-- A host name: text of host-name characters only. -/
def IsHostName (h : List Char) : Prop := ∀ c ∈ h, isHostNameChar c = true

instance : DecidablePred IsHostName := fun h => inferInstanceAs (Decidable (∀ c ∈ h, _))

/-- A host name holds none of the characters that structure a URL. -/
theorem IsHostName.not_mem {h : List Char} (hh : IsHostName h) {c : Char}
    (hc : isHostNameChar c = false) : c ∉ h :=
  fun hm => Bool.false_ne_true (hc.symm.trans (hh c hm))

theorem isHostNameChar.not_ctl {c : Char} (hc : isHostNameChar c = true) :
    (c.toNat < 32 || c.toNat == 127) = false := by
  have hle : ∀ a b : Char, a ≤ b ↔ a.toNat ≤ b.toNat := fun _ _ => Iff.rfl
  have h0 : '0'.toNat = 48 := rfl
  have hA : 'A'.toNat = 65 := rfl
  have ha : 'a'.toNat = 97 := rfl
  have h9 : '9'.toNat = 57 := rfl
  have hZ : 'Z'.toNat = 90 := rfl
  have hz : 'z'.toNat = 122 := rfl
  simp only [isHostNameChar, isAlnum, Bool.or_eq_true, Bool.and_eq_true, decide_eq_true_eq,
    beq_iff_eq, hle] at hc
  rcases hc with (((⟨h1, h2⟩ | ⟨h1, h2⟩) | ⟨h1, h2⟩) | rfl) | rfl
  any_goals decide
  all_goals
    simp only [Bool.or_eq_false_iff, decide_eq_false_iff_not, beq_eq_false_iff_ne, ne_eq]
    omega

theorem isHostNameChar.shouldEscape_host {c : Char} (hc : isHostNameChar c = true) :
    shouldEscape c .host = false := by
  unfold shouldEscape
  simp only [isHostNameChar, Bool.or_eq_true, beq_iff_eq] at hc
  rcases hc with (h | rfl) | rfl
  · rw [if_pos h]
  · decide
  · decide

@[simp] theorem containsCTL_append (s t : List Char) :
    containsCTL (s ++ t) = (containsCTL s || containsCTL t) := List.any_append

@[simp] theorem containsCTL_cons (c : Char) (s : List Char) :
    containsCTL (c :: s) = ((c.toNat < 32 || c.toNat == 127) || containsCTL s) := List.any_cons

theorem IsHostName.containsCTL {h : List Char} (hh : IsHostName h) : containsCTL h = false :=
  List.any_eq_false.mpr fun c hc => by rw [isHostNameChar.not_ctl (hh c hc)]; decide

theorem head?_ne_of_not_mem {c : Char} {l : List Char} (h : c ∉ l) : l.head? ≠ some c :=
  fun he => h (List.mem_of_mem_head? he)

theorem lastIndex_eq_none {c : Char} {l : List Char} (h : c ∉ l) : lastIndex c l = none := by
  induction l with
  | nil => rfl
  | cons x l ih =>
    simp only [List.mem_cons, not_or] at h
    simp [lastIndex, ih h.2, Ne.symm h.1]

theorem lastIndex_append_singleton {c : Char} {l : List Char} (h : c ∉ l) :
    lastIndex c (l ++ [c]) = some l.length := by
  induction l with
  | nil => simp [lastIndex]
  | cons x l ih =>
    simp only [List.mem_cons, not_or] at h
    simp [lastIndex, ih h.2]

/-- Text without percent signs, and in a host without characters a host may not carry,
unescapes to itself. -/
theorem unescape_eq_ok {mode : Encoding} {s : List Char}
    (hs : ∀ c ∈ s, c ≠ '%' ∧ (mode = .host ∨ mode = .zone → shouldEscape c mode = false)) :
    unescape s mode = .ok s := by
  induction s with
  | nil => rfl
  | cons c s ih =>
    simp only [List.mem_cons, forall_eq_or_imp] at hs
    obtain ⟨⟨hc, hesc⟩, hs⟩ := hs
    rw [unescape.eq_4 _ _ _ (fun _ _ _ h _ => hc h) hc,
      if_neg (fun ⟨hm, _, he⟩ => by simp [hesc hm] at he), ih hs]
    rfl

/-- Host-name characters, and a `:`, unescape to themselves in a host. -/
theorem unescape_host_name {h : List Char} (hh : ∀ c ∈ h, isHostNameChar c = true ∨ c = ':') :
    unescape h .host = .ok h :=
  unescape_eq_ok fun c hc => by
    rcases hh c hc with hc | rfl
    · exact ⟨fun he => absurd (he ▸ hc) (by decide), fun _ => isHostNameChar.shouldEscape_host hc⟩
    · exact ⟨by decide, fun _ => by decide⟩

/-- The authority of a URL that is a host name is its host. -/
theorem parseAuthority_host_name {h : List Char} (hh : IsHostName h) : parseAuthority h = .ok h := by
  have hat : '@' ∉ h := hh.not_mem rfl
  have hcolon : ':' ∉ h := hh.not_mem rfl
  rw [parseAuthority, lastIndex_eq_none hat, parseHost,
    if_neg (head?_ne_of_not_mem (hh.not_mem (c := '[') rfl)),
    lastIndex_eq_none hcolon]
  exact unescape_host_name fun c hc => .inl (hh c hc)

/-- A host name followed by a `:` with no port after it is a host: the port is empty. -/
theorem parseAuthority_empty_port {p : List Char} (hp : IsHostName p) :
    parseAuthority (p ++ [':']) = .ok (p ++ [':']) := by
  have hat : '@' ∉ p ++ [':'] := by simpa using hp.not_mem (c := '@') rfl
  have hcolon : ':' ∉ p := hp.not_mem rfl
  rw [parseAuthority, lastIndex_eq_none hat]
  dsimp only
  rw [parseHost, if_neg (head?_ne_of_not_mem (by simpa using hp.not_mem (c := '[') rfl)),
    lastIndex_append_singleton hcolon]
  dsimp only
  rw [List.drop_left, if_neg (by decide)]
  exact unescape_host_name fun c hc => by
    rcases List.mem_append.mp hc with hc | hc
    · exact .inl (hp c hc)
    · exact .inr (List.mem_singleton.mp hc)

/-- An `http` URL whose authority `a` is followed by a path `r` (empty or starting with `/`)
parses to the host of its authority. -/
theorem parse_http {a r : List Char} (ha : '/' ∉ a) (hr : ∀ c ∈ r.head?, c = '/')
    (hq : '?' ∉ a ++ r) (hpct : '%' ∉ r) (hctl : containsCTL (a ++ r) = false) :
    parse (['h', 't', 't', 'p', ':', '/', '/'] ++ (a ++ r)) = (parseAuthority a).map URL.mk := by
  have hq' : '?' ∉ ['/', '/'] ++ (a ++ r) := by simpa using hq
  have hcut : cutQuery (['/', '/'] ++ (a ++ r)) = ['/', '/'] ++ (a ++ r) := by
    rw [cutQuery, if_neg (by rw [List.count_eq_zero.mpr hq']; omega), List.takeWhile_eq_self_iff]
    exact fun x hx => by simpa using fun he : x = '?' => hq' (he ▸ hx)
  have hna : ∀ x ∈ a, decide (x ≠ '/') = true := fun x hx => by
    simpa using fun he : x = '/' => ha (he ▸ hx)
  have hauth : ((['/', '/'] ++ (a ++ r)).drop 2).takeWhile (· ≠ '/') = a := by
    show (a ++ r).takeWhile _ = a
    rw [List.takeWhile_append_of_pos hna]
    cases r with
    | nil => simp
    | cons c r => simp [hr c rfl]
  have hpath : ((['/', '/'] ++ (a ++ r)).drop 2).dropWhile (· ≠ '/') = r := by
    show (a ++ r).dropWhile _ = r
    rw [List.dropWhile_append_of_pos hna]
    cases r with
    | nil => rfl
    | cons c r => simp [hr c rfl]
  have hs : getScheme (['h', 't', 't', 'p', ':', '/', '/'] ++ (a ++ r)) =
      .ok (['h', 't', 't', 'p'], ['/', '/'] ++ (a ++ r)) := rfl
  unfold parse
  rw [if_neg (by simpa [containsCTL] using hctl), if_neg (by simp), hs]
  dsimp only
  rw [hcut, if_neg (by simp), if_neg (by simp), if_pos ⟨.inl (by simp), by simp⟩, hauth, hpath,
    unescape_eq_ok fun c hc => ⟨fun he => hpct (he ▸ hc), by simp⟩]
  cases parseAuthority a <;> rfl

/-- `http://` and a host name parse to that host. -/
theorem parse_http_host_name {h : List Char} (hh : IsHostName h) :
    parse (['h', 't', 't', 'p', ':', '/', '/'] ++ h) = .ok ⟨h⟩ := by
  have := parse_http (r := []) (hh.not_mem rfl) (by simp) (by simpa using hh.not_mem (c := '?') rfl)
    (by simp) (by simpa using hh.containsCTL)
  rwa [List.append_nil, parseAuthority_host_name hh] at this

/-- `http://` followed by a host name `p`, a `:` and `//h` parses to the host `p:` with an
empty port: the text before `://` is read as the authority. -/
theorem parse_http_empty_port {p h : List Char} (hp : IsHostName p) (hh : IsHostName h) :
    parse (['h', 't', 't', 'p', ':', '/', '/'] ++ (p ++ ':' :: '/' :: '/' :: h)) =
      .ok ⟨p ++ [':']⟩ := by
  have := parse_http (a := p ++ [':']) (r := '/' :: '/' :: h)
    (by simpa using hp.not_mem (c := '/') rfl)
    (by simp) (by simp [hp.not_mem (c := '?') rfl, hh.not_mem (c := '?') rfl])
    (by simpa using hh.not_mem (c := '%') rfl) (by simp [hp.containsCTL, hh.containsCTL])
  rwa [List.append_assoc, parseAuthority_empty_port hp] at this

/-- The host of a URL whose authority is a host name. -/
theorem hostname_of_host_name {h : List Char} (hh : IsHostName h) :
    (URL.mk h).hostname = ⟨h⟩ := by
  simp only [URL.hostname, lastIndex_eq_none (hh.not_mem (c := ':') rfl)]
  rw [if_neg fun hb => head?_ne_of_not_mem (hh.not_mem (c := '[') rfl) hb.1]

/-- `Hostname()` drops an empty port. -/
theorem hostname_empty_port {p : List Char} (hp : IsHostName p) :
    (URL.mk (p ++ [':'])).hostname = ⟨p⟩ := by
  have hport : validOptionalPort [':'] = true := by decide
  simp only [URL.hostname, lastIndex_append_singleton (hp.not_mem (c := ':') rfl), List.drop_left,
    hport, if_true, List.take_left]
  rw [if_neg fun hb => head?_ne_of_not_mem (hp.not_mem (c := '[') rfl) hb.1]

/-! ### Writing a URL back -/

/-- The digit `upperhex[n]`, for `n < 16`. -/
def upperhex (n : Nat) : Char := Char.ofNat (if n < 10 then 48 + n else 55 + n)

/-- The escape `%XY` of a byte. -/
def escapeByte (b : Nat) : List Char := ['%', upperhex (b / 16), upperhex (b % 16)]

/-- `escape(s, mode)`, over the bytes of the UTF-8 encoding of `s`: an ASCII character that
`shouldEscape` keeps stays, and every other byte is written `%XY`. -/
def escape (s : List Char) (mode : Encoding) : List Char :=
  s.flatMap fun c =>
    if c.toNat < 128 ∧ shouldEscape c mode = false then [c]
    else (String.utf8EncodeChar c).flatMap fun b => escapeByte b.toNat

/-- The method `URL.String` of a URL with no scheme, user, host or fragment, as the URL of a
request in origin form is: the path escaped (`EscapedPath`, for a path that is not `*` and that
its `RawPath` does not spell), a `./` in front of a first segment holding a `:`, then the query
after a `?` when there is one or `ForceQuery` is set. -/
def originString (path rawQuery : List Char) (forceQuery : Bool) : List Char :=
  let path := escape path .path
  (if ':' ∈ path.takeWhile (· ≠ '/') then ['.', '/'] else []) ++ path ++
    (if forceQuery = true ∨ rawQuery ≠ [] then '?' :: rawQuery else [])

theorem ishex_upperhex : ∀ n < 16, ishex (upperhex n) = true := by decide

theorem unhex_upperhex : ∀ n < 16, unhex (upperhex n) = n := by decide

theorem shouldEscape_percent (mode : Encoding) : shouldEscape '%' mode = true := by
  cases mode <;> decide

/-- The escape of a byte decodes to the character of that byte, in a path. -/
theorem unescape_escapeByte {b : Nat} (hb : b < 256) (rest : List Char) :
    unescape (escapeByte b ++ rest) .path =
      (unescape rest .path).map (Char.ofNat b :: ·) := by
  have h1 : b / 16 < 16 := by omega
  have h2 : b % 16 < 16 := Nat.mod_lt _ (by decide)
  have hv : b / 16 * 16 + b % 16 = b := by omega
  simp only [escapeByte, List.cons_append, List.nil_append]
  rw [unescape, if_pos ⟨ishex_upperhex _ h1, ishex_upperhex _ h2⟩]
  simp [unhex_upperhex _ h1, unhex_upperhex _ h2, hv]

/-- **Escaping a path is undone by `unescape`**, for an ASCII path. -/
theorem unescape_escape_path {s : List Char} (hs : ∀ c ∈ s, c.toNat < 128) :
    unescape (escape s .path) .path = .ok s := by
  induction s with
  | nil => rfl
  | cons c s ih =>
    simp only [List.mem_cons, forall_eq_or_imp] at hs
    have hrest := ih hs.2
    have hutf : String.utf8EncodeChar c = [c.toNat.toUInt8] := by
      have hv : c.val ≤ 127 := Nat.le_of_lt_succ hs.1
      simp [String.utf8EncodeChar, hv]
      rfl
    rw [escape, List.flatMap_cons, ← escape]
    split_ifs with hkeep
    · have hpct : c ≠ '%' := fun h => by simp [h, shouldEscape_percent] at hkeep
      rw [List.singleton_append, unescape.eq_4 _ _ _ (fun _ _ _ h _ => hpct h) hpct,
        if_neg (fun ⟨hm, _⟩ => by rcases hm with hm | hm <;> cases hm), hrest]
      rfl
    · have hb : c.toNat.toUInt8.toNat = c.toNat := by
        simp [Nat.toUInt8, UInt8.toNat, UInt8.ofNat, Fin.ofNat, Nat.mod_eq_of_lt (by omega : c.toNat < 256)]
      rw [hutf, List.flatMap_singleton, hb, unescape_escapeByte (by omega), hrest,
        Char.ofNat_toNat]
      rfl

end Url

/-- `url.Parse`: the URL, or the error `parse "<url>": <reason>`. -/
def urlParse (rawURL : String) : Except String Url.URL :=
  let u := rawURL.data.takeWhile (· ≠ '#')
  let frag := (rawURL.data.dropWhile (· ≠ '#')).drop 1
  match Url.parse u with
  | .error e => .error ("parse " ++ Url.quote u ++ ": " ++ e)
  | .ok url =>
    if frag = [] then .ok url
    else
      match Url.unescape frag .fragment with
      | .error e => .error ("parse " ++ Url.quote rawURL.data ++ ": " ++ e)
      | .ok _ => .ok url

/-- A URL without a fragment parses as its text does. -/
theorem urlParse_of_parse {s : String} {u : Url.URL} (hf : '#' ∉ s.data)
    (hp : Url.parse s.data = .ok u) : urlParse s = .ok u := by
  have hne : ∀ x ∈ s.data, decide (x ≠ '#') = true := fun x hx => by
    simpa using fun he : x = '#' => hf (he ▸ hx)
  unfold urlParse
  rw [List.takeWhile_eq_self_iff.mpr hne, List.dropWhile_eq_nil_iff.mpr hne]
  dsimp only
  rw [hp]
  rfl

end AdsTxtAnalyzer
