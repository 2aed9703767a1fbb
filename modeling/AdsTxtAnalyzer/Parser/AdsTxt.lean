import AdsTxtAnalyzer.Models
import AdsTxtAnalyzer.Parser.Domain

/-!
# The ads.txt parser: `Parser.Parse`

`Parse` splits the content at line feeds, trims each line, skips empty lines and lines that
start with `#`, and keeps the entry of every line `parseLine` accepts; it fails on empty
content and on content with no entry. `parseLine` matches the line against

  `^([^,\s]+),\s*([^,\s]+),\s*(DIRECT|RESELLER|direct|reseller)(?:,\s*([^,\s]+))?\s*$`

and builds the entry from the groups: the exchange domain in lower case, the publisher id,
the account type in upper case and the optional certification authority. The exchange
domain must then pass `isValidDomain`.

Every entry `Parse` returns is well formed: its exchange domain passes `isValidDomain` and its
account type is `DIRECT` or `RESELLER` (`parseLine_ok`, `parse_ok`). The account type is the
text the third group captured, one of the pattern's four spellings
(`validLineRegex_captures_three`, from the soundness of captures `Regex.Derives.captures`).

The pattern lists the account types in two spellings each, upper and lower case, although
the comment above it says it handles them case-insensitively: a record written `Direct` does
not match. Nor does a record with a comment after it, since `\s*$` allows only white space
there. Both lines are dropped (`parse_drops_mixed_case_and_commented_records`).
-/

namespace AdsTxtAnalyzer

/-- The class `\s` of Go's regular expressions, `[\t\n\f\r ]`. -/
def isRegexSpace (c : Char) : Bool :=
  c == '\t' || c == '\n' || c == '\x0c' || c == '\r' || c == ' '

/-- The class `[^,\s]` of a field. -/
def isField (c : Char) : Bool := c != ',' && !isRegexSpace c

/-- The pattern `validLineRegex` of `newParser`. -/
def validLineRegex : Regex :=
  let field := Regex.plus (.cls isField)
  let spaces := Regex.star (.cls isRegexSpace)
  .cat (.group 1 field) <| .cat (.char ',') <| .cat spaces <|
  .cat (.group 2 field) <| .cat (.char ',') <| .cat spaces <|
  .cat (.group 3 (.alt (.lit "DIRECT".data) (.alt (.lit "RESELLER".data)
    (.alt (.lit "direct".data) (.lit "reseller".data))))) <|
  .cat (.opt (.cat (.char ',') (.cat spaces (.group 4 field)))) spaces

/-- The method `parseLine`: the entry of a record line, or the error for a line that does not
match or whose exchange domain is not valid. The source's `matches` is `submatches` here. -/
def parseLine (line : String) : Except String AdsTxtEntry :=
  let submatches := validLineRegex.findStringSubmatch 4 line
  if submatches.length < 4 then .error ("invalid ads.txt format: invalid line format: " ++ line)
  else
    let entry : AdsTxtEntry :=
      { exchangeDomain := Strings.toLower (Strings.trimSpace (submatches.getD 1 ""))
        publisherID := Strings.trimSpace (submatches.getD 2 "")
        accountType := Strings.toUpper (Strings.trimSpace (submatches.getD 3 ""))
        certificationAuth :=
          if submatches.length > 4 ∧ submatches.getD 4 "" ≠ "" then
            Strings.trimSpace (submatches.getD 4 "")
          else "" }
    if !isValidDomain entry.exchangeDomain then
      .error ("invalid ads.txt format: invalid exchange domain: " ++ entry.exchangeDomain)
    else .ok entry

/-- What the third group of the line pattern captures: one of the four spellings of the
account type. -/
theorem validLineRegex_captures_three {v : List Char} :
    validLineRegex.Captures 3 v ↔
      v = "DIRECT".data ∨ v = "RESELLER".data ∨ v = "direct".data ∨ v = "reseller".data := by
  simp [validLineRegex, Regex.plus, Regex.opt, Regex.Captures, Regex.not_captures_lit,
    Regex.matches_lit]

/-- **A record line is well formed.** The entry of every line `parseLine` accepts has an
exchange domain `isValidDomain` accepts and the account type `DIRECT` or `RESELLER`. -/
theorem parseLine_ok {line : String} {entry : AdsTxtEntry} (h : parseLine line = .ok entry) :
    isValidDomain entry.exchangeDomain = true ∧
      (entry.accountType = "DIRECT" ∨ entry.accountType = "RESELLER") := by
  unfold parseLine at h
  dsimp only at h
  split at h
  · cases h
  next hlen =>
    obtain ⟨caps, hcaps⟩ := Regex.findStringSubmatch_of_ne_nil
      (fun he => hlen (by rw [he]; decide))
    split at h
    · cases h
    next hvalid =>
      obtain rfl := Except.ok.inj h
      refine ⟨by simpa using hvalid, ?_⟩
      have hd := Regex.firstMatch_derives hcaps
      have h3 := hd.captures _ (Regex.mem_capture (hd.mandatory (i := 3) rfl))
      rw [validLineRegex_captures_three] at h3
      rw [Regex.findStringSubmatch_of_firstMatch hcaps]
      suffices Strings.toUpper (Strings.trimSpace (Regex.capture caps 3)) = "DIRECT" ∨
          Strings.toUpper (Strings.trimSpace (Regex.capture caps 3)) = "RESELLER" from this
      rcases h3 with h3 | h3 | h3 | h3 <;>
        rw [show Regex.capture caps 3 = ⟨_⟩ from String.ext h3] <;> decide

/-- The entry a line of the content contributes to `Parse`'s loop, if any: empty lines and
comment lines are skipped, and so are lines `parseLine` rejects. -/
def lineEntry (line : String) : Option AdsTxtEntry :=
  let line := Strings.trimSpace line
  if line = "" ∨ Strings.hasPrefix line "#" = true then none
  else (parseLine line).toOption

/-- The method `Parser.Parse`. -/
def parse (content : String) : Except String (List AdsTxtEntry) :=
  if content = "" then .error "invalid ads.txt format: empty content"
  else
    let entries := (Strings.split content '\n').filterMap lineEntry
    if entries.length = 0 then .error "invalid ads.txt format: no valid entries found"
    else .ok entries

/-- **Every entry `Parse` returns is well formed**, and it returns at least one: each has an
exchange domain `isValidDomain` accepts and the account type `DIRECT` or `RESELLER`. -/
theorem parse_ok {content : String} {entries : List AdsTxtEntry}
    (h : parse content = .ok entries) :
    entries ≠ [] ∧ ∀ e ∈ entries, isValidDomain e.exchangeDomain = true ∧
      (e.accountType = "DIRECT" ∨ e.accountType = "RESELLER") := by
  unfold parse at h
  split at h
  · cases h
  · dsimp only at h
    split at h
    · cases h
    next hlen =>
      cases h
      refine ⟨fun he => hlen (by rw [he]; rfl), fun e he => ?_⟩
      obtain ⟨line, -, hl⟩ := List.mem_filterMap.mp he
      unfold lineEntry at hl
      dsimp only at hl
      split at hl
      · cases hl
      · cases hp : parseLine (Strings.trimSpace line) with
        | error => rw [hp] at hl; cases hl
        | ok e' => rw [hp] at hl; cases hl; exact parseLine_ok hp

example : parse "google.com, pub-123456789, DIRECT, f08c47fec0942fa0\nfacebook.com, 123456789, reseller" =
    .ok [⟨"google.com", "pub-123456789", "DIRECT", "f08c47fec0942fa0"⟩,
      ⟨"facebook.com", "123456789", "RESELLER", ""⟩] := by
  decide

theorem parse_drops_mixed_case_and_commented_records :
    parse "example.com, pub-1, Direct" = .error "invalid ads.txt format: no valid entries found" ∧
      parse "example.com, pub-1, DIRECT # record of the exchange" =
        .error "invalid ads.txt format: no valid entries found" := by
  decide

end AdsTxtAnalyzer
