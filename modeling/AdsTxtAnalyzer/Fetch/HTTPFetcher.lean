import AdsTxtAnalyzer.Fetch.Url

/-!
# The ads.txt fetcher: `HTTPFetcher`

`Fetch(domain)` normalizes the domain (`normalizeDomain`), builds `https://<host>/ads.txt`,
sends the request, maps a 404 and any other status but 200 to errors, and reads the body with
a limit of 1 MiB (`readBodyWithLimit`).

The network is an input: `fetch` takes the client's answer (a response, or the transport
error's text) and whether the request's deadline had passed. Redirects, TLS and the timeout
are the client's, and so are left out. A body is a byte string; `string(body)` hands its bytes
on unchanged, so `fetch` returns them.

* **`normalizeDomain`** trims a lower-case `http://` or `https://` and takes `Hostname()` of
  `url.Parse("http://" + domain)`. A host name is its own normal form, with or without either
  prefix (`normalizeDomain_host`). A scheme written in another case is not trimmed, and the
  parser reads it as the host of an authority ending in `:`. The scheme itself comes back as
  the host (`normalizeDomain_scheme`, `normalizeDomain_uppercase_scheme`).
* **`readBodyWithLimit`** reads at most `maxSize` bytes and fails when it read `maxSize` or
  more. A body of exactly `maxSize` bytes is refused, so `Fetch` refuses an ads.txt file of
  exactly 1 MiB (`readBodyWithLimit_eq`, `fetch_rejects_one_mebibyte_body`).
-/

namespace AdsTxtAnalyzer

namespace HTTPFetcher

/-! ### The domain -/

/-- The method `normalizeDomain`. Both branches of the source's `if` prepend `http://`. -/
def normalizeDomain (domain : String) : String :=
  let domain := Strings.trimPrefix domain "http://"
  let domain := Strings.trimPrefix domain "https://"
  let domain := if !Strings.contains domain "/" then "http://" ++ domain else "http://" ++ domain
  match urlParse domain with
  | .error _ => ((Strings.split (Strings.trimPrefix domain "http://") '/').headD "")
  | .ok parsedURL => parsedURL.hostname

/-- `normalizeDomain` returns the host of `url.Parse("http://" + d)`, for `d` the domain
without a lower-case `http://` or `https://`, when that parses. -/
theorem normalizeDomain_of_urlParse {d : String} {u : Url.URL}
    (h : urlParse ("http://" ++ Strings.trimPrefix (Strings.trimPrefix d "http://") "https://") =
      .ok u) :
    normalizeDomain d = u.hostname := by
  unfold normalizeDomain
  simp only [ite_self, h]

theorem urlParse_http_host_name {h : List Char} (hh : Url.IsHostName h) :
    urlParse ("http://" ++ ⟨h⟩) = .ok ⟨h⟩ :=
  urlParse_of_parse (by simpa using hh.not_mem (c := '#') rfl) (Url.parse_http_host_name hh)

/-- **A host name is its own normal form**, with or without a lower-case scheme. -/
theorem normalizeDomain_host {h : List Char} (hh : Url.IsHostName h) :
    normalizeDomain ⟨h⟩ = ⟨h⟩ ∧ normalizeDomain ("http://" ++ ⟨h⟩) = ⟨h⟩ ∧
      normalizeDomain ("https://" ++ ⟨h⟩) = ⟨h⟩ := by
  have hself : ∀ pre : String, ':' ∈ pre.data → Strings.trimPrefix ⟨h⟩ pre = ⟨h⟩ := fun _ hc =>
    Strings.trimPrefix_of_not_hasPrefix (Strings.hasPrefix_eq_false_of_not_mem hc (hh.not_mem rfl))
  have hnorm : ∀ d, Strings.trimPrefix (Strings.trimPrefix d "http://") "https://" = ⟨h⟩ →
      normalizeDomain d = ⟨h⟩ := fun d hd => by
    rw [normalizeDomain_of_urlParse (by rw [hd]; exact urlParse_http_host_name hh),
      Url.hostname_of_host_name hh]
  refine ⟨hnorm _ ?_, hnorm _ ?_, hnorm _ ?_⟩
  · rw [hself _ (by decide), hself _ (by decide)]
  · rw [Strings.trimPrefix_append, hself _ (by decide)]
  · have hs : Strings.hasPrefix ("https://" ++ ⟨h⟩) "http://" = false := rfl
    rw [Strings.trimPrefix_of_not_hasPrefix hs, Strings.trimPrefix_append]

/-- **A scheme in another case is the host.** `TrimPrefix` leaves a scheme `p` other than
`http` and `https` in place, `url.Parse("http://p://h")` reads `p:` as the authority (a host
with an empty port), and `Hostname()` returns `p`. -/
theorem normalizeDomain_scheme {p h : List Char} (hp : Url.IsHostName p) (hh : Url.IsHostName h)
    (hhttp : p ≠ "http".data) (hhttps : p ≠ "https".data) :
    normalizeDomain ⟨p ++ ':' :: '/' :: '/' :: h⟩ = ⟨p⟩ := by
  have hcolon : ':' ∉ p := hp.not_mem rfl
  have h1 : Strings.trimPrefix ⟨p ++ ':' :: '/' :: '/' :: h⟩ "http://" =
      ⟨p ++ ':' :: '/' :: '/' :: h⟩ := Strings.trimPrefix_of_not_hasPrefix
    (Strings.hasPrefix_eq_false_of_sep (a := "http".data) (x := ['/', '/']) (by decide) hcolon
      hhttp.symm)
  have h2 : Strings.trimPrefix ⟨p ++ ':' :: '/' :: '/' :: h⟩ "https://" =
      ⟨p ++ ':' :: '/' :: '/' :: h⟩ := Strings.trimPrefix_of_not_hasPrefix
    (Strings.hasPrefix_eq_false_of_sep (a := "https".data) (x := ['/', '/']) (by decide) hcolon
      hhttps.symm)
  rw [normalizeDomain_of_urlParse (u := ⟨p ++ [':']⟩), Url.hostname_empty_port hp]
  rw [h1, h2]
  exact urlParse_of_parse (by simpa using ⟨hp.not_mem (c := '#') rfl, hh.not_mem (c := '#') rfl⟩)
    (Url.parse_http_empty_port hp hh)

theorem normalizeDomain_uppercase_scheme :
    normalizeDomain "HTTPS://WWW.Example.COM" = "HTTPS" ∧
      normalizeDomain "WWW.Example.COM" = "WWW.Example.COM" :=
  ⟨normalizeDomain_scheme (p := "HTTPS".data) (h := "WWW.Example.COM".data) (by decide) (by decide)
    (by decide) (by decide), (normalizeDomain_host (h := "WWW.Example.COM".data) (by decide)).1⟩

/-! ### The body -/

/-- A response body as a reader: its bytes, then the end of the stream (`none`) or the read
error it ends with. -/
structure Body where
  data : List UInt8
  err : Option String

/-- `io.ReadAll(io.LimitReader(body, n))`: the first `n` bytes, and the body's error if the
reader reached it before the limit. -/
def readAllLimited (body : Body) (n : Int) : List UInt8 × Option String :=
  if (body.data.length : Int) < n then (body.data, body.err) else (body.data.take n.toNat, none)

/-- The method `readBodyWithLimit`. -/
def readBodyWithLimit (body : Body) (maxSize : Int) : Except String (List UInt8) :=
  match readAllLimited body maxSize with
  | (_, some err) => .error err
  | (data, none) =>
    if (data.length : Int) ≥ maxSize then
      .error ("ads.txt file too large (exceeds " ++ toString maxSize ++ " bytes)")
    else .ok data

/-- **The limit.** A body that ends without error is returned whole when it is shorter than
`maxSize`, and refused otherwise, at exactly `maxSize` bytes included. -/
theorem readBodyWithLimit_eq (data : List UInt8) (maxSize : Int) :
    readBodyWithLimit ⟨data, none⟩ maxSize =
      if (data.length : Int) < maxSize then .ok data
      else .error ("ads.txt file too large (exceeds " ++ toString maxSize ++ " bytes)") := by
  unfold readBodyWithLimit readAllLimited
  by_cases h : (data.length : Int) < maxSize
  · simp only [h, if_true]
    rw [if_neg (by omega)]
  · simp only [h, if_false]
    rw [if_pos (by rw [List.length_take]; omega)]

/-- A read error before the limit is returned as it is. -/
theorem readBodyWithLimit_err (data : List UInt8) (err : String) {maxSize : Int}
    (h : (data.length : Int) < maxSize) : readBodyWithLimit ⟨data, some err⟩ maxSize = .error err := by
  simp [readBodyWithLimit, readAllLimited, h]

/-! ### The request -/

/-- An HTTP response: its status code, its status line `resp.Status`, and its body. -/
structure Response where
  statusCode : Nat
  status : String
  body : Body

/-- The method `Fetch`, given the client's answer to the request and whether the context's
deadline had passed when the client failed. -/
def fetch (domain : String) (deadlineExceeded : Bool) (answer : Except String Response) :
    Except String (List UInt8) :=
  if domain = "" then .error "invalid domain format"
  else
    let normalizedDomain := normalizeDomain domain
    let adsTxtURL := "https://" ++ normalizedDomain ++ "/ads.txt"
    match urlParse adsTxtURL with
    | .error err => .error ("failed to create request: " ++ err)
    | .ok _ =>
      match answer with
      | .error err =>
        if deadlineExceeded then .error ("timeout while fetching ads.txt: " ++ err)
        else .error ("failed to fetch ads.txt: " ++ err)
      | .ok resp =>
        if resp.statusCode = 404 then
          .error ("ads.txt not found for domain: HTTP " ++ toString resp.statusCode)
        else if resp.statusCode ≠ 200 then
          .error ("unexpected HTTP status: " ++ toString resp.statusCode ++ " " ++ resp.status)
        else (readBodyWithLimit resp.body 1048576).mapError ("failed to read response body: " ++ ·)

/-- A 200 response to a request that can be made is its body, read with the limit of 1 MiB. -/
theorem fetch_status_200 {domain : String} (hd : domain ≠ "") {u : Url.URL}
    (hu : urlParse ("https://" ++ normalizeDomain domain ++ "/ads.txt") = .ok u)
    (deadlineExceeded : Bool) (status : String) (body : Body) :
    fetch domain deadlineExceeded (.ok ⟨200, status, body⟩) =
      (readBodyWithLimit body 1048576).mapError ("failed to read response body: " ++ ·) := by
  unfold fetch
  rw [if_neg hd]
  simp only [hu]
  rw [if_neg (show (200 : Nat) ≠ 404 by decide), if_neg (show ¬(200 : Nat) ≠ 200 by decide)]

theorem fetch_rejects_one_mebibyte_body :
    fetch "example.com" false (.ok ⟨200, "200 OK", ⟨List.replicate 1048576 97, none⟩⟩) =
      .error "failed to read response body: ads.txt file too large (exceeds 1048576 bytes)" := by
  rw [fetch_status_200 (by decide) (u := ⟨"example.com".data⟩) (by decide)]
  rw [readBodyWithLimit_eq, if_neg (by rw [List.length_replicate]; decide)]
  rfl

end HTTPFetcher

end AdsTxtAnalyzer
