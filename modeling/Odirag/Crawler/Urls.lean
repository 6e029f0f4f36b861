import Odirag.Documents.Document
import Odirag.Foundations.Url

/-!
# URLs of the crawler

Reference: `backend/app/crawler/urls.py`.

Which URLs may be requested (`validate_public_url`) and the form in which they are compared and
stored (`normalize_url`). How the standard library reads an IP address and encodes a host name are
parameters, and so are the answers of the resolver.
-/

namespace Odirag.Crawler

open Documents (isSpace)

/-- `ipaddress`: the properties of an address that are read. -/
structure AddressFlags where
  isGlobal : Bool
  isLoopback : Bool
  isPrivate : Bool
  isLinkLocal : Bool
  isMulticast : Bool
  isReserved : Bool
  isUnspecified : Bool
deriving DecidableEq, Repr

/-- An IPv4 address, or an IPv6 address with the IPv4 address mapped into it. -/
inductive Address
  | v4 (flags : AddressFlags)
  | v6 (flags : AddressFlags) (isSiteLocal : Bool) (ipv4Mapped : Option AddressFlags)
deriving DecidableEq, Repr

/-- The parts of the standard library that reading a URL uses. -/
structure NetTools extends Url.Tools where
  /-- `ipaddress.ip_address`; `none` is a `ValueError`. -/
  ipAddress : Text → Option Address
  /-- `encode("idna").decode("ascii")`; `none` is a `UnicodeError`. -/
  idna : Text → Option Text
  /-- `int`; `none` is a `ValueError`. -/
  parseInt : Text → Option ℤ

/-- An `UnsafeUrlError`, or another `ValueError`. -/
inductive UrlError
  | unsafeUrl (message : String)
  | value (message : String)
deriving DecidableEq, Repr

/-- What the resolver does: addresses, an `OSError`, no answer in time, or another exception. -/
inductive ResolverAnswer
  | addresses (values : List Text)
  | osError
  | timeout
  | raises (name : String)
deriving DecidableEq, Repr

/-- The standard library on ASCII texts without addresses. -/
def plainTools : NetTools where
  lower := List.map Url.lowerAscii
  nfkc := id
  bracketedNetloc _ := true
  decodeUtf8 bytes := bytes.map fun b => Char.ofNat b.toNat
  ipAddress _ := none
  idna := some
  parseInt text :=
    if text ≠ [] ∧ text.all Url.isAsciiDigit then some (Nat.ofDigitChars 10 text 0) else none

section

variable (N : NetTools)

/-- `text.strip()`. -/
def strip (text : Text) : Text := Text.stripBy isSpace text

/-- `text.rstrip(".")`. -/
def rstripDots (text : Text) : Text := (text.reverse.dropWhile (· == '.')).reverse

/-- `_split_http_url`. -/
def splitHttpUrl (url : Text) : Except UrlError Url.SplitResult :=
  match Url.urlsplit N.toTools url with
  | none => .error (.unsafeUrl "URL is malformed")
  | some parsed =>
      match parsed.port with
      | none => .error (.unsafeUrl "URL is malformed")
      | some port =>
          if N.lower parsed.scheme ≠ str "http" ∧ N.lower parsed.scheme ≠ str "https" then
            .error (.unsafeUrl "only HTTP and HTTPS URLs are supported")
          else if parsed.username ≠ none ∨ parsed.password ≠ none then
            .error (.unsafeUrl "URL credentials are not allowed")
          else if port.any fun n => !(1 ≤ n && n ≤ 65535) then
            .error (.unsafeUrl "URL port is invalid")
          else if parsed.hostname N.toTools = none then
            .error (.unsafeUrl "URL host is required")
          else .ok parsed

/-- `_host`. -/
def host (parsed : Url.SplitResult) : Except UrlError Text :=
  let host := rstripDots (N.lower ((parsed.hostname N.toTools).getD []))
  if host = [] then .error (.unsafeUrl "URL host is required") else .ok host

/-! ## Public addresses -/

/-- An address outside the public internet. -/
def AddressFlags.isNotPublic (flags : AddressFlags) (isSiteLocal : Bool) : Bool :=
  !flags.isGlobal || flags.isLoopback || flags.isPrivate || flags.isLinkLocal || isSiteLocal ||
    flags.isMulticast || flags.isReserved || flags.isUnspecified

/-- `_ensure_public_address` of an address. -/
def ensurePublicAddress (address : Address) : Except UrlError Unit :=
  let refused :=
    match address with
    | .v4 flags => flags.isNotPublic false
    | .v6 _ _ (some mapped) => mapped.isNotPublic false
    | .v6 flags isSiteLocal none => flags.isNotPublic isSiteLocal
  if refused then .error (.unsafeUrl "URL target resolves to a non-public IP address")
  else .ok ()

/-- `_ensure_public_address` of a text. -/
def ensurePublicText (value : Text) : Except UrlError Unit :=
  match N.ipAddress value with
  | none => .error (.unsafeUrl "DNS resolver returned an invalid IP address")
  | some address => ensurePublicAddress address

/-- How a call of `validate_public_url` fails. -/
inductive ValidationError
  | url (error : UrlError)
  | timeout
  | raises (name : String)
deriving DecidableEq, Repr

/-- What the resolver's answer leads to. -/
def checkAnswer (candidate : Text) : ResolverAnswer → Except ValidationError Text
  | .osError => .error (.url (.unsafeUrl "URL host could not be resolved"))
  | .timeout => .error .timeout
  | .raises name => .error (.raises name)
  | .addresses values =>
      if values = [] then .error (.url (.unsafeUrl "URL host did not resolve to an IP address"))
      else
        match values.forM (ensurePublicText N) with
        | .error e => .error (.url e)
        | .ok () => .ok candidate

/-- `validate_public_url`: the URL to request, and the resolver after it has been asked. -/
def validatePublicUrl {σ : Type*} (resolve : σ → Text → ResolverAnswer × σ) (s : σ) (url : Text) :
    Except ValidationError Text × σ :=
  let candidate := strip url
  match splitHttpUrl N candidate with
  | .error e => (.error (.url e), s)
  | .ok parsed =>
      match host N parsed with
      | .error e => (.error (.url e), s)
      | .ok host =>
          if host.any (· == '%') then
            (.error (.url (.unsafeUrl "scoped IP addresses are not allowed")), s)
          else
            match N.ipAddress host with
            | some address =>
                match ensurePublicAddress address with
                | .error e => (.error (.url e), s)
                | .ok () => (.ok candidate, s)
            | none =>
                match N.idna host with
                | none => (.error (.url (.unsafeUrl "URL host is invalid")), s)
                | some hostname =>
                    if hostname = str "localhost" ∨ (str ".localhost").isSuffixOf hostname then
                      (.error (.url (.unsafeUrl "localhost targets are not allowed")), s)
                    else
                      let (answer, s) := resolve s hostname
                      (checkAnswer N candidate answer, s)

/-! ## The normal form -/

/-- What replacing two slashes by one leaves in the end. -/
def collapseSlashes : Text → Text
  | '/' :: '/' :: rest => collapseSlashes ('/' :: rest)
  | c :: rest => c :: collapseSlashes rest
  | [] => []

/-- A query parameter that does not belong to the page. -/
def isTracking (key : Text) : Bool :=
  let key := N.lower key
  (str "utm_").isPrefixOf key || key == str "spm" || key == str "from" || key == str "source"

/-- The query with its parameters in order. -/
def canonicalQuery (query : Text) : Text :=
  Url.urlencode (Url.sortPairs ((Url.parseQsl N.toTools query).filter fun p => !isTracking N p.1))

/-- The host and the port, unless this is the default one of the scheme. -/
def authority (scheme host : Text) (port : Option ℕ) : Text :=
  let formatted := if host.any (· == ':') then '[' :: host ++ [']'] else host
  match port with
  | none => formatted
  | some n =>
      if (scheme = str "http" ∧ n = 80) ∨ (scheme = str "https" ∧ n = 443) then formatted
      else formatted ++ ':' :: (Nat.repr n).toList

/-- `normalize_url` of an absolute URL. -/
def normalizeAbsolute (absolute : Text) : Except UrlError Text := do
  let parsed ← splitHttpUrl N (strip absolute)
  let host ← host N parsed
  let path := collapseSlashes (if parsed.path = [] then ['/'] else parsed.path)
  return Url.urlunsplit
    ⟨N.lower parsed.scheme, authority (N.lower parsed.scheme) host (parsed.port.getD none), path,
      canonicalQuery N parsed.query, []⟩

/-- `normalize_url(url, base_url=base)`. -/
def normalizeUrl (url : Text) (base : Text := []) : Except UrlError Text :=
  if base = [] then normalizeAbsolute N url
  else
    match Url.urljoin N.toTools base url with
    | none => .error (.value "Invalid IPv6 URL")
    | some absolute => normalizeAbsolute N absolute

end

/-! ## What a validated URL is -/

/-- An HTTP or HTTPS URL without credentials. -/
def PlainHttp (N : NetTools) (url : Text) : Prop :=
  ∃ parsed, Url.urlsplit N.toTools url = some parsed ∧
    (N.lower parsed.scheme = str "http" ∨ N.lower parsed.scheme = str "https") ∧
    parsed.username = none ∧ parsed.password = none

theorem splitHttpUrl_ok {N : NetTools} {url : Text} {parsed : Url.SplitResult}
    (h : splitHttpUrl N url = .ok parsed) :
    Url.urlsplit N.toTools url = some parsed ∧
      (N.lower parsed.scheme = str "http" ∨ N.lower parsed.scheme = str "https") ∧
      parsed.username = none ∧ parsed.password = none := by
  unfold splitHttpUrl at h
  split at h
  · cases h
  · next r hsplit =>
      split at h
      · cases h
      · split_ifs at h with hscheme hcredentials hport hhost
        obtain rfl : r = parsed := by cases h; rfl
        refine ⟨hsplit, ?_, ?_⟩
        · by_contra hnot
          exact hscheme (not_or.mp hnot)
        · obtain ⟨huser, hpassword⟩ := not_or.mp hcredentials
          exact ⟨not_not.mp huser, not_not.mp hpassword⟩

/-- A URL that passes the validation is the text that was validated, and a plain one. -/
theorem validatePublicUrl_ok {N : NetTools} {σ : Type*} {resolve : σ → Text → ResolverAnswer × σ}
    {s : σ} {url result : Text} (h : (validatePublicUrl N resolve s url).1 = .ok result) :
    result = strip url ∧ PlainHttp N result := by
  unfold validatePublicUrl at h
  have hplain : ∀ parsed, splitHttpUrl N (strip url) = .ok parsed → PlainHttp N (strip url) :=
    fun parsed hparsed => ⟨parsed, splitHttpUrl_ok hparsed⟩
  simp only at h
  cases hparsed : splitHttpUrl N (strip url) with
  | error e => simp [hparsed] at h
  | ok parsed =>
      -- Whatever the checks of the host find, what they let through is the text itself.
      suffices hresult : result = strip url by
        exact ⟨hresult, hresult ▸ hplain parsed hparsed⟩
      simp only [hparsed] at h
      cases hhost : host N parsed with
      | error e => simp [hhost] at h
      | ok host =>
          simp only [hhost] at h
          split_ifs at h with hscoped
          cases haddress : N.ipAddress host with
          | some address =>
              simp only [haddress] at h
              cases hpublic : ensurePublicAddress address with
              | error e => simp [hpublic] at h
              | ok u => simpa [hpublic] using h.symm
          | none =>
              simp only [haddress] at h
              cases hidna : N.idna host with
              | none => simp [hidna] at h
              | some hostname =>
                  simp only [hidna] at h
                  split_ifs at h with hlocal
                  unfold checkAnswer at h
                  split at h
                  · cases h
                  · cases h
                  · cases h
                  · split_ifs at h with hempty
                    split at h
                    · cases h
                    · simpa using h.symm

end Odirag.Crawler
