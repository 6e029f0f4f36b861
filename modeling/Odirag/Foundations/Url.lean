import Odirag.Foundations.Text
import Mathlib.Data.List.Sort

/-!
# Taking URLs apart and putting them together

`urlsplit`, `urlunsplit`, `urljoin`, `parse_qsl` and `urlencode` as `urllib.parse` has them. Nothing
here decides whether a URL is a good one: every text is taken apart, and `none` stands for the few
texts that raise a `ValueError`. What depends on Unicode tables and on a codec is a parameter.
-/

namespace Odirag.Url

/-- The tables and codecs that reading a URL depends on. -/
structure Tools where
  lower : Text → Text
  nfkc : Text → Text
  /-- The netlocs with brackets in which these enclose an IP literal. -/
  bracketedNetloc : Text → Bool
  /-- Decoding with the errors replaced. -/
  decodeUtf8 : List UInt8 → Text

/-! ## Texts -/

/-- What stands before a separator, and after it if there is one. -/
def partition (c : Char) (text : Text) : Text × Option Text :=
  (text.takeWhile (· != c), (text.dropWhile (· != c)).tail?)

/-- What stands after the last separator, and before it if there is one. -/
def rpartition (c : Char) (text : Text) : Option Text × Text :=
  let parts := partition c text.reverse
  (parts.2.map List.reverse, parts.1.reverse)

/-- ASCII letters. -/
def isAsciiAlpha (c : Char) : Bool :=
  ('a' ≤ c && c ≤ 'z') || ('A' ≤ c && c ≤ 'Z')

/-- ASCII digits. -/
def isAsciiDigit (c : Char) : Bool := '0' ≤ c && c ≤ '9'

/-- ASCII case mapping. -/
def lowerAscii (c : Char) : Char :=
  if 'A' ≤ c && c ≤ 'Z' then Char.ofNat (c.toNat + 32) else c

/-- Lexicographic order by code points. -/
def leText : Text → Text → Bool
  | [], _ => true
  | _ :: _, [] => false
  | a :: s, b :: t => if a = b then leText s t else decide (a < b)

/-- The order of pairs of texts. -/
def lePair (x y : Text × Text) : Bool :=
  if x.1 = y.1 then leText x.2 y.2 else leText x.1 y.1

/-! ## Splitting -/

/-- The five parts of a URL. -/
structure SplitResult where
  scheme : Text
  netloc : Text
  path : Text
  query : Text
  fragment : Text
deriving DecidableEq, Repr

/-- The scheme, in lower case, and the rest. -/
def splitScheme (url : Text) : Text × Text :=
  match partition ':' url with
  | (before, some rest) =>
      if before.head?.any isAsciiAlpha &&
          before.all (fun c => isAsciiAlpha c || isAsciiDigit c || c == '+' || c == '-' || c == '.')
      then (before.map lowerAscii, rest)
      else ([], url)
  | (_, none) => ([], url)

/-- The netloc after two slashes, and the rest. -/
def splitNetloc (url : Text) : Text × Text :=
  match url with
  | '/' :: '/' :: rest =>
      (rest.takeWhile fun c => !(c == '/' || c == '?' || c == '#'),
        rest.dropWhile fun c => !(c == '/' || c == '?' || c == '#'))
  | _ => ([], url)

/-- A netloc whose normal form has a delimiter that the netloc has not is refused. -/
def checkNetloc (U : Tools) (netloc : Text) : Bool :=
  if netloc.all (fun c => c.toNat < 128) then true
  else
    let plain := netloc.filter fun c => !(c == '@' || c == ':' || c == '#' || c == '?')
    let normal := U.nfkc plain
    plain == normal ||
      !normal.any fun c => c == '/' || c == '?' || c == '#' || c == '@' || c == ':'

/-- `urlsplit`. -/
def urlsplit (U : Tools) (url : Text) : Option SplitResult :=
  let url := (url.dropWhile fun c => c.toNat ≤ 0x20).filter fun c =>
    !(c == '\t' || c == '\r' || c == '\n')
  let (scheme, url) := splitScheme url
  let (netloc, url) := splitNetloc url
  let opens := netloc.any (· == '[')
  let closes := netloc.any (· == ']')
  if opens != closes then none
  else if opens && !U.bracketedNetloc netloc then none
  else
    let (url, fragment) := partition '#' url
    let (path, query) := partition '?' url
    if checkNetloc U netloc then some ⟨scheme, netloc, path, query.getD [], fragment.getD []⟩
    else none

namespace SplitResult

/-- The host and the port of the netloc, as they are written. -/
def hostinfo (r : SplitResult) : Text × Text :=
  let hostinfo := (rpartition '@' r.netloc).2
  match partition '[' hostinfo with
  | (_, some bracketed) =>
      let (host, rest) := partition ']' bracketed
      (host, (partition ':' (rest.getD [])).2.getD [])
  | (_, none) =>
      let (host, port) := partition ':' hostinfo
      (host, port.getD [])

/-- `hostname`, in lower case up to a zone. -/
def hostname (U : Tools) (r : SplitResult) : Option Text :=
  let host := r.hostinfo.1
  if host = [] then none
  else
    let (name, zone) := partition '%' host
    some (U.lower name ++ (zone.map ('%' :: ·)).getD [])

/-- `port`; `none` when it is no port number. -/
def port (r : SplitResult) : Option (Option ℕ) :=
  let digits := r.hostinfo.2
  if digits = [] then some none
  else if digits.all isAsciiDigit then
    let n := Nat.ofDigitChars 10 digits 0
    if n ≤ 65535 then some (some n) else none
  else none

/-- `username`. -/
def username (r : SplitResult) : Option Text :=
  (rpartition '@' r.netloc).1.map fun userinfo => (partition ':' userinfo).1

/-- `password`. -/
def password (r : SplitResult) : Option Text :=
  (rpartition '@' r.netloc).1.bind fun userinfo => (partition ':' userinfo).2

end SplitResult

/-! ## Joining -/

/-- The schemes that take a netloc. -/
def usesNetloc : List Text :=
  strs ["", "ftp", "http", "gopher", "nntp", "telnet", "imap", "wais", "file", "mms", "https",
    "shttp", "snews", "prospero", "rtsp", "rtsps", "rtspu", "rsync", "svn", "svn+ssh", "sftp",
    "nfs", "git", "git+ssh", "ws", "wss"]

/-- The schemes with relative references. -/
def usesRelative : List Text :=
  strs ["", "ftp", "http", "gopher", "nntp", "imap", "wais", "file", "https", "shttp", "mms",
    "prospero", "rtsp", "rtsps", "rtspu", "sftp", "svn", "svn+ssh", "ws", "wss"]

/-- The schemes with parameters in the path. -/
def usesParams : List Text :=
  strs ["", "ftp", "hdl", "prospero", "http", "imap", "https", "shttp", "rtsp", "rtsps", "rtspu",
    "sip", "sips", "mms", "sftp", "tel"]

/-- `urlunsplit`. -/
def urlunsplit (r : SplitResult) : Text :=
  let url :=
    if r.netloc ≠ [] ∨ (r.scheme ≠ [] ∧ r.scheme ∈ usesNetloc ∧ r.path.take 2 ≠ ['/', '/']) then
      let path := if r.path ≠ [] ∧ r.path.head? ≠ some '/' then '/' :: r.path else r.path
      '/' :: '/' :: (r.netloc ++ path)
    else r.path
  let url := if r.scheme ≠ [] then r.scheme ++ ':' :: url else url
  let url := if r.query ≠ [] then url ++ '?' :: r.query else url
  if r.fragment ≠ [] then url ++ '#' :: r.fragment else url

/-- The path without the parameters of its last segment, and these. -/
def splitParams (scheme path : Text) : Text × Text :=
  if scheme ∈ usesParams then
    let (folders, last) := rpartition '/' path
    let (name, params) := partition ';' last
    match params with
    | none => (path, [])
    | some params => ((folders.map (· ++ ['/'])).getD [] ++ name, params)
  else (path, [])

/-- `urlunparse`: the parameters belong to the path. -/
def withParams (path params : Text) : Text :=
  if params = [] then path else path ++ ';' :: params

/-- Resolve the dots of a path. -/
def resolveDots (segments : List Text) : List Text :=
  segments.foldl (fun resolved segment =>
    if segment = ['.', '.'] then resolved.dropLast
    else if segment = ['.'] then resolved
    else resolved ++ [segment]) []

/-- Keep the first and the last segment and those between them that are not empty. -/
def dropEmptyBetween : List Text → List Text
  | [] => []
  | first :: rest =>
      first :: (rest.dropLast.filter (· ≠ []) ++ rest.getLast?.toList)

/-- The path that a relative path denotes below another one. -/
def joinPath (base path : Text) : Text :=
  let baseParts := base.splitOn '/'
  let baseParts := if baseParts.getLast? = some [] then baseParts else baseParts.dropLast
  let segments :=
    if path.head? = some '/' then path.splitOn '/'
    else dropEmptyBetween (baseParts ++ path.splitOn '/')
  let resolved := resolveDots segments
  let resolved :=
    if segments.getLast? = some ['.'] ∨ segments.getLast? = some ['.', '.'] then resolved ++ [[]]
    else resolved
  let joined := List.intercalate ['/'] resolved
  if joined = [] then ['/'] else joined

/-- `urljoin`. -/
def urljoin (U : Tools) (base url : Text) : Option Text :=
  if base = [] then some url
  else if url = [] then some base
  else do
    let b ← urlsplit U base
    let r ← urlsplit U url
    let scheme := if r.scheme = [] then b.scheme else r.scheme
    if scheme ≠ b.scheme ∨ scheme ∉ usesRelative then return url
    let (path, params) := splitParams scheme r.path
    if scheme ∈ usesNetloc ∧ r.netloc ≠ [] then
      return urlunsplit ⟨scheme, r.netloc, withParams path params, r.query, r.fragment⟩
    let netloc := if scheme ∈ usesNetloc then b.netloc else r.netloc
    let (basePath, baseParams) := splitParams b.scheme b.path
    if path = [] ∧ params = [] then
      let query := if r.query = [] then b.query else r.query
      return urlunsplit ⟨scheme, netloc, withParams basePath baseParams, query, r.fragment⟩
    return urlunsplit
      ⟨scheme, netloc, withParams (joinPath basePath path) params, r.query, r.fragment⟩

/-! ## Queries -/

/-- The value of a hexadecimal digit. -/
def hexValue (c : Char) : Option ℕ :=
  if isAsciiDigit c then some (c.toNat - '0'.toNat)
  else if 'a' ≤ c && c ≤ 'f' then some (c.toNat - 'a'.toNat + 10)
  else if 'A' ≤ c && c ≤ 'F' then some (c.toNat - 'A'.toNat + 10)
  else none

/-- A hexadecimal digit in upper case. -/
def hexDigit (n : ℕ) : Char :=
  if n < 10 then Char.ofNat ('0'.toNat + n) else Char.ofNat ('A'.toNat + n - 10)

/-- `%` and two digits for a byte. -/
def percent (b : UInt8) : Text := ['%', hexDigit (b.toNat / 16), hexDigit (b.toNat % 16)]

/-- `quote_plus`. -/
def quotePlus (text : Text) : Text :=
  text.flatMap fun c =>
    if c = ' ' then ['+']
    else if isAsciiAlpha c || isAsciiDigit c || c == '_' || c == '.' || c == '-' || c == '~' then
      [c]
    else (String.utf8EncodeChar c).flatMap percent

/-- The bytes of an ASCII text, with its escapes. -/
def unquoteToBytes : Text → List UInt8
  | '%' :: a :: b :: rest =>
      match hexValue a, hexValue b with
      | some x, some y => UInt8.ofNat (16 * x + y) :: unquoteToBytes rest
      | _, _ => UInt8.ofNat '%'.toNat :: unquoteToBytes (a :: b :: rest)
  | c :: rest => UInt8.ofNat c.toNat :: unquoteToBytes rest
  | [] => []

/-- Decode an ASCII run. -/
def unquoteRun (U : Tools) (run : Text) : Text :=
  if run = [] then [] else U.decodeUtf8 (unquoteToBytes run)

/-- Decode the ASCII runs of a text; `run` is the one that is being read. -/
def unquoteFrom (U : Tools) (run : Text) : Text → Text
  | [] => unquoteRun U run
  | c :: rest =>
      if c.toNat < 128 then unquoteFrom U (run ++ [c]) rest
      else unquoteRun U run ++ c :: unquoteFrom U [] rest

/-- `unquote`. -/
def unquote (U : Tools) (text : Text) : Text :=
  if text.any (· == '%') then unquoteFrom U [] text else text

/-- `unquote` of a form value. -/
def unquotePlus (U : Tools) (text : Text) : Text :=
  unquote U (text.map fun c => if c = '+' then ' ' else c)

/-- `parse_qsl(query, keep_blank_values=True)`. -/
def parseQsl (U : Tools) (query : Text) : List (Text × Text) :=
  (query.splitOn '&').filterMap fun part =>
    if part = [] then none
    else
      let (name, value) := partition '=' part
      some (unquotePlus U name, unquotePlus U (value.getD []))

/-- `urlencode`. -/
def urlencode (pairs : List (Text × Text)) : Text :=
  List.intercalate ['&'] (pairs.map fun p => quotePlus p.1 ++ '=' :: quotePlus p.2)

/-- The pairs in order; equal ones are the same, so that it does not matter how they are sorted. -/
def sortPairs (pairs : List (Text × Text)) : List (Text × Text) :=
  pairs.insertionSort fun x y => lePair x y = true

end Odirag.Url
