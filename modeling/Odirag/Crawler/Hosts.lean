import Odirag.Crawler.Rules
import Odirag.Foundations.Netloc
import Mathlib.Data.List.DropRight

/-!
# The host of a normalised URL

Reference: `normalize_url` of `backend/app/crawler/urls.py`.

`normalize_url` writes the host in lower case and without a dot at the end, and reading the result
gives this host back (`normalizeAbsolute_split`). Normalising again changes nothing before the path
(`normalizeAbsolute_again`), and neither does a new query (`replaceQuery_host`). Case mapping is a
parameter; what is used of it is `LowerLaws`.
-/

namespace Odirag.Crawler

/-! ## Case mapping -/

/-- What `str.lower` promises: characters that it returned are not changed again, and it returns an
ASCII character that is no letter only where the text has it. -/
structure LowerLaws (lower : Text → Text) : Prop where
  fixed : ∀ a b, (∀ c ∈ b, c ∈ lower a) → lower b = b
  ascii : ∀ a, ∀ c ∈ lower a, c.toNat < 128 → Url.isAsciiAlpha c = false → c ∈ a

/-- The case mapping of ASCII. -/
theorem lowerLaws_ascii : LowerLaws (List.map Url.lowerAscii) where
  fixed a b h := by
    calc b.map Url.lowerAscii = b.map id := List.map_congr_left fun c hc => by
          obtain ⟨d, -, rfl⟩ := List.mem_map.mp (h c hc)
          exact Url.lowerAscii_lowerAscii d
      _ = b := List.map_id b
  ascii a c hc _ halpha := by
    obtain ⟨d, hd, rfl⟩ := List.mem_map.mp hc
    rcases Url.lowerAscii_cases d with hsame | ⟨hletter, -⟩
    · rwa [hsame]
    · rw [hletter] at halpha
      cases halpha

/-! ## Hosts -/

/-- The marks that no host has. -/
def isHostEnd (c : Char) : Bool :=
  Url.endsNetloc c || Url.isLineControl c || c == '@' || c == ']'

/-- What `_host` returns. -/
structure NormalHost (N : NetTools) (host : Text) : Prop where
  ne_nil : host ≠ []
  lowered : ∃ a, ∀ c ∈ host, c ∈ N.lower a
  undotted : rstripDots host = host
  plain : ∀ c ∈ host, isHostEnd c = false

section

variable {N : NetTools}

theorem rstripDots_subset {text : Text} {c : Char} (h : c ∈ rstripDots text) : c ∈ text :=
  List.mem_reverse.mp (List.dropWhile_subset _ (List.mem_reverse.mp h))

theorem rstripDots_rstripDots (text : Text) : rstripDots (rstripDots text) = rstripDots text := by
  unfold rstripDots
  rw [List.reverse_reverse, List.dropWhile_idempotent (p := (· == '.'))]

/-- A part of a normal host is in lower case. -/
theorem NormalHost.lower_eq (hlaws : LowerLaws N.lower) {host part : Text} (h : NormalHost N host)
    (hpart : ∀ c ∈ part, c ∈ host) : N.lower part = part := by
  obtain ⟨a, ha⟩ := h.lowered
  exact hlaws.fixed a part fun c hc => ha c (hpart c hc)

theorem mark_ascii {c : Char} (h : isHostEnd c = true) :
    c.toNat < 128 ∧ Url.isAsciiAlpha c = false := by
  simp only [isHostEnd, Url.endsNetloc, Url.isLineControl, Bool.or_eq_true, beq_iff_eq] at h
  rcases h with ((((rfl | rfl) | rfl) | ((rfl | rfl) | rfl)) | rfl) | rfl <;> decide

/-- The host of a netloc without credentials has none of the marks that end it. -/
theorem plain_hostinfo {r : Url.SplitResult} (hnetloc : Url.NetlocText r.netloc)
    (haccepts : Url.accepts N.toTools r.netloc = true) (huser : r.username = none) :
    ∀ c ∈ r.hostinfo.1, isHostEnd c = false := by
  have hat : '@' ∉ r.netloc := by
    refine Url.not_mem_of_rpartition ?_
    simpa [Url.SplitResult.username] using huser
  have hplain : ∀ c ∈ r.netloc, c ≠ ']' → isHostEnd c = false := by
    intro c hc hclose
    obtain ⟨hends, hcontrol⟩ := hnetloc c hc
    have hne : c ≠ '@' := fun heq => hat (heq ▸ hc)
    simp [isHostEnd, hends, hcontrol, hne, hclose]
  by_cases hopen : '[' ∈ r.netloc
  · obtain ⟨before, bracketed, hparts⟩ := Url.partition_of_mem hopen
    rw [Url.SplitResult.hostinfo_bracketed hat hparts]
    intro c hc
    have hmem : c ∈ r.netloc := by
      rw [Url.eq_of_partition hparts]
      exact List.mem_append_right _ (List.mem_cons_of_mem _ (Url.mem_of_mem_partition_fst hc))
    exact hplain c hmem fun heq => Url.not_mem_partition_fst ']' bracketed (heq ▸ hc)
  · rw [Url.SplitResult.hostinfo_plain hat hopen]
    intro c hc
    have hmem : c ∈ r.netloc := Url.mem_of_mem_partition_fst hc
    exact hplain c hmem fun heq => hopen ((Url.bracket_of_accepts haccepts).mpr (heq ▸ hmem))

/-- A mark of the host name is one of the host that the netloc has. -/
theorem mem_hostinfo_of_mem_hostname (hlaws : LowerLaws N.lower) {r : Url.SplitResult} {c : Char}
    (hmem : c ∈ (r.hostname N.toTools).getD []) (hmark : isHostEnd c = true) :
    c ∈ r.hostinfo.1 := by
  obtain ⟨hascii, halpha⟩ := mark_ascii hmark
  unfold Url.SplitResult.hostname at hmem
  by_cases hempty : r.hostinfo.1 = []
  · simp [hempty] at hmem
  · cases hparts : Url.partition '%' r.hostinfo.1 with
    | mk name zone =>
        have hname : ∀ d ∈ name, d ∈ r.hostinfo.1 := fun d hd =>
          Url.mem_of_mem_partition_fst (by rw [hparts]; exact hd)
        simp only [hempty, if_false, hparts, Option.getD_some, List.mem_append] at hmem
        rcases hmem with hmem | hmem
        · exact hname c (hlaws.ascii name c hmem hascii halpha)
        · cases zone with
          | none => simp at hmem
          | some zone =>
              rw [Url.eq_of_partition hparts]
              exact List.mem_append_right _ (by simpa using hmem)

/-- The host of a URL that `_split_http_url` takes is a normal one. -/
theorem host_normal (hlaws : LowerLaws N.lower) {url : Text} {parsed : Url.SplitResult} {h : Text}
    (hsplit : splitHttpUrl N url = .ok parsed) (hhost : host N parsed = .ok h) : NormalHost N h := by
  obtain ⟨hparsed, -, huser, -⟩ := splitHttpUrl_ok hsplit
  obtain ⟨-, hnetloc, haccepts, -⟩ := Url.urlsplit_some hparsed
  unfold host at hhost
  simp only at hhost
  split_ifs at hhost with hempty
  obtain rfl : rstripDots (N.lower ((parsed.hostname N.toTools).getD [])) = h := by
    cases hhost
    rfl
  refine ⟨hempty, ⟨_, fun c hc => rstripDots_subset hc⟩, rstripDots_rstripDots _, fun c hc => ?_⟩
  rw [Bool.eq_false_iff]
  intro hmark
  obtain ⟨hascii, halpha⟩ := mark_ascii hmark
  have hname := hlaws.ascii _ c (rstripDots_subset hc) hascii halpha
  have hinfo := plain_hostinfo hnetloc haccepts huser c (mem_hostinfo_of_mem_hostname hlaws hname hmark)
  rw [hinfo] at hmark
  cases hmark

/-! ## Authorities -/

/-- The port that `normalize_url` writes. -/
def shownPort (scheme : Text) (port : Option ℕ) : Option ℕ :=
  port.filter fun n => !((scheme = str "http" ∧ n = 80) ∨ (scheme = str "https" ∧ n = 443))

/-- The end of an authority. -/
def portText (scheme : Text) (port : Option ℕ) : Text :=
  match shownPort scheme port with
  | none => []
  | some n => ':' :: (Nat.repr n).toList

theorem authority_eq (scheme host : Text) (port : Option ℕ) :
    authority scheme host port =
      (if ':' ∈ host then '[' :: (host ++ [']']) else host) ++ portText scheme port := by
  have hcolon : host.any (· == ':') = true ↔ ':' ∈ host := by simp
  unfold authority portText shownPort
  cases port with
  | none => simp [hcolon]
  | some n =>
      by_cases hdefault : (scheme = str "http" ∧ n = 80) ∨ (scheme = str "https" ∧ n = 443) <;>
        simp [hcolon, hdefault, Option.filter]

/-- The shown port is shown again. -/
theorem shownPort_shownPort (scheme : Text) (port : Option ℕ) :
    shownPort scheme (shownPort scheme port) = shownPort scheme port := by
  simp [shownPort, Option.filter_filter]

theorem portText_shownPort (scheme : Text) (port : Option ℕ) :
    portText scheme (shownPort scheme port) = portText scheme port := by
  simp only [portText, shownPort_shownPort]

theorem digit_of_mem_repr {n : ℕ} {c : Char} (h : c ∈ (Nat.repr n).toList) :
    Url.isAsciiDigit c = true := by
  rw [Nat.toList_repr] at h
  have hdigit := Nat.isDigit_of_mem_toDigits (by decide) (by decide) h
  simpa [Char.isDigit, Url.isAsciiDigit, Char.le_def] using hdigit

theorem mem_portText {scheme : Text} {port : Option ℕ} {c : Char} (h : c ∈ portText scheme port) :
    isHostEnd c = false ∧ c ≠ '[' := by
  have hchar : c = ':' ∨ Url.isAsciiDigit c = true := by
    unfold portText at h
    split at h
    · cases h
    · rcases List.mem_cons.mp h with rfl | hmem
      · exact .inl rfl
      · exact .inr (digit_of_mem_repr hmem)
  constructor
  · rw [Bool.eq_false_iff]
    intro hmark
    simp only [isHostEnd, Url.endsNetloc, Url.isLineControl, Bool.or_eq_true, beq_iff_eq] at hmark
    rcases hmark with ((((rfl | rfl) | rfl) | ((rfl | rfl) | rfl)) | rfl) | rfl <;>
      revert hchar <;> decide
  · rintro rfl
    revert hchar
    decide

/-- An authority is a netloc without credentials. -/
theorem netlocText_authority (scheme : Text) {host : Text} (port : Option ℕ)
    (h : NormalHost N host) :
    Url.NetlocText (authority scheme host port) ∧ '@' ∉ authority scheme host port := by
  have hchar : ∀ c ∈ authority scheme host port, c = '[' ∨ c = ']' ∨ isHostEnd c = false := by
    intro c hc
    rw [authority_eq, List.mem_append] at hc
    rcases hc with hc | hc
    · split_ifs at hc with hcolon
      · simp only [List.mem_cons, List.mem_append, List.not_mem_nil, or_false] at hc
        rcases hc with rfl | hc | rfl
        · exact .inl rfl
        · exact .inr (.inr (h.plain c hc))
        · exact .inr (.inl rfl)
      · exact .inr (.inr (h.plain c hc))
    · exact .inr (.inr (mem_portText hc).1)
  constructor
  · intro c hc
    rcases hchar c hc with rfl | rfl | hplain
    · decide
    · decide
    · simp only [isHostEnd, Bool.or_eq_false_iff] at hplain
      exact hplain.1.1
  · intro hat
    rcases hchar _ hat with hc | hc | hc <;> revert hc <;> decide

/-- The end of an authority is cut off at its colon. -/
theorem partition_portText (scheme : Text) (port : Option ℕ) {before : Text} (h : ':' ∉ before) :
    (Url.partition ':' (before ++ portText scheme port)).1 = before ∧
      (Url.partition ':' (before ++ portText scheme port)).2.getD [] =
        (portText scheme port).tail := by
  cases hport : portText scheme port with
  | nil => simp [Url.partition_of_not_mem h]
  | cons c digits =>
      have hc : c = ':' := by
        unfold portText at hport
        split at hport
        · cases hport
        · exact (List.cons.inj hport).1.symm
      simp [hc, Url.partition_append h]

/-- The host and the port of an authority are those it was made of. -/
theorem hostinfo_authority {r : Url.SplitResult} {scheme host : Text} {port : Option ℕ}
    (h : NormalHost N host) (hnetloc : r.netloc = authority scheme host port)
    (haccepts : Url.accepts N.toTools r.netloc = true) :
    r.hostinfo = (host, (portText scheme port).tail) := by
  have hat : '@' ∉ r.netloc := hnetloc ▸ (netlocText_authority scheme port h).2
  have hclose : ']' ∉ host := fun hmem => by
    have hplain := h.plain _ hmem
    revert hplain
    decide
  rw [authority_eq] at hnetloc
  by_cases hcolon : ':' ∈ host
  · rw [if_pos hcolon] at hnetloc
    have hopen : Url.partition '[' r.netloc = ([], some (host ++ ']' :: portText scheme port)) := by
      rw [hnetloc]
      simpa using @Url.partition_append '[' [] (host ++ ']' :: portText scheme port) (by simp)
    rw [Url.SplitResult.hostinfo_bracketed hat hopen, Url.partition_append hclose]
    exact congrArg (host, ·) (@partition_portText scheme port [] (by simp)).2
  · rw [if_neg hcolon] at hnetloc
    have hopen : '[' ∉ r.netloc := by
      rw [Url.bracket_of_accepts haccepts, hnetloc, List.mem_append]
      rintro (hmem | hmem)
      · exact hclose hmem
      · have hplain := (mem_portText hmem).1
        revert hplain
        decide
    obtain ⟨hhost, hport⟩ := partition_portText scheme port hcolon
    rw [Url.SplitResult.hostinfo_plain hat hopen, hnetloc, hhost, hport]

/-- The host name of an authority. -/
theorem hostname_authority (hlaws : LowerLaws N.lower) {r : Url.SplitResult} {scheme host : Text}
    {port : Option ℕ} (h : NormalHost N host) (hnetloc : r.netloc = authority scheme host port)
    (haccepts : Url.accepts N.toTools r.netloc = true) : r.hostname N.toTools = some host := by
  have hinfo : r.hostinfo.1 = host := by rw [hostinfo_authority h hnetloc haccepts]
  unfold Url.SplitResult.hostname
  simp only [hinfo, h.ne_nil, if_false]
  cases hparts : Url.partition '%' host with
  | mk name zone =>
      have hname : N.lower name = name := h.lower_eq hlaws fun c hc =>
        Url.mem_of_mem_partition_fst (by rw [hparts]; exact hc)
      cases zone with
      | none =>
          have hhost : name = host := by
            by_cases hmem : '%' ∈ host
            · obtain ⟨before, after, heq⟩ := Url.partition_of_mem hmem
              rw [hparts] at heq
              cases heq
            · rw [Url.partition_of_not_mem hmem] at hparts
              exact (Prod.mk.inj hparts).1.symm
          rw [hname, hhost]
          simp
      | some zone => simp [hname, Url.eq_of_partition hparts]

/-- The port of an authority is the one that is shown. -/
theorem port_authority {r : Url.SplitResult} {scheme host : Text} {port : Option ℕ}
    (h : NormalHost N host) (hnetloc : r.netloc = authority scheme host port)
    (haccepts : Url.accepts N.toTools r.netloc = true) (hport : ∀ n ∈ port, n ≤ 65535) :
    r.port = some (shownPort scheme port) := by
  have hinfo : r.hostinfo.2 = (portText scheme port).tail := by
    rw [hostinfo_authority h hnetloc haccepts]
  unfold Url.SplitResult.port
  simp only [hinfo]
  cases hshown : shownPort scheme port with
  | none => simp [portText, hshown]
  | some n =>
      have hle : n ≤ 65535 := hport n (Option.mem_def.mpr (by
        have hmem := hshown
        simp only [shownPort, Option.filter_eq_some_iff] at hmem
        exact hmem.1))
      have hne : (Nat.repr n).toList ≠ [] := by
        rw [Nat.toList_repr]
        exact Nat.toDigits_ne_nil
      have hdigits : (Nat.repr n).toList.all Url.isAsciiDigit = true :=
        List.all_eq_true.mpr fun c hc => digit_of_mem_repr hc
      have hvalue : Nat.ofDigitChars 10 (Nat.repr n).toList 0 = n := by
        rw [Nat.toList_repr, Nat.ofDigitChars_toDigits (by decide) (by decide)]
      have htail : (portText scheme port).tail = (Nat.repr n).toList := by simp [portText, hshown]
      rw [htail, if_neg hne, if_pos hdigits, hvalue, if_pos hle]

theorem port_le {r : Url.SplitResult} : ∀ n ∈ r.port.getD none, n ≤ 65535 := by
  intro n hn
  unfold Url.SplitResult.port at hn
  simp only at hn
  split_ifs at hn with hempty hall hle
  · simp at hn
  · obtain rfl : Nat.ofDigitChars 10 r.hostinfo.2 0 = n := by simpa using hn
    exact hle
  · simp at hn
  · simp at hn

/-! ## Normalised URLs -/

theorem head?_collapseSlashes {path : Text} (h : path.head? = some '/') :
    (collapseSlashes path).head? = some '/' := by
  fun_induction collapseSlashes path with
  | case1 rest ih => exact ih rfl
  | case2 c rest hslash => simpa using h
  | case3 => simp at h

theorem hostname_ne_none (hlaws : LowerLaws N.lower) {parsed : Url.SplitResult} {h : Text}
    (hhost : host N parsed = .ok h) : parsed.hostname N.toTools ≠ none := by
  intro hnone
  have hlower : N.lower [] = [] := hlaws.fixed [] [] (by simp)
  simp [host, hnone, hlower, rstripDots] at hhost

/-- A URL in normal form and its parts. -/
structure NormalUrl (N : NetTools) (url scheme host : Text) (port : Option ℕ) (rest : Text) :
    Prop where
  scheme_eq : scheme = str "http" ∨ scheme = str "https"
  scheme_lower : N.lower scheme = scheme
  normal : NormalHost N host
  port_le : ∀ n ∈ port, n ≤ 65535
  slash : rest.head? = some '/'
  url_eq : url = Url.located scheme (authority scheme host port) rest

/-- What `normalize_url` returns. -/
theorem normalizeAbsolute_normal (hlaws : LowerLaws N.lower) {absolute url : Text}
    (h : normalizeAbsolute N absolute = .ok url) :
    ∃ parsed host rest, splitHttpUrl N (strip absolute) = .ok parsed ∧
      Crawler.host N parsed = .ok host ∧
      NormalUrl N url (N.lower parsed.scheme) host (parsed.port.getD none) rest := by
  obtain ⟨parsed, hsplit, h⟩ := bind_eq_ok.mp h
  obtain ⟨host, hhost, h⟩ := bind_eq_ok.mp h
  have hnormal := host_normal hlaws hsplit hhost
  obtain ⟨hparsed, hscheme, -, -⟩ := splitHttpUrl_ok hsplit
  obtain ⟨-, -, -, hpath⟩ := Url.urlsplit_some hparsed
  have hne : parsed.netloc ≠ [] := fun hnil =>
    hostname_ne_none hlaws hhost (Url.hostname_of_netloc_nil N.toTools hnil)
  have hauthority : authority (N.lower parsed.scheme) host (parsed.port.getD none) ≠ [] := by
    rw [authority_eq]
    split_ifs <;> simp [hnormal.ne_nil]
  have hslash : (if parsed.path = [] then ['/'] else parsed.path).head? = some '/' := by
    split_ifs with hempty
    · rfl
    · obtain ⟨c, path, heq⟩ := List.exists_cons_of_ne_nil hempty
      rw [heq] at hpath ⊢
      simp [hpath hne c (by simp)]
  have hcollapsed := head?_collapseSlashes hslash
  obtain ⟨rest, hurl, -, hrest⟩ := Url.urlunsplit_eq_located hauthority (N.lower parsed.scheme)
    (collapseSlashes (if parsed.path = [] then ['/'] else parsed.path))
    (canonicalQuery N parsed.query) []
  refine ⟨parsed, host, rest, hsplit, hhost, hscheme, hlaws.fixed _ _ fun c hc => hc, hnormal,
    port_le, hrest fun hnil => ?_, ?_⟩
  · simp [hnil] at hcollapsed
  · rw [← hurl]
    exact (Except.ok.inj h).symm

namespace NormalUrl

variable {url scheme host rest : Text} {port : Option ℕ}

theorem schemeText (h : NormalUrl N url scheme host port rest) : Url.SchemeText scheme := by
  rcases h.scheme_eq with heq | heq <;> rw [heq] <;> decide

theorem exists_split (h : NormalUrl N url scheme host port rest) :
    ∃ path query fragment, Url.urlsplit N.toTools url =
      if Url.accepts N.toTools (authority scheme host port) then
        some ⟨scheme, authority scheme host port, path, query, fragment⟩
      else none := by
  have hends : ∀ c ∈ rest.head?, Url.endsNetloc c = true := by
    rw [h.slash]
    simp [Url.endsNetloc]
  rw [h.url_eq]
  exact Url.urlsplit_located N.toTools h.schemeText (netlocText_authority scheme port h.normal).1
    hends

/-- Splitting a normalised URL gives its parts back. -/
theorem split (h : NormalUrl N url scheme host port rest) {q : Url.SplitResult}
    (hq : Url.urlsplit N.toTools url = some q) :
    q.scheme = scheme ∧ q.netloc = authority scheme host port ∧
      Url.accepts N.toTools (authority scheme host port) = true := by
  obtain ⟨path, query, fragment, heq⟩ := h.exists_split
  rw [heq] at hq
  split_ifs at hq with haccepts
  cases hq
  exact ⟨rfl, rfl, haccepts⟩

/-- The host name of a normalised URL. -/
theorem hostname (hlaws : LowerLaws N.lower) (h : NormalUrl N url scheme host port rest)
    {q : Url.SplitResult} (hq : Url.urlsplit N.toTools url = some q) :
    q.hostname N.toTools = some host := by
  obtain ⟨-, hnetloc, haccepts⟩ := h.split hq
  exact hostname_authority hlaws h.normal hnetloc (hnetloc ▸ haccepts)

/-- Stripping a normalised URL keeps what stands before the path. -/
theorem strip (h : NormalUrl N url scheme host port rest) :
    ∃ rest', NormalUrl N (Crawler.strip url) scheme host port rest' := by
  cases rest with
  | nil => simpa using h.slash
  | cons c path =>
      obtain rfl : c = '/' := by simpa using h.slash
      obtain ⟨first, letters, hscheme, hfirst⟩ :
          ∃ first letters, scheme = first :: letters ∧ Documents.isSpace first = false := by
        rcases h.scheme_eq with heq | heq
        · exact ⟨'h', ['t', 't', 'p'], heq, by decide⟩
        · exact ⟨'h', ['t', 't', 'p', 's'], heq, by decide⟩
      refine ⟨'/' :: (path.reverse.dropWhile Documents.isSpace).reverse, h.scheme_eq,
        h.scheme_lower, h.normal, h.port_le, rfl, ?_⟩
      have hlocated : ∀ rest, Url.located scheme (authority scheme host port) rest =
          first :: ((letters ++ ':' :: '/' :: '/' :: authority scheme host port) ++ rest) := by
        intro rest
        simp [Url.located, hscheme]
      rw [h.url_eq, hlocated, hlocated, Crawler.strip]
      exact Text.stripBy_append hfirst (by decide)

/-- Normalising a URL again keeps what stands before the path. -/
theorem again (hlaws : LowerLaws N.lower) (h : NormalUrl N url scheme host port rest)
    {q : Url.SplitResult} (hq : Url.urlsplit N.toTools url = some q) {v : Text}
    (hv : normalizeAbsolute N url = .ok v) :
    ∃ q', Url.urlsplit N.toTools v = some q' ∧ q'.netloc = q.netloc := by
  obtain ⟨-, hnetloc, haccepts⟩ := h.split hq
  obtain ⟨rest', hstripped⟩ := h.strip
  obtain ⟨parsed, host', rest'', hparsed, hhost, hnormal⟩ := normalizeAbsolute_normal hlaws hv
  obtain ⟨hsplit, -, -, -⟩ := splitHttpUrl_ok hparsed
  obtain ⟨hscheme, hauthority, -⟩ := hstripped.split hsplit
  have hname : parsed.hostname N.toTools = some host := hstripped.hostname hlaws hsplit
  have hlower : N.lower host = host := h.normal.lower_eq hlaws fun c hc => hc
  have hsame : host' = host := by
    simpa [Crawler.host, hname, hlower, h.normal.undotted, h.normal.ne_nil] using hhost.symm
  have hport : parsed.port = some (shownPort scheme port) :=
    port_authority h.normal hauthority (hauthority ▸ haccepts) h.port_le
  have hsameAuthority : authority scheme host (shownPort scheme port) =
      authority scheme host port := by
    rw [authority_eq, authority_eq, portText_shownPort]
  rw [hscheme, h.scheme_lower, hsame, hport, Option.getD_some] at hnormal
  obtain ⟨path, query, fragment, heq⟩ := hnormal.exists_split
  rw [hsameAuthority, if_pos haccepts] at heq
  exact ⟨_, heq, hnetloc.symm⟩

end NormalUrl

end

end Odirag.Crawler
