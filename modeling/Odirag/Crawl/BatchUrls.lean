import Odirag.Crawler.NormalForm
import Odirag.Foundations.Ink
import Odirag.Foundations.Margins

/-!
# URLs of a provider's batch

Reference: `_try_normalize` of `backend/app/schemas/coze.py`, `normalize_url` of
`backend/app/crawler/urls.py`.

`_try_normalize` is a second normaliser beside `normalize_url`. It puts no brackets around an IPv6
address and does not strip a URL that was joined with a base, so it agrees with `normalize_url`
exactly where neither matters (`tryNormalize_agrees_iff`).
-/

namespace Odirag.Crawl

open Documents (isSpace)
open Crawler

section

variable (N : NetTools)

/-- `_try_normalize` once the URL has been split. -/
def tryNormalizeSplit (parsed : Url.SplitResult) : Option Text :=
  let scheme := N.lower parsed.scheme
  if (scheme ≠ str "http" ∧ scheme ≠ str "https") ∨ parsed.hostname N.toTools = none then none
  else if parsed.username ≠ none ∨ parsed.password ≠ none then none
  else
    let host := rstripDots (N.lower ((parsed.hostname N.toTools).getD []))
    match parsed.port with
    | none => none
    | some port =>
        let authority :=
          match port with
          | none => host
          | some n =>
              if (scheme = str "http" ∧ n = 80) ∨ (scheme = str "https" ∧ n = 443) then host
              else host ++ ':' :: (Nat.repr n).toList
        let path := collapseSlashes (if parsed.path = [] then ['/'] else parsed.path)
        some (Url.urlunsplit ⟨scheme, authority, path, canonicalQuery N parsed.query, []⟩)

/-- `_try_normalize(value, base_url=base)`. -/
def tryNormalize (value : Text) (base : Text := []) : Option Text :=
  if base = [] then (Url.urlsplit N.toTools (strip value)).bind (tryNormalizeSplit N)
  else
    (Url.urljoin N.toTools base value).bind fun absolute =>
      (Url.urlsplit N.toTools absolute).bind (tryNormalizeSplit N)

end

/-! ## One reading -/

section

variable {N : NetTools}

/-- A URL that has been split and has all parts that are needed. -/
structure Complete (N : NetTools) (parsed : Url.SplitResult) (host : Text) (port : Option ℕ) :
    Prop where
  scheme : N.lower parsed.scheme = str "http" ∨ N.lower parsed.scheme = str "https"
  username : parsed.username = none
  password : parsed.password = none
  hostname : parsed.hostname N.toTools ≠ none
  host_eq : rstripDots (N.lower ((parsed.hostname N.toTools).getD [])) = host
  port_eq : parsed.port = some port

/-- What is returned for such a URL. -/
theorem Complete.tryNormalizeSplit_eq {parsed : Url.SplitResult} {host : Text} {port : Option ℕ}
    (h : Complete N parsed host port) :
    tryNormalizeSplit N parsed = some (Url.urlunsplit ⟨N.lower parsed.scheme,
      host ++ portText (N.lower parsed.scheme) port,
      collapseSlashes (if parsed.path = [] then ['/'] else parsed.path),
      canonicalQuery N parsed.query, []⟩) := by
  have hscheme : ¬ ((N.lower parsed.scheme ≠ str "http" ∧ N.lower parsed.scheme ≠ str "https") ∨
      parsed.hostname N.toTools = none) := by
    rintro (⟨hhttp, hhttps⟩ | hnone)
    · exact h.scheme.elim hhttp hhttps
    · exact h.hostname hnone
  have hcredentials : ¬ (parsed.username ≠ none ∨ parsed.password ≠ none) := by
    simp [h.username, h.password]
  unfold tryNormalizeSplit
  simp only [if_neg hscheme, if_neg hcredentials, h.port_eq, h.host_eq]
  cases port with
  | none => simp [portText, shownPort]
  | some n =>
      by_cases hdefault : (N.lower parsed.scheme = str "http" ∧ n = 80) ∨
          (N.lower parsed.scheme = str "https" ∧ n = 443) <;>
        simp [portText, shownPort, hdefault, Option.filter]

/-- Only such URLs are rewritten. -/
theorem complete_of_tryNormalizeSplit {parsed : Url.SplitResult} {url : Text}
    (h : tryNormalizeSplit N parsed = some url) :
    ∃ port, Complete N parsed (rstripDots (N.lower ((parsed.hostname N.toTools).getD []))) port := by
  unfold tryNormalizeSplit at h
  simp only at h
  split at h
  · cases h
  · next hscheme =>
      split at h
      · cases h
      · next hcredentials =>
          cases hport : parsed.port with
          | none => simp [hport] at h
          | some port =>
              obtain ⟨hhttp, hname⟩ := not_or.mp hscheme
              obtain ⟨huser, hpassword⟩ := not_or.mp hcredentials
              refine ⟨port, ?_, not_not.mp huser, not_not.mp hpassword, hname, rfl, hport⟩
              by_contra hnot
              exact hhttp (not_or.mp hnot)

/-- A URL that `normalize_url` takes has all parts, and a host that is not empty. -/
theorem complete_of_normalizeAbsolute (hlaws : LowerLaws N.lower) {absolute url : Text}
    (h : normalizeAbsolute N absolute = .ok url) :
    ∃ parsed host port, Url.urlsplit N.toTools (strip absolute) = some parsed ∧
      Crawler.host N parsed = .ok host ∧ Complete N parsed host port ∧ NormalHost N host ∧
      url = Url.urlunsplit ⟨N.lower parsed.scheme, authority (N.lower parsed.scheme) host port,
        collapseSlashes (if parsed.path = [] then ['/'] else parsed.path),
        canonicalQuery N parsed.query, []⟩ := by
  obtain ⟨parsed, hsplit, h⟩ := bind_eq_ok.mp h
  obtain ⟨host, hhost, h⟩ := bind_eq_ok.mp h
  obtain ⟨hparsed, hscheme, huser, hpassword⟩ := splitHttpUrl_ok hsplit
  obtain ⟨port, hport⟩ : ∃ port, parsed.port = some port := by
    unfold splitHttpUrl at hsplit
    rw [hparsed] at hsplit
    cases hport : parsed.port with
    | none => simp [hport] at hsplit
    | some port => exact ⟨port, rfl⟩
  have hname : rstripDots (N.lower ((parsed.hostname N.toTools).getD [])) = host := by
    unfold Crawler.host at hhost
    simp only at hhost
    split_ifs at hhost
    exact Except.ok.inj hhost
  refine ⟨parsed, host, port, hparsed, hhost, ⟨hscheme, huser, hpassword,
    hostname_ne_none hlaws hhost, hname, hport⟩, host_normal hlaws hsplit hhost, ?_⟩
  rw [hport] at h
  exact (Except.ok.inj h).symm

/-- The host has none of the marks that end it. -/
theorem Complete.plain (hlaws : LowerLaws N.lower) {url : Text} {parsed : Url.SplitResult}
    {host : Text} {port : Option ℕ} (hsplit : Url.urlsplit N.toTools url = some parsed)
    (h : Complete N parsed host port) : ∀ c ∈ host, isHostEnd c = false := by
  obtain ⟨-, hnetloc, haccepts, -⟩ := Url.urlsplit_some hsplit
  intro c hc
  rw [← h.host_eq] at hc
  rw [Bool.eq_false_iff]
  intro hmark
  obtain ⟨hascii, halpha⟩ := mark_ascii hmark
  have hname := hlaws.ascii _ c (rstripDots_subset hc) hascii halpha
  have hinfo := plain_hostinfo hnetloc haccepts h.username c
    (mem_hostinfo_of_mem_hostname hlaws hname hmark)
  rw [hinfo] at hmark
  cases hmark

theorem Complete.netloc_ne_nil {parsed : Url.SplitResult} {host : Text} {port : Option ℕ}
    (h : Complete N parsed host port) : parsed.netloc ≠ [] :=
  fun hnil => h.hostname (Url.hostname_of_netloc_nil N.toTools hnil)

/-- The path that is written. -/
theorem exists_slash {url : Text} {parsed : Url.SplitResult}
    (hsplit : Url.urlsplit N.toTools url = some parsed) (hnetloc : parsed.netloc ≠ []) :
    ∃ tail, collapseSlashes (if parsed.path = [] then ['/'] else parsed.path) = '/' :: tail ∧
      '?' ∉ '/' :: tail := by
  obtain ⟨-, -, -, hpath⟩ := Url.urlsplit_some hsplit
  have hslash : (if parsed.path = [] then ['/'] else parsed.path).head? = some '/' := by
    split_ifs with hempty
    · rfl
    · obtain ⟨c, path, heq⟩ := List.exists_cons_of_ne_nil hempty
      rw [heq] at hpath ⊢
      simp [hpath hnetloc c (by simp)]
  obtain ⟨tail, htail⟩ := List.head?_eq_some_iff.mp (head?_collapseSlashes hslash)
  refine ⟨tail, htail, fun hmem => ?_⟩
  rw [← htail] at hmem
  have hmark := mem_of_mem_collapseSlashes hmem
  split_ifs at hmark with hempty
  · revert hmark
    decide
  · have hchar := Url.isPathChar_of_urlsplit hsplit _ hmark
    revert hchar
    decide

theorem slash_not_mem_authority (scheme : Text) {host : Text} (port : Option ℕ)
    (h : NormalHost N host) : '/' ∉ authority scheme host port := by
  intro hmem
  have hends := ((netlocText_authority scheme port h).1 _ hmem).1
  revert hends
  decide

/-- **Two readings with one scheme.** What `_try_normalize` writes of the one is what `normalize_url`
writes of the other exactly if the authorities, the paths and the queries are the same. -/
theorem same_iff (hlaws : LowerLaws N.lower) {url url' : Text} {a s : Url.SplitResult}
    {host host' : Text} {port port' : Option ℕ} (hsplit : Url.urlsplit N.toTools url = some a)
    (ha : Complete N a host port) (hne : host ≠ [])
    (hsplit' : Url.urlsplit N.toTools url' = some s) (hs : Complete N s host' port')
    (hnormal : NormalHost N host') (hscheme : a.scheme = s.scheme) :
    tryNormalizeSplit N a = some (Url.urlunsplit ⟨N.lower s.scheme,
        authority (N.lower s.scheme) host' port',
        collapseSlashes (if s.path = [] then ['/'] else s.path), canonicalQuery N s.query, []⟩) ↔
      host ++ portText (N.lower s.scheme) port = authority (N.lower s.scheme) host' port' ∧
        collapseSlashes (if a.path = [] then ['/'] else a.path) =
          collapseSlashes (if s.path = [] then ['/'] else s.path) ∧
        canonicalQuery N a.query = canonicalQuery N s.query := by
  obtain ⟨tail, htail, hmark⟩ := exists_slash hsplit ha.netloc_ne_nil
  obtain ⟨tail', htail', hmark'⟩ := exists_slash hsplit' hs.netloc_ne_nil
  have hslash : '/' ∉ host ++ portText (N.lower s.scheme) port := by
    rw [List.mem_append]
    rintro (hmem | hmem)
    · have hplain := ha.plain hlaws hsplit _ hmem
      revert hplain
      decide
    · have hplain := (mem_portText hmem).1
      revert hplain
      decide
  have hrest : tail ++ Url.queryPart (canonicalQuery N a.query) =
        tail' ++ Url.queryPart (canonicalQuery N s.query) ↔
      '/' :: tail = '/' :: tail' ∧ canonicalQuery N a.query = canonicalQuery N s.query := by
    rw [← Url.append_queryPart_inj hmark hmark', List.cons_append, List.cons_append,
      List.cons_inj_right]
  rw [ha.tryNormalizeSplit_eq, Option.some_inj, hscheme, htail, htail',
    Url.urlunsplit_path (by simp [hne]) rfl,
    Url.urlunsplit_path (authority_ne_nil hnormal.ne_nil) rfl, List.cons_append, List.cons_append,
    Url.located_inj hslash (slash_not_mem_authority _ _ hnormal), hrest]

/-- A host without brackets is one without a colon. -/
theorem append_portText_eq_authority {scheme host : Text} {port : Option ℕ}
    (h : NormalHost N host) :
    host ++ portText scheme port = authority scheme host port ↔ ':' ∉ host := by
  rw [authority_eq, List.append_cancel_right_eq]
  constructor
  · intro heq hcolon
    rw [if_pos hcolon] at heq
    have hclose := h.plain ']' (by rw [heq]; simp)
    revert hclose
    decide
  · intro hcolon
    rw [if_neg hcolon]

/-! ## A URL that is not stripped -/

/-- The whitespace behind a text, as far as `urlsplit` reads it. -/
def trailing (text : Text) : Text :=
  ((text.dropWhile isSpace).reverse.takeWhile isSpace).reverse.filter
    fun c => !Url.isLineControl c

theorem mem_trailing {text : Text} {c : Char} (h : c ∈ trailing text) :
    isSpace c = true ∧ Url.isLineControl c = false := by
  obtain ⟨hmem, hcontrol⟩ := List.mem_filter.mp h
  exact ⟨List.mem_takeWhile_imp (List.mem_reverse.mp hmem), by simpa using hcontrol⟩

/-- The whitespace behind a URL has no influence: it is nothing but line ends and tabs, or the URL
ends in a fragment, in a part of the query that is not written, or in brackets. -/
def EndUnread (N : NetTools) (absolute : Text) (parsed : Url.SplitResult) : Prop :=
  trailing absolute = [] ∨
    '#' ∈ strip absolute ∨
    ('?' ∈ strip absolute ∧
      canonicalQuery N (parsed.query ++ trailing absolute) = canonicalQuery N parsed.query) ∨
    ('?' ∉ strip absolute ∧ parsed.path = [] ∧
      Url.accepts N.toTools (parsed.netloc ++ trailing absolute) = true ∧
      { parsed with netloc := parsed.netloc ++ trailing absolute }.hostinfo = parsed.hostinfo)

instance (absolute : Text) (parsed : Url.SplitResult) : Decidable (EndUnread N absolute parsed) :=
  inferInstanceAs (Decidable (_ ∨ _))

/-- Nor has the whitespace in front of it: it is nothing but control characters and spaces. -/
def Unread (N : NetTools) (absolute : Text) (parsed : Url.SplitResult) : Prop :=
  (∀ c ∈ absolute.takeWhile isSpace, c.toNat ≤ 0x20) ∧ EndUnread N absolute parsed

instance (absolute : Text) (parsed : Url.SplitResult) : Decidable (Unread N absolute parsed) :=
  inferInstanceAs (Decidable (_ ∧ _))

/-- What `str.lower` promises about whitespace at the end: it stays, and does not matter to what
stands before it. -/
def KeepsSpace (lower : Text → Text) : Prop :=
  ∀ text c, isSpace c = true → lower (text ++ [c]) = lower text ++ [c]

theorem KeepsSpace.append {lower : Text → Text} (h : KeepsSpace lower) (text : Text) {w : Text}
    (hw : ∀ c ∈ w, isSpace c = true) : lower (text ++ w) = lower text ++ w := by
  induction w using List.reverseRecOn with
  | nil => simp
  | append_singleton w c ih =>
      have hinit : lower (text ++ w) = lower text ++ w :=
        ih fun d hd => hw d (List.mem_append_left _ hd)
      rw [← List.append_assoc, h _ c (hw c (by simp)), hinit, List.append_assoc]

theorem isSpace_bounds {c : Char} (h : isSpace c = true) : c.toNat ≤ 32 ∨ 133 ≤ c.toNat := by
  simp only [isSpace, Bool.or_eq_true, Bool.and_eq_true, decide_eq_true_eq, beq_iff_eq] at h
  omega

/-- The case mapping of ASCII keeps whitespace. -/
theorem keepsSpace_ascii : KeepsSpace (List.map Url.lowerAscii) := by
  intro text c hc
  have hsame : Url.lowerAscii c = c := by
    unfold Url.lowerAscii
    rw [if_neg]
    intro hletter
    have hupper := Url.isAsciiUpper_bounds hletter
    have hblank := isSpace_bounds hc
    omega
  rw [List.map_append, List.map_singleton, hsame]

/-- Splitting a joined URL whose stripped form can be read. -/
theorem urlsplit_unstripped {absolute : Text} {parsed : Url.SplitResult}
    (h : Url.urlsplit N.toTools (strip absolute) = some parsed) (hscheme : parsed.scheme ≠ [])
    (hnetloc : parsed.netloc ≠ []) (hlead : ∀ c ∈ absolute.takeWhile isSpace, c.toNat ≤ 0x20) :
    Url.urlsplit N.toTools absolute = Url.urlsplit N.toTools (strip absolute ++ trailing absolute) := by
  obtain ⟨scheme, last, hshape⟩ := Url.exists_shaped h hscheme hnetloc
  have hne : Url.clean (strip absolute) ≠ [] := by simp [hshape.eq]
  have hfilter : (trailing absolute).filter (fun c => !Url.isLineControl c) = trailing absolute :=
    List.filter_eq_self.mpr fun c hc => by simp [(mem_trailing hc).2]
  have hparts := @Text.eq_stripBy isSpace absolute
  calc Url.urlsplit N.toTools absolute
      = Url.urlsplit N.toTools (absolute.takeWhile isSpace ++ (strip absolute ++
          ((absolute.dropWhile isSpace).reverse.takeWhile isSpace).reverse)) := by
        conv_lhs => rw [hparts]
        rfl
    _ = Url.urlsplit N.toTools (strip absolute ++
          ((absolute.dropWhile isSpace).reverse.takeWhile isSpace).reverse) :=
        Url.urlsplit_lead _ hlead _
    _ = Url.urlsplit N.toTools (strip absolute ++ trailing absolute) := by
        refine Url.urlsplit_congr _ ?_
        rw [Url.clean_append hne, Url.clean_append hne, hfilter]
        rfl

/-- Other whitespace in front of a URL hides its scheme. -/
theorem scheme_of_lead {absolute : Text} {parsed : Url.SplitResult}
    (h : Url.urlsplit N.toTools absolute = some parsed)
    (hlead : ¬ ∀ c ∈ absolute.takeWhile isSpace, c.toNat ≤ 0x20) : parsed.scheme = [] := by
  refine Url.scheme_of_clean h fun c hc => ?_
  obtain ⟨d, hd, hhigh⟩ : ∃ d ∈ absolute.takeWhile isSpace, ¬ d.toNat ≤ 0x20 := by
    by_contra hnone
    exact hlead fun d hd => by_contra fun hhigh => hnone ⟨d, hd, hhigh⟩
  -- The first character that is read is whitespace.
  obtain ⟨first, rest, hdrop⟩ : ∃ first rest,
      ((absolute.takeWhile isSpace).dropWhile fun c => c.toNat ≤ 0x20) = first :: rest := by
    refine List.exists_cons_of_ne_nil fun hnil => hhigh ?_
    simpa using List.dropWhile_eq_nil_iff.mp hnil d hd
  have hfirst : ¬ first.toNat ≤ 0x20 := by
    have hhead := List.head?_dropWhile_not (fun c : Char => decide (c.toNat ≤ 0x20))
      (absolute.takeWhile isSpace)
    rw [hdrop] at hhead
    simpa using hhead
  have hspace : isSpace first = true := by
    have hmem : first ∈ absolute.takeWhile isSpace :=
      List.dropWhile_subset (fun c => decide (c.toNat ≤ 0x20))
        (by rw [hdrop]; exact List.mem_cons_self)
    exact List.mem_takeWhile_imp hmem
  have hread : (absolute.dropWhile fun c => c.toNat ≤ 0x20) =
      first :: (rest ++ absolute.dropWhile isSpace) := by
    conv_lhs => rw [← List.takeWhile_append_dropWhile (p := isSpace) (l := absolute)]
    rw [List.dropWhile_append, hdrop]
    rfl
  rw [Url.head?_clean hfirst _ hread, Option.mem_some_iff] at hc
  subst hc
  rw [Bool.eq_false_iff]
  intro hletter
  have halpha := Url.isAsciiAlpha_bounds hletter
  have hblank := isSpace_bounds hspace
  omega

theorem collapseSlashes_of_not_mem {text : Text} (h : '/' ∉ text) :
    collapseSlashes text = text := by
  fun_induction collapseSlashes text with
  | case1 rest ih => exact absurd List.mem_cons_self h
  | case2 c rest hslash ih => rw [ih fun hmem => h (List.mem_cons_of_mem _ hmem)]
  | case3 => rfl

/-- Whitespace at the end of a path is written. -/
theorem collapseSlashes_append {path w : Text} (hw : '/' ∉ w) :
    collapseSlashes (path ++ w) = collapseSlashes path ++ w := by
  fun_induction collapseSlashes path with
  | case1 rest ih =>
      rw [List.cons_append, List.cons_append, collapseSlashes]
      exact ih
  | case2 c rest hslash ih =>
      rw [List.cons_append, collapseSlashes, ih, List.cons_append]
      rintro tail rfl htail
      cases rest with
      | nil =>
          rw [List.nil_append] at htail
          exact hw (by simp [htail])
      | cons d rest => exact hslash rest rfl (by rw [(List.cons.inj htail).1])
  | case3 => exact collapseSlashes_of_not_mem hw

/-- Nothing is stripped from a host that ends in whitespace. -/
theorem rstripDots_append {w : Text} (hne : w ≠ []) (hw : ∀ c ∈ w, isSpace c = true)
    (text : Text) : rstripDots (text ++ w) = text ++ w := by
  obtain ⟨c, last, hreverse⟩ := List.exists_cons_of_ne_nil (mt List.reverse_eq_nil_iff.mp hne)
  have hc : isSpace c = true := hw c (List.mem_reverse.mp (by simp [hreverse]))
  have hdot : c ≠ '.' := by
    rintro rfl
    revert hc
    decide
  rw [rstripDots, List.reverse_append, hreverse, List.cons_append,
    List.dropWhile_cons_of_neg (by simpa using hdot), ← List.cons_append, ← hreverse,
    ← List.reverse_append, List.reverse_reverse]

/-- Whitespace at the end of a host name is kept. -/
theorem hostname_append (hspace : KeepsSpace N.lower) {w : Text} (hw : ∀ c ∈ w, isSpace c = true)
    {r r' : Url.SplitResult} {name : Text} (hname : r.hostname N.toTools = some name)
    (hinfo : r'.hostinfo.1 = r.hostinfo.1 ++ w) : r'.hostname N.toTools = some (name ++ w) := by
  have hmark : '%' ∉ w := fun hmem => by
    have hblank := hw _ hmem
    revert hblank
    decide
  unfold Url.SplitResult.hostname at hname ⊢
  simp only [hinfo] at hname ⊢
  split_ifs at hname with hempty
  rw [if_neg (by simp [hempty])]
  by_cases hzone : '%' ∈ r.hostinfo.1
  · obtain ⟨before, zone, hparts⟩ := Url.partition_of_mem hzone
    rw [Url.partition_append_mem hzone, hparts]
    rw [hparts] at hname
    simp only [Option.map_some, Option.getD_some, Option.some_inj] at hname ⊢
    rw [← hname, List.append_assoc, List.cons_append]
  · rw [Url.partition_append_not_mem hzone hmark, hspace.append _ hw]
    rw [Url.partition_of_not_mem hzone] at hname
    simp only [Option.map_none, Option.getD_none, List.append_nil, Option.some_inj] at hname ⊢
    rw [hname]

section

variable {absolute host : Text} {parsed : Url.SplitResult} {port : Option ℕ}

/-- A host that ends in whitespace is not written as the host without it. -/
theorem append_ne_authority {w scheme : Text} (hne : w ≠ []) (hw : ∀ c ∈ w, isSpace c = true)
    (text : Text) (port : Option ℕ) :
    (text ++ w) ++ portText scheme port ≠ authority scheme (rstripDots text) port := by
  rw [authority_eq, Ne, List.append_cancel_right_eq]
  intro heq
  split_ifs at heq with hcolon
  · -- Brackets do not end in whitespace.
    have hlast := congrArg List.getLast? heq
    rw [← List.cons_append, List.getLast?_concat, List.getLast?_append_of_ne_nil _ hne] at hlast
    have hclose := hw _ (List.mem_of_getLast? hlast)
    revert hclose
    decide
  · have hlength := congrArg List.length heq
    have hshorter : (rstripDots text).length ≤ text.length := by
      rw [rstripDots, List.length_reverse, ← @List.length_reverse _ text]
      exact (List.dropWhile_suffix _).length_le
    have hpos := List.length_pos_of_ne_nil hne
    rw [List.length_append] at hlength
    omega

/-- Whitespace that ends up in the host or the port changes the URL or makes it unreadable. -/
theorem netloc_iff (hlaws : LowerLaws N.lower) (hspace : KeepsSpace N.lower) {url w : Text}
    (hsplit : Url.urlsplit N.toTools (strip absolute) = some parsed)
    (hs : Complete N parsed host port) (hnormal : NormalHost N host) (hne : w ≠ [])
    (hw : ∀ c ∈ w, isSpace c = true)
    (hsplit' : Url.urlsplit N.toTools url = some { parsed with netloc := parsed.netloc ++ w }) :
    tryNormalizeSplit N { parsed with netloc := parsed.netloc ++ w } =
        some (Url.urlunsplit ⟨N.lower parsed.scheme, authority (N.lower parsed.scheme) host port,
          collapseSlashes (if parsed.path = [] then ['/'] else parsed.path),
          canonicalQuery N parsed.query, []⟩) ↔
      ':' ∉ host ∧ { parsed with netloc := parsed.netloc ++ w }.hostinfo = parsed.hostinfo := by
  have hmarks : ∀ c ∈ w, c ≠ '@' ∧ c ≠ '[' ∧ c ≠ ']' ∧ c ≠ ':' := by
    intro c hc
    have hblank := hw c hc
    refine ⟨?_, ?_, ?_, ?_⟩ <;> rintro rfl <;> revert hblank <;> decide
  have hat : '@' ∉ parsed.netloc := by
    refine Url.not_mem_of_rpartition ?_
    have huser := hs.username
    simpa [Url.SplitResult.username] using huser
  have hat' : '@' ∉ parsed.netloc ++ w := fun hmem =>
    (List.mem_append.mp hmem).elim hat fun hc => (hmarks _ hc).1 rfl
  -- The URL with the whitespace gets a name, so that the rewriting below does not look into it.
  obtain ⟨a, ha⟩ : ∃ a : Url.SplitResult, { parsed with netloc := parsed.netloc ++ w } = a :=
    ⟨_, rfl⟩
  have hparts : a.scheme = parsed.scheme ∧ a.netloc = parsed.netloc ++ w ∧
      a.path = parsed.path ∧ a.query = parsed.query := by
    rw [← ha]
    exact ⟨rfl, rfl, rfl, rfl⟩
  have hinfo := parsed.hostinfo_append hmarks hat
  rw [ha] at hsplit' hinfo ⊢
  obtain ⟨hscheme, hnetloc, hpath, hquery⟩ := hparts
  have hcredentials : (Url.rpartition '@' a.netloc).1 = none := by
    rw [hnetloc, Url.rpartition_of_not_mem hat']
  have huser : a.username = none := by simp [Url.SplitResult.username, hcredentials]
  have hpassword : a.password = none := by simp [Url.SplitResult.password, hcredentials]
  obtain ⟨name, hname⟩ := Option.ne_none_iff_exists'.mp hs.hostname
  rcases hinfo with hinfo | hinfo | hinfo
  · -- Behind brackets it is ignored.
    have hname' : a.hostname N.toTools = parsed.hostname N.toTools := by
      simp only [Url.SplitResult.hostname, hinfo]
    have hport' : a.port = parsed.port := by simp only [Url.SplitResult.port, hinfo]
    have hcomplete : Complete N a host port :=
      ⟨hscheme ▸ hs.scheme, huser, hpassword, hname' ▸ hs.hostname, hname' ▸ hs.host_eq,
        hport' ▸ hs.port_eq⟩
    rw [same_iff hlaws hsplit' hcomplete hnormal.ne_nil hsplit hs hnormal hscheme, hpath, hquery,
      append_portText_eq_authority hnormal]
    simp [hinfo]
  · -- It belongs to the host.
    have hdiffers : a.hostinfo ≠ parsed.hostinfo := by
      rw [hinfo]
      intro heq
      have hhost := congrArg Prod.fst heq
      exact hne (List.append_right_eq_self.mp hhost)
    have hname' : a.hostname N.toTools = some (name ++ w) :=
      hostname_append hspace hw hname (by rw [hinfo])
    have hhost' : rstripDots (N.lower ((a.hostname N.toTools).getD [])) = N.lower name ++ w := by
      rw [hname', Option.getD_some, hspace.append _ hw, rstripDots_append hne hw]
    have hport' : a.port = parsed.port := by simp only [Url.SplitResult.port, hinfo]
    have hhost : rstripDots (N.lower name) = host := by
      have heq := hs.host_eq
      rwa [hname] at heq
    have hcomplete : Complete N a (N.lower name ++ w) port :=
      ⟨hscheme ▸ hs.scheme, huser, hpassword, by simp [hname'], hhost', hport' ▸ hs.port_eq⟩
    rw [same_iff hlaws hsplit' hcomplete (by simp [hne]) hsplit hs hnormal hscheme, ← hhost]
    exact ⟨fun h => absurd h.1 (append_ne_authority hne hw _ _), fun h => absurd h.2 hdiffers⟩
  · -- It belongs to the port, which is not a number then.
    have hdiffers : a.hostinfo ≠ parsed.hostinfo := by
      rw [hinfo]
      intro heq
      have hport := congrArg Prod.snd heq
      exact hne (List.append_right_eq_self.mp hport)
    have hport' : a.port = none := by
      have hdigits : ¬ (parsed.hostinfo.2 ++ w).all Url.isAsciiDigit = true := by
        rw [List.all_eq_true]
        intro hall
        obtain ⟨c, rest, heq⟩ := List.exists_cons_of_ne_nil hne
        have hdigit := Url.isAsciiDigit_bounds (hall c (by simp [heq]))
        have hblank := isSpace_bounds (hw c (by simp [heq]))
        omega
      simp only [Url.SplitResult.port, hinfo]
      rw [if_neg (by simp [hne]), if_neg hdigits]
    constructor
    · intro h
      obtain ⟨port, hcomplete⟩ := complete_of_tryNormalizeSplit h
      rw [hcomplete.port_eq] at hport'
      cases hport'
    · exact fun h => absurd h.2 hdiffers

theorem Complete.scheme_ne_nil (hlaws : LowerLaws N.lower) (h : Complete N parsed host port) :
    parsed.scheme ≠ [] := by
  intro hnil
  have hlower : N.lower [] = [] := hlaws.fixed [] [] (by simp)
  have hhttp := h.scheme
  rw [hnil, hlower] at hhttp
  revert hhttp
  decide

theorem trailing_text {c : Char} (h : c ∈ trailing absolute) :
    Url.endsNetloc c = false ∧ Url.isLineControl c = false := by
  obtain ⟨hblank, hcontrol⟩ := mem_trailing h
  refine ⟨?_, hcontrol⟩
  rw [Bool.eq_false_iff]
  intro hends
  simp only [Url.endsNetloc, Bool.or_eq_true, beq_iff_eq] at hends
  rcases hends with (rfl | rfl) | rfl <;> revert hblank <;> decide

/-- Whitespace behind a URL that `normalize_url` takes. -/
theorem trailing_iff (hlaws : LowerLaws N.lower) (hspace : KeepsSpace N.lower)
    (hsplit : Url.urlsplit N.toTools (strip absolute) = some parsed)
    (hs : Complete N parsed host port) (hnormal : NormalHost N host) :
    (Url.urlsplit N.toTools (strip absolute ++ trailing absolute)).bind (tryNormalizeSplit N) =
        some (Url.urlunsplit ⟨N.lower parsed.scheme, authority (N.lower parsed.scheme) host port,
          collapseSlashes (if parsed.path = [] then ['/'] else parsed.path),
          canonicalQuery N parsed.query, []⟩) ↔
      ':' ∉ host ∧ EndUnread N absolute parsed := by
  have htext : ∀ c ∈ trailing absolute, Url.endsNetloc c = false ∧ Url.isLineControl c = false :=
    fun c hc => trailing_text hc
  have happend := Url.urlsplit_append hsplit (hs.scheme_ne_nil hlaws) hs.netloc_ne_nil htext
  unfold EndUnread
  -- The whitespace goes to the last part of the URL that is there: fragment, query, path or host.
  by_cases hempty : trailing absolute = []
  · rw [hempty, List.append_nil, hsplit, Option.bind_some,
      same_iff hlaws hsplit hs hnormal.ne_nil hsplit hs hnormal rfl,
      append_portText_eq_authority hnormal]
    simp
  by_cases hfragment : '#' ∈ strip absolute
  · rw [if_pos hfragment] at happend
    have ha : Complete N { parsed with fragment := parsed.fragment ++ trailing absolute } host
      port := ⟨hs.scheme, hs.username, hs.password, hs.hostname, hs.host_eq, hs.port_eq⟩
    rw [happend, Option.bind_some, same_iff hlaws happend ha hnormal.ne_nil hsplit hs hnormal rfl,
      append_portText_eq_authority hnormal]
    simp [hfragment]
  rw [if_neg hfragment] at happend
  by_cases hquery : '?' ∈ strip absolute
  · rw [if_pos hquery] at happend
    have ha : Complete N { parsed with query := parsed.query ++ trailing absolute } host
      port := ⟨hs.scheme, hs.username, hs.password, hs.hostname, hs.host_eq, hs.port_eq⟩
    rw [happend, Option.bind_some, same_iff hlaws happend ha hnormal.ne_nil hsplit hs hnormal rfl,
      append_portText_eq_authority hnormal]
    simp [hempty, hfragment, hquery]
  rw [if_neg hquery] at happend
  by_cases hpath : parsed.path = []
  · rw [if_neg (not_not.mpr hpath)] at happend
    by_cases haccepts : Url.accepts N.toTools (parsed.netloc ++ trailing absolute) = true
    · rw [if_pos haccepts] at happend
      rw [happend, Option.bind_some, netloc_iff hlaws hspace hsplit hs hnormal hempty
        (fun c hc => (mem_trailing hc).1) happend]
      simp [hempty, hfragment, hquery, hpath, haccepts]
    · rw [if_neg haccepts] at happend
      simp [happend, hempty, hfragment, hquery, haccepts]
  · rw [if_pos hpath] at happend
    have ha : Complete N { parsed with path := parsed.path ++ trailing absolute } host
      port := ⟨hs.scheme, hs.username, hs.password, hs.hostname, hs.host_eq, hs.port_eq⟩
    -- In the path it stays, and the path gets longer.
    have hslash : '/' ∉ trailing absolute := fun hc => by
      have hends := (trailing_text hc).1
      revert hends
      decide
    have hlonger : collapseSlashes (parsed.path ++ trailing absolute) ≠
        collapseSlashes parsed.path := by
      rw [collapseSlashes_append hslash]
      simp [hempty]
    rw [happend, Option.bind_some, same_iff hlaws happend ha hnormal.ne_nil hsplit hs hnormal rfl]
    simp [hempty, hfragment, hquery, hpath, hlonger]

/-- What `_try_normalize` makes of a joined URL that `normalize_url` takes. -/
theorem unstripped_iff (hlaws : LowerLaws N.lower) (hspace : KeepsSpace N.lower)
    (hsplit : Url.urlsplit N.toTools (strip absolute) = some parsed)
    (hs : Complete N parsed host port) (hnormal : NormalHost N host) :
    (Url.urlsplit N.toTools absolute).bind (tryNormalizeSplit N) =
        some (Url.urlunsplit ⟨N.lower parsed.scheme, authority (N.lower parsed.scheme) host port,
          collapseSlashes (if parsed.path = [] then ['/'] else parsed.path),
          canonicalQuery N parsed.query, []⟩) ↔
      ':' ∉ host ∧ Unread N absolute parsed := by
  by_cases hlead : ∀ c ∈ absolute.takeWhile isSpace, c.toNat ≤ 0x20
  · rw [Unread, and_iff_right hlead, urlsplit_unstripped hsplit (hs.scheme_ne_nil hlaws)
      hs.netloc_ne_nil hlead, trailing_iff hlaws hspace hsplit hs hnormal]
  · constructor
    · intro h
      obtain ⟨a, ha, h⟩ := Option.bind_eq_some_iff.mp h
      obtain ⟨port', hcomplete⟩ := complete_of_tryNormalizeSplit h
      exact absurd (scheme_of_lead ha hlead) (hcomplete.scheme_ne_nil hlaws)
    · exact fun h => absurd h.2.1 hlead

/-- A URL that is stripped already has no whitespace that could be read. -/
theorem unread_of_strip_eq (h : strip absolute = absolute) : Unread N absolute parsed := by
  have hparts := @Text.eq_stripBy isSpace absolute
  have hlengths := congrArg List.length hparts
  have hlength : (Text.stripBy isSpace absolute).length = absolute.length := by
    rw [show Text.stripBy isSpace absolute = absolute from h]
  rw [List.length_append, List.length_append, hlength] at hlengths
  have hfront : absolute.takeWhile isSpace = [] := List.length_eq_zero_iff.mp (by omega)
  have hbehind : ((absolute.dropWhile isSpace).reverse.takeWhile isSpace).reverse = [] :=
    List.length_eq_zero_iff.mp (by omega)
  refine ⟨by simp [hfront], .inl ?_⟩
  rw [trailing, hbehind]
  rfl

end

/-! ## Agreement -/

/-- **Two normalisers.** On a URL that `normalize_url` takes, `_try_normalize` returns the same
exactly if the host has no colon and, where there is a base, whitespace around the joined URL has no
influence. -/
theorem tryNormalize_agrees_iff (hlaws : LowerLaws N.lower) (hspace : KeepsSpace N.lower)
    {url base result : Text} (h : normalizeUrl N url base = .ok result) :
    ∃ parsed host, readUrl N url base = some parsed ∧ Crawler.host N parsed = .ok host ∧
      (tryNormalize N url base = some result ↔
        ':' ∉ host ∧ (base = [] ∨
          ∃ absolute, Url.urljoin N.toTools base url = some absolute ∧ Unread N absolute parsed)) := by
  unfold normalizeUrl at h
  by_cases hbase : base = []
  · rw [if_pos hbase] at h
    obtain ⟨parsed, host, port, hsplit, hhost, hs, hnormal, rfl⟩ :=
      complete_of_normalizeAbsolute hlaws h
    refine ⟨parsed, host, by simp [readUrl, hbase, hsplit], hhost, ?_⟩
    rw [tryNormalize, if_pos hbase, hsplit, Option.bind_some,
      same_iff hlaws hsplit hs hnormal.ne_nil hsplit hs hnormal rfl,
      append_portText_eq_authority hnormal]
    simp [hbase]
  · rw [if_neg hbase] at h
    cases hjoin : Url.urljoin N.toTools base url with
    | none => simp [hjoin] at h
    | some absolute =>
        rw [hjoin] at h
        obtain ⟨parsed, host, port, hsplit, hhost, hs, hnormal, rfl⟩ :=
          complete_of_normalizeAbsolute hlaws h
        refine ⟨parsed, host, by simp [readUrl, hbase, hjoin, hsplit], hhost, ?_⟩
        rw [tryNormalize, if_neg hbase, hjoin, Option.bind_some,
          unstripped_iff hlaws hspace hsplit hs hnormal]
        simp [hbase]

/-- A relative image URL. -/
theorem tryNormalize_agrees_image :
    ∃ parsed host, readUrl asciiTools (str "../b//i.png?utm_a=1") (str "http://A.com:80/n/x") =
        some parsed ∧
      Crawler.host asciiTools parsed = .ok host ∧
      (tryNormalize asciiTools (str "../b//i.png?utm_a=1") (str "http://A.com:80/n/x") =
          some (str "http://a.com/b/i.png") ↔
        ':' ∉ host ∧ (str "http://A.com:80/n/x" = [] ∨ ∃ absolute,
          Url.urljoin asciiTools.toTools (str "http://A.com:80/n/x") (str "../b//i.png?utm_a=1") =
            some absolute ∧ Unread asciiTools absolute parsed)) := by
  have hresult : normalizeUrl asciiTools (str "../b//i.png?utm_a=1") (str "http://A.com:80/n/x") =
      .ok (str "http://a.com/b/i.png") := by
    decide +kernel
  exact tryNormalize_agrees_iff lowerLaws_ascii keepsSpace_ascii hresult

/-- An IPv6 address loses its brackets, and a space behind a relative URL becomes part of it. -/
theorem tryNormalize_disagrees :
    (normalizeUrl asciiTools (str "http://[2001:db8::1]/x") = .ok (str "http://[2001:db8::1]/x") ∧
      tryNormalize asciiTools (str "http://[2001:db8::1]/x") =
        some (str "http://2001:db8::1/x")) ∧
    normalizeUrl asciiTools (str "x.png ") (str "http://a.com/n/") =
        .ok (str "http://a.com/n/x.png") ∧
      tryNormalize asciiTools (str "x.png ") (str "http://a.com/n/") =
        some (str "http://a.com/n/x.png ") := by
  refine ⟨⟨?_, ?_⟩, ?_, ?_⟩ <;> decide +kernel

end

end Odirag.Crawl
