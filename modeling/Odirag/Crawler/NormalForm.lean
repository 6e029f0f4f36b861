import Odirag.Crawler.Hosts
import Odirag.Foundations.Query

/-!
# Normalising a normalised URL

Reference: `normalize_url` of `backend/app/crawler/urls.py`.

What `normalize_url` writes is read again with the same scheme, host, port and query, and with the
path up to whitespace at its end (`Readable.normalizeAbsolute_eq`). So the result is a normal form
unless its netloc cannot be read or it ends in whitespace (`normalizeUrl_again_iff`): the whitespace
around a URL is stripped before the fragment and the tracking parameters behind the path are
dropped.
-/

namespace Odirag.Crawler

open Documents (isSpace)

/-! ## Paths -/

/-- A path without two slashes in a row. -/
def Collapsed (path : Text) : Prop := path.IsChain fun a b => ¬ (a = '/' ∧ b = '/')

theorem mem_of_mem_collapseSlashes {path : Text} {c : Char} (h : c ∈ collapseSlashes path) :
    c ∈ path := by
  fun_induction collapseSlashes path with
  | case1 rest ih => exact List.mem_cons_of_mem _ (ih h)
  | case2 d rest hslash ih =>
      rcases List.mem_cons.mp h with rfl | h
      · exact List.mem_cons_self
      · exact List.mem_cons_of_mem _ (ih h)
  | case3 => exact h

theorem getLast?_collapseSlashes (path : Text) :
    (collapseSlashes path).getLast? = path.getLast? := by
  fun_induction collapseSlashes path with
  | case1 rest ih => rw [ih, List.getLast?_cons_cons]
  | case2 d rest hslash ih => rw [List.getLast?_cons, List.getLast?_cons, ih]
  | case3 => rfl

theorem head?_collapseSlashes_eq (path : Text) :
    (collapseSlashes path).head? = path.head? := by
  fun_induction collapseSlashes path with
  | case1 rest ih => exact ih
  | case2 c rest hslash ih => rfl
  | case3 => rfl

theorem collapsed_collapseSlashes (path : Text) : Collapsed (collapseSlashes path) := by
  fun_induction collapseSlashes path with
  | case1 rest ih => exact ih
  | case2 c rest hslash ih =>
      refine List.isChain_cons.mpr ⟨fun d hd => ?_, ih⟩
      rw [head?_collapseSlashes_eq] at hd
      rintro ⟨rfl, rfl⟩
      obtain ⟨tail, rfl⟩ := List.head?_eq_some_iff.mp hd
      exact hslash tail rfl rfl
  | case3 => exact List.IsChain.nil

/-- A path without two slashes in a row stays as it is. -/
theorem Collapsed.collapseSlashes_eq {path : Text} (h : Collapsed path) :
    collapseSlashes path = path := by
  fun_induction collapseSlashes path with
  | case1 rest ih => exact absurd ⟨rfl, rfl⟩ (List.isChain_cons_cons.mp h).1
  | case2 c rest hslash ih => rw [ih h.tail]
  | case3 => rfl

theorem Collapsed.of_prefix {path front : Text} (h : Collapsed path) (hfront : front <+: path) :
    Collapsed front :=
  h.infix hfront.isInfix

/-- A text without the whitespace at its end. -/
def rstrip (text : Text) : Text := (text.reverse.dropWhile isSpace).reverse

theorem rstrip_prefix (text : Text) : rstrip text <+: text := by
  have hsuffix := List.dropWhile_suffix (l := text.reverse) isSpace
  simpa [rstrip] using List.reverse_prefix.mpr hsuffix

/-- Nothing is stripped exactly from a text that does not end in whitespace. -/
theorem rstrip_eq_self {text : Text} :
    rstrip text = text ↔ ∀ c ∈ text.getLast?, isSpace c = false := by
  rw [rstrip, ← List.head?_reverse]
  constructor
  · intro h c hc
    have hhead := List.head?_dropWhile_not isSpace text.reverse
    rw [← List.reverse_inj, List.reverse_reverse] at h
    rw [h, Option.mem_def.mp hc] at hhead
    simpa using hhead
  · intro h
    cases hreverse : text.reverse with
    | nil => simpa using (List.reverse_eq_nil_iff.mp hreverse).symm
    | cons c rest =>
        have hc : isSpace c = false := h c (by simp [hreverse])
        rw [List.dropWhile_cons_of_neg (by simp [hc]), ← hreverse, List.reverse_reverse]

theorem rstrip_slash (text : Text) : rstrip ('/' :: text) = '/' :: rstrip text := by
  rw [rstrip, List.reverse_cons, List.dropWhile_append]
  split_ifs with hempty
  · have hnone : rstrip text = [] := by simp [rstrip, List.isEmpty_iff.mp hempty]
    rw [hnone]
    decide
  · simp [rstrip]

/-! ## Queries -/

section

variable {N : NetTools}

theorem isQueryChar_of_mem_canonicalQuery {query : Text} {c : Char}
    (h : c ∈ canonicalQuery N query) : Url.isQueryChar c = true :=
  Url.isQueryChar_of_mem_urlencode h

/-- A query in order is written as it is. -/
theorem canonicalQuery_canonicalQuery (hcodec : Url.DecodesUtf8 N.toTools) (query : Text) :
    canonicalQuery N (canonicalQuery N query) = canonicalQuery N query := by
  have hread : Url.parseQsl N.toTools (canonicalQuery N query) =
      Url.sortPairs ((Url.parseQsl N.toTools query).filter fun p => !isTracking N p.1) :=
    Url.parseQsl_urlencode hcodec _
  have hsorted := Url.sortPairs_filter_sortPairs (fun p => !isTracking N p.1)
    (Url.parseQsl N.toTools query)
  calc canonicalQuery N (canonicalQuery N query)
      = Url.urlencode (Url.sortPairs ((Url.parseQsl N.toTools (canonicalQuery N query)).filter
          fun p => !isTracking N p.1)) := rfl
    _ = canonicalQuery N query := by
        rw [hread, hsorted]
        rfl

/-- The pairs of a query in order: none is a tracking parameter, and they are sorted. -/
def InOrder (N : NetTools) (pairs : List (Text × Text)) : Prop :=
  (∀ p ∈ pairs, isTracking N p.1 = false) ∧ pairs.Pairwise fun x y => Url.lePair x y = true

/-- A query is written as it is exactly if it is in order. -/
theorem canonicalQuery_urlencode (hcodec : Url.DecodesUtf8 N.toTools)
    {pairs : List (Text × Text)} :
    canonicalQuery N (Url.urlencode pairs) = Url.urlencode pairs ↔ InOrder N pairs := by
  rw [canonicalQuery, Url.parseQsl_urlencode hcodec, Url.urlencode_inj hcodec,
    Url.sortPairs_filter_eq_self]
  simp [InOrder]

theorem inOrder_of_canonicalQuery (hcodec : Url.DecodesUtf8 N.toTools) {query : Text}
    (h : canonicalQuery N query = query) : InOrder N (Url.parseQsl N.toTools query) := by
  have hread : Url.parseQsl N.toTools query =
      Url.sortPairs ((Url.parseQsl N.toTools query).filter fun p => !isTracking N p.1) := by
    conv_lhs => rw [← h]
    exact Url.parseQsl_urlencode hcodec _
  simpa [InOrder] using Url.sortPairs_filter_eq_self.mp hread.symm

/-- Pairs in order stay so with another one at the end exactly if it belongs to the page and none of
them, unless it has the same name and goes, sorts behind it. -/
theorem InOrder.raised_iff {pairs : List (Text × Text)} (h : InOrder N pairs) (key value : Text) :
    InOrder N (pairs.filter (fun p => p.1 ≠ key) ++ [(key, value)]) ↔
      isTracking N key = false ∧ ∀ p ∈ pairs, p.1 ≠ key → p.1 ≤ key := by
  obtain ⟨hown, hsorted⟩ := h
  have hmem : ∀ p, p ∈ pairs.filter (fun p => p.1 ≠ key) ↔ p ∈ pairs ∧ p.1 ≠ key := by simp
  rw [InOrder, List.pairwise_append]
  constructor
  · rintro ⟨htracking, -, -, hlast⟩
    refine ⟨htracking (key, value) (by simp), fun p hp hne => ?_⟩
    rcases Url.lePair_iff.mp (hlast p ((hmem p).mpr ⟨hp, hne⟩) (key, value) (by simp)) with
      hlt | ⟨heq, -⟩
    · exact le_of_lt hlt
    · exact absurd heq hne
  · rintro ⟨htracking, hlast⟩
    refine ⟨fun p hp => ?_, hsorted.filter _, List.pairwise_singleton _ _, fun p hp q hq => ?_⟩
    · rcases List.mem_append.mp hp with hp | hp
      · exact hown p ((hmem p).mp hp).1
      · rw [List.mem_singleton.mp hp]
        exact htracking
    · obtain ⟨hparam, hne⟩ := (hmem p).mp hp
      rw [List.mem_singleton.mp hq]
      exact Url.lePair_iff.mpr (.inl (lt_of_le_of_ne (hlast p hparam hne) hne))

/-- A query stays exactly if it has a parameter that belongs to the page. -/
theorem canonicalQuery_ne_nil {query : Text} :
    canonicalQuery N query ≠ [] ↔
      ∃ p ∈ Url.parseQsl N.toTools query, isTracking N p.1 = false := by
  have hnil : canonicalQuery N query = [] ↔
      ∀ p ∈ Url.parseQsl N.toTools query, isTracking N p.1 = true := by
    rw [canonicalQuery, Url.urlencode_eq_nil, Url.sortPairs, ← List.length_eq_zero_iff,
      List.length_insertionSort, List.length_eq_zero_iff, List.filter_eq_nil_iff]
    simp
  rw [Ne, hnil]
  simp

theorem canonicalQuery_nil : canonicalQuery N [] = [] := by
  have hnone : Url.parseQsl N.toTools [] = [] := rfl
  simp [canonicalQuery, hnone, Url.sortPairs, Url.urlencode_eq_nil]

theorem queryPart_inj {query query' : Text} :
    Url.queryPart query = Url.queryPart query' ↔ query = query' := by
  by_cases hquery : query = [] <;> by_cases hquery' : query' = [] <;>
    simp [Url.queryPart, hquery, hquery', eq_comm]

/-- No character of a query is cut off or ends it. -/
theorem query_clean {c : Char} (h : Url.isQueryChar c = true) :
    isSpace c = false ∧ c ≠ '#' ∧ Url.isLineControl c = false := by
  obtain ⟨hlow, hhigh⟩ := Url.isQueryChar_bounds h
  have hne : ∀ d : Char, d.toNat < 36 → c ≠ d := by
    rintro d hd rfl
    omega
  refine ⟨?_, hne '#' (by decide), ?_⟩
  · simp only [isSpace, Bool.or_eq_false_iff, Bool.and_eq_false_iff, decide_eq_false_iff_not,
      beq_eq_false_iff_ne]
    omega
  · simp [Url.isLineControl, hne '\t' (by decide), hne '\r' (by decide), hne '\n' (by decide)]

/-! ## What is written -/

/-- The port of a URL that `_split_http_url` takes. -/
theorem splitHttpUrl_port {url : Text} {parsed : Url.SplitResult}
    (h : splitHttpUrl N url = .ok parsed) :
    ∀ n ∈ parsed.port.getD none, 1 ≤ n ∧ n ≤ 65535 := by
  unfold splitHttpUrl at h
  split at h
  · cases h
  · next r hsplit =>
      split at h
      · cases h
      · next port hport =>
          split_ifs at h with hscheme hcredentials hrange hhost
          obtain rfl : r = parsed := by cases h; rfl
          intro n hn
          rw [hport, Option.getD_some] at hn
          obtain rfl := Option.mem_def.mp hn
          simpa [Nat.one_le_iff_ne_zero] using hrange

/-- The parts that `normalize_url` writes. -/
structure Written (N : NetTools) (scheme host : Text) (port : Option ℕ) (path query : Text) :
    Prop where
  scheme_eq : scheme = str "http" ∨ scheme = str "https"
  scheme_lower : N.lower scheme = scheme
  normal : NormalHost N host
  port_pos : ∀ n ∈ port, 1 ≤ n ∧ n ≤ 65535
  slash : path.head? = some '/'
  path_chars : ∀ c ∈ path, Url.isPathChar c = true
  collapsed : Collapsed path
  query_chars : ∀ c ∈ query, Url.isQueryChar c = true
  query_eq : canonicalQuery N query = query

/-- Such parts with any query of characters that stay as they are. -/
structure Readable (N : NetTools) (scheme host : Text) (port : Option ℕ) (path query : Text) :
    Prop where
  scheme_eq : scheme = str "http" ∨ scheme = str "https"
  scheme_lower : N.lower scheme = scheme
  normal : NormalHost N host
  port_pos : ∀ n ∈ port, 1 ≤ n ∧ n ≤ 65535
  slash : path.head? = some '/'
  path_chars : ∀ c ∈ path, Url.isPathChar c = true
  collapsed : Collapsed path
  query_chars : ∀ c ∈ query, Url.isQueryChar c = true

theorem Written.readable {scheme host path query : Text} {port : Option ℕ}
    (h : Written N scheme host port path query) : Readable N scheme host port path query := by
  obtain ⟨hscheme, hlower, hnormal, hport, hslash, hpath, hcollapsed, hquery, -⟩ := h
  exact ⟨hscheme, hlower, hnormal, hport, hslash, hpath, hcollapsed, hquery⟩

/-- These parts as a URL. -/
def written (scheme host : Text) (port : Option ℕ) (path query : Text) : Text :=
  Url.located scheme (authority scheme host port) (path ++ Url.queryPart query)

theorem authority_ne_nil {scheme host : Text} {port : Option ℕ} (h : host ≠ []) :
    authority scheme host port ≠ [] := by
  rw [authority_eq]
  split_ifs <;> simp [h]

/-- What `normalize_url` returns. -/
theorem normalizeAbsolute_ok (hlaws : LowerLaws N.lower) (hcodec : Url.DecodesUtf8 N.toTools)
    {absolute url : Text} (h : normalizeAbsolute N absolute = .ok url) :
    ∃ parsed host, splitHttpUrl N (strip absolute) = .ok parsed ∧
      Crawler.host N parsed = .ok host ∧
      Written N (N.lower parsed.scheme) host (parsed.port.getD none)
        (collapseSlashes (if parsed.path = [] then ['/'] else parsed.path))
        (canonicalQuery N parsed.query) ∧
      url = written (N.lower parsed.scheme) host (parsed.port.getD none)
        (collapseSlashes (if parsed.path = [] then ['/'] else parsed.path))
        (canonicalQuery N parsed.query) := by
  obtain ⟨parsed, hsplit, h⟩ := bind_eq_ok.mp h
  obtain ⟨host, hhost, h⟩ := bind_eq_ok.mp h
  have hnormal := host_normal hlaws hsplit hhost
  obtain ⟨hparsed, hscheme, -, -⟩ := splitHttpUrl_ok hsplit
  obtain ⟨-, -, -, hpath⟩ := Url.urlsplit_some hparsed
  -- A URL with a host has a network location, and its path begins with a slash then.
  have hne : parsed.netloc ≠ [] := fun hnil =>
    hostname_ne_none hlaws hhost (Url.hostname_of_netloc_nil N.toTools hnil)
  have hslash : (if parsed.path = [] then ['/'] else parsed.path).head? = some '/' := by
    split_ifs with hempty
    · rfl
    · obtain ⟨c, path, heq⟩ := List.exists_cons_of_ne_nil hempty
      rw [heq] at hpath ⊢
      simp [hpath hne c (by simp)]
  have hchars : ∀ c ∈ collapseSlashes (if parsed.path = [] then ['/'] else parsed.path),
      Url.isPathChar c = true := by
    intro c hc
    have hmem := mem_of_mem_collapseSlashes hc
    split_ifs at hmem with hempty
    · rw [List.mem_singleton.mp hmem]
      decide
    · exact Url.isPathChar_of_urlsplit hparsed c hmem
  have hcollapsed := head?_collapseSlashes hslash
  refine ⟨parsed, host, hsplit, hhost, ⟨hscheme, hlaws.fixed _ _ fun c hc => hc, hnormal,
    splitHttpUrl_port hsplit, hcollapsed, hchars, collapsed_collapseSlashes _,
    fun c hc => isQueryChar_of_mem_canonicalQuery hc, canonicalQuery_canonicalQuery hcodec _⟩, ?_⟩
  rw [written, ← Url.urlunsplit_path (authority_ne_nil hnormal.ne_nil) hcollapsed]
  exact (Except.ok.inj h).symm

namespace Readable

variable {scheme host path query : Text} {port : Option ℕ}

theorem schemeText (h : Readable N scheme host port path query) : Url.SchemeText scheme := by
  rcases h.scheme_eq with heq | heq <;> rw [heq] <;> decide

/-- Splitting what is written. -/
theorem urlsplit (h : Readable N scheme host port path query) :
    Url.urlsplit N.toTools (written scheme host port path query) =
      if Url.accepts N.toTools (authority scheme host port) then
        some ⟨scheme, authority scheme host port, path, query, []⟩
      else none :=
  Url.urlsplit_path N.toTools h.schemeText (netlocText_authority scheme port h.normal).1 h.slash
    h.path_chars fun c hc => (query_clean (h.query_chars c hc)).2

/-- What is written is taken if its netloc can be read. -/
theorem splitHttpUrl (hlaws : LowerLaws N.lower) (h : Readable N scheme host port path query)
    (haccepts : Url.accepts N.toTools (authority scheme host port) = true) :
    Crawler.splitHttpUrl N (written scheme host port path query) =
      .ok ⟨scheme, authority scheme host port, path, query, []⟩ := by
  have hat : '@' ∉ authority scheme host port := (netlocText_authority scheme port h.normal).2
  have hport : (Url.SplitResult.mk scheme (authority scheme host port) path query []).port =
      some (shownPort scheme port) :=
    port_authority h.normal rfl haccepts fun n hn => (h.port_pos n hn).2
  have hname : (Url.SplitResult.mk scheme (authority scheme host port) path query []).hostname
      N.toTools = some host :=
    hostname_authority hlaws h.normal rfl haccepts
  have hscheme : ¬ (N.lower scheme ≠ str "http" ∧ N.lower scheme ≠ str "https") := by
    rw [h.scheme_lower]
    rintro ⟨hhttp, hhttps⟩
    exact h.scheme_eq.elim hhttp hhttps
  have hcredentials : (Url.rpartition '@' (authority scheme host port)).1 = none := by
    rw [Url.rpartition_of_not_mem hat]
  have hrange : ¬ (shownPort scheme port).any (fun n => !(1 ≤ n && n ≤ 65535)) = true := by
    cases hshown : shownPort scheme port with
    | none => simp
    | some n =>
        have hmem : port = some n := by
          simp only [shownPort, Option.filter_eq_some_iff] at hshown
          exact hshown.1
        obtain ⟨hlow, hhigh⟩ := h.port_pos n hmem
        simp [hlow, hhigh]
  unfold Crawler.splitHttpUrl
  rw [h.urlsplit, if_pos haccepts]
  simp only [hport]
  rw [if_neg hscheme, if_neg (by simp [Url.SplitResult.username, Url.SplitResult.password,
    hcredentials]), if_neg hrange, if_neg (by simp [hname])]

/-- The host that was written is read. -/
theorem host_eq (hlaws : LowerLaws N.lower) (h : Readable N scheme host port path query)
    (haccepts : Url.accepts N.toTools (authority scheme host port) = true) :
    Crawler.host N ⟨scheme, authority scheme host port, path, query, []⟩ = .ok host := by
  have hname : (Url.SplitResult.mk scheme (authority scheme host port) path query []).hostname
      N.toTools = some host :=
    hostname_authority hlaws h.normal rfl haccepts
  have hlower : N.lower host = host := h.normal.lower_eq hlaws fun c hc => hc
  simp [Crawler.host, hname, hlower, h.normal.undotted, h.normal.ne_nil]

/-- The path without the whitespace that ends the URL. -/
def kept (path query : Text) : Text := if query = [] then rstrip path else path

theorem kept_prefix (path query : Text) : kept path query <+: path := by
  unfold kept
  split_ifs
  · exact rstrip_prefix path
  · exact List.prefix_refl path

/-- Stripping what is written takes whitespace from the end of the path. -/
theorem strip_eq (h : Readable N scheme host port path query) :
    strip (written scheme host port path query) =
      written scheme host port (kept path query) query := by
  obtain ⟨tail, rfl⟩ := List.head?_eq_some_iff.mp h.slash
  obtain ⟨first, letters, hscheme, hfirst⟩ :
      ∃ first letters, scheme = first :: letters ∧ isSpace first = false := by
    rcases h.scheme_eq with heq | heq
    · exact ⟨'h', ['t', 't', 'p'], heq, by decide⟩
    · exact ⟨'h', ['t', 't', 'p', 's'], heq, by decide⟩
  have hlocated : ∀ rest, Url.located scheme (authority scheme host port) rest =
      first :: ((letters ++ ':' :: '/' :: '/' :: authority scheme host port) ++ rest) := by
    intro rest
    simp [Url.located, hscheme]
  have hstripped : ∀ rest, strip (first :: ((letters ++ ':' :: '/' :: '/' ::
      authority scheme host port) ++ '/' :: rest)) = first :: ((letters ++ ':' :: '/' :: '/' ::
      authority scheme host port) ++ '/' :: rstrip rest) := fun rest =>
    Text.stripBy_append hfirst (by decide)
  rw [written, written, hlocated, hlocated, List.cons_append, hstripped]
  by_cases hquery : query = []
  · simp [kept, hquery, Url.queryPart, rstrip_slash]
  · have hlast : rstrip (tail ++ Url.queryPart query) = tail ++ Url.queryPart query := by
      rw [rstrip_eq_self]
      intro c hc
      have hmem : c ∈ query := by
        obtain ⟨d, rest, heq⟩ := List.exists_cons_of_ne_nil hquery
        rw [Url.queryPart, if_neg hquery, List.getLast?_append_cons, heq,
          List.getLast?_cons_cons] at hc
        rw [heq]
        exact List.mem_of_getLast? hc
      exact (query_clean (h.query_chars c hmem)).1
    rw [hlast]
    simp [kept, hquery]

/-- What is read back is written in the same way. -/
theorem kept_readable (h : Readable N scheme host port path query) :
    Readable N scheme host port (kept path query) query := by
  have hfront := kept_prefix path query
  refine { h with
    slash := ?_
    path_chars := fun c hc => h.path_chars c (hfront.subset hc)
    collapsed := h.collapsed.of_prefix hfront }
  obtain ⟨tail, rfl⟩ := List.head?_eq_some_iff.mp h.slash
  unfold kept
  split_ifs
  · simp [rstrip_slash]
  · rfl

/-- Normalising such parts: it fails if the netloc cannot be read, and else the query is put in order
and whitespace at the end goes. -/
theorem normalizeAbsolute_eq (hlaws : LowerLaws N.lower)
    (h : Readable N scheme host port path query) :
    (Url.accepts N.toTools (authority scheme host port) = true →
      normalizeAbsolute N (written scheme host port path query) =
        .ok (written scheme host port (kept path query) (canonicalQuery N query))) ∧
    (Url.accepts N.toTools (authority scheme host port) = false →
      normalizeAbsolute N (written scheme host port path query) =
        .error (.unsafeUrl "URL is malformed")) := by
  have hkept := h.kept_readable
  constructor
  · intro haccepts
    have hport : (Url.SplitResult.mk scheme (authority scheme host port) (kept path query) query
        []).port = some (shownPort scheme port) :=
      port_authority h.normal rfl haccepts fun n hn => (h.port_pos n hn).2
    have hauthority : authority scheme host (shownPort scheme port) =
        authority scheme host port := by
      rw [authority_eq, authority_eq, portText_shownPort]
    have hne : kept path query ≠ [] := by
      intro hnil
      simpa [hnil] using hkept.slash
    rw [normalizeAbsolute, h.strip_eq, hkept.splitHttpUrl hlaws haccepts]
    simp only [bind, Except.bind]
    rw [hkept.host_eq hlaws haccepts]
    simp only [h.scheme_lower, hport, Option.getD_some, hauthority, if_neg hne,
      hkept.collapsed.collapseSlashes_eq]
    rw [Url.urlunsplit_path (authority_ne_nil h.normal.ne_nil) hkept.slash]
    rfl
  · intro hrefuses
    rw [normalizeAbsolute, h.strip_eq, Crawler.splitHttpUrl, hkept.urlsplit, hrefuses]
    rfl

/-- Such parts come out again exactly if their netloc can be read, the query is in order and nothing
is stripped. -/
theorem again_iff (hlaws : LowerLaws N.lower) (h : Readable N scheme host port path query) :
    normalizeAbsolute N (written scheme host port path query) =
        .ok (written scheme host port path query) ↔
      Url.accepts N.toTools (authority scheme host port) = true ∧
        canonicalQuery N query = query ∧
        (query ≠ [] ∨ ∀ c ∈ path.getLast?, isSpace c = false) := by
  obtain ⟨hok, herror⟩ := h.normalizeAbsolute_eq hlaws
  cases haccepts : Url.accepts N.toTools (authority scheme host port) with
  | false => simp [herror haccepts]
  | true =>
      have hsame : written scheme host port (kept path query) (canonicalQuery N query) =
          written scheme host port path query ↔
            kept path query ++ Url.queryPart (canonicalQuery N query) =
              path ++ Url.queryPart query := by
        simp [written, Url.located]
      rw [hok haccepts, Except.ok.injEq, hsame, ← rstrip_eq_self, kept]
      by_cases hquery : query = []
      · simp [hquery, canonicalQuery_nil, Url.queryPart]
      · rw [if_neg hquery, List.append_cancel_left_eq, queryPart_inj]
        simp [hquery]

end Readable

namespace Written

variable {scheme host path query : Text} {port : Option ℕ}

/-- What is written comes out again exactly if its netloc can be read and nothing is stripped. -/
theorem again_iff (hlaws : LowerLaws N.lower) (h : Written N scheme host port path query) :
    normalizeAbsolute N (written scheme host port path query) =
        .ok (written scheme host port path query) ↔
      Url.accepts N.toTools (authority scheme host port) = true ∧
        (query ≠ [] ∨ ∀ c ∈ path.getLast?, isSpace c = false) := by
  rw [h.readable.again_iff hlaws]
  simp [h.query_eq]

end Written

/-! ## Idempotence -/

/-- The URL that `normalize_url` reads. -/
def readUrl (N : NetTools) (url : Text) (base : Text := []) : Option Url.SplitResult :=
  (if base = [] then some url else Url.urljoin N.toTools base url).bind fun absolute =>
    Url.urlsplit N.toTools (strip absolute)

/-- A URL whose host can be read once it is in lower case and without dots at the end, and which has
a parameter that belongs to the page or a path that does not end in whitespace. -/
def Settled (N : NetTools) (parsed : Url.SplitResult) : Prop :=
  Url.accepts N.toTools (authority (N.lower parsed.scheme)
      (rstripDots (N.lower ((parsed.hostname N.toTools).getD []))) (parsed.port.getD none)) = true ∧
    ((∃ p ∈ Url.parseQsl N.toTools parsed.query, isTracking N p.1 = false) ∨
      ∀ c ∈ parsed.path.getLast?, isSpace c = false)

instance (parsed : Url.SplitResult) : Decidable (Settled N parsed) :=
  inferInstanceAs (Decidable (_ ∧ _))

/-- **Normal forms.** A URL that `normalize_url` returned is returned again, and unchanged, exactly if
the URL that was read is settled. -/
theorem normalizeUrl_again_iff (hlaws : LowerLaws N.lower) (hcodec : Url.DecodesUtf8 N.toTools)
    {url base result : Text} (h : normalizeUrl N url base = .ok result) :
    ∃ parsed, readUrl N url base = some parsed ∧
      (normalizeUrl N result = .ok result ↔ Settled N parsed) := by
  -- With or without a base, an absolute URL is read.
  obtain ⟨absolute, habsolute, h⟩ : ∃ absolute,
      (if base = [] then some url else Url.urljoin N.toTools base url) = some absolute ∧
        normalizeAbsolute N absolute = .ok result := by
    unfold normalizeUrl at h
    by_cases hbase : base = []
    · rw [if_pos hbase] at h ⊢
      exact ⟨url, rfl, h⟩
    · rw [if_neg hbase] at h ⊢
      cases hjoin : Url.urljoin N.toTools base url with
      | none => simp [hjoin] at h
      | some absolute => exact ⟨absolute, rfl, by simpa [hjoin] using h⟩
  obtain ⟨parsed, host, hsplit, hhost, hwritten, rfl⟩ := normalizeAbsolute_ok hlaws hcodec h
  refine ⟨parsed, ?_, ?_⟩
  · rw [readUrl, habsolute]
    exact (splitHttpUrl_ok hsplit).1
  · have hname : rstripDots (N.lower ((parsed.hostname N.toTools).getD [])) = host := by
      unfold Crawler.host at hhost
      simp only at hhost
      split_ifs at hhost
      exact Except.ok.inj hhost
    have hpath : (collapseSlashes (if parsed.path = [] then ['/'] else parsed.path)).getLast? =
        if parsed.path = [] then some '/' else parsed.path.getLast? := by
      rw [getLast?_collapseSlashes]
      split_ifs <;> rfl
    -- The path that is written ends in whitespace exactly if the one that was read does.
    have hend : (∀ c ∈ (collapseSlashes (if parsed.path = [] then ['/'] else parsed.path)).getLast?,
        isSpace c = false) ↔ ∀ c ∈ parsed.path.getLast?, isSpace c = false := by
      rw [hpath]
      by_cases hempty : parsed.path = []
      · have hslash : isSpace '/' = false := by decide
        simp [hempty, hslash]
      · simp [hempty]
    rw [normalizeUrl, if_pos rfl, hwritten.again_iff hlaws, canonicalQuery_ne_nil, hend, Settled,
      hname]

/-- ASCII texts whose escapes are UTF-8. -/
def asciiTools : NetTools :=
  { plainTools with
    decodeUtf8 := fun bytes => (bytes.toByteArray.utf8Decode?.map Array.toList).getD [] }

theorem decodesUtf8_asciiTools : Url.DecodesUtf8 asciiTools.toTools := by
  intro text
  change ((text.flatMap String.utf8EncodeChar).toByteArray.utf8Decode?.map Array.toList).getD [] =
    text
  have hdecode := List.utf8Decode?_utf8Encode (l := text)
  rw [List.utf8Encode] at hdecode
  rw [hdecode]
  simp

/-- A URL with a query in order. -/
theorem normalizeUrl_again_query :
    ∃ parsed, readUrl asciiTools (str "http://A.com//x?b=2&a=1#f") = some parsed ∧
      (normalizeUrl asciiTools (str "http://a.com/x?a=1&b=2") = .ok (str "http://a.com/x?a=1&b=2") ↔
        Settled asciiTools parsed) := by
  have hresult : normalizeUrl asciiTools (str "http://A.com//x?b=2&a=1#f") =
      .ok (str "http://a.com/x?a=1&b=2") := by
    decide +kernel
  exact normalizeUrl_again_iff lowerLaws_ascii decodesUtf8_asciiTools hresult

/-- A space in front of a fragment ends the URL once the fragment is dropped, and is stripped then. -/
theorem normalizeUrl_space_before_fragment :
    normalizeUrl asciiTools (str "http://a.com/x #f") = .ok (str "http://a.com/x ") ∧
      normalizeUrl asciiTools (str "http://a.com/x ") = .ok (str "http://a.com/x") := by
  constructor <;> decide +kernel

end

end Odirag.Crawler
