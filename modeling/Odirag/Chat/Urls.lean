import Odirag.Chat.Citations

/-!
# URLs in a generated answer

Reference: `_grounded_answer` of `backend/app/services/chat.py`.

The service looks for `https?://[^\s)\]}>]+` in a generated answer and accepts what is found only if
a citation has exactly this URL. A URL scheme is case-insensitive, and some closing brackets may stand
inside a URL; the expression knows neither.
-/

namespace Odirag.Chat

open Rag Retrieval Regex
open Documents (isSpace)

/-! ## What counts as a URL -/

/-- The brackets at which the expression of the service ends. -/
def isClosing (c : Char) : Bool := c == ')' || c == ']' || c == '\x7d' || c == '>'

/-- A scheme in any letter case begins here, and something follows it. -/
def startsUrl (text : Text) : Bool :=
  [str "http://", str "https://"].any fun scheme =>
    scheme.isPrefixOf (text.map Char.toLower) && decide (scheme.length < text.length)

/-- From the first scheme on. -/
def firstUrl : Text → Option Text
  | [] => none
  | c :: rest => if startsUrl (c :: rest) then some (c :: rest) else firstUrl rest

/-- Where a URL ends: at white space, and at the closing brackets that are taken to end one. -/
def endsUrl (closes : Char → Bool) (c : Char) : Bool := isSpace c || (isClosing c && closes c)

/-- The http and https URLs in a text. -/
def urls (closes : Char → Bool) (text : Text) : List Text :=
  (text.splitOnP (endsUrl closes)).filterMap firstUrl

/-- A URL with an upper-case letter in its scheme, or with a closing bracket inside. -/
def Irregular (url : Text) : Prop :=
  (¬ str "http://" <+: url ∧ ¬ str "https://" <+: url) ∨ ∃ c ∈ url, isClosing c = true

instance (url : Text) : Decidable (Irregular url) :=
  inferInstanceAs (Decidable (_ ∨ _))

/-! ## What the expression finds -/

/-- The characters after the scheme. -/
def isUrlChar (c : Char) : Bool :=
  !(isSpace c || c == ')' || c == ']' || c == '\x7d' || c == '>')

theorem isUrlChar_iff {c : Char} : isUrlChar c = true ↔ isSpace c = false ∧ isClosing c = false := by
  simp [isUrlChar, isClosing, and_assoc]

theorem not_isUrlChar_of_endsUrl {closes : Char → Bool} {c : Char} (h : endsUrl closes c = true) :
    isUrlChar c = false := by
  rw [Bool.eq_false_iff]
  intro hc
  obtain ⟨hspace, hclosing⟩ := isUrlChar_iff.mp hc
  simp [endsUrl, hspace, hclosing] at h

/-- The two schemes, as the expression spells them. -/
def schemes : List Text := [str "http://", str "https://"]

theorem isUrlChar_of_mem_scheme : ∀ scheme ∈ schemes, ∀ c ∈ scheme, isUrlChar c = true := by
  have hall : schemes.all (fun scheme => scheme.all isUrlChar) = true := by decide
  intro scheme hscheme c hc
  exact List.all_eq_true.mp (List.all_eq_true.mp hall scheme hscheme) c hc

/-- The expression takes a scheme and then goes on with the characters. -/
theorem run_scheme (n : ℕ) (r : Regex) {scheme : Text} (h : scheme ∈ schemes) (v : Text) :
    run n (seqs [lit "http", opt (lit "s"), lit "://", r]) ⟨scheme ++ v, []⟩ = run n r ⟨v, []⟩ := by
  simp only [schemes, List.mem_cons, List.not_mem_nil, or_false] at h
  rcases h with rfl | rfl
  · simp [seqs, lit, chars, opt, run, times, upTo, str]
  · simp [seqs, lit, chars, opt, run, times, upTo, str]

/-- Where a URL with a plain scheme ends, the expression ends. -/
theorem matchAt_answerUrl (n pos : ℕ) {scheme w rest : Text} (h : scheme ∈ schemes) (hne : w ≠ [])
    (hw : ∀ c ∈ w, isUrlChar c = true) (hrest : ∀ c ∈ rest.head?, isUrlChar c = false) :
    matchAt answerUrl n pos (scheme ++ w ++ rest) = some ⟨pos, scheme ++ w, []⟩ := by
  obtain ⟨c, w', rfl⟩ := List.exists_cons_of_ne_nil hne
  have hstop : rest.dropWhile isUrlChar = rest := by
    cases rest with
    | nil => rfl
    | cons d rest => exact List.dropWhile_cons_of_neg (by simp [hrest d rfl])
  have hdrop : (w' ++ rest).dropWhile isUrlChar = rest := by
    rw [List.dropWhile_append_of_pos fun d hd => hw d (List.mem_cons_of_mem c hd), hstop]
  have hhead : (run n answerUrl ⟨scheme ++ (c :: w') ++ rest, []⟩).head? = some ⟨rest, []⟩ := by
    rw [answerUrl, List.append_assoc, run_scheme n _ h]
    refine (head?_run_plus_char n (hw c List.mem_cons_self) (w' ++ rest) []).trans ?_
    rw [hdrop]
  rw [matchAt, hhead, Option.map_some, @List.length_append _ (scheme ++ (c :: w')) rest,
    Nat.add_sub_cancel, List.take_left]

/-- A match is a scheme and some characters. -/
theorem text_of_matchAt_answerUrl {n pos : ℕ} {text : Text} {m : Match}
    (h : matchAt answerUrl n pos text = some m) :
    ∃ scheme ∈ schemes, ∃ w, w ≠ [] ∧ (∀ c ∈ w, isUrlChar c = true) ∧ m.text = scheme ++ w := by
  have hlang : m.text ∈ lang (chars (str "http")) *
      (lang (chars (str "s")) ^ 0 * copies (lang (chars (str "s"))) 1 *
        (lang (chars (str "://")) * (letters isUrlChar ^ 1 * KStar.kstar (letters isUrlChar)))) :=
    mem_lang_of_matchAt (r := answerUrl) rfl h
  rw [pow_zero, one_mul] at hlang
  obtain ⟨http, hhttp, rest, hrest, htext⟩ := Language.mem_mul.mp hlang
  obtain ⟨s, ⟨i, hi, hs⟩, rest', hrest', rfl⟩ := Language.mem_mul.mp hrest
  obtain ⟨sep, hsep, w, hw, rfl⟩ := Language.mem_mul.mp hrest'
  rw [pow_one] at hw
  obtain ⟨first, ⟨c, hc, rfl⟩, more, hmore, rfl⟩ := Language.mem_mul.mp hw
  rw [mem_kstar_letters] at hmore
  rw [mem_lang_chars] at hhttp hsep
  have hscheme : http ++ (s ++ sep) ∈ schemes := by
    rw [hhttp, hsep]
    have hcases : i = 0 ∨ i = 1 := by omega
    rcases hcases with rfl | rfl
    · rw [pow_zero, Language.mem_one] at hs
      rw [hs]
      decide
    · rw [pow_one, mem_lang_chars] at hs
      rw [hs]
      decide
  refine ⟨_, hscheme, c :: more, List.cons_ne_nil c more, ?_, ?_⟩
  · intro d hd
    rcases List.mem_cons.mp hd with rfl | hd
    · exact hc
    · exact hmore d hd
  · rw [← htext]
    simp [List.append_assoc]

/-! ## Which URLs are found -/

theorem startsUrl_scheme {scheme v : Text} (h : scheme ∈ schemes) (hne : v ≠ []) :
    startsUrl (scheme ++ v) = true := by
  have hlower : scheme.map Char.toLower = scheme := by
    revert h
    revert scheme
    decide
  have hlength := List.length_pos_iff.mpr hne
  refine List.any_eq_true.mpr ⟨scheme, h, ?_⟩
  rw [List.map_append, hlower, Bool.and_eq_true, List.isPrefixOf_iff_prefix, decide_eq_true_iff,
    List.length_append]
  exact ⟨List.prefix_append _ _, by omega⟩

/-- Something follows the scheme of a URL. -/
theorem exists_of_startsUrl {scheme url : Text} (h : scheme ∈ schemes) (hbegins : scheme <+: url)
    (hstarts : startsUrl url = true) : ∃ v, v ≠ [] ∧ url = scheme ++ v := by
  obtain ⟨v, rfl⟩ := hbegins
  refine ⟨v, ?_, rfl⟩
  rintro rfl
  have hnone : ∀ scheme ∈ schemes, startsUrl scheme = false := by decide
  rw [List.append_nil, hnone scheme h] at hstarts
  cases hstarts

/-- The first URL of a part begins with a scheme, and none begins before it. -/
theorem firstUrl_spec {part url : Text} (h : firstUrl part = some url) :
    ∃ x, part = x ++ url ∧ startsUrl url = true ∧
      ∀ x' y, x = x' ++ y → y ≠ [] → startsUrl (y ++ url) = false := by
  induction part with
  | nil => cases h
  | cons c rest ih =>
      rw [firstUrl] at h
      split at h
      · next hstarts =>
          cases h
          refine ⟨[], rfl, hstarts, fun x' y hxy hy => ?_⟩
          exact absurd (List.append_eq_nil_iff.mp hxy.symm).2 hy
      · next hstarts =>
          obtain ⟨x, hrest, hurl, hfirst⟩ := ih h
          refine ⟨c :: x, by rw [hrest, List.cons_append], hurl, fun x' y hxy hy => ?_⟩
          cases x' with
          | nil =>
              rw [List.nil_append] at hxy
              rw [← hxy, List.cons_append, ← hrest]
              simpa using hstarts
          | cons d x' => exact hfirst x' y (List.cons.inj hxy).2 hy

/-- Where a URL stands in a text. -/
theorem mem_urls {closes : Char → Bool} {text url : Text} (h : url ∈ urls closes text) :
    ∃ a x b, text = a ++ x ++ url ++ b ∧ startsUrl url = true ∧
      (∀ c ∈ x ++ url, endsUrl closes c = false) ∧ (∀ c ∈ a.getLast?, endsUrl closes c = true) ∧
      (∀ c ∈ b.head?, endsUrl closes c = true) ∧
      ∀ x' y, x = x' ++ y → y ≠ [] → startsUrl (y ++ url) = false := by
  obtain ⟨part, hpart, hurl⟩ := List.mem_filterMap.mp h
  obtain ⟨a, b, htext, hrun, ha, hb⟩ := Text.mem_splitOnP hpart
  obtain ⟨x, rfl, hstarts, hfirst⟩ := firstUrl_spec hurl
  exact ⟨a, x, b, by rw [htext, ← List.append_assoc a x url], hstarts, hrun, ha, hb, hfirst⟩

/-- A URL without a match of its own would lie in a match that begins before it, and this match would
begin the URL. -/
theorem not_covered {closes : Char → Bool} {a x url b before matched after : Text}
    (hfirst : ∀ x' y, x = x' ++ y → y ≠ [] → startsUrl (y ++ url) = false)
    (ha : ∀ c ∈ a.getLast?, endsUrl closes c = true)
    (hb : ∀ c ∈ b.head?, endsUrl closes c = true)
    (htext : before ++ matched ++ after = a ++ x ++ url ++ b)
    (hbefore : before.length < (a ++ x).length)
    (hafter : (a ++ x).length < before.length + matched.length)
    (hchars : ∀ c ∈ matched, isUrlChar c = true)
    (hstarts : ∀ rest, startsUrl (matched ++ rest) = true) : False := by
  -- `y` is the part of the match before the URL, `z` the part of it from there on.
  obtain ⟨y, z, hyne, hy, hz, hurl⟩ :=
    Text.overlap (htext.trans (List.append_assoc _ url b)) hbefore hafter
  have hinside : ∀ c ∈ matched, endsUrl closes c = false := by
    intro c hc
    by_contra hend
    have hout := not_isUrlChar_of_endsUrl (Bool.eq_true_of_not_eq_false hend)
    rw [hchars c hc] at hout
    cases hout
  -- The match does not reach over the end of the URL.
  obtain ⟨u, hu⟩ : ∃ u, url = z ++ u := by
    rcases List.append_eq_append_iff.mp hurl with ⟨u, hu, -⟩ | ⟨w, hw, hwb⟩
    · exact ⟨u, hu⟩
    · cases w with
      | nil => exact ⟨[], by rw [hw]; simp⟩
      | cons c w =>
          have hend := hb c (by rw [hwb]; rfl)
          rw [hinside c (by rw [hz, hw]; simp)] at hend
          cases hend
  have hbegins : startsUrl (y ++ url) = true := by
    rw [hu, ← List.append_assoc, ← hz]
    exact hstarts u
  -- Nor over the start of its part.
  rcases List.append_eq_append_iff.mp hy with ⟨w, -, hx⟩ | ⟨w, ha', hyw⟩
  · rw [hfirst w y hx hyne] at hbegins
    cases hbegins
  · cases hlast : w.getLast? with
    | none =>
        rw [List.getLast?_eq_none_iff.mp hlast, List.nil_append] at hyw
        rw [hfirst [] y (by rw [hyw, List.nil_append]) hyne] at hbegins
        cases hbegins
    | some c =>
        have hend := ha c (by rw [ha', List.getLast?_append, hlast]; rfl)
        have hmem : c ∈ w := List.mem_of_getLast? hlast
        rw [hinside c (by rw [hz, hyw]; simp [hmem])] at hend
        cases hend

/-- A match of the expression is a run of URL characters that begins a URL, however it goes on. -/
theorem urlChars_of_matchAt {n pos : ℕ} {text : Text} {m : Match}
    (h : matchAt answerUrl n pos text = some m) :
    m.text ≠ [] ∧ (∀ c ∈ m.text, isUrlChar c = true) ∧
      ∀ rest, startsUrl (m.text ++ rest) = true := by
  obtain ⟨scheme, hmem, w, hne, hw, htext⟩ := text_of_matchAt_answerUrl h
  rw [htext]
  refine ⟨by simp [hne], fun c hc => ?_, fun rest => ?_⟩
  · rcases List.mem_append.mp hc with hc | hc
    · exact isUrlChar_of_mem_scheme scheme hmem c hc
    · exact hw c hc
  · rw [List.append_assoc]
    exact startsUrl_scheme hmem (by simp [hne])

/-- A URL that is not irregular is found. -/
theorem mem_findall_of_not_irregular {closes : Char → Bool} {text url : Text}
    (h : url ∈ urls closes text) (hregular : ¬ Irregular url) : url ∈ answerUrl.findall text := by
  obtain ⟨a, x, b, rfl, hstarts, hrun, ha, hb, hfirst⟩ := mem_urls h
  unfold Irregular at hregular
  push Not at hregular
  obtain ⟨hscheme, hclosing⟩ := hregular
  obtain ⟨scheme, hmem, hbegins⟩ : ∃ scheme ∈ schemes, scheme <+: url := by
    by_cases hhttp : str "http://" <+: url
    · exact ⟨_, List.mem_cons_self, hhttp⟩
    · exact ⟨_, List.mem_cons_of_mem _ List.mem_cons_self, hscheme hhttp⟩
  obtain ⟨w, hne, rfl⟩ := exists_of_startsUrl hmem hbegins hstarts
  have hchars : ∀ c ∈ scheme ++ w, isUrlChar c = true := by
    intro c hc
    have hend := hrun c (List.mem_append_right x hc)
    rw [endsUrl, Bool.or_eq_false_iff] at hend
    exact isUrlChar_iff.mpr ⟨hend.1, by simpa using hclosing c hc⟩
  let text := a ++ x ++ (scheme ++ w) ++ b
  have hmatch : matchAt answerUrl text.length (0 + (a ++ x).length) (scheme ++ w ++ b) =
      some ⟨0 + (a ++ x).length, scheme ++ w, []⟩ :=
    matchAt_answerUrl _ _ hmem hne (fun c hc => hchars c (List.mem_append_right _ hc))
      fun c hc => not_isUrlChar_of_endsUrl (hb c hc)
  obtain ⟨m, hm, hstart, hstop⟩ := finditerFrom_covers (Nat.zero_le (a ++ x).length) hmatch
    fun pos text m hm => (urlChars_of_matchAt hm).1
  rw [← List.append_assoc] at hm
  have hfound : m ∈ finditer answerUrl text := hm
  obtain ⟨before, rest, hsplit, hmatch'⟩ := finditerFrom_matchAt hfound
  obtain ⟨hstart', after, hrest⟩ := matchAt_consumes hmatch'
  obtain ⟨-, hmatched, hbegins'⟩ := urlChars_of_matchAt hmatch'
  rw [Nat.zero_add] at hstart hstop hstart'
  rcases Nat.lt_or_eq_of_le hstart with hbefore | hhere
  · have htext : before ++ m.text ++ after = a ++ x ++ (scheme ++ w) ++ b := by
      rw [List.append_assoc, hrest]
      exact hsplit.symm
    rw [Match.stop, hstart'] at hstop
    exact (not_covered hfirst ha hb htext (by omega) hstop hmatched hbegins').elim
  · -- The match that begins here is the URL.
    have hlength : before.length = (a ++ x).length := by omega
    have htail : rest = scheme ++ w ++ b := by
      have hsplit' : a ++ x ++ (scheme ++ w ++ b) = before ++ rest := by
        rw [← List.append_assoc (a ++ x)]
        exact hsplit
      exact (List.append_inj_right hsplit' hlength.symm).symm
    rw [htail, hlength, hmatch] at hmatch'
    refine List.mem_map.mpr ⟨m, hfound, ?_⟩
    rw [← Option.some.inj hmatch']

/-! ## Answers -/

/-- A URL begins with an `h`. -/
theorem toLower_of_startsUrl {c : Char} {rest : Text} (h : startsUrl (c :: rest) = true) :
    c.toLower = 'h' := by
  have hhead : ∀ scheme ∈ schemes, scheme.head? = some 'h' := by decide
  obtain ⟨scheme, hmem, hscheme⟩ := List.any_eq_true.mp h
  obtain ⟨tail, rfl⟩ := List.head?_eq_some_iff.mp (hhead scheme hmem)
  rw [Bool.and_eq_true, List.isPrefixOf_iff_prefix, List.map_cons, List.cons_prefix_cons] at hscheme
  exact hscheme.1.1.symm

/-- A character that begins no scheme can be dropped. -/
theorem urls_cons {closes : Char → Bool} {c : Char} (hc : c.toLower ≠ 'h') (text : Text) :
    urls closes (c :: text) = urls closes text := by
  have hfirst : ∀ part, firstUrl (c :: part) = firstUrl part := by
    intro part
    rw [firstUrl]
    exact if_neg fun hstarts => hc (toLower_of_startsUrl hstarts)
  unfold urls
  rw [List.splitOnP_cons_eq_if_modifyHead]
  split
  · rfl
  · cases hparts : text.splitOnP (endsUrl closes) with
    | nil => rfl
    | cons part parts =>
        rw [List.modifyHead_cons, List.filterMap_cons, List.filterMap_cons, hfirst]

theorem urls_append {closes : Char → Bool} {front : Text} (h : ∀ c ∈ front, c.toLower ≠ 'h')
    (text : Text) : urls closes (front ++ text) = urls closes text := by
  induction front with
  | nil => rfl
  | cons c front ih =>
      rw [List.cons_append, urls_cons (h c List.mem_cons_self)]
      exact ih fun d hd => h d (List.mem_cons_of_mem c hd)

theorem urls_eq_nil {closes : Char → Bool} {text : Text} (h : ∀ c ∈ text, c.toLower ≠ 'h') :
    urls closes text = [] := by
  have hempty : urls closes (text ++ []) = urls closes [] := urls_append h []
  rw [List.append_nil] at hempty
  rw [hempty]
  rfl

/-- The digits of a number begin no scheme. -/
theorem toLower_ne_of_mem_toString {n : ℕ} {c : Char} (h : c ∈ (toString n).toList) :
    c.toLower ≠ 'h' := by
  have hdigit : c.isDigit = true := by
    rw [Nat.toString_eq_ofList_toDigits, String.toList_ofList] at h
    exact Nat.isDigit_of_mem_toDigits (by decide) (by decide) h
  have hsame : c.toLower = c := by
    unfold Char.toLower
    refine dif_neg fun hupper => ?_
    simp only [Char.isDigit, Bool.and_eq_true, decide_eq_true_eq] at hdigit
    have hle : 'A'.val ≤ '9'.val := UInt32.le_trans hupper.1 hdigit.2
    exact absurd hle (by decide)
  rw [hsame]
  rintro rfl
  exact absurd hdigit (by decide)

theorem toLower_ne_of_counted {front back : Text} {count : ℕ}
    (hfront : front.all (fun c => c.toLower != 'h') = true)
    (hback : back.all (fun c => c.toLower != 'h') = true) :
    ∀ c ∈ front ++ (toString count).toList ++ back, c.toLower ≠ 'h' := by
  intro c hc
  rcases List.mem_append.mp hc with hc | hc
  · rcases List.mem_append.mp hc with hc | hc
    · exact bne_iff_ne.mp (List.all_eq_true.mp hfront c hc)
    · exact toLower_ne_of_mem_toString hc
  · exact bne_iff_ne.mp (List.all_eq_true.mp hback c hc)

section

variable (py : Python) (service : ChatService) (query : Text) (finalHits : List RetrievalHit)

/-- What the orchestrator answers from the hits that grounding cites, when it is asked and answers. -/
def generation (queryType : QueryType) : Option AnswerResult :=
  match queryType, service.orchestrator with
  | .sql, _ | _, none => none
  | _, some generateAnswer =>
      match generateAnswer query (hitsOf ((groundingDecision py service query
          finalHits).citations.map Citation.chunkId) finalHits) with
      | .result generated => some generated
      | _ => none

/-- The URLs of the chunks that a generated answer cites, as grounding has them. -/
def citedUrls (generated : AnswerResult) : List Text :=
  (generated.citedChunkIds.filterMap
    (citationByChunk (groundingDecision py service query finalHits))).map Citation.url

end

variable {py : Python} {service : ChatService} {query : Text} {finalHits : List RetrievalHit}

/-- An accepted answer is what the orchestrator wrote, with the citations of the chunks it cites; what
the expression finds in it are URLs of these. -/
structure Accepts (decision : EvidenceDecision) (generated : AnswerResult)
    (grounded : GroundedAnswer) : Prop where
  answer : grounded.answer = generated.answer
  citations : grounded.citations =
    (firsts generated.citedChunkIds).filterMap (citationByChunk decision)
  urls : ∀ url ∈ answerUrl.findall generated.answer, url ∈ grounded.citations.map Citation.url

theorem checked_accepts {decision : EvidenceDecision} {context : List String}
    {generated : AnswerResult} {grounded : GroundedAnswer}
    (h : checked py service query finalHits decision context generated = .ok grounded)
    (hanswer : grounded.refusal = false) : Accepts decision generated grounded := by
  unfold checked at h
  dsimp only at h
  split at h
  · cases h
  · split at h
    · cases h
    · next hurls =>
        cases hsupport : (validateAnswer py service.evidenceGate query generated.answer
            (hitsOf (firsts generated.citedChunkIds) finalHits)).sufficient with
        | false =>
            rw [hsupport] at h
            cases h
            cases hanswer
        | true =>
            rw [hsupport] at h
            cases h
            refine ⟨rfl, rfl, fun url hurl => ?_⟩
            by_contra hunknown
            exact hurls (List.any_eq_true.mpr ⟨url, hurl, decide_eq_true hunknown⟩)

theorem groundedAnswer_accepts {queryType : QueryType} {grounded : GroundedAnswer}
    (hpath : queryType ≠ .sql) (horchestrator : service.orchestrator ≠ none)
    (h : groundedAnswer py service query finalHits (groundingDecision py service query finalHits) =
      .ok grounded) (hanswer : grounded.refusal = false) :
    ∃ generated, generation py service query finalHits queryType = some generated ∧
      Accepts (groundingDecision py service query finalHits) generated grounded := by
  unfold groundedAnswer at h
  split at h
  · next hnone => exact absurd hnone horchestrator
  · next generateAnswer hsome =>
      dsimp only at h
      split at h
      · cases h
      · cases h
        cases hanswer
      · next generated hgenerated =>
          have hgeneration : generation py service query finalHits queryType = some generated := by
            cases queryType with
            | sql => exact absurd rfl hpath
            | rag | composite =>
                unfold generation
                rw [hsome]
                dsimp only
                rw [hgenerated]
          split at h
          · cases h
            cases hanswer
          · exact ⟨generated, hgeneration, checked_accepts h hanswer⟩

/-- In an accepted answer without a generation, the sentence with the count, there is no URL. Every
other one has the URLs that the orchestrator wrote and the citations of the chunks it cites. -/
theorem answer_accepts {queryType : QueryType} {count : ℕ} {result : ChatAnswer}
    (closes : Char → Bool) (horchestrator : service.orchestrator ≠ none)
    (h : answer py service queryType count query finalHits = .ok result)
    (hanswer : result.refusal = false) :
    (generation py service query finalHits queryType = none ∧ urls closes result.answer = []) ∨
      ∃ generated, generation py service query finalHits queryType = some generated ∧
        urls closes result.answer = urls closes generated.answer ∧
        ∀ url, (url ∈ result.citations.map Citation.url ↔
            url ∈ citedUrls py service query finalHits generated) ∧
          (url ∈ answerUrl.findall generated.answer → url ∈ result.citations.map Citation.url) := by
  by_cases hpath : queryType = .sql
  · subst hpath
    cases h
    refine .inl ⟨rfl, urls_eq_nil ?_⟩
    exact toLower_ne_of_counted (by decide) (by decide)
  · rw [answer_eq hpath] at h
    dsimp only at h
    split at h
    · cases h
      cases hanswer
    · split at h
      · cases h
        cases hanswer
      · cases hgrounded : groundedAnswer py service query finalHits
            (groundingDecision py service query finalHits) with
        | error e =>
            rw [hgrounded] at h
            cases h
        | ok grounded =>
            rw [hgrounded] at h
            cases h
            obtain ⟨generated, hgeneration, haccepts⟩ :=
              groundedAnswer_accepts hpath horchestrator hgrounded hanswer
            have hfront : ∀ c ∈ str "在符合筛选条件的 " ++ (toString count).toList ++
                str " 份文档中，", c.toLower ≠ 'h' :=
              toLower_ne_of_counted (by decide) (by decide)
            refine .inr ⟨generated, hgeneration, ?_, fun url => ⟨?_, haccepts.urls url⟩⟩
            · dsimp only
              rw [haccepts.answer]
              split
              · exact urls_append hfront _
              · rfl
            · dsimp only
              rw [haccepts.citations, citedUrls]
              simp only [List.mem_map, List.mem_filterMap, mem_firsts]

/-- In an answer that the service accepts from an orchestrator, whichever closing brackets are taken
to end a URL, every URL is the URL of a citation exactly if every irregular URL that the orchestrator
wrote is the URL of a chunk that it cites. -/
theorem answer_urls_cited_iff {queryType : QueryType} {count : ℕ} {result : ChatAnswer}
    (closes : Char → Bool) (horchestrator : service.orchestrator ≠ none)
    (h : answer py service queryType count query finalHits = .ok result)
    (hanswer : result.refusal = false) :
    (∀ url ∈ urls closes result.answer, url ∈ result.citations.map Citation.url) ↔
      ∀ generated ∈ generation py service query finalHits queryType,
        ∀ url ∈ urls closes generated.answer, Irregular url →
          url ∈ citedUrls py service query finalHits generated := by
  rcases answer_accepts closes horchestrator h hanswer with
    ⟨hnone, hurls⟩ | ⟨generated, hsome, hurls, hcited⟩
  · rw [hnone, hurls]
    simp
  · rw [hsome, hurls]
    constructor
    · rintro hall _ ⟨⟩ url hurl -
      exact (hcited url).1.mp (hall url hurl)
    · intro hirregular url hurl
      by_cases hregular : Irregular url
      · exact (hcited url).1.mpr (hirregular generated rfl url hurl hregular)
      · exact (hcited url).2 (mem_findall_of_not_irregular hurl hregular)

/-- An accepted answer has no new URL if the orchestrator wrote no irregular one. -/
theorem urls_cited_of_regular {queryType : QueryType} {count : ℕ} {result : ChatAnswer}
    (closes : Char → Bool) (horchestrator : service.orchestrator ≠ none)
    (h : answer py service queryType count query finalHits = .ok result)
    (hanswer : result.refusal = false)
    (hregular : ∀ generated ∈ generation py service query finalHits queryType,
      ∀ url ∈ urls closes generated.answer, ¬ Irregular url) :
    ∀ url ∈ urls closes result.answer, url ∈ result.citations.map Citation.url := by
  rcases answer_accepts closes horchestrator h hanswer with
    ⟨-, hurls⟩ | ⟨generated, hsome, hurls, hcited⟩
  · rw [hurls]
    simp
  · rw [hurls]
    intro url hurl
    exact (hcited url).2 (mem_findall_of_not_irregular hurl (hregular generated hsome url hurl))

/-! ## Two answers -/

/-- An official hit with this URL. -/
def linkedHit (url : Text) : RetrievalHit := { subsidyHit with sourceUrl := url }

/-- A service whose orchestrator writes this text and cites the hit. -/
def writing (text : Text) : ChatService :=
  { extractiveService with
    orchestrator := some fun _ _ =>
      .result { answer := text, citedChunkIds := ["subsidy"], refusal := false, refusalReason := none } }

/-- What the service answers to a question about subsidies from a hit with this URL: the text, and the
URLs of its citations, unless it refuses. -/
def answered (url text : Text) : Option (Text × List Text) :=
  match answer .basic (writing text) .rag 0 (str "企业补贴") [linkedHit url] with
  | .ok result => if result.refusal then none else some (result.answer, result.citations.map Citation.url)
  | .error _ => none

theorem exists_of_answered {url text : Text} {r : Text × List Text}
    (h : answered url text = some r) :
    ∃ result, answer .basic (writing text) .rag 0 (str "企业补贴") [linkedHit url] = .ok result ∧
      result.refusal = false ∧ result.answer = r.1 ∧ result.citations.map Citation.url = r.2 := by
  unfold answered at h
  split at h
  · next result hresult =>
      split at h
      · cases h
      · next hrefusal =>
          cases h
          exact ⟨result, hresult, by simpa using hrefusal, rfl, rfl⟩
  · cases h

/-- An answer whose only URL is irregular and the URL of the cited chunk. -/
theorem answer_urls_cited_iff_cited :
    ∃ result, answer .basic (writing (str "企业补贴 HTTPS://a.cn/n")) .rag 0 (str "企业补贴")
        [linkedHit (str "HTTPS://a.cn/n")] = .ok result ∧ result.refusal = false ∧
      str "HTTPS://a.cn/n" ∈ urls (fun _ => true) result.answer ∧
      ∀ url ∈ urls (fun _ => true) result.answer, url ∈ result.citations.map Citation.url := by
  have hanswered : answered (str "HTTPS://a.cn/n") (str "企业补贴 HTTPS://a.cn/n") =
      some (str "企业补贴 HTTPS://a.cn/n", [str "HTTPS://a.cn/n"]) := by
    decide +kernel
  obtain ⟨result, hresult, hrefusal, htext, -⟩ := exists_of_answered hanswered
  have hsome : (writing (str "企业补贴 HTTPS://a.cn/n")).orchestrator ≠ none := Option.some_ne_none _
  refine ⟨result, hresult, hrefusal, ?_,
    (answer_urls_cited_iff (fun _ => true) hsome hresult hrefusal).mpr ?_⟩
  · rw [htext]
    decide
  · have hcited : (generation .basic (writing (str "企业补贴 HTTPS://a.cn/n")) (str "企业补贴")
        [linkedHit (str "HTTPS://a.cn/n")] .rag).all (fun generated =>
          (urls (fun _ => true) generated.answer).all fun url =>
            decide (url ∈ citedUrls .basic (writing (str "企业补贴 HTTPS://a.cn/n")) (str "企业补贴")
              [linkedHit (str "HTTPS://a.cn/n")] generated)) = true := by
      decide +kernel
    intro generated hgenerated url hurl _
    rw [Option.mem_def.mp hgenerated, Option.all_some, List.all_eq_true] at hcited
    exact of_decide_eq_true (hcited url hurl)

/-- An accepted answer with a URL of no citation: its scheme is in upper case. -/
theorem upper_case_url_accepted :
    ∃ result, answer .basic (writing (str "企业补贴 HTTP://b.cn")) .rag 0 (str "企业补贴")
        [linkedHit (str "https://a.cn/n")] = .ok result ∧ result.refusal = false ∧
      ¬ ∀ url ∈ urls (fun _ => true) result.answer, url ∈ result.citations.map Citation.url := by
  have hanswered : answered (str "https://a.cn/n") (str "企业补贴 HTTP://b.cn") =
      some (str "企业补贴 HTTP://b.cn", [str "https://a.cn/n"]) := by
    decide +kernel
  obtain ⟨result, hresult, hrefusal, htext, hurls⟩ := exists_of_answered hanswered
  refine ⟨result, hresult, hrefusal, ?_⟩
  rw [htext, hurls]
  decide

end Odirag.Chat
