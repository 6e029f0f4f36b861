import Odirag.Documents.Document
import Odirag.Foundations.Regex

/-!
# The word lists and expressions of the evidence gate

Reference: the module constants of `backend/app/rag/evidence.py`.

The gate reads queries, answers and evidence with regular expressions and word lists. Two things are
not theirs to say: what the interpreter's Unicode tables make of a character, and in which order it
enumerates a set of strings, which changes with its hash seed. Both come in as a `Python`.
-/

namespace Odirag.Rag

open Regex
open Documents (isSpace)

/-! ## The interpreter -/

/-- The phrases of `_QUESTION_PHRASES`, which the source writes as a set. -/
def questionPhraseSet : List Text :=
  strs ["是否需要", "什么时候", "包括哪些", "有哪些", "是什么", "为什么", "怎么样", "如何", "怎么", "多少",
    "哪一些", "哪几个", "哪几家", "请问", "请说明", "请介绍", "请列出", "告诉我", "支持措施", "来源",
    "是否", "能否", "可否", "有没有", "已经", "当前", "相关", "有关", "这个", "这些", "那些", "根据",
    "关于", "何时", "吗", "呢", "的", "了"]

/-- What the interpreter contributes: `str.lower`, the classes `\d` and `\w`, and the tuple
`_QUESTION_PHRASES`, the set sorted by length with equal lengths in the order of the hash seed. -/
structure Python where
  lower : Text → Text
  isDigit : Char → Bool
  isWord : Char → Bool
  questionPhrases : List Text
  /-- Case mapping looks at neighbours (the final sigma), but not across a line break. -/
  lower_newline : ∀ a b, lower (a ++ '\n' :: b) = lower a ++ '\n' :: lower b
  newline_not_mem_lower : ∀ a, '\n' ∉ a → '\n' ∉ lower a
  /-- Lowered characters are not changed again. -/
  lower_fixed : ∀ a b, (∀ c ∈ b, c ∈ lower a) → lower b = b
  isDigit_newline : isDigit '\n' = false
  isWord_newline : isWord '\n' = false
  questionPhrases_perm : questionPhrases.Perm questionPhraseSet
  questionPhrases_sorted : questionPhrases.Pairwise fun p q => q.length ≤ p.length

/-! ## Word lists -/

/-- `_GENERIC_TERMS`. -/
def genericTerms : List Text :=
  strs ["什么", "怎么", "如何", "是否", "可以", "需要", "相关", "有关", "当前", "问题", "情况", "说明", "介绍",
    "措施"]

/-- The relations of `_RELATION_ANCHOR_GROUPS`. -/
inductive Relation where
  | cancellation
  | penalty
  | legalBasis
  deriving DecidableEq, Repr

/-- The words that state a relation. -/
def Relation.anchors : Relation → List Text
  | cancellation => strs ["取消", "撤销", "废止", "废除", "终止", "不再实施"]
  | penalty => strs ["罚款", "处罚", "行政处罚", "法律责任"]
  | legalBasis => strs ["法律法规依据", "法律依据", "法定依据", "法律根据"]

/-- The relations, in the order in which the groups stand. -/
def relationAnchorGroups : List Relation := [.cancellation, .penalty, .legalBasis]

/-- `_SUPPORT_CONCEPT_TERMS`. -/
def supportConceptTerms : List Text :=
  strs ["支持", "补助", "资金", "奖励", "优惠", "贷款", "培训", "服务"]

/-- `_TEMPORAL_STATUS_TERMS`. -/
def temporalStatusTerms : List Text := strs ["生效", "有效", "废止", "实施", "已经"]

/-- `_SCOPE_TRAILING_WORDS`. -/
def scopeTrailingWords : List Text := strs ["范围", "对象", "情形", "吗", "呢"]

/-- `_SCOPE_PLACEHOLDER_TARGETS`. -/
def scopePlaceholderTargets : List Text := strs ["什么", "哪些", "哪类", "何种", "谁"]

/-- `_SCOPE_FILLER_PHRASES`. -/
def scopeFillerPhrases : List Text :=
  strs ["符合条件的", "符合条件", "全省范围内", "范围内", "和", "的"]

/-- `_SCOPE_BINDING_CUES`. -/
def scopeBindingCues : List Text :=
  strs ["适用", "面向", "实施对象", "实施范围", "支持对象", "申请", "规范", "监管", "立足", "涵盖", "包括",
    "覆盖", "必须", "应当", "："]

/-! ## Character classes -/

/-- `[\u4e00-\u9fff]`. -/
def isCjk (c : Char) : Bool := 0x4e00 ≤ c.toNat && c.toNat ≤ 0x9fff

/-- `[A-Z]` and `[a-z]`. -/
def isLatinLetter (c : Char) : Bool :=
  (65 ≤ c.toNat && c.toNat ≤ 90) || (97 ≤ c.toNat && c.toNat ≤ 122)

/-- `[a-z]` without regard to case, which takes in the dotted and the dotless i, the long s and the
Kelvin sign. -/
def isLatinLetterIgnoreCase (c : Char) : Bool :=
  isLatinLetter c || c.toNat == 0x130 || c.toNat == 0x131 || c.toNat == 0x17f || c.toNat == 0x212a

/-- `[0-9]`. -/
def isAsciiDigit (c : Char) : Bool := 48 ≤ c.toNat && c.toNat ≤ 57

/-- `[0-9a-f]` without regard to case. -/
def isHex (c : Char) : Bool :=
  isAsciiDigit c || (65 ≤ c.toNat && c.toNat ≤ 70) || (97 ≤ c.toNat && c.toNat ≤ 102)

def cjk : Regex := char isCjk

/-- `\s`. -/
def space : Regex := char isSpace

/-- `.` where it does not match a line break. -/
def dot : Regex := char fun c => c != '\n'

/-- `.` under DOTALL. -/
def dotAll : Regex := char fun _ => true

/-- `\d`. -/
def Python.digit (py : Python) : Regex := char py.isDigit

/-- `[A-Za-z0-9._+\-\u4e00-\u9fff]`. -/
def scopeChar : Regex :=
  char fun c => isLatinLetter c || isAsciiDigit c || c ∈ str "._+-" || isCjk c

/-- ASCII case mapping. -/
def lowerAscii (c : Char) : Char :=
  if 65 ≤ c.toNat ∧ c.toNat ≤ 90 then Char.ofNat (c.toNat + 32) else c

theorem lowerAscii_ne_newline {c : Char} (h : c ≠ '\n') : lowerAscii c ≠ '\n' := by
  have hletters : ∀ n < 91, 65 ≤ n → Char.ofNat (n + 32) ≠ '\n' := by decide
  unfold lowerAscii
  split
  · next hc => exact hletters c.toNat (by omega) hc.1
  · exact h

theorem lowerAscii_idem (c : Char) : lowerAscii (lowerAscii c) = lowerAscii c := by
  have hletters : ∀ n < 91, 65 ≤ n → lowerAscii (Char.ofNat (n + 32)) = Char.ofNat (n + 32) := by
    decide
  by_cases h : 65 ≤ c.toNat ∧ c.toNat ≤ 90
  · have hlower : lowerAscii c = Char.ofNat (c.toNat + 32) := if_pos h
    rw [hlower]
    exact hletters c.toNat (by omega) h.1
  · have hlower : lowerAscii c = c := if_neg h
    rw [hlower, hlower]

/-- An interpreter restricted to texts of ASCII and CJK characters, where case mapping is that of
ASCII. -/
def Python.basic : Python where
  lower := List.map lowerAscii
  isDigit := isAsciiDigit
  isWord c := isLatinLetter c || isAsciiDigit c || c == '_' || isCjk c
  questionPhrases := strs
    ["是否需要", "什么时候", "包括哪些", "支持措施", "有哪些", "是什么", "为什么", "怎么样", "哪一些",
    "哪几个", "哪几家", "请说明", "请介绍", "请列出", "告诉我", "有没有", "如何", "怎么", "多少", "请问",
    "来源", "是否", "能否", "可否", "已经", "当前", "相关", "有关", "这个", "这些", "那些", "根据", "关于",
    "何时", "吗", "呢", "的", "了"]
  lower_newline a b := by simp [lowerAscii]
  newline_not_mem_lower a h := by
    intro hmem
    obtain ⟨c, hc, heq⟩ := List.mem_map.mp hmem
    exact lowerAscii_ne_newline (fun hn => h (hn ▸ hc)) heq
  lower_fixed a b h := by
    calc b.map lowerAscii = b.map id := List.map_congr_left fun c hc => by
          obtain ⟨d, -, rfl⟩ := List.mem_map.mp (h c hc)
          exact lowerAscii_idem d
      _ = b := List.map_id b
  isDigit_newline := by decide
  isWord_newline := by decide
  questionPhrases_perm := by decide +kernel
  questionPhrases_sorted := by decide +kernel

/-! ## Expressions -/

def answerClaimSeparator : Regex := plus (anyOf "。！？!?；;\n")

def uuidPattern : Regex :=
  seqs [exactly (char isHex) 8, lit "-", exactly (char isHex) 4, lit "-", exactly (char isHex) 4,
    lit "-", exactly (char isHex) 4, lit "-", exactly (char isHex) 12]

def inlineCitationNote : Regex :=
  seqs [anyOf "（(", star space, words ["依据", "引用", "来源"], opt (anyOf "见:："), star space,
    uuidPattern, star (seqs [star space, anyOf "；;,，", star space, uuidPattern]), star space,
    anyOf "）)"]

def latinTerm : Regex :=
  seq (char isLatinLetterIgnoreCase)
    (plus (char fun c => isLatinLetterIgnoreCase c || isAsciiDigit c || c ∈ str "._+-"))

def cjkSegment : Regex := plus cjk

section

variable (py : Python)

/-- `(?:19|20)\d{2}`. -/
def year : Regex := seq (words ["19", "20"]) (exactly py.digit 2)

/-- `\d+(?:\.\d+)?`. -/
def number : Regex := seq (plus py.digit) (opt (seq (lit ".") (plus py.digit)))

def policyIdentifier : Regex :=
  seqs [between (seq (notAhead (anyOf "为是号据及与的")) cjk) 1 12, anyOf "〔[", year py, anyOf "〕]",
    opt (lit "第"), plus py.digit, opt (seq (anyOf "-—") (plus py.digit)), lit "号"]

/-- The units of `_EXPLICIT_VALUE` and `_QUANTITY_EVIDENCE`. -/
def valueUnits : Regex :=
  words ["%", "％", "万元", "亿元", "元", "万", "亿", "家", "项", "条", "个", "天", "个月"]

def explicitValue : Regex :=
  oneOf [policyIdentifier py,
    seq (year py) (opt (seq (lit "年") (opt (seqs [between py.digit 1 2, lit "月",
      opt (seq (between py.digit 1 2) (lit "日"))])))),
    seq (number py) valueUnits]

def dateEvidence : Regex :=
  alt
    (seq (year py) (opt (seqs [anyOf "-/.年", between py.digit 1 2,
      opt (seqs [anyOf "-/.月", between py.digit 1 2, opt (lit "日")])])))
    (seqs [between py.digit 1 2, lit "月", opt (seq (between py.digit 1 2) (lit "日"))])

def quantityEvidence : Regex := seq (number py) (opt valueUnits)

def percentEvidence : Regex := seq (number py) (words ["%", "％"])

def moneyEvidence : Regex := seq (number py) (words ["万元", "亿元", "元"])

/-- A class of `_CONTACT_EVIDENCE`: `\w` and these characters. -/
def wordOr (others : Text) : Regex := char fun c => py.isWord c || c ∈ others

def contactEvidence : Regex :=
  oneOf [seq (lit "1") (exactly py.digit 10),
    seqs [lit "0", between py.digit 2 3, opt (anyOf "- "), between py.digit 7 8],
    seqs [plus (wordOr py (str ".+-")), lit "@", plus (wordOr py (str ".-")), lit ".",
      rep (char isLatinLetterIgnoreCase) 2 none true]]

/-- A list marker: `\d+[.、]` or a number in brackets. -/
def listMarker : Regex :=
  alt (seq (plus py.digit) (anyOf ".、"))
    (seqs [anyOf "（(", plus (char fun c => c ∈ str "一二三四五六七八九十" || py.isDigit c),
      anyOf ")）"])

def listEvidence : Regex := alt (lineStart isSpace '\n' (listMarker py)) (lit "、")

def documentAttribution : Regex :=
  seqs [words ["根据", "依据"], star space, lit "《", lazily dotAll 1 240, lit "》",
    opt (alt (seq (lit "正文") (opt (lit "内容"))) (lit "政策解读")), star space, anyOf ",，"]

def contextAttribution : Regex :=
  seqs [words ["根据", "依据"], opt (lit "提供的"), words ["上下文", "检索内容", "现有证据", "上述证据"],
    star space, anyOf ",，"]

def unresolvedTemporalReference : Regex :=
  oneOf [
    seqs [oneOf [seq (opt (words ["明显", "显然"])) (lit "不匹配"), lit "未明确", lit "未知",
      lit "不确定"], between dot 0 8, opt (lit "历史"), words ["时间", "日期", "时点"]],
    seqs [alt (seq (lit "某") (opt (lit "个"))) (lit "那个"), opt (lit "历史"), lit "时点"],
    lit "当时", lit "彼时"]

def sourceAuthorityConflation : Regex :=
  seqs [opt (words ["把", "将"]),
    words ["协会", "商会", "联盟", "学会", "民间组织", "行业组织", "企业"],
    opt (words ["来源", "材料", "文件"]), between dot 0 16,
    words ["当成", "视为", "作为", "等同于", "冒充", "替代"], between dot 0 12, opt (lit "政府"),
    lit "官方", opt (words ["来源", "文件", "证明"])]

/-- The tail that both alternatives of `_CONTRARY_TO_SOURCE_REQUEST` share. -/
def contraryToSource : Regex :=
  seqs [words ["与", "同"], words ["正文", "原文", "证据", "材料"], between dot 0 8,
    words ["相反", "矛盾", "冲突"], opt (lit "的")]

def contraryToSourceRequest : Regex :=
  alt
    (seqs [words ["证明", "说明", "确认", "声称"], between dot 0 12, contraryToSource,
      opt (words ["结论", "说法", "内容"])])
    (seq contraryToSource (opt (words ["结论", "说法", "内容"])))

/-- `ocr` without regard to case. -/
def ocr : Regex := seqs [anyOf "oO", anyOf "cC", anyOf "rR"]

def unverifiedMaterialReference : Regex :=
  seqs [opt (words ["仅", "只"]), words ["根据", "依据"], between dot 0 20,
    words ["尚未", "未", "没有"], opt (lit "完成"), star space,
    oneOf [ocr, lit "解析", lit "识别", lit "提取"]]

def nonPenaltyFine : Regex :=
  seqs [oneOf [lit "支付", lit "用于", lit "不得用于", seqs [lit "禁止", between dot 0 8, lit "用于"]],
    between dot 0 4, lit "罚款"]

/-- `[A-Za-z0-9（）()\u4e00-\u9fff]`. -/
def penaltyRoleChar : Regex :=
  char fun c => isLatinLetter c || isAsciiDigit c || c ∈ str "（）()" || isCjk c

def penaltyRole : Regex :=
  group "subject"
    (alt (seqs [opt (lit "各"), lit "参建", words ["单位", "各方"]])
      (seq (between penaltyRoleChar 1 12)
        (words ["单位", "部门", "主体", "人员", "机构", "企业", "各方"])))

def penaltySubject : Regex :=
  seq penaltyRole (oneOf [seq (lit "违反") (opt (lit "规定")), lit "违法", lit "违规"])

def penaltySentenceBreak : Regex := anyOf "。；;\n"

/-- `(?P<target>…{2,32})`. -/
def targetGroup : Regex := group "target" (between scopeChar 2 32)

def scopeTargetPattern : Regex :=
  seqs [opt (lit "是否"), words ["适用于", "面向"], targetGroup]

def scopeContextTarget : Regex :=
  seqs [lit "适用对象或实施范围", opt (lit "主要"), opt (words ["是", "为"]), lit "针对", targetGroup]

def negativeScopeTarget : Regex :=
  seqs [words ["不", "未", "没有"], opt (lit "直接"), lit "针对", targetGroup]

def scopeNounTarget : Regex :=
  seqs [lit "适用", words ["对象", "范围"], words ["是", "为", "包括", "涵盖", "覆盖"], targetGroup]

def universalScopeTarget : Regex :=
  alt
    (seqs [words ["涵盖", "包括", "覆盖"], opt (words ["所有", "全部"]),
      group "covered" (words ["微信小程序", "小程序"])])
    (seqs [words ["所有", "全部"], group "required" (words ["微信小程序", "小程序"]), between dot 0 8,
      words ["必须", "应当", "需要", "均应", "都要"]])

def relationClauseBreak : Regex :=
  oneOf [anyOf "，,。；;\n", lit "同时", lit "但是", lit "但", lit "然而"]

def scopeClauseBreak : Regex := plus (anyOf "。；;\n")

def dependentMetaClaim : Regex :=
  seq start (oneOf [
    seqs [lit "该", words ["总结", "回答", "答复", "说明"], opt (lit "是"), lit "基于"],
    seqs [words ["详细", "具体"], lit "内容", opt (lit "请"), lit "见"],
    seq (lit "上述") (words ["数字", "数据", "核对要点", "内容", "事项", "信息", "指标"])])

def progressionSynthesis : Regex :=
  seqs [lit "形成从", group "start" (between cjk 2 24), lit "到", group "end" (between cjk 2 24),
    lit "的", opt (lit "完整"), opt (lit "支持"), lit "体系"]

/-- `https?://\S+`. -/
def url : Regex := seqs [lit "http", opt (lit "s"), lit "://", plus (char fun c => !isSpace c)]

/-- The negations of `_scope_polarity`. -/
def negativePolarity : Regex :=
  oneOf [
    seqs [lit "不", opt (seq (lit "在") (between dot 0 12)), words ["适用", "包括", "涵盖", "覆盖"]],
    lit "不适用", lit "不包括", lit "不涵盖",
    seqs [words ["不", "未", "没有"], opt (lit "直接"), lit "针对"],
    lit "无需", lit "不得"]

/-! ## Lines

What the shape checks look for lies within a line, so that a search in joined lines is a search in
one of them. -/

/-- A search in separated texts is a search in one of them. -/
def FoundInLines (r : Regex) : Prop :=
  ∀ a b, (search r (a ++ '\n' :: b)).isSome = true ↔
    (search r a).isSome = true ∨ (search r b).isSome = true

theorem foundInLines_of_avoids {r : Regex} (hr : plain r = true) (hn : avoids '\n' r = true) :
    FoundInLines r := fun _ _ => search_append_cons hr hn

theorem dateEvidence_lines : FoundInLines (dateEvidence py) :=
  foundInLines_of_avoids rfl (by
    simp [dateEvidence, year, Python.digit, avoids, seqs, words, oneOf, lit, anyOf, opt, between,
      exactly, py.isDigit_newline])

theorem quantityEvidence_lines : FoundInLines (quantityEvidence py) :=
  foundInLines_of_avoids rfl (by
    simp [quantityEvidence, number, valueUnits, Python.digit, avoids, words, oneOf, lit, opt, plus,
      py.isDigit_newline])

theorem percentEvidence_lines : FoundInLines (percentEvidence py) :=
  foundInLines_of_avoids rfl (by
    simp [percentEvidence, number, Python.digit, avoids, words, oneOf, lit, opt, plus,
      py.isDigit_newline])

theorem moneyEvidence_lines : FoundInLines (moneyEvidence py) :=
  foundInLines_of_avoids rfl (by
    simp [moneyEvidence, number, Python.digit, avoids, words, oneOf, lit, opt, plus,
      py.isDigit_newline])

theorem contactEvidence_lines : FoundInLines (contactEvidence py) :=
  foundInLines_of_avoids rfl (by
    simp [contactEvidence, wordOr, str, Python.digit, avoids, oneOf, seqs, lit, anyOf, opt, between,
      exactly, plus, isLatinLetterIgnoreCase, isLatinLetter, py.isDigit_newline,
      py.isWord_newline])

theorem listEvidence_lines : FoundInLines (listEvidence py) := by
  have hmarker : avoids '\n' (listMarker py) = true := by
    simp [listMarker, str, Python.digit, avoids, seqs, anyOf, plus, py.isDigit_newline]
  have hcomma : FoundInLines (lit "、") :=
    foundInLines_of_avoids rfl (by simp [lit])
  intro a b
  simp only [listEvidence, search_alt]
  rw [search_lineStart_append_cons rfl hmarker, hcomma a b]
  tauto

end

end Odirag.Rag
