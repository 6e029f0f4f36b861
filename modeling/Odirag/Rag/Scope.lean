import Odirag.Rag.Relations

/-!
# The scope that a text claims

Reference: `_scope_target`, `_scope_supported` and `_scope_polarity` of `backend/app/rag/evidence.py`.

A claim that something applies to a target needs evidence that names the target near a word of
application, up to filler words, or that composes it from its title and such a clause.
-/

namespace Odirag.Rag

open Regex
open Documents (isSpace)

/-- Cut the trailing words off a target, one after the other. -/
def trimTarget (target : Text) : Text :=
  scopeTrailingWords.foldl (fun (target : Text) trailing =>
    if target.endsWith trailing ∧ trailing.length + 1 < target.length then
      target.dropRight trailing.length
    else target) target

/-- The words that one of the scope expressions captures, the first expression that matches
deciding. -/
def rawScopeTarget (value : Text) : Option Text :=
  let direct := [scopeTargetPattern, scopeContextTarget, negativeScopeTarget, scopeNounTarget]
  match direct.findSome? fun r => r.search value with
  | some m => m.group "target"
  | none =>
      (universalScopeTarget.search value).bind fun m => (m.group "covered").or (m.group "required")

/-- `_scope_target`. -/
def scopeTarget (value : Text) : Option Text :=
  (rawScopeTarget value).bind fun raw =>
    let target := Text.stripBy isSpace (trimTarget raw)
    if target = [] ∨ scopePlaceholderTargets.any (· == target) then none
    else some target

/-- The line breaks of `str.splitlines`. -/
def isLineBreak (c : Char) : Bool :=
  (10 ≤ c.toNat && c.toNat ≤ 13) || (28 ≤ c.toNat && c.toNat ≤ 30) || c.toNat == 0x85 ||
    c.toNat == 0x2028 || c.toNat == 0x2029

variable (py : Python)

/-- `_normalize_scope_text`. -/
def normalizeScopeText (value : Text) : Text :=
  scopeFillerPhrases.foldl (fun (normalized : Text) phrase => normalized.replace phrase [])
    ((normalizeRelationText py value).replace (str "省内") (str "省"))

/-- `_scope_binding_clauses`. -/
def scopeBindingClauses (value : Text) : List Text :=
  (scopeClauseBreak.split value).filter fun clause => clause.containsAny scopeBindingCues

/-- The first line that is not blank. -/
def titleLine (evidence : Text) : Text :=
  (((evidence.splitOnP isLineBreak).map (Text.stripBy isSpace)).find? fun line => !line.isEmpty).getD
    []

/-- `_scope_title_clause_composition`. -/
def scopeTitleClauseComposition (normalizedTarget evidence normalizedBinding : Text) : Bool :=
  let normalizedTitle := normalizeScopeText py (titleLine evidence)
  if normalizedTarget.length < 7 ∨ normalizedBinding = [] then false
  else
    normalizedTitle.contains normalizedTarget ||
      (List.range' 4 (min 8 (normalizedTarget.length - 2) + 1 - 4)).any fun suffixLength =>
        normalizedTitle.contains (normalizedTarget.dropRight suffixLength) &&
          normalizedBinding.contains
            (normalizedTarget.drop (normalizedTarget.length - suffixLength))

/-- `_scope_supported`. -/
def scopeSupported (claim evidence : Text) : Bool :=
  match scopeTarget claim with
  | none => true
  | some target =>
      let loweredEvidence := py.lower evidence
      let loweredTarget := py.lower target
      let normalizedTarget := normalizeScopeText py loweredTarget
      let normalizedBinding :=
        normalizeScopeText py (Text.joinLines (scopeBindingClauses loweredEvidence))
      ((loweredEvidence.findAll loweredTarget).any fun index =>
          (loweredEvidence.slice (index - 50) (index + target.length + 50)).containsAny
            scopeBindingCues) ||
        (2 ≤ normalizedTarget.length && normalizedBinding.contains normalizedTarget) ||
        scopeTitleClauseComposition py normalizedTarget loweredEvidence normalizedBinding

/-- `_scope_polarity`: 1 if the text says that it applies to the target, -1 if it says that it does
not, 0 if it says nothing. -/
def scopePolarity (value target : Text) : ℤ :=
  let lowered := py.lower value
  let windows := (lowered.findAll (py.lower target)).map fun index =>
    lowered.slice (index - 40) (index + target.length + 40)
  if windows.any fun window => (negativePolarity.search window).isSome then -1
  else if windows.any fun (window : Text) => window.containsAny
      (strs ["适用", "面向", "针对", "涵盖", "包括", "覆盖", "必须", "应当"]) then 1
  else 0

end Odirag.Rag
