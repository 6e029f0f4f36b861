import Odirag.Foundations.Text
import Mathlib.Algebra.Order.Field.Rat

/-!
# Retrieval hits

Reference: `backend/app/retrieval/models.py`.

What the retrieval engine hands to the evidence gate and to grounding. Scores come from different
retrievers, and only comparisons with a bound are made of them.
-/

namespace Odirag.Retrieval

/-- A floating-point score. -/
inductive Score where
  | nan
  | negInf
  | finite (value : ℚ)
  | posInf
  deriving DecidableEq

/-- `score >= bound`; nothing compares with a NaN. -/
def Score.atLeast : Score → Score → Bool
  | nan, _ | _, nan => false
  | posInf, _ | _, negInf => true
  | negInf, _ | _, posInf => false
  | finite a, finite b => b ≤ a

/-- A value of the metadata dictionary. Numbers come with what `str` prints and whether they are not
zero, dates with their ordinal, anything else with what `str` prints and its truth value. -/
inductive MetadataValue where
  | str (text : Text)
  | number (text : Text) (truthy : Bool)
  | bool (b : Bool)
  | none
  | date (ordinal : ℤ) (iso : Text)
  | other (text : Text) (truthy : Bool)
  deriving DecidableEq, Repr

namespace MetadataValue

/-- `str(value)`. -/
def toText : MetadataValue → Text
  | str text | number text _ | other text _ | date _ text => text
  | bool b => (if b then "True" else "False").toList
  | none => "None".toList

/-- `bool(value)`. -/
def truthy : MetadataValue → Bool
  | str text => !text.isEmpty
  | number _ truthy | other _ truthy => truthy
  | bool b => b
  | none => false
  | date _ _ => true

/-- `isinstance(value, (str, int, float)) and not isinstance(value, bool)`. -/
def isTextual : MetadataValue → Bool
  | str _ | number _ _ => true
  | _ => false

end MetadataValue

structure RetrievalHit where
  chunkId : String
  documentId : String
  content : Text
  title : Text
  sourceUrl : Text
  score : Score
  rank : ℕ := 0
  source : Text
  metadata : List (String × MetadataValue)
  deriving DecidableEq

namespace RetrievalHit

/-- `hit.with_score(score, rank, source)`. -/
def withScore (hit : RetrievalHit) (score : Score) (rank : ℕ) (source : Text) : RetrievalHit :=
  { hit with score, rank, source }

/-- `hit.metadata.get(key)`. -/
def get (hit : RetrievalHit) (key : String) : Option MetadataValue := hit.metadata.lookup key

/-- `str(hit.metadata.get(key, fallback))`. -/
def getText (hit : RetrievalHit) (key : String) (fallback : Text) : Text :=
  (hit.get key).elim fallback MetadataValue.toText

end RetrievalHit

end Odirag.Retrieval
