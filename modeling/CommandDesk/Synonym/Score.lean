import CommandDesk.Synonym.Distance
import CommandDesk.Grade
import CommandDesk.Table
import CommandDesk.Text.Lowercase

/-!
# Scoring a verb against synonyms

A verb that is a synonym scores the weight of the synonym. Any other verb can
score by resemblance: to a synonym of which it is an initial part or which is an
initial part of it, and to a synonym from which few edits separate it. Both are
discounted, so a guess never scores as high as the synonym itself.
-/

namespace CommandDesk

/-- The weights of synonyms. -/
abbrev Synonyms (α : Type) := Table α

namespace Score

variable {α : Type} [Grade α]

/-- The discount on an initial part. -/
def initialDiscount : α := 0.7

/-- The discount on few edits. -/
def editDiscount : α := 0.6

/-- The similarity that few edits must exceed. -/
def leastSimilarity : α := 0.7

/-- The score of a verb that shares an initial part with the synonym: the share of the longer one
that the shorter one covers. -/
def byInitial (verb synonym : List Char) (weight : α) : List α :=
  if Text.isInitial verb synonym || Text.isInitial synonym verb then
    let ratio : α := Grade.ofNat (min verb.length synonym.length)
      / Grade.ofNat (max verb.length synonym.length)
    [weight * ratio * initialDiscount]
  else []

/-- How much of the longer of two texts is left unedited. -/
def similarity (verb synonym : List Char) : α :=
  1.0 - Grade.ofNat (Distance.ofChars verb synonym) / Grade.ofNat (max verb.length synonym.length)

/-- The score of a verb that few edits separate from the synonym. -/
def byEdits (verb synonym : List Char) (weight : α) : List α :=
  let s : α := similarity verb synonym
  if leastSimilarity < s then [weight * s * editDiscount] else []

/-- The scores of a verb by resemblance to one synonym. -/
def resemblances (verb : List Char) (synonym : String × α) : List α :=
  if verb.isEmpty && synonym.1.isEmpty then []
  else byInitial verb synonym.1.toList synonym.2 ++ byEdits verb synonym.1.toList synonym.2

/-- The best score by resemblance, zero if nothing resembles the verb. -/
def guess (verb : String) (synonyms : Synonyms α) : α :=
  (synonyms.entries.flatMap (resemblances verb.toList)).foldl Grade.larger 0.0

/-- The score of a verb against the synonyms of one command. -/
def ofVerb (fuzzy : Bool) (verb : String) (synonyms : Synonyms α) : α :=
  let verb := Text.normalize verb
  match synonyms.get? verb with
  | some weight => weight
  | none => if fuzzy then guess verb synonyms else 0.0

/-- The commands with a positive score, best first. -/
def ranking (fuzzy : Bool) (verb : String) (groups : List (String × Synonyms α)) :
    List (String × α) :=
  Grade.ranked (·.2) ((groups.map fun g => (g.1, ofVerb fuzzy verb g.2)).filter (0.0 < ·.2))

end Score

end CommandDesk
