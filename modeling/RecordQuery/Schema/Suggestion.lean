import RecordQuery.Error
import RecordQuery.Text.EditDistance
import RecordQuery.Text.Lowercase

/-!
# Names that may have been meant

An unknown name is answered with the nearest known one, if that is near enough. Nearness is the edit
distance of the lower-case forms, and of names as near the first is taken.
-/

namespace RecordQuery

/-- The greatest distance at which a name is suggested. -/
def Suggestion.maxDistance : Nat := 3

/-- The edit distance of two names in lower case. -/
def Suggestion.distance (s t : String) : Nat :=
  Text.editDistance (Text.lowercase s).toList (Text.lowercase t).toList

/-- The first name with the least distance from the one asked for. -/
def Suggestion.nearest? (name : String) : List String → Option String
  | [] => none
  | candidate :: others =>
    match nearest? name others with
    | none => some candidate
    | some other =>
      some (if distance name other < distance name candidate then other else candidate)

/-- The name to suggest for an unknown one. The empty name is never suggested, and neither is a name
that differs in letter case alone. -/
def Suggestion.suggest? (name : String) (candidates : List String) : Option String :=
  (nearest? name (candidates.filter (!·.isEmpty))).filter fun candidate =>
    0 < distance name candidate && distance name candidate ≤ maxDistance

/-- The fault of a name that is none of the known ones. -/
def QueryError.unknownAmong (name : String) (candidates : List String) : QueryError :=
  .unknownProperty name (Suggestion.suggest? name candidates)

end RecordQuery
