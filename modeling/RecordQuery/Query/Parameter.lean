import RecordQuery.Number.Power

/-!
# Parameters of queries

The parts of a query under the names by which they are handed over, in the query string of a web
address or as the members of an object. Besides its own name, each goes by others, which differ from
it in a sign in front and, where a name has two words, in the case of a letter.
-/

namespace RecordQuery

/-- The parameters of a query. -/
inductive Parameter where
  | filter
  | orderBy
  | skip
  | top
  | count
  | search
  deriving DecidableEq

namespace Parameter

/-- All parameters, in the order in which they are written. -/
def all : List Parameter := [filter, orderBy, skip, top, count, search]

/-- The name of a parameter. -/
def name : Parameter → String
  | filter => "filter"
  | orderBy => "orderBy"
  | skip => "skip"
  | top => "top"
  | count => "count"
  | search => "search"

/-- Further names by which a parameter is known. -/
def aliases : Parameter → List String
  | filter => ["$filter"]
  | orderBy => ["orderby", "$orderby", "$orderBy"]
  | skip => ["$skip"]
  | top => ["$top"]
  | count => ["$count"]
  | search => ["$search"]

/-- The parameter that a name means. -/
def ofName? (s : String) : Option Parameter := all.find? fun p => p.name = s || s ∈ p.aliases

/-- The greatest number that a parameter can be. -/
def greatest : Nat := Number.twoTo 64 - 1

end Parameter

end RecordQuery
