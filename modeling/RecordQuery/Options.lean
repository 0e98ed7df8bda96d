import RecordQuery.Error

/-!
# Options

What holds for all queries: the greatest page, and the limit of property trees.
-/

namespace RecordQuery

/-- What holds for all queries. -/
structure Options where
  /-- The greatest page a query may ask for, and the page of a query that asks for none. -/
  maxTop : Option Nat := none
  /-- The limit of property trees. -/
  depth : Nat := 5
  deriving DecidableEq

namespace Options

/-- Refuses options under which no query could give anything. -/
def validate (o : Options) : Except QueryError Unit :=
  if o.depth = 0 then .error (.invalidOptions .zeroDepth)
  else if o.maxTop = some 0 then .error (.invalidOptions .zeroMaxTop)
  else .ok ()

end Options

end RecordQuery
