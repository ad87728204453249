/-
# Labels of records

The names under which the records of the protocol and their fields are written,
in declaration order: text on the wire, diagnostics and displays all use them.
-/

namespace RoundChange

/-- The name of a record and the names of its fields. -/
structure Label where
  name : String
  fields : List String
deriving DecidableEq

end RoundChange
