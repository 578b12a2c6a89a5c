/-!
# `Record.Id` — identities of records
-/

namespace Databind

/-- The identity of a record. Identities count from one in order of creation. -/
structure RecordId where
  number : Nat
deriving DecidableEq

/-- How an identity is shown: `c` and its number. -/
def RecordId.display (id : RecordId) : String := "c" ++ toString id.number

end Databind
