/-!
# Errors

Everything that can go wrong between an entity and its table, and how it is worded.

## Main definitions

* `Error` — the kinds of failure.
* `Error.message` — the wording.
-/

namespace TableMapper

inductive Error where
  | connectionFailed (reason : String)
  /-- The fields an entity declares do not form a table. -/
  | schema (reason : String)
  /-- The server rejected a statement or the statement could not be sent. -/
  | queryFailed (reason : String)
  /-- The request is rejected before anything is sent. -/
  | invalidQuery (reason : String)
  | missingParameter (name : String)
  | columnNotFound (column : String)
  | typeMismatch (column expected found : String)
  deriving DecidableEq, Repr

def Error.message : Error → String
  | connectionFailed reason => "Connection failed: " ++ reason
  | schema reason => "Schema error: " ++ reason
  | queryFailed reason => "Query failed: " ++ reason
  | invalidQuery reason => "Invalid query: " ++ reason
  | missingParameter name => "Missing named parameter: " ++ name
  | columnNotFound column => "Column not found: " ++ column
  | typeMismatch column expected found =>
    "Column " ++ column ++ ": expected " ++ expected ++ ", got " ++ found

end TableMapper
