import TableMapper.Driver.Basic
import TableMapper.Wire.Decode
import TableMapper.Wire.Encode

/-!
# Servers

A driver that sends statements to a server over a connection. The server is the list of replies it
is going to give; its connections share them. A statement is parsed first, which tells the types
of its placeholders; then the parameters are encoded and the statement is executed.

## Main definitions

* `Reply` — what the server does with one statement.
* `Server` — the replies to come, the connections, and what was sent.
* `Server.connect` — opens a connection.
* `Server.driver` — ping, query and execute over a connection.
-/

namespace TableMapper

structure ServerError where
  code : String
  message : String
  deriving DecidableEq, Repr

def ServerError.report (e : ServerError) : String := e.code ++ ": " ++ e.message

structure Reply where
  paramTypes : List ColumnType := []
  columns : List (String × ColumnType) := []
  rows : List (List (Option Bytes)) := []
  /-- How the server sums up what it did, as in `UPDATE 3`. -/
  tag : Option String := none
  parseError : Option ServerError := none
  executeError : Option ServerError := none
  /-- The server hangs up as soon as the statement arrives. -/
  close : Bool := false

/-- A statement as it was sent, with its encoded parameters if it came to be executed. -/
structure Transmission where
  sql : String
  params : Option (List (Option Bytes))
  deriving DecidableEq, Repr

/-- The number of a connection, counted from zero. -/
abbrev ConnectionId := Nat

structure Server where
  /-- Why the server refuses every connection, if it does. -/
  refusal : Option ServerError := none
  replies : List Reply := []
  connections : Nat := 0
  closed : List ConnectionId := []
  sent : List Transmission := []

namespace Server

/-- Open a connection, unless the server refuses. -/
def connect : Action Server ConnectionId := do
  let s ← get
  if s.refusal.isSome then
    throw (.connectionFailed "db error")
  set { s with connections := s.connections + 1 }
  return s.connections

def log (sql : String) (params : Option (List (Option Bytes))) : Action Server Unit :=
  modify fun s => { s with sent := s.sent ++ [⟨sql, params⟩] }

/-- Take the reply to a statement that reaches the server; when no reply is left, it is the plain
one. A server that hangs up closes the connection for good. -/
def nextReply (connection : ConnectionId) : Action Server Reply := do
  let s ← get
  let reply := s.replies.headD {}
  let closed := if reply.close then connection :: s.closed else s.closed
  set { s with replies := s.replies.tail, closed }
  return reply

def ping (connection : ConnectionId) : Action Server Unit := do
  if (← get).closed.contains connection then
    throw (.connectionFailed "connection is closed")
  let reply ← nextReply connection
  log "SELECT 1" none
  if reply.close then
    throw (.connectionFailed "connection closed")
  if reply.parseError.isSome then
    throw (.connectionFailed "db error")

/-- Encode parameters for the types the server gave; the first one that has no form is at fault. -/
def encodeParams : (index : Nat) → List ColumnType → List Value → Except Error (List (Option Bytes))
  | index, type :: types, v :: values =>
    match Wire.encode type v with
    | .error _ => .error (.queryFailed ("error serializing parameter " ++ toString index))
    | .ok param => do
      let params ← encodeParams (index + 1) types values
      return param :: params
  | _, _, _ => .ok []

/-- The encoded parameters of a statement whose placeholders have these types. -/
def bindParams (types : List ColumnType) (values : List Value) :
    Except Error (List (Option Bytes)) :=
  if types.length = values.length then encodeParams 0 types values
  else
    .error (.queryFailed ("expected " ++ toString types.length ++ " parameters but got " ++
      toString values.length))

/-- What a statement comes to once it has reached the server: its encoded parameters, or the
reason why it is not executed. -/
def prepare (reply : Reply) (statement : Statement) : Except Error (List (Option Bytes)) :=
  if reply.close then .error (.queryFailed "connection closed")
  else
    match reply.parseError with
    | some e => .error (.queryFailed e.report)
    | none => bindParams reply.paramTypes statement.params

/-- Send a statement with its parameters. -/
def send (connection : ConnectionId) (statement : Statement) : Action Server Reply := do
  if statement.sql.toList.contains '\x00' then
    throw (.queryFailed "error encoding message to server")
  if (← get).closed.contains connection then
    throw (.queryFailed "connection closed")
  let reply ← nextReply connection
  match prepare reply statement with
  | .error e =>
    log statement.sql none
    throw e
  | .ok params =>
    log statement.sql (some params)
    return reply

/-! ## Results -/

/-- The value of the cell at `index`. -/
def readCell (index : Nat) (column : String × ColumnType) (cell : Option Bytes) :
    Except Error Value :=
  match Wire.decode column.2 cell with
  | .ok v => .ok v
  | .error .unsupported =>
    .error (.typeMismatch column.1 "a supported column type" column.2.typeName)
  | .error .malformed => .error (.queryFailed ("error deserializing column " ++ toString index))

/-- The values of one row, read from left to right. -/
def readRow : (index : Nat) → List (String × ColumnType) → List (Option Bytes) →
    Except Error (List Value)
  | index, column :: columns, cell :: cells => do
    let v ← readCell index column cell
    let values ← readRow (index + 1) columns cells
    return v :: values
  | _, _, _ => .ok []

/-- What the execution of a statement ends with. -/
def completed (reply : Reply) : Except Error Unit :=
  match reply.executeError with
  | some e => .error (.queryFailed e.report)
  | none => .ok ()

/-- Every row has a cell for each column. -/
def wellShaped (reply : Reply) : Except Error Unit :=
  if reply.rows.all (·.length == reply.columns.length) then .ok ()
  else .error (.queryFailed "error parsing response from server")

/-- The result of a query; without rows it has no columns either. All rows arrive before the
execution ends, and they are decoded after that. -/
def readResult (reply : Reply) : Except Error ResultSet := do
  wellShaped reply
  completed reply
  if reply.rows.isEmpty then return .empty
  let rows ← reply.rows.mapM (readRow 0 reply.columns)
  return ⟨reply.columns.map (·.1), rows⟩

/-- The number in a text of decimal digits that may follow a plus sign, if it is below `2 ^ 64`. -/
def count? (text : List Char) : Option Nat :=
  let digits := if text.head? = some '+' then text.tail else text
  if digits ≠ [] ∧ digits.all Char.isDigit then
    let n := digits.foldl (fun n c => 10 * n + (c.toNat - '0'.toNat)) 0
    if n < Nat.pow 2 64 then some n else none
  else none

/-- The row count at the end of a command tag, zero when there is none. -/
def affected (tag : String) : Nat :=
  (count? (tag.toList.reverse.takeWhile (· != ' ')).reverse).getD 0

/-- The row count of a statement that returns no rows; rows that arrive anyway are ignored. -/
def readCount (reply : Reply) : Except Error Nat := do
  completed reply
  return affected (reply.tag.getD ("SELECT " ++ toString reply.rows.length))

def driver (connection : ConnectionId) : Driver Server where
  ping := ping connection
  query statement := do
    let reply ← send connection statement
    MonadExcept.ofExcept (readResult reply)
  execute statement := do
    let reply ← send connection statement
    MonadExcept.ofExcept (readCount reply)

end Server

end TableMapper
