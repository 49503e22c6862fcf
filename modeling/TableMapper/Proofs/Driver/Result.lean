import TableMapper.Driver.Server
import TableMapper.Proofs.Sequence
import TableMapper.Proofs.Wire.RoundTrip

/-!
# Results of a server

The rows that a server answers with are read one after the other, each from left to right, and the
first cell that has no value fails the query. Without such a cell there is one row of values for
each row of the answer, with one value for each column.

## Main definitions

* `Wire.readableTypes` — the column types that are read.
* `Cell` — a cell of an answer, with its column.
* `Cell.Unreadable` — why a cell has no value.
* `Reply.ReadsAs` — the values that the rows of an answer hold.
* `Reply.FirstUnreadable` — why the rows of an answer have no values.
* `Server.Answers` — a server executes a statement and answers with rows.
-/

namespace TableMapper

namespace Wire

variable {type : ColumnType} {cell : Option Bytes}

def readableTypes : List ColumnType :=
  textTypes ++
    [.bool, .int2, .int4, .int8, .float4, .float8, .bytea, .uuid, .timestamp, .timestamptz]

theorem reader?_eq_none_iff : reader? type = none ↔ type ∉ readableTypes := by
  cases type <;> simp [reader?, readableTypes, textTypes]

theorem decode_eq_unsupported_iff :
    decode type cell = .error .unsupported ↔ type ∉ readableTypes := by
  rw [← reader?_eq_none_iff]
  unfold decode
  cases reader? type <;> grind

theorem decode_eq_malformed_iff :
    decode type cell = .error .malformed ↔
      ∃ read bytes, reader? type = some read ∧ cell = some bytes ∧ read bytes = none := by
  unfold decode
  cases reader? type <;> grind

end Wire

/-! ## Cells -/

/-- A cell of an answer, with the name and the type of its column. -/
structure Cell where
  column : String
  type : ColumnType
  /-- The bytes of the cell, none if it is null. -/
  content : Option Bytes

namespace Cell

variable {cell : Cell} {index : Nat} {v : Value} {e : Error}

def Holds (cell : Cell) (v : Value) : Prop := Wire.decode cell.type cell.content = .ok v

def IsReadable (cell : Cell) : Prop := ∃ v, cell.Holds v

/-- Why the cell at an index of its row has no value. The type of the column is looked at before
the content, so a null of a type that is not read has no value either. -/
inductive Unreadable (cell : Cell) (index : Nat) : Error → Prop
  | unsupported : cell.type ∉ Wire.readableTypes →
      Unreadable cell index
        (.typeMismatch cell.column "a supported column type" cell.type.typeName)
  | malformed {read : Bytes → Option Value} {bytes : Bytes} : Wire.reader? cell.type = some read →
      cell.content = some bytes → read bytes = none →
      Unreadable cell index (.queryFailed ("error deserializing column " ++ toString index))

def read (cell : Cell) (index : Nat) : Except Error Value :=
  Server.readCell index (cell.column, cell.type) cell.content

theorem read_eq_ok_iff : cell.read index = .ok v ↔ cell.Holds v := by
  unfold read Server.readCell Holds
  split <;> simp_all

theorem read_eq_error_iff : cell.read index = .error e ↔ cell.Unreadable index e := by
  constructor
  · intro h
    unfold read Server.readCell at h
    split at h <;> cases h
    · next hdecode => exact .unsupported (Wire.decode_eq_unsupported_iff.mp hdecode)
    · next hdecode =>
      obtain ⟨read, bytes, hread, hcontent, hbytes⟩ := Wire.decode_eq_malformed_iff.mp hdecode
      exact .malformed hread hcontent hbytes
  · rintro (htype | ⟨hread, hcontent, hbytes⟩)
    · simp [read, Server.readCell, Wire.decode_eq_unsupported_iff.mpr htype]
    · have hdecode := Wire.decode_eq_malformed_iff.mpr ⟨_, _, hread, hcontent, hbytes⟩
      simp [read, Server.readCell, hdecode]

theorem exists_read_eq_ok_iff : (∃ v, cell.read index = .ok v) ↔ cell.IsReadable :=
  exists_congr fun _ => read_eq_ok_iff

end Cell

/-! ## Rows -/

namespace Reply

variable {reply : Reply} {row : List (Option Bytes)} {rows : List (List Value)}
  {values : List Value} {e : Error}

def columnNames (reply : Reply) : List String := reply.columns.map (·.1)

/-- The cells of a row, from left to right. -/
def cells (reply : Reply) (row : List (Option Bytes)) : List Cell :=
  reply.columns.zipWith (fun column content => ⟨column.1, column.2, content⟩) row

def IsReadable (reply : Reply) : Prop :=
  ∀ row ∈ reply.rows, ∀ cell ∈ reply.cells row, cell.IsReadable

/-- Each row holds these values, one for each cell. -/
def ReadsAs (reply : Reply) (rows : List (List Value)) : Prop :=
  List.Forall₂ (fun row values => List.Forall₂ Cell.Holds (reply.cells row) values) reply.rows rows

/-- Row by row and from left to right, no cell before this one is unreadable. -/
abbrev FirstUnreadableAt (reply : Reply) (i j : Nat) (row : List (Option Bytes)) (cell : Cell) :
    Prop :=
  FailsFirstInRows (fun _ cell => cell.IsReadable) reply.cells reply.rows i j row cell

/-- The first cell that has no value has none for this reason. -/
def FirstUnreadable (reply : Reply) (e : Error) : Prop :=
  ∃ i j row cell, reply.FirstUnreadableAt i j row cell ∧ cell.Unreadable j e

theorem readRow_eq_mapM (columns : List (String × ColumnType)) (k : Nat) :
    Server.readRow k columns row =
      ((columns.zipWith (fun column content => Cell.mk column.1 column.2 content) row).zipIdx
        k).mapM fun entry => entry.1.read entry.2 := by
  induction columns generalizing row k with
  | nil => rfl
  | cons column columns ih =>
    cases row with
    | nil => rfl
    | cons content row =>
      rw [Server.readRow, ih, List.zipWith_cons_cons, List.zipIdx_cons, List.mapM_cons]
      rfl

theorem readRow_eq_ok_iff :
    Server.readRow 0 reply.columns row = .ok values ↔
      List.Forall₂ Cell.Holds (reply.cells row) values := by
  rw [readRow_eq_mapM, mapM_eq_ok_iff]
  simp only [Cell.read_eq_ok_iff]
  conv_rhs => rw [← List.zipIdx_map_fst 0 (reply.cells row), List.forall₂_map_left_iff]
  rfl

theorem exists_readRow_eq_ok_iff :
    (∃ values, Server.readRow 0 reply.columns row = .ok values) ↔
      ∀ cell ∈ reply.cells row, cell.IsReadable := by
  rw [readRow_eq_mapM]
  exact exists_mapM_zipIdx_eq_ok_iff fun cell j => Cell.exists_read_eq_ok_iff

theorem readRow_eq_error_iff :
    Server.readRow 0 reply.columns row = .error e ↔
      ∃ j cell, FailsFirst Cell.IsReadable (reply.cells row) j cell ∧ cell.Unreadable j e := by
  rw [readRow_eq_mapM, mapM_zipIdx_eq_error_iff fun cell j => Cell.exists_read_eq_ok_iff]
  simp only [Cell.read_eq_error_iff, Nat.zero_add]
  rfl

theorem mapM_readRow_eq_ok_iff :
    reply.rows.mapM (Server.readRow 0 reply.columns) = .ok rows ↔ reply.ReadsAs rows := by
  simp only [mapM_eq_ok_iff, readRow_eq_ok_iff]
  rfl

theorem mapM_readRow_eq_error_iff :
    reply.rows.mapM (Server.readRow 0 reply.columns) = .error e ↔ reply.FirstUnreadable e :=
  mapM_rows_eq_error_iff (fun _ => exists_readRow_eq_ok_iff) fun _ _ => readRow_eq_error_iff

theorem exists_readsAs_iff : (∃ rows, reply.ReadsAs rows) ↔ reply.IsReadable := by
  simp only [← mapM_readRow_eq_ok_iff, exists_mapM_eq_ok_iff, exists_readRow_eq_ok_iff]
  rfl

theorem exists_firstUnreadable_iff : (∃ e, reply.FirstUnreadable e) ↔ ¬ reply.IsReadable := by
  simp only [← exists_readsAs_iff, ← mapM_readRow_eq_ok_iff, ← mapM_readRow_eq_error_iff]
  cases reply.rows.mapM (Server.readRow 0 reply.columns) <;> simp

theorem ReadsAs.length_eq (h : reply.ReadsAs rows) : rows.length = reply.rows.length :=
  (List.Forall₂.length_eq h).symm

/-- A row holds one value for each column. -/
theorem ReadsAs.length_values (h : reply.ReadsAs rows)
    (hshape : ∀ row ∈ reply.rows, row.length = reply.columns.length) :
    ∀ values ∈ rows, values.length = reply.columns.length := by
  intro values hvalues
  obtain ⟨hlength, hget⟩ := List.forall₂_iff_get.mp h
  obtain ⟨i, hi, rfl⟩ := List.getElem_of_mem hvalues
  have hholds := (hget i (by omega) hi).length_eq
  have hrow := hshape reply.rows[i] (List.getElem_mem _)
  simp only [cells, List.length_zipWith, List.get_eq_getElem] at hholds
  omega

end Reply

/-! ## Queries -/

namespace Server

variable {connection : ConnectionId} {statement : Statement} {s t : Server} {reply : Reply}
  {result : ResultSet} {e : Error}

/-- The server executes the statement and answers with rows that have a cell for each column. -/
structure Answers (connection : ConnectionId) (statement : Statement) (s : Server) (reply : Reply)
    (t : Server) : Prop where
  received : send connection statement s = .ok reply t
  completed : reply.executeError = none
  shaped : ∀ row ∈ reply.rows, row.length = reply.columns.length

/-- A statement that can be prepared is answered with the next reply, which is then used up. -/
theorem answers_of_prepare {params : List (Option Bytes)}
    (hsql : '\x00' ∉ statement.sql.toList) (hopen : connection ∉ s.closed)
    (hreply : s.replies.head? = some reply) (hprepare : prepare reply statement = .ok params)
    (hexecute : reply.executeError = none)
    (hshape : ∀ row ∈ reply.rows, row.length = reply.columns.length) :
    Answers connection statement s reply
      { s with replies := s.replies.tail, sent := s.sent ++ [⟨statement.sql, some params⟩] } := by
  refine ⟨?_, hexecute, hshape⟩
  have hclose : ¬ reply.close := by
    intro hclose
    rw [prepare, if_pos hclose] at hprepare
    cases hprepare
  have hnext : nextReply connection s = .ok reply { s with replies := s.replies.tail } := by
    change EStateM.Result.ok _ _ = _
    simp only [List.headD_eq_head?_getD, hreply, Option.getD_some, if_neg hclose]
  rw [send, if_neg (by simpa using hsql)]
  simp only [get_bind, List.contains_iff_mem, hopen, if_false]
  refine bind_eq_ok_iff.mpr ⟨reply, _, hnext, ?_⟩
  simp only [hprepare]
  rfl

theorem Answers.readResult_eq (h : Answers connection statement s reply t) :
    readResult reply =
      if reply.rows = [] then .ok .empty
      else ResultSet.mk reply.columnNames <$> reply.rows.mapM (readRow 0 reply.columns) := by
  have hshape : wellShaped reply = .ok () := if_pos (by simpa using h.shaped)
  have hcompleted : Server.completed reply = .ok () := by rw [Server.completed, h.completed]
  rw [readResult, hshape, hcompleted]
  cases hrows : reply.rows with
  | nil => rfl
  | cons row rows => cases (row :: rows).mapM (readRow 0 reply.columns) <;> rfl

theorem Answers.readResult_eq_ok_iff (h : Answers connection statement s reply t) :
    readResult reply = .ok result ↔
      reply.ReadsAs result.rows ∧
        result.columns = if reply.rows = [] then [] else reply.columnNames := by
  obtain ⟨columns, rows⟩ := result
  rw [h.readResult_eq, ← Reply.mapM_readRow_eq_ok_iff]
  split
  · next hrows => simp [hrows, ResultSet.empty, pure, Except.pure, eq_comm, and_comm]
  · rw [map_eq_ok_iff]
    simp only [ResultSet.mk.injEq]
    constructor
    · rintro ⟨_, hrows, hcolumns, rfl⟩
      exact ⟨hrows, hcolumns.symm⟩
    · rintro ⟨hrows, rfl⟩
      exact ⟨rows, hrows, rfl, rfl⟩

theorem Answers.readResult_eq_error_iff (h : Answers connection statement s reply t) :
    readResult reply = .error e ↔ reply.FirstUnreadable e := by
  rw [h.readResult_eq, ← Reply.mapM_readRow_eq_error_iff]
  split
  · next hrows => simp [hrows, pure, Except.pure]
  · exact map_eq_error_iff

theorem Answers.query_eq (h : Answers connection statement s reply t) :
    (driver connection).query statement s =
      (MonadExcept.ofExcept (readResult reply) : Action Server ResultSet) t := by
  change EStateM.bind _ _ s = _
  rw [EStateM.bind, h.received]

theorem Answers.query_eq_ok_iff (h : Answers connection statement s reply t) :
    (driver connection).query statement s = .ok result t ↔
      reply.ReadsAs result.rows ∧
        result.columns = if reply.rows = [] then [] else reply.columnNames := by
  rw [h.query_eq, ofExcept_eq_ok_iff, h.readResult_eq_ok_iff, and_iff_left rfl]

theorem Answers.query_eq_error_iff (h : Answers connection statement s reply t) :
    (driver connection).query statement s = .error e t ↔ reply.FirstUnreadable e := by
  rw [h.query_eq, ofExcept_eq_error_iff, h.readResult_eq_error_iff, and_iff_left rfl]

theorem Answers.query_of_rows_nil (h : Answers connection statement s reply t)
    (hrows : reply.rows = []) : (driver connection).query statement s = .ok .empty t := by
  rw [h.query_eq_ok_iff, Reply.ReadsAs, hrows, if_pos rfl]
  exact ⟨.nil, rfl⟩

theorem Answers.exists_query_eq_ok_iff (h : Answers connection statement s reply t) :
    (∃ result, (driver connection).query statement s = .ok result t) ↔ reply.IsReadable := by
  simp only [h.query_eq_ok_iff, ← Reply.exists_readsAs_iff]
  constructor
  · rintro ⟨result, hrows, -⟩
    exact ⟨result.rows, hrows⟩
  · rintro ⟨rows, hrows⟩
    exact ⟨⟨_, rows⟩, hrows, rfl⟩

theorem Answers.exists_query_eq_error_iff (h : Answers connection statement s reply t) :
    (∃ e, (driver connection).query statement s = .error e t) ↔ ¬ reply.IsReadable := by
  simp only [h.query_eq_error_iff, Reply.exists_firstUnreadable_iff]

end Server

end TableMapper
