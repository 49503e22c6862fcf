import TableMapper.Driver.Basic

/-!
# Recorders

A recorder stands in for a database: it records every statement and answers from a queue, then
with a fixed result.

## Main definitions

* `Recorder` — the queue, the fixed result and the record.
* `Recorder.configured` — a recorder that is set up step by step.
* `Recorder.driver` — its operations.
-/

namespace TableMapper

structure Recorder where
  /-- The answers to the next statements, in order. -/
  answers : List (Except Error ResultSet) := []
  /-- The answer when none is queued. -/
  fallback : ResultSet := .empty
  healthy : Bool := true
  recorded : List Statement := []

namespace Recorder

/-! ## Setting up -/

/-- A step in which a recorder is set up. -/
inductive Setting where
  | answer (result : ResultSet)
  | answers (results : List ResultSet)
  /-- A statement is answered with an error. -/
  | failure (e : Error)
  | fallback (result : ResultSet)
  | unhealthy

/-- Put answers behind those that are queued. -/
def enqueue (r : Recorder) (answers : List (Except Error ResultSet)) : Recorder :=
  { r with answers := r.answers ++ answers }

def configure (r : Recorder) : Setting → Recorder
  | .answer result => r.enqueue [.ok result]
  | .answers results => r.enqueue (results.map .ok)
  | .failure e => r.enqueue [.error e]
  | .fallback result => { r with fallback := result }
  | .unhealthy => { r with healthy := false }

/-- A new recorder, set up from the first step to the last. -/
def configured (settings : List Setting) : Recorder := settings.foldl configure {}

/-! ## The record -/

def lastStatement? (r : Recorder) : Option Statement := r.recorded.getLast?

def clear (r : Recorder) : Recorder := { r with recorded := [] }

/-- Whether the statement recorded last equals this one. -/
def lastIs (r : Recorder) (statement : Statement) : Bool :=
  match r.lastStatement? with
  | some last => last == statement
  | none => false

/-! ## Operations -/

/-- Record a statement and take the next answer. -/
def answer (statement : Statement) : Action Recorder ResultSet := fun r =>
  let r := { r with recorded := r.recorded ++ [statement] }
  match r.answers with
  | [] => .ok r.fallback r
  | .ok result :: rest => .ok result { r with answers := rest }
  | .error e :: rest => .error e { r with answers := rest }

def driver : Driver Recorder where
  ping := do
    let r ← get
    if r.healthy then return else throw (.connectionFailed "in-memory driver is unhealthy")
  query := answer
  execute statement := do
    let result ← answer statement
    return result.rows.length

end Recorder

end TableMapper
