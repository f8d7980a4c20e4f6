import Mathlib.Control.Lawful

/-!
# Calls that raise, and transactions

A call that raises keeps what it has assigned before. `Method` is such a call on a state.
A database connection protects its rows from that: `withConnection` publishes what a
transaction has written when the call returns, and rolls it back when the call raises.
`settle` is what is left of either in the end: the new state, or the one before.
-/

namespace NetworkFinality.Semantics

variable {ε α β S : Type}

/-- A call on a state. Raising leaves the state as it is at that point. -/
abbrev Method (ε S α : Type) := ExceptT ε (StateM S) α

namespace Method

/-- The outcome of a call and the state it leaves. -/
def call (method : Method ε S α) (state : S) : Except ε α × S := method.run.run state

/-- Read the state. -/
def read (field : S → α) : Method ε S α := do return field (← get)

/-- Assign to the state. -/
def assign (change : S → S) : Method ε S Unit := modify change

@[simp] theorem call_read (field : S → α) (state : S) :
    (read field : Method ε S α).call state = (.ok (field state), state) := rfl

@[simp] theorem call_lift (result : Except ε α) (state : S) :
    (liftM result : Method ε S α).call state = (result, state) := rfl

/-- The rest of a method runs from the state its first part has left. -/
theorem call_bind (first : Method ε S α) (rest : α → Method ε S β) (state : S) :
    (first >>= rest).call state = match first.call state with
      | (.ok value, after) => (rest value).call after
      | (.error reason, after) => (.error reason, after) := by
  unfold call
  rw [ExceptT.run_bind, StateT.run_bind]
  generalize StateT.run (ExceptT.run first) state = result
  rcases result with ⟨outcome, after⟩
  cases outcome <;> rfl

theorem call_map (convert : α → β) (method : Method ε S α) (state : S) :
    (convert <$> method).call state =
      (convert <$> (method.call state).1, (method.call state).2) := by
  unfold call
  rw [ExceptT.run_map, StateT.run_map]
  generalize StateT.run (ExceptT.run method) state = result
  rcases result with ⟨outcome, after⟩
  cases outcome <;> rfl

end Method

/-- The outcome of a call that either changes the state as a whole or not at all. -/
def settle (before : S) : Except ε (α × S) → Except ε α × S
  | .ok (value, after) => (.ok value, after)
  | .error reason => (.error reason, before)

/-- A settled call that has raised changes nothing. -/
theorem settle_raised {before : S} {result : Except ε (α × S)} {reason : ε}
    (raised : (settle before result).1 = .error reason) : (settle before result).2 = before := by
  cases result with
  | error _ => rfl
  | ok _ => cases raised

theorem settle_returned {before : S} {result : Except ε (α × S)} {value : α}
    (returned : (settle before result).1 = .ok value) :
    result = .ok (value, (settle before result).2) := by
  cases result with
  | error _ => cases returned
  | ok _ =>
      cases returned
      rfl

theorem settle_map (convert : α → β) (before : S) (result : Except ε (α × S)) :
    settle before (Prod.map convert id <$> result) =
      (convert <$> (settle before result).1, (settle before result).2) := by
  cases result <;> rfl

/-! ### Connections -/

/-- A database as one connection has it: the committed rows, and those that an open
transaction has written. -/
structure Connection (S : Type) where
  committed : S
  written : Option S

namespace Connection

/-- The rows a statement reads. -/
def rows (db : Connection S) : S := db.written.getD db.committed

/-- Outside a transaction each statement commits by itself. -/
def write (db : Connection S) (rows : S) : Connection S :=
  match db.written with
  | some _ => { db with written := some rows }
  | none => { db with committed := rows }

/-- `BEGIN IMMEDIATE`. -/
def beginImmediate : Method ε (Connection S) Unit :=
  Method.assign fun db => { db with written := some db.rows }

/-- A statement. One that fails has written nothing. -/
def execute (statement : S → Except ε (α × S)) : Method ε (Connection S) α := do
  let rows ← Method.read Connection.rows
  let (value, after) ← statement rows
  Method.assign (·.write after)
  return value

/-- `db.commit()`. -/
def commit : Method ε (Connection S) Unit :=
  Method.assign fun db => ⟨db.rows, none⟩

/-- `with self._connect() as db`: what is still open at the end is committed, or rolled
back when the body has raised. -/
def withConnection (body : Method ε (Connection S) α) (before : S) : Except ε α × S :=
  match body.call ⟨before, none⟩ with
  | (.ok value, db) => (.ok value, db.rows)
  | (.error reason, db) => (.error reason, db.committed)

@[simp] theorem call_beginImmediate (committed : S) :
    (beginImmediate : Method ε (Connection S) Unit).call ⟨committed, none⟩ =
      (.ok (), ⟨committed, some committed⟩) := rfl

@[simp] theorem call_commit (committed rows : S) :
    (commit : Method ε (Connection S) Unit).call ⟨committed, some rows⟩ =
      (.ok (), ⟨rows, none⟩) := rfl

/-- What a statement writes in an open transaction is not committed yet. -/
theorem call_execute (statement : S → Except ε (α × S)) (committed rows : S) :
    (execute statement).call ⟨committed, some rows⟩ = match statement rows with
      | .ok (value, after) => (.ok value, ⟨committed, some after⟩)
      | .error reason => (.error reason, ⟨committed, some rows⟩) := by
  simp only [execute, Method.call_bind, Method.call_read, Method.call_lift, Connection.rows,
    Option.getD_some]
  cases statement rows <;> rfl

theorem withConnection_map (convert : α → β) (body : Method ε (Connection S) α) (before : S) :
    withConnection (convert <$> body) before =
      (convert <$> (withConnection body before).1, (withConnection body before).2) := by
  simp only [withConnection, Method.call_map]
  rcases body.call ⟨before, none⟩ with ⟨outcome, db⟩
  cases outcome <;> rfl

/-- A call with one statement outside a transaction. -/
theorem withConnection_execute (statement : S → Except ε (α × S)) (before : S) :
    withConnection (execute statement) before = settle before (statement before) := by
  simp only [withConnection, execute, Method.call_bind, Method.call_read, Method.call_lift,
    Connection.rows, Option.getD_none]
  cases statement before <;> rfl

end Connection
end NetworkFinality.Semantics
