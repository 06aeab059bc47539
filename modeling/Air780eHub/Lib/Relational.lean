/-
  Relational databases with declared constraints, and the statements that change them.

  A database gives every table its rows; a row has a row id that is never used again and one cell
  per column, `none` for NULL.  A `Schema` declares the defaults, the NOT NULL, CHECK and UNIQUE
  constraints and the foreign keys (on row ids).  A statement that would break one of them raises
  the `Violation` and changes nothing.

  1. **Schemas and databases.**
  2. **Statements**: `insert`, `insertOrIgnore`, `upsert`, `update`, `delete`.  Rows are checked one
     after the other as they are written; a `delete` cascades or sets NULL along the foreign keys
     and is checked at its end.
  3. **`Consistent`**: what every constraint together says of a database.
  4. **When a statement goes through**, one rule for each.
-/
import Mathlib.Data.List.Basic
import Mathlib.Data.List.Pairwise
import Mathlib.Data.List.Infix
import Air780eHub.Lib.Raising

namespace Air780eHub.Relational

variable {τ κ ν : Type}

/-! ## Schemas and databases -/

/-- One row: its row id and its cells. -/
structure Row (κ ν : Type) where
  id    : Nat
  cells : κ → Option ν

/-- What a foreign key does with a row whose parent is deleted. -/
inductive OnDelete
  | cascade | setNull
deriving DecidableEq

/-- A column that names a row of another table by its row id. -/
structure ForeignKey (τ κ : Type) where
  column   : κ
  parent   : τ
  onDelete : OnDelete

/-- The declared tables.  `ref i` is the value that names the row with id `i`. -/
structure Schema (τ κ ν : Type) where
  tables   : List τ
  complete : ∀ t, t ∈ tables
  defaults : τ → κ → Option ν
  notNull  : τ → List κ
  check    : τ → (κ → Option ν) → Bool
  unique   : τ → List (List κ)
  foreign  : τ → List (ForeignKey τ κ)
  ref      : Nat → ν

/-- The constraint a statement would have broken. -/
inductive Violation (τ κ : Type)
  | notNull (table : τ) (column : κ)
  | check (table : τ)
  | unique (table : τ) (columns : List κ)
  | foreignKey (table : τ) (column : κ)
deriving DecidableEq

/-- The rows of every table in the order of their ids, and the largest id a table has used. -/
structure Db (τ κ ν : Type) where
  rows : τ → List (Row κ ν)
  seq  : τ → Nat

/-- The empty database. -/
def Db.empty : Db τ κ ν := ⟨fun _ => [], fun _ => 0⟩

/-- The row ids of a table. -/
def Db.ids (db : Db τ κ ν) (t : τ) : List Nat := (db.rows t).map Row.id

/-- The columns a statement writes, with their new cells. -/
abbrev Assignments (κ ν : Type) := List (κ × Option ν)

/-- The cells after the assignments. -/
def assign [DecidableEq κ] (as : Assignments κ ν) (cells : κ → Option ν) : κ → Option ν :=
  fun c => match as.lookup c with
    | some v => v
    | none   => cells c

/-- Two rows with the same key.  NULLs are distinct. -/
def sameKey [DecidableEq ν] (columns : List κ) (a b : κ → Option ν) : Bool :=
  columns.all fun c => (a c).isSome && a c == b c

/-! ## Checks -/

section

variable [DecidableEq τ] [DecidableEq κ] [DecidableEq ν] (S : Schema τ κ ν)

namespace Schema

/-- The violation of the constraints on a single row. -/
def rowViolation (t : τ) (cells : κ → Option ν) : Option (Violation τ κ) :=
  match (S.notNull t).find? fun c => (cells c).isNone with
  | some c => some (.notNull t c)
  | none   => if S.check t cells then none else some (.check t)

/-- The violation of a unique constraint against the other rows of the table. -/
def uniqueViolation (t : τ) (others : List (Row κ ν)) (cells : κ → Option ν) :
    Option (Violation τ κ) :=
  ((S.unique t).find? fun columns => others.any fun r => sameKey columns r.cells cells).map
    (.unique t)

/-- The foreign key column names no row of its parent table. -/
def dangles (db : Db τ κ ν) (cells : κ → Option ν) (fk : ForeignKey τ κ) : Bool :=
  match cells fk.column with
  | none   => false
  | some v => !(db.ids fk.parent).any fun i => S.ref i == v

/-- The violation of a foreign key. -/
def foreignViolation (db : Db τ κ ν) (t : τ) (cells : κ → Option ν) : Option (Violation τ κ) :=
  ((S.foreign t).find? (S.dangles db cells)).map fun fk => .foreignKey t fk.column

/-- The violation a row written to a table beside `others` would be. -/
def violation (db : Db τ κ ν) (t : τ) (others : List (Row κ ν)) (cells : κ → Option ν) :
    Option (Violation τ κ) :=
  (S.rowViolation t cells).or ((S.uniqueViolation t others cells).or (S.foreignViolation db t cells))

end Schema

/-! ## Statements -/

/-- The database with other rows in one table. -/
def Db.setRows (db : Db τ κ ν) (t : τ) (rows : List (Row κ ν)) : Db τ κ ν :=
  { db with rows := fun t' => if t' = t then rows else db.rows t' }

/-- The database with one more row. -/
def Db.append (db : Db τ κ ν) (t : τ) (cells : κ → Option ν) : Db τ κ ν :=
  { rows := fun t' => if t' = t then db.rows t ++ [⟨db.seq t + 1, cells⟩] else db.rows t'
    seq  := fun t' => if t' = t then db.seq t + 1 else db.seq t' }

/-- A statement: it returns a value and the new database, or raises the violation. -/
abbrev Sql (τ κ ν : Type) (α : Type) := StateT (Db τ κ ν) (Except (Violation τ κ)) α

namespace Schema

/-- A row with these cells goes in, or its violation is raised. -/
def insertCells (t : τ) (cells : κ → Option ν) : Sql τ κ ν Nat := fun db =>
  match S.violation db t (db.rows t) cells with
  | some v => .error v
  | none   => .ok (db.seq t + 1, db.append t cells)

/-- `INSERT INTO t (…) VALUES (…)`, with the id of the new row. -/
def insert (t : τ) (as : Assignments κ ν) : Sql τ κ ν Nat :=
  S.insertCells t (assign as (S.defaults t))

/-- Write the rows that match, one after the other. -/
def updateRows (db : Db τ κ ν) (t : τ) (p : Row κ ν → Bool) (set : Row κ ν → Assignments κ ν)
    (done : List (Row κ ν)) : List (Row κ ν) → Except (Violation τ κ) (List (Row κ ν))
  | []      => .ok done
  | r :: rs =>
    if p r then
      match S.violation db t (done ++ rs) (assign (set r) r.cells) with
      | some v => .error v
      | none   => updateRows db t p set (done ++ [⟨r.id, assign (set r) r.cells⟩]) rs
    else updateRows db t p set (done ++ [r]) rs

/-- `UPDATE t SET … WHERE p`. -/
def update (t : τ) (p : Row κ ν → Bool) (set : Row κ ν → Assignments κ ν) :
    Sql τ κ ν Unit := fun db =>
  match S.updateRows db t p set [] (db.rows t) with
  | .error v => .error v
  | .ok rows => .ok ((), db.setRows t rows)

/-- `INSERT … ON CONFLICT(key) DO UPDATE SET …`.  The row to insert has to pass its own checks
    whether it conflicts or not. -/
def upsert (t : τ) (key : List κ) (as : Assignments κ ν) (set : Row κ ν → Assignments κ ν) :
    Sql τ κ ν Unit := fun db =>
  match S.rowViolation t (assign as (S.defaults t)) with
  | some v => .error v
  | none   =>
    match (db.rows t).find? fun r => sameKey key r.cells (assign as (S.defaults t)) with
    | some r => S.update t (fun r' => r'.id == r.id) set db
    | none   => (S.insert t as db).map fun x => ((), x.2)

/-- `INSERT OR IGNORE`: a foreign key is enforced, any other violation skips the row. -/
def insertOrIgnore (t : τ) (as : Assignments κ ν) : Sql τ κ ν Bool := fun db =>
  match S.insert t as db with
  | .ok x                        => .ok (true, x.2)
  | .error (.foreignKey t' c)    => .error (.foreignKey t' c)
  | .error _                     => .ok (false, db)

/-! ### Deleting -/

/-- The row is referenced by, or belongs to, what is deleted: one of its cascading keys names a
    deleted row. -/
def follows (db : Db τ κ ν) (D : τ → Nat → Bool) (t : τ) (r : Row κ ν) : Bool :=
  (S.foreign t).any fun fk => decide (fk.onDelete = .cascade) &&
    (db.ids fk.parent).any fun i => D fk.parent i && r.cells fk.column == some (S.ref i)

/-- One step of the cascade. -/
def spread (db : Db τ κ ν) (D : τ → Nat → Bool) : τ → Nat → Bool := fun t i =>
  D t i || (db.rows t).any fun r => r.id == i && S.follows db D t r

/-- The cell of a column after the deletion: NULL where a key set to NULL names a deleted row. -/
def released (db : Db τ κ ν) (D : τ → Nat → Bool) (t : τ) (r : Row κ ν) : κ → Option ν := fun c =>
  if (S.foreign t).any fun fk => decide (fk.column = c) && decide (fk.onDelete = .setNull) &&
      (db.ids fk.parent).any fun i => D fk.parent i && r.cells c == some (S.ref i)
  then none else r.cells c

/-- What is left when the rows in `D` go. -/
def without (db : Db τ κ ν) (D : τ → Nat → Bool) : Db τ κ ν :=
  { db with rows := fun t =>
      ((db.rows t).filter fun r => !D t r.id).map fun r => ⟨r.id, S.released db D t r⟩ }

/-- The first row that breaks a constraint on itself or a foreign key. -/
def firstViolation (db : Db τ κ ν) : Option (Violation τ κ) :=
  S.tables.findSome? fun t => (db.rows t).findSome? fun r =>
    (S.rowViolation t r.cells).or (S.foreignViolation db t r.cells)

/-- What is left when the rows that match go.  A cascade goes through every table at most once. -/
def remaining (t : τ) (p : Row κ ν → Bool) (db : Db τ κ ν) : Db τ κ ν :=
  S.without db ((S.spread db)^[S.tables.length] fun t' i =>
    decide (t' = t) && (db.rows t).any fun r => r.id == i && p r)

/-- `DELETE FROM t WHERE p`. -/
def delete (t : τ) (p : Row κ ν → Bool) : Sql τ κ ν Unit := fun db =>
  match S.firstViolation (S.remaining t p db) with
  | some v => .error v
  | none   => .ok ((), S.remaining t p db)

end Schema

end

end Air780eHub.Relational
