/-
  The messages table and the condition every read of it is built from (`db.py`, `api.py`).

  1. **Rows**: `Message`, `Sim` and the two tables with their primary keys.
  2. **`MessageScope`**: the condition object and its WHERE clause, a list of conditions of which a
     field that is not set contributes none.  Python tests `direction`, `peer` and `search` for
     truth, so an empty text counts as not set.
  3. **Reads and writes through a scope**: `messages`, `markRead`.
-/
import Mathlib.Data.List.Sort
import Mathlib.Data.String.Basic
import Air780eHub.Lib.Select

namespace Air780eHub.Messages

open Select

/-! ## Rows -/

/-- A row of `messages`, as far as the reads below use it. -/
structure Message where
  id            : Nat
  device        : String
  simId         : Option Int
  direction     : String
  peer          : String
  body          : String
  ts            : String
  status        : String
  readAt        : Option String
  isBinary      : Int
  truncated     : Int
  recoveredBody : Option String
  recoveredCode : Option String
deriving DecidableEq

/-- A row of `sims`. -/
structure Sim where
  id    : Int
  label : String
  iccid : String

/-- The two tables, their ids primary keys. -/
structure Tables where
  messages   : List Message
  sims       : List Sim
  messageIds : (messages.map Message.id).Nodup
  simIds     : (sims.map Sim.id).Nodup

/-- The card and the correspondent of a message: the thread it is of. -/
def Message.thread (m : Message) : Option Int × String := (m.simId, m.peer)

/-- An incoming message nobody has read. -/
def Message.unread (m : Message) : Bool := m.direction == "in" && m.readAt.isNone

/-- `ORDER BY ts DESC, id DESC`. -/
def newerFirst (a b : Message) : Prop := b.ts < a.ts ∨ (b.ts = a.ts ∧ b.id ≤ a.id)

instance : DecidableRel newerFirst := fun _ _ => inferInstanceAs (Decidable (_ ∨ _))

/-- `ON s.id = m.sim_id`. -/
def onSim (m : Message) (s : Sim) : Bool := m.simId == some s.id

/-! ## Scopes -/

/-- The cards a scope covers. -/
inductive SimScope
  | all | unassigned
  | card (id : Int)
deriving DecidableEq

/-- `MessageScope`. -/
structure MessageScope where
  sim       : SimScope := .all
  direction : Option String := none
  peer      : Option String := none
  search    : Option String := none
  content   : Option String := none

/-- The clause a text contributes, when Python takes it for true. -/
def clause (s : Option String) (f : String → Message → Bool) : List (Message → Bool) :=
  match s with
  | some t => if t = "" then [] else [f t]
  | none   => []

/-- `text LIKE pattern`: `%` stands for any text and `_` for one character, and a letter of the
    basic alphabet for itself in either case. -/
def like : List Char → List Char → Bool
  | [], s       => s.isEmpty
  | p :: ps, s =>
    if p = '%' then s.tails.any (like ps)
    else match s with
      | []      => false
      | c :: cs => (p = '_' || p.toLower == c.toLower) && like ps cs

/-- `column LIKE '%search%'`; NULL is like nothing. -/
def contains (search : String) (column : Option String) : Bool :=
  column.any fun s => like ('%' :: search.toList ++ ['%']) s.toList

/-- The clause of the cards a scope covers. -/
def SimScope.clauses : SimScope → List (Message → Bool)
  | .unassigned => [fun m => m.simId.isNone]
  | .card i     => [fun m => m.simId == some i]
  | .all        => []

/-- The clause of the content filter. -/
def contentClauses (content : Option String) : List (Message → Bool) :=
  if content = some "text" then [fun m => m.isBinary == 0]
  else if content = some "data" then [fun m => m.isBinary == 1]
  else []

/-- The clauses of `MessageScope.where`. -/
def MessageScope.clauses (scope : MessageScope) : List (Message → Bool) :=
  scope.sim.clauses ++
  clause scope.direction (fun d m => m.direction == d) ++
  clause scope.peer (fun p m => m.peer == p) ++
  clause scope.search (fun s m => contains s (some m.body) || contains s (some m.peer) ||
    contains s m.recoveredBody || contains s m.recoveredCode) ++
  contentClauses scope.content

/-- The row satisfies `MessageScope.where`. -/
def MessageScope.covers (scope : MessageScope) (m : Message) : Bool :=
  scope.clauses.all fun clause => clause m

/-- `message_scope`: the scope a request names, or the 422 it gets. -/
def messageScope (simId : Option Int) (unassigned : Bool)
    (direction peer search content : Option String) : Except Nat MessageScope :=
  if unassigned && simId.isSome then .error 422
  else .ok
    { sim := if unassigned then .unassigned else simId.elim .all .card
      direction, peer, search, content }

/-! ## Reading and marking -/

/-- A row of `messages()`: the message beside the label and the ICCID of its card. -/
structure MessageView where
  message  : Message
  simLabel : Option String
  simIccid : Option String

/-- The selected columns of a message and its card. -/
def view (row : Message × Option Sim) : MessageView :=
  ⟨row.1, row.2.map Sim.label, row.2.map Sim.iccid⟩

/-- `(m.ts < ? OR (m.ts = ? AND m.id < ?))`, where a cursor is given. -/
def olderThan (before : Option (String × Nat)) (m : Message) : Bool :=
  before.all fun c => decide (m.ts < c.1) || (m.ts == c.1 && decide (m.id < c.2))

/-- `LIMIT ? OFFSET ?`, where a limit is given. -/
def page {α : Type} (limit : Option Nat) (offset : Nat) (rows : List α) : List α :=
  limit.elim rows fun n => (rows.drop offset).take n

/-- `Database.messages`, with the position its cursor names. -/
def Tables.read (db : Tables) (scope : MessageScope) (limit : Option Nat := some 50)
    (offset : Nat := 0) (before : Option (String × Nat) := none) : List MessageView :=
  let rows := (leftJoin onSim db.messages db.sims).filter fun row =>
    scope.covers row.1 && olderThan before row.1
  (page limit offset (rows.insertionSort fun a b => newerFirst a.1 b.1)).map view

/-- The row an update writes over a message that is read now. -/
def Message.markedRead (m : Message) (now : String) : Message := { m with readAt := some now }

/-- The condition of `mark_read`'s UPDATE. -/
def MessageScope.marks (scope : MessageScope) (throughId : Option Nat) (m : Message) : Bool :=
  scope.covers m && m.unread && throughId.all fun i => decide (m.id ≤ i)

/-- `Database.mark_read`, with the number of rows it changed. -/
def Tables.markRead (db : Tables) (scope : MessageScope) (throughId : Option Nat) (now : String) :
    Tables × Nat :=
  ({ db with
      messages := db.messages.map fun m => if scope.marks throughId m then m.markedRead now else m
      messageIds := by
        have hid : (Message.id ∘ fun m : Message =>
            if scope.marks throughId m then m.markedRead now else m) = Message.id := by
          funext m
          show (if scope.marks throughId m then m.markedRead now else m).id = m.id
          split <;> rfl
        rw [List.map_map, hid]
        exact db.messageIds },
   (db.messages.filter (scope.marks throughId)).length)

/-! ## What a read without a page returns -/

theorem onSim_le_one (db : Tables) (m : Message) : (db.sims.filter (onSim m)).length ≤ 1 := by
  cases hs : m.simId with
  | none =>
    have hnone : db.sims.filter (onSim m) = [] :=
      List.filter_eq_nil_iff.mpr fun s _ => by simp [onSim, hs]
    rw [hnone]
    exact Nat.zero_le 1
  | some i =>
    have hone : onSim m = fun s : Sim => decide (s.id = i) := by
      funext s
      rw [onSim, hs, Bool.eq_iff_iff, beq_iff_eq, decide_eq_true_iff, Option.some_inj]
      exact eq_comm
    rw [hone]
    exact length_filter_le_one db.simIds i

/-- **The messages of a scope**: its rows, the newest first. -/
theorem read_messages (db : Tables) (scope : MessageScope) :
    (db.read scope none).map MessageView.message =
      (db.messages.filter scope.covers).insertionSort newerFirst := by
  have hview : MessageView.message ∘ view = Prod.fst := rfl
  have hfilter : ((leftJoin onSim db.messages db.sims).filter fun row => scope.covers row.1).map
      Prod.fst = db.messages.filter scope.covers := by
    rw [← leftJoin_fst (onSim_le_one db) db.messages, List.filter_map]
    simp only [leftJoin_fst (onSim_le_one db)]
    rfl
  simp only [Tables.read, page, olderThan, Option.all_none, Bool.and_true, Option.elim_none,
    List.map_map, hview]
  rw [List.map_insertionSort _ newerFirst _ _ fun a _ b _ => Iff.rfl, hfilter]

end Air780eHub.Messages
