/-
  Claiming an Agent event on the Server: `Database.apply_event`, and what the gateway reads off a
  frame before it calls it.

  The Server keeps one row of `ingested` for every event it has applied, keyed by
  (agent, stream, seq).  `apply_event` inserts that row and runs the business writes of the event
  in ONE transaction: a key that is there already means a replay and nothing is written but
  `agents.last_seq`; a callback that raises takes the key back with it.

  The business state is a type parameter here.  What the theorems below say holds for every
  callback, whatever tables it writes and whenever it raises; `Server/Apply` has the callbacks of
  the gateway.

  1. `validSeq`, `helloAgentId`, `helloStreamId` : what the gateway reads off a frame.
  2. `applyEvent` : the transaction.
  3. `applyEvent_cases` : everything the transaction can do, which is all the later modules use.
-/
import Air780eHub.Wire.Value
import Mathlib.Algebra.Group.Int.Defs

namespace Air780eHub

universe u v w

/-! ## What the gateway reads off a frame -/

/-- SQLite stores a signed 64-bit integer; a sequence number stays well inside it. -/
def MAX_SEQ : Int := 2 ^ 62

/-- Identifiers (agent id, stream id) are bounded. -/
def MAX_ID_CHARS : Nat := 128

/-- `_valid_seq`: an integer that is not a boolean, from 1 to `MAX_SEQ`. -/
def validSeq : Value → Bool
  | .int n => decide (1 ≤ n) && decide (n ≤ MAX_SEQ)
  | _      => false

/-- The agent id a hello asks for, when it is one: not empty and not too long. -/
def helloAgentId (repr : Value → String) (frame : Frame) : Option String :=
  let candidate := pyStrip (pyText repr (frame.get "agent_id"))
  if candidate = "" ∨ MAX_ID_CHARS < candidate.length then none else some candidate

/-- The stream id a hello reports, stripped and cut. -/
def helloStreamId (repr : Value → String) (frame : Frame) : String :=
  pyTake MAX_ID_CHARS (pyStrip (pyText repr (frame.get "stream_id")))

/-! ## The transaction -/

/-- The primary key of `ingested`. -/
structure IngestKey where
  agentId  : String
  streamId : String
  seq      : Nat
deriving DecidableEq

/-- The Server's database: the idempotency table beside everything else. -/
structure Database (β : Type u) where
  ingested : List IngestKey
  business : β

variable {β : Type u} {ε : Type v} {ρ : Type w}

/-- `Database.apply_event`.  `apply` is the callback and `noteSeq` the update of
    `agents.last_seq`.  `some r` is a fresh event with the callback's result, `none` a replay;
    an error is the callback's, and the transaction it rolled back left the database alone. -/
def Database.applyEvent (db : Database β) (key : IngestKey) (apply : β → Except ε (ρ × β))
    (noteSeq : β → β) : Except ε (Option ρ × Database β) :=
  if key ∈ db.ingested then
    .ok (none, { db with business := noteSeq db.business })
  else
    match apply db.business with
    | .error e   => .error e
    | .ok (r, b) => .ok (some r, { ingested := db.ingested ++ [key], business := noteSeq b })

/-- **What the transaction can do**: a replay leaves the keys alone, a fresh event adds its key
    together with the callback's writes, and anything else is an error. -/
theorem Database.applyEvent_cases {db db' : Database β} {key : IngestKey}
    {apply : β → Except ε (ρ × β)} {noteSeq : β → β} {r : Option ρ}
    (h : db.applyEvent key apply noteSeq = .ok (r, db')) :
    (r = none ∧ key ∈ db.ingested ∧ db'.ingested = db.ingested) ∨
    (∃ x b, r = some x ∧ key ∉ db.ingested ∧ apply db.business = .ok (x, b) ∧
      db' = { ingested := db.ingested ++ [key], business := noteSeq b }) := by
  unfold Database.applyEvent at h
  by_cases hk : key ∈ db.ingested
  · rw [if_pos hk] at h; cases h
    exact Or.inl ⟨rfl, hk, rfl⟩
  · rw [if_neg hk] at h
    cases ha : apply db.business with
    | error e => simp [ha] at h
    | ok x =>
      obtain ⟨x, b⟩ := x
      simp only [ha, Except.ok.injEq, Prod.mk.injEq] at h
      exact Or.inr ⟨x, b, h.1.symm, hk, rfl, h.2.symm⟩

/-- The transaction fails exactly when the event is fresh and its callback raises. -/
theorem Database.applyEvent_error_iff {db : Database β} {key : IngestKey}
    {apply : β → Except ε (ρ × β)} {noteSeq : β → β} {e : ε} :
    db.applyEvent key apply noteSeq = .error e ↔
      key ∉ db.ingested ∧ apply db.business = .error e := by
  unfold Database.applyEvent
  by_cases hk : key ∈ db.ingested
  · simp [hk]
  · cases apply db.business <;> simp [hk]

end Air780eHub
