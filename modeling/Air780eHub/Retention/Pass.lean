/-
  Retention: `Database.purge_batches`.

  A pass goes through the tables that have a horizon and deletes, in batches, the rows that are
  older.  It goes through `messages` first; the segments of a message go with it.

  1. **Ranks**: the foreign keys of the schema.
  2. **The pass**: `purgeSpecs` and `purgeBatches`.
  3. **`purgeBatches_eq`**: a pass over a consistent database comes to its end, and
     **`Purged`**: what it leaves of the messages, the outbox and the operations.
-/
import Air780eHub.Lib.Batches
import Air780eHub.Server.Statements

namespace Air780eHub.Retention

open Relational Server

/-! ## Ranks -/

/-- A table's place in the order of the foreign keys.  A table nothing refers to may stand high. -/
def rank : Table → Nat
  | .agents | .sims | .notifyOutbox | .commandOperations => 0
  | .devices | .messages                                 => 1
  | .calls | .smsDeliverySegments | .deviceStatus | .tasks => 2
  | .taskLogs | .agentLogs | .incidents                  => 3

theorem schema_ranked : Ranked SCHEMA rank where
  parent    := by intro t; cases t <;> decide
  bound     := by intro t; cases t <;> decide
  nullable  := by intro t; cases t <;> decide
  unchecked := by
    intro t ht cells
    cases t with
    | commandOperations => exact absurd rfl ht
    | _ => rfl

/-! ## The pass -/

/-- `cell < text` of a text column. -/
def before (cell : Option Cell) (s : String) : Bool :=
  match cell with
  | some (.text s') => decide (s' < s)
  | _               => false

/-- The arguments of `purge_batches`. -/
structure Horizons where
  messageDays  : Int
  statusDays   : Int
  logDays      : Int := 0
  incidentDays : Int := 0
  batchSize    : Int := 500

/-- An entry of the table of horizons: the key its row count is reported under, the table, the
    days it keeps and what expires at a cutoff. -/
structure PurgeSpec where
  key     : Option String
  table   : Table
  days    : Int
  expired : String → HubRow → Bool

/-- The entry of the messages. -/
def messageSpec (h : Horizons) : PurgeSpec :=
  ⟨some "messages", .messages, h.messageDays, fun cut r => before (r.cells .ts) cut⟩

/-- The entries of the tables a pass goes through after it. -/
def furtherSpecs (h : Horizons) : List PurgeSpec :=
  [⟨none, .smsDeliverySegments, h.messageDays, fun cut r =>
      (r.cells .messageId).isNone && before (r.cells .createdAt) cut⟩,
   ⟨some "status", .deviceStatus, h.statusDays, fun cut r => before (r.cells .ts) cut⟩,
   ⟨some "agent_logs", .agentLogs, h.logDays, fun cut r => before (r.cells .ts) cut⟩,
   ⟨some "task_logs", .taskLogs, h.logDays, fun cut r => before (r.cells .ts) cut⟩,
   ⟨some "incidents", .incidents, h.incidentDays, fun cut r =>
      equals (r.cells .status) (text "resolved") && before (r.cells .resolvedAt) cut⟩]

/-- `specs`: the tables whose horizon is set. -/
def purgeSpecs (h : Horizons) : List PurgeSpec :=
  (messageSpec h :: furtherSpecs h).filter fun s => decide (0 < s.days)

/-- What an entry deletes.  `cutoff days` is `(now - timedelta(days=days)).isoformat()`. -/
def PurgeSpec.expires (s : PurgeSpec) (cutoff : Int → String) (r : HubRow) : Bool :=
  s.expired (cutoff s.days) r

/-- The loop over the batches of one entry. -/
def purgeTable (cutoff : Int → String) (spec : PurgeSpec) (batchSize : Nat) : Hub Nat := do
  let db ← get
  sql (SCHEMA.drain spec.table (spec.expires cutoff) batchSize ((db.rows spec.table).length + 1))

/-- The loop over `specs`, with the row counts it reports. -/
def purgeTables (cutoff : Int → String) (batchSize : Nat) :
    List PurgeSpec → Hub (List (String × Nat))
  | []            => pure []
  | spec :: specs => do
    let count ← purgeTable cutoff spec batchSize
    let removed ← purgeTables cutoff batchSize specs
    pure ((spec.key.map fun key => (key, count)).toList ++ removed)

/-- `purge_batches`, to its end. -/
def purgeBatches (h : Horizons) (cutoff : Int → String) : Hub (List (String × Nat)) :=
  if h.batchSize < 1 then throw .valueError
  else purgeTables cutoff h.batchSize.toNat (purgeSpecs h)

/-! ## What a pass leaves -/

/-- What a pass leaves of the messages, the outbox and the operations. -/
structure Purged (keep : HubRow → Bool) (db db' : HubDb) : Prop where
  consistent : Consistent SCHEMA db'
  messages   : db'.rows .messages = (db.rows .messages).filter keep
  outbox     : db'.rows .notifyOutbox = db.rows .notifyOutbox
  operations : db'.rows .commandOperations = db.rows .commandOperations
  seq        : db'.seq = db.seq

variable {db db' db'' : HubDb} {spec : PurgeSpec} {n : Nat} {cutoff : Int → String} {h : Horizons}

/-- The loop over the batches of one entry ends. -/
theorem purgeTable_eq (spec : PurgeSpec) (cutoff : Int → String) (hdb : Consistent SCHEMA db)
    (hn : 0 < n) :
    ∃ db', purgeTable cutoff spec n db =
        .ok (((db.rows spec.table).filter (spec.expires cutoff)).length, db') ∧
      Drained SCHEMA rank spec.table (spec.expires cutoff) db db' := by
  have hk : ((db.rows spec.table).filter (spec.expires cutoff)).length <
      (db.rows spec.table).length + 1 := Nat.lt_succ_of_le (List.length_filter_le _ _)
  obtain ⟨db', hd, hdone⟩ := drain_eq schema_ranked hn hdb hk
  refine ⟨db', ?_, hdone⟩
  show sql (SCHEMA.drain spec.table (spec.expires cutoff) n
    ((db.rows spec.table).length + 1)) db = _
  rw [sql, hd]
  rfl

theorem Purged.refl (hdb : Consistent SCHEMA db) : Purged (fun _ => true) db db where
  consistent := hdb
  messages   := by rw [List.filter_true]
  outbox     := rfl
  operations := rfl
  seq        := rfl

theorem Purged.trans {keep keep' : HubRow → Bool} (h : Purged keep db db')
    (h' : Purged keep' db' db'') : Purged (fun r => keep' r && keep r) db db'' where
  consistent := h'.consistent
  messages   := by rw [h'.messages, h.messages, List.filter_filter]
  outbox     := h'.outbox.trans h.outbox
  operations := h'.operations.trans h.operations
  seq        := h'.seq.trans h.seq

/-- The tables a pass goes through after `messages`. -/
theorem Purged.of_higher (h : Drained SCHEMA rank spec.table (spec.expires cutoff) db db')
    (hr : 1 < rank spec.table) : Purged (fun _ => true) db db' := by
  have hsame : ∀ t, rank t ≤ 1 → db'.rows t = db.rows t := by
    intro t ht
    exact h.below t (by omega) fun he => by rw [he] at ht; omega
  refine ⟨h.consistent, ?_, hsame _ (by decide), hsame _ (by decide), h.seq⟩
  rw [hsame .messages (by decide), List.filter_true]

theorem Purged.of_messages (h : Drained SCHEMA rank spec.table (spec.expires cutoff) db db')
    (ht : spec.table = .messages) : Purged (fun r => !spec.expires cutoff r) db db' := by
  refine ⟨h.consistent, ?_, ?_, ?_, h.seq⟩
  · rw [← ht]
    exact h.rows
  · exact h.below _ (by rw [ht]; decide) (by rw [ht]; decide)
  · exact h.below _ (by rw [ht]; decide) (by rw [ht]; decide)

/-- The loop over `specs`, a table at a time. -/
theorem purgeTables_cons {specs : List PurgeSpec} {x : List (String × Nat)} {c : Nat}
    (h : purgeTable cutoff spec n db = .ok (c, db'))
    (h' : purgeTables cutoff n specs db' = .ok (x, db'')) :
    ∃ x', purgeTables cutoff n (spec :: specs) db = .ok (x', db'') := by
  refine ⟨(spec.key.map fun key => (key, c)).toList ++ x, ?_⟩
  show (purgeTable cutoff spec n db >>= _) = _
  rw [h]
  show (purgeTables cutoff n specs db' >>= _) = _
  rw [h']
  rfl

/-- The entries after `messages` leave the messages alone. -/
theorem purgeTables_higher (hn : 0 < n) {specs : List PurgeSpec}
    (hs : ∀ spec ∈ specs, 1 < rank spec.table) {db : HubDb} (hdb : Consistent SCHEMA db) :
    ∃ x db', purgeTables cutoff n specs db = .ok (x, db') ∧ Purged (fun _ => true) db db' := by
  induction specs generalizing db with
  | nil => exact ⟨[], db, rfl, .refl hdb⟩
  | cons spec specs ih =>
    obtain ⟨db₁, hd, hdone⟩ := purgeTable_eq spec cutoff hdb hn
    have hfirst := Purged.of_higher hdone (hs spec List.mem_cons_self)
    obtain ⟨x, db', hrest, hpurged⟩ :=
      ih (fun s hm => hs s (List.mem_cons_of_mem _ hm)) hfirst.consistent
    obtain ⟨x', hx'⟩ := purgeTables_cons hd hrest
    exact ⟨x', db', hx', hfirst.trans hpurged⟩

theorem furtherSpecs_higher (h : Horizons) : ∀ s ∈ furtherSpecs h, 1 < rank s.table := by
  have hall : ∀ t ∈ (furtherSpecs h).map PurgeSpec.table, 1 < rank t := by
    show ∀ t ∈ [Table.smsDeliverySegments, .deviceStatus, .agentLogs, .taskLogs, .incidents],
      1 < rank t
    decide
  exact fun s hs => hall s.table (List.mem_map_of_mem hs)

/-- The messages a pass keeps. -/
def keepsMessage (h : Horizons) (cutoff : Int → String) (r : HubRow) : Bool :=
  !(decide (0 < h.messageDays) && before (r.cells .ts) (cutoff h.messageDays))

/-- **A pass comes to its end**, and leaves the messages that are not older than their horizon and
    every row of the outbox and of the operations. -/
theorem purgeBatches_eq (hsize : 1 ≤ h.batchSize) (cutoff : Int → String)
    (hdb : Consistent SCHEMA db) :
    ∃ x db', purgeBatches h cutoff db = .ok (x, db') ∧ Purged (keepsMessage h cutoff) db db' := by
  have hn : 0 < h.batchSize.toNat := by omega
  have hhigher : ∀ s ∈ (furtherSpecs h).filter (fun s => decide (0 < s.days)),
      1 < rank s.table := fun s hs => furtherSpecs_higher h s (List.mem_of_mem_filter hs)
  rw [purgeBatches, if_neg (by omega), purgeSpecs]
  by_cases hdays : 0 < h.messageDays
  · obtain ⟨db₁, hd, hdone⟩ := purgeTable_eq (messageSpec h) cutoff hdb hn
    have hfirst := Purged.of_messages hdone rfl
    obtain ⟨x, db', hrest, hpurged⟩ := purgeTables_higher hn hhigher hfirst.consistent
    obtain ⟨x', hx'⟩ := purgeTables_cons hd hrest
    have hkeep : keepsMessage h cutoff =
        fun r => true && !(messageSpec h).expires cutoff r := by
      funext r
      rw [keepsMessage, decide_eq_true hdays, Bool.true_and, Bool.true_and]
      rfl
    have hset : decide (0 < (messageSpec h).days) = true := decide_eq_true hdays
    rw [List.filter_cons, hset, if_pos rfl, hkeep]
    exact ⟨x', db', hx', hfirst.trans hpurged⟩
  · have hkeep : keepsMessage h cutoff = fun _ => true := by
      funext r
      rw [keepsMessage, decide_eq_false hdays, Bool.false_and, Bool.not_false]
    have hunset : decide (0 < (messageSpec h).days) = false := decide_eq_false hdays
    rw [List.filter_cons, hunset, if_neg Bool.false_ne_true, hkeep]
    exact purgeTables_higher hn hhigher hdb

end Air780eHub.Retention
