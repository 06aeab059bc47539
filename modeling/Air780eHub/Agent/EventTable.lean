/-
  The Agent's durable outbound queue: the `events` table of `store.py`.

  Every event the Agent owes the Server is one row, numbered by AUTOINCREMENT: a number is handed
  out once in the life of the database, also after the row that carried it is gone.  The table is
  therefore a list of rows in strictly increasing `seq` together with the generator's last value,
  and both facts are fields of `EventTable`, so that no other table can be written down.

  1. `appendEvent` hands out the next number.
  2. `unackedEvents` is what the link's sender reads: the oldest `limit` rows not yet acked.
  3. `ackThrough` is two statements, `markAcked` and `deleteAcked`, each committed by itself; a
     crash can fall between them.
  4. `trimEvents` drops the oldest unacked status rows, and only those.

  The column `created_at` is written and never read, and is left out.
-/
import Air780eHub.Lib.Table
import Air780eHub.Wire.Value

namespace Air780eHub

/-! ## Events -/

/-- What `append_event` is given beside the kind.  No emitter uses the two keys that `to_frame`
    puts in front, so unpacking the payload over them replaces nothing. -/
structure Payload where
  /-- The decoded payload. -/
  fields     : Frame
  /-- Neither `type` nor `seq` is a payload key. -/
  noReserved : ∀ f ∈ fields, f.1 ≠ "type" ∧ f.1 ≠ "seq"

theorem noReserved_nil : ∀ f ∈ ([] : Frame), f.1 ≠ "type" ∧ f.1 ≠ "seq" :=
  fun _ hf => absurd hf List.not_mem_nil

/-- `store.Event`. -/
structure Event where
  seq     : Nat
  kind    : String
  payload : Payload

/-- `Event.to_frame`: the kind and the number in front of the payload. -/
def Event.toFrame (e : Event) : Frame :=
  ("type", .str e.kind) :: ("seq", .int e.seq) :: e.payload.fields

@[simp] theorem Event.toFrame_type (e : Event) : e.toFrame.get "type" = .str e.kind := rfl

@[simp] theorem Event.toFrame_seq (e : Event) : e.toFrame.get "seq" = .int e.seq := rfl

/-- A row of `events`. -/
structure EventRow where
  seq     : Nat
  kind    : String
  payload : Payload
  acked   : Bool

/-- The event a row holds. -/
def EventRow.event (r : EventRow) : Event := ⟨r.seq, r.kind, r.payload⟩

@[simp] theorem EventRow.event_seq (r : EventRow) : r.event.seq = r.seq := rfl
@[simp] theorem EventRow.event_kind (r : EventRow) : r.event.kind = r.kind := rfl

/-- The `events` table and the generator of its keys. -/
structure EventTable where
  /-- The rows in key order. -/
  rows     : List EventRow
  /-- `sqlite_sequence`: the largest key ever handed out. -/
  sequence : Nat
  sorted   : rows.Pairwise fun a b => a.seq < b.seq
  bounded  : ∀ r ∈ rows, 1 ≤ r.seq ∧ r.seq ≤ sequence

namespace EventTable

/-- The table of a fresh database. -/
def empty : EventTable := ⟨[], 0, .nil, by simp⟩

/-! ## The statements -/

/-- `append_event`: a new row under the next number. -/
def appendEvent (t : EventTable) (kind : String) (payload : Payload) : EventTable where
  rows     := t.rows ++ [⟨t.sequence + 1, kind, payload, false⟩]
  sequence := t.sequence + 1
  sorted   := by
    refine List.pairwise_append.mpr ⟨t.sorted, List.pairwise_singleton _ _, ?_⟩
    intro a ha b hb
    have hle := (t.bounded a ha).2
    rw [List.mem_singleton] at hb
    subst hb
    exact Nat.lt_succ_of_le hle
  bounded  := by
    intro r hr
    rcases List.mem_append.mp hr with h | h
    · have := t.bounded r h; omega
    · rw [List.mem_singleton] at h; subst h; simp

/-- The event `append_event` returns. -/
def appended (t : EventTable) (kind : String) (payload : Payload) : Event :=
  ⟨t.sequence + 1, kind, payload⟩

/-- `unacked_events(limit)`: the oldest `limit` events not yet acked. -/
def unackedEvents (t : EventTable) (limit : Nat) : List Event :=
  ((t.rows.filter fun r => !r.acked).take limit).map EventRow.event

/-- The rows an ack of `seq` marks. -/
def covered (seq : Int) (r : EventRow) : Bool := !r.acked && decide ((r.seq : Int) ≤ seq)

/-- `SET acked = 1`. -/
def setAcked (r : EventRow) : EventRow := { r with acked := true }

/-- `UPDATE events SET acked = 1 WHERE acked = 0 AND seq <= ?`. -/
def markAcked (t : EventTable) (seq : Int) : EventTable where
  rows     := updateWhere (covered seq) setAcked t.rows
  sequence := t.sequence
  sorted   := pairwise_updateWhere (f := setAcked) (k := EventRow.seq) (R := (· < ·))
    (fun _ _ _ => rfl) t.sorted
  bounded  := by
    intro r hr
    rcases of_mem_updateWhere hr with ⟨r₀, h₀, _, rfl⟩ | ⟨h₀, _⟩
    · exact t.bounded r₀ h₀
    · exact t.bounded r h₀

/-- Delete the rows that match `p`. -/
def delete (t : EventTable) (p : EventRow → Bool) : EventTable where
  rows     := deleteWhere p t.rows
  sequence := t.sequence
  sorted   := pairwise_deleteWhere t.sorted
  bounded  := fun r hr => t.bounded r (mem_deleteWhere.mp hr).1

/-- `DELETE FROM events WHERE acked = 1 AND seq <= ?`. -/
def deleteAcked (t : EventTable) (seq : Int) : EventTable :=
  t.delete fun r => r.acked && (r.seq : Int) ≤ seq

/-- `ack_through`: mark, then delete. -/
def ackThrough (t : EventTable) (seq : Int) : EventTable := (t.markAcked seq).deleteAcked seq

/-- `unacked_count`. -/
def unackedCount (t : EventTable) : Nat := (t.rows.filter fun r => !r.acked).length

/-- `last_seq`: the largest number in the table, or what the generator remembers. -/
def lastSeq (t : EventTable) : Nat :=
  match t.rows.getLast? with
  | some r => r.seq
  | none   => t.sequence

/-- The rows `trim_events` selects: the oldest unacked status rows, as many as the
    unacked rows exceed `keep`. -/
def trimmed (t : EventTable) (keep : Int) : List Nat :=
  if t.unackedCount - keep ≤ 0 then []
  else ((t.rows.filter fun r => !r.acked && r.kind == "status").take
    (t.unackedCount - keep).toNat).map EventRow.seq

/-- `trim_events(keep)`. -/
def trimEvents (t : EventTable) (keep : Int) : EventTable :=
  t.delete fun r => decide (r.seq ∈ t.trimmed keep)

/-! ## Which rows the statements leave -/

variable {t : EventTable} {r r' : EventRow}

/-- The number determines the row. -/
theorem row_unique (hr : r ∈ t.rows) (hr' : r' ∈ t.rows) (hseq : r.seq = r'.seq) : r = r' := by
  have hinj : ∀ {rows : List EventRow}, rows.Pairwise (fun a b => a.seq < b.seq) →
      r ∈ rows → r' ∈ rows → r = r' := by
    intro rows hs
    induction hs with
    | nil => intro h _; cases h
    | cons hlt _ ih =>
      intro h h'
      rcases List.mem_cons.mp h with heq | h
      · rcases List.mem_cons.mp h' with heq' | h'
        · rw [heq, heq']
        · have := hlt r' h'; rw [← heq] at this; omega
      · rcases List.mem_cons.mp h' with heq' | h'
        · have := hlt r h; rw [← heq'] at this; omega
        · exact ih h h'
  exact hinj t.sorted hr hr'

theorem mem_appendEvent {kind : String} {payload : Payload} :
    r ∈ (t.appendEvent kind payload).rows ↔
      r ∈ t.rows ∨ r = ⟨t.sequence + 1, kind, payload, false⟩ := by
  simp [appendEvent]

@[simp] theorem appendEvent_sequence {kind : String} {payload : Payload} :
    (t.appendEvent kind payload).sequence = t.sequence + 1 := rfl

theorem mem_markAcked_iff {seq : Int} :
    r ∈ (t.markAcked seq).rows ↔ r ∈ updateWhere (covered seq) setAcked t.rows := Iff.rfl

theorem mem_delete {p : EventRow → Bool} : r ∈ (t.delete p).rows ↔ r ∈ t.rows ∧ p r = false :=
  mem_deleteWhere

/-- A row after `markAcked` is an old row that is acked now because its number is covered, or an
    old row as it was. -/
theorem of_mem_markAcked {seq : Int} (h : r ∈ (t.markAcked seq).rows) :
    ∃ r₀ ∈ t.rows, r₀.event = r.event ∧
      (r₀ = r ∨ (r.acked = true ∧ (r.seq : Int) ≤ seq)) := by
  rcases of_mem_updateWhere (mem_markAcked_iff.mp h) with
    ⟨r₀, h₀, hp, rfl⟩ | ⟨h₀, _⟩
  · simp only [covered, Bool.and_eq_true, decide_eq_true_eq] at hp
    exact ⟨r₀, h₀, rfl, Or.inr ⟨rfl, hp.2⟩⟩
  · exact ⟨r, h₀, rfl, Or.inl rfl⟩

/-- Every old row is still there after `markAcked`, up to the flag. -/
theorem mem_markAcked {seq : Int} (h : r ∈ t.rows) :
    ∃ r₁ ∈ (t.markAcked seq).rows, r₁.event = r.event := by
  refine ⟨if covered seq r then setAcked r else r,
    mem_markAcked_iff.mpr (mem_updateWhere.mpr ⟨r, h, rfl⟩), ?_⟩
  split
  · rfl
  · rfl

/-- `trimEvents` removes status rows that no ack covers yet, and nothing else. -/
theorem mem_trimEvents (keep : Int) (h : r ∈ t.rows) (hgone : r ∉ (t.trimEvents keep).rows) :
    r.kind = "status" ∧ r.acked = false := by
  have hmem : r.seq ∈ t.trimmed keep := by
    by_contra hn
    exact hgone (mem_delete.mpr ⟨h, by simpa using hn⟩)
  unfold trimmed at hmem
  split at hmem
  · cases hmem
  · obtain ⟨r', hr', hseq⟩ := List.mem_map.mp hmem
    obtain ⟨hrow, hp⟩ := List.mem_filter.mp (List.mem_of_mem_take hr')
    obtain rfl := row_unique hrow h hseq
    simpa [and_comm] using hp

/-! ## What the sender reads -/

theorem of_mem_unackedEvents {limit : Nat} {e : Event} (h : e ∈ t.unackedEvents limit) :
    ∃ r ∈ t.rows, r.acked = false ∧ r.event = e := by
  obtain ⟨r, hr, rfl⟩ := List.mem_map.mp h
  obtain ⟨hrow, hp⟩ := List.mem_filter.mp (List.mem_of_mem_take hr)
  exact ⟨r, hrow, by simpa using hp, rfl⟩

theorem unackedEvents_sorted (t : EventTable) (limit : Nat) :
    (t.unackedEvents limit).Pairwise fun a b => a.seq < b.seq := by
  refine List.pairwise_map.mpr ?_
  exact (t.sorted.sublist List.filter_sublist).sublist (List.take_sublist _ _)

/-- **No holes.**  An unacked row is read, or everything that is read is older than it. -/
theorem unackedEvents_cover (limit : Nat) (hr : r ∈ t.rows) (hacked : r.acked = false) :
    r.event ∈ t.unackedEvents limit ∨ ∀ e ∈ t.unackedEvents limit, e.seq < r.seq := by
  have hmem : r ∈ t.rows.filter fun r => !r.acked := List.mem_filter.mpr ⟨hr, by simp [hacked]⟩
  have hs : (t.rows.filter fun r => !r.acked).Pairwise fun a b => a.seq < b.seq :=
    t.sorted.sublist List.filter_sublist
  rw [← List.take_append_drop limit (t.rows.filter fun r => !r.acked)] at hmem hs
  rcases List.mem_append.mp hmem with h | h
  · exact Or.inl (List.mem_map_of_mem h)
  · refine Or.inr fun e he => ?_
    obtain ⟨r', hr', rfl⟩ := List.mem_map.mp he
    exact (List.pairwise_append.mp hs).2.2 r' hr' r h

end EventTable

end Air780eHub
