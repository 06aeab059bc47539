/-
  The status of an outbound message against the delivery reports of its segments.

  `_update_message_delivery_status` writes a summary of the segments into the row of their message.
  The summary has to be taken again wherever a segment is attached or a report is filled in.

  1. **`Settled`**: a message shows the summary of its segments.
  2. **`Shown` and `Grown`**: what a step leaves of the messages but one, and what it never takes
     back.
  3. **The statements** on segments and messages.
-/
import Mathlib.Data.List.Forall2
import Air780eHub.Lib.Children
import Air780eHub.Server.ApplySafe
import Air780eHub.Server.Footprints

namespace Air780eHub.Outbound

open Relational Server

/-! ## Settled messages -/

/-- The segments of a message. -/
def segmentsOf (db : HubDb) (i : Nat) : List HubRow :=
  db.children SCHEMA .smsDeliverySegments .messageId i

/-- `ORDER BY segment_index`. -/
def inOrder (rows : List HubRow) : List HubRow :=
  rows.mergeSort fun a b => count (a.cells .segmentIndex) ≤ count (b.cells .segmentIndex)

theorem inOrder_perm (rows : List HubRow) : (inOrder rows).Perm rows := List.mergeSort_perm _ _

theorem inOrder_eq_nil {rows : List HubRow} : inOrder rows = [] ↔ rows = [] := by
  have hp := inOrder_perm rows
  constructor
  · intro h
    rw [h] at hp
    exact List.nil_perm.mp hp
  · rintro rfl
    exact List.perm_nil.mp hp

/-- The summary of the segments of a message. -/
def summary (db : HubDb) (m : HubRow) : String × Option String :=
  aggregateStatus (count (m.cells .segments)) (inOrder (segmentsOf db m.id))

/-- The message has the segments it was sent in. -/
def Complete (db : HubDb) (m : HubRow) : Prop :=
  ((segmentsOf db m.id).length : Int) = count (m.cells .segments)

/-- The message shows the summary of its segments, if it has any, and has all of them. -/
def Settled (db : HubDb) (m : HubRow) : Prop :=
  segmentsOf db m.id = [] ∨
    (m.cells .status = text (summary db m).1 ∧ m.cells .error = (summary db m).2.map Cell.text ∧
      Complete db m)

/-- Every message does. -/
def Tally (db : HubDb) : Prop := ∀ m ∈ db.rows .messages, Settled db m

/-- Every message but one. -/
def TallyBut (i : Nat) (db : HubDb) : Prop := ∀ m ∈ db.rows .messages, m.id ≠ i → Settled db m

theorem ref_injective : Function.Injective SCHEMA.ref := by
  intro i j h
  have hij : (i : Int) = j := Cell.integer.inj h
  omega

/-- The next message has no segments yet. -/
theorem segmentsOf_next {db : HubDb} (hdb : Sound db) : segmentsOf db (db.seq .messages + 1) = [] := by
  have hfk : (⟨.messageId, .messages, .cascade⟩ : ForeignKey Table Column) ∈
      SCHEMA.foreign .smsDeliverySegments := List.mem_singleton_self _
  refine children_new hdb hfk ref_injective ?_
  intro hm
  have hle := hdb.bounded .messages _ hm
  omega

theorem segmentRows_eq (i : Nat) (db : HubDb) :
    segmentRows i db = .ok (inOrder (segmentsOf db i), db) := by
  have hfilter : (db.rows .smsDeliverySegments).filter
      (fun r => equals (r.cells .messageId) (integer i)) = segmentsOf db i := by
    refine List.filter_congr fun r _ => ?_
    show ((r.cells .messageId).isSome && r.cells .messageId == integer i) =
      (r.cells .messageId == integer i)
    cases r.cells .messageId with
    | none => rfl
    | some c => rfl
  show Except.ok (inOrder ((db.rows .smsDeliverySegments).filter
    fun r => equals (r.cells .messageId) (integer i)), db) = _
  rw [hfilter]

/-! ## What a step leaves -/

/-- The columns a message shows the summary in, and the number of its segments. -/
def SHOWN : List Column := [.status, .error, .segments]

/-- How far a segment has come: a failure may still turn into a delivery. -/
def progress (status : Option Cell) : Nat :=
  if status = text "delivered" then 2
  else if status = text "failed" then 1
  else 0

/-- The segment has come as far, or further. -/
def Later (r r' : HubRow) : Prop :=
  r.id = r'.id ∧ progress (r.cells .status) ≤ progress (r'.cells .status)

/-- Every message but `i` has no segments, or is there with the same segments and shows the same. -/
def Shown (i : Option Nat) (db db' : HubDb) : Prop :=
  ∀ m' ∈ db'.rows .messages, some m'.id ≠ i → segmentsOf db' m'.id = [] ∨
    ∃ m ∈ db.rows .messages, m.id = m'.id ∧ (∀ c ∈ SHOWN, m'.cells c = m.cells c) ∧
      segmentsOf db' m'.id = segmentsOf db m'.id

/-- Of the first `n` messages none is new, and no segment goes back. -/
structure Grown (n : Nat) (db db' : HubDb) : Prop where
  seq  : db.seq .messages ≤ db'.seq .messages
  kept : ∀ m' ∈ db'.rows .messages, m'.id ≤ n → ∃ m ∈ db.rows .messages, m.id = m'.id ∧
    m'.cells .segments = m.cells .segments ∧
    List.Forall₂ Later (segmentsOf db m'.id) (segmentsOf db' m'.id)

section

variable {db db' db'' : HubDb} {i : Option Nat} {n : Nat}

theorem later_refl (rows : List HubRow) : List.Forall₂ Later rows rows :=
  List.forall₂_same.mpr fun _ _ => ⟨rfl, Nat.le_refl _⟩

theorem later_trans {rows rows' rows'' : List HubRow} (h : List.Forall₂ Later rows rows')
    (h' : List.Forall₂ Later rows' rows'') : List.Forall₂ Later rows rows'' := by
  induction h generalizing rows'' with
  | nil =>
    cases h'
    exact .nil
  | cons hr _ ih =>
    cases h' with
    | cons hr' h' => exact .cons ⟨hr.1.trans hr'.1, hr.2.trans hr'.2⟩ (ih h')

theorem Shown.refl (i : Option Nat) (db : HubDb) : Shown i db db :=
  fun m hm _ => .inr ⟨m, hm, rfl, fun _ _ => rfl, rfl⟩

theorem Shown.trans (h : Shown i db db') (h' : Shown i db' db'') : Shown i db db'' := by
  intro m'' hm'' hne
  rcases h' m'' hm'' hne with hnil | ⟨m', hm', hid', hcells', hseg'⟩
  · exact .inl hnil
  · rcases h m' hm' (hid' ▸ hne) with hnil | ⟨m, hm, hid, hcells, hseg⟩
    · exact .inl (by rw [hseg', ← hid', hnil])
    · refine .inr ⟨m, hm, hid.trans hid', fun c hc => (hcells' c hc).trans (hcells c hc), ?_⟩
      rw [hseg', ← hid', hseg]

/-- Such a message shows what it showed. -/
theorem settled_of_shown {m m' : HubRow} (h : Settled db m) (hid : m.id = m'.id)
    (hcells : ∀ c ∈ SHOWN, m'.cells c = m.cells c)
    (hseg : segmentsOf db' m'.id = segmentsOf db m'.id) : Settled db' m' := by
  have hsummary : summary db' m' = summary db m := by
    unfold summary
    rw [hcells .segments (by decide), hseg, hid]
  unfold Settled Complete
  rw [hsummary, hcells .status (by decide), hcells .error (by decide),
    hcells .segments (by decide), hseg, ← hid]
  exact h

theorem Shown.tallyBut {i : Nat} (h : Shown (some i) db db') (ht : TallyBut i db) :
    TallyBut i db' := by
  intro m' hm' hne
  rcases h m' hm' (fun he => hne (Option.some.inj he)) with hnil | ⟨m, hm, hid, hcells, hseg⟩
  · exact .inl hnil
  · exact settled_of_shown (ht m hm (hid ▸ hne)) hid hcells hseg

theorem Shown.tally (h : Shown none db db') (ht : Tally db) : Tally db' := by
  intro m' hm'
  rcases h m' hm' (Option.some_ne_none _) with hnil | ⟨m, hm, hid, hcells, hseg⟩
  · exact .inl hnil
  · exact settled_of_shown (ht m hm) hid hcells hseg

theorem Grown.refl (n : Nat) (db : HubDb) : Grown n db db :=
  ⟨Nat.le_refl _, fun m hm _ => ⟨m, hm, rfl, rfl, later_refl _⟩⟩

theorem Grown.trans (h : Grown n db db') (h' : Grown n db' db'') : Grown n db db'' := by
  refine ⟨h.seq.trans h'.seq, fun m'' hm'' hn => ?_⟩
  obtain ⟨m', hm', hid', hcells', hlater'⟩ := h'.kept m'' hm'' hn
  obtain ⟨m, hm, hid, hcells, hlater⟩ := h.kept m' hm' (hid' ▸ hn)
  rw [hid'] at hid hlater
  exact ⟨m, hm, hid, hcells'.trans hcells, later_trans hlater hlater'⟩

theorem Grown.mono {n' : Nat} (h : Grown n db db') (hn : n' ≤ n) : Grown n' db db' :=
  ⟨h.seq, fun m' hm' hle => h.kept m' hm' (hle.trans hn)⟩

/-- A message that is not new has all its segments, if it had them. -/
theorem Grown.complete {m' : HubRow} (h : Grown n db db') (ht : Tally db)
    (hm' : m' ∈ db'.rows .messages) (hn : m'.id ≤ n) (hs : segmentsOf db' m'.id ≠ []) :
    Complete db' m' := by
  obtain ⟨m, hm, hid, hcell, hlater⟩ := h.kept m' hm' hn
  rw [← hid] at hs hlater
  have hlength := hlater.length_eq
  rcases ht m hm with hnil | ⟨-, -, hc⟩
  · rw [hnil] at hlength
    exact absurd (List.length_eq_zero_iff.mp hlength.symm) hs
  · unfold Complete at hc ⊢
    rw [← hid, ← hlength, hcell]
    exact hc

/-- Other tables were written. -/
theorem shown_of_same (hm : SameTable .messages db db')
    (hs : SameTable .smsDeliverySegments db db') : Shown none db db' := by
  intro m hmem _
  rw [hm.rows] at hmem
  exact .inr ⟨m, hmem, rfl, fun _ _ => rfl, children_of_rows hs.rows⟩

theorem grown_of_same (hm : SameTable .messages db db')
    (hs : SameTable .smsDeliverySegments db db') : Grown n db db' := by
  refine ⟨Nat.le_of_eq hm.seq.symm, fun m hmem _ => ?_⟩
  rw [hm.rows] at hmem
  exact ⟨m, hmem, rfl, rfl, by rw [show segmentsOf db' m.id = _ from children_of_rows hs.rows]; exact later_refl _⟩

end

/-! ## Statements on messages -/

section Messages

variable {db db' : HubDb} {n : Nat} {cells : Column → Option Cell}

/-- A new message has no segments. -/
theorem append_message (hdb : Sound db) (hn : n ≤ db.seq .messages) :
    Shown none db (db.append .messages cells) ∧ Grown n db (db.append .messages cells) := by
  have hseg : ∀ i, segmentsOf (db.append .messages cells) i = segmentsOf db i :=
    fun i => children_of_rows (rows_append_ne Table.noConfusion)
  refine ⟨fun m' hm' _ => ?_, ⟨?_, fun m' hm' hle => ?_⟩⟩
  · rw [rows_append_self] at hm'
    rcases List.mem_append.mp hm' with hm' | hm'
    · exact .inr ⟨m', hm', rfl, fun _ _ => rfl, hseg _⟩
    · obtain rfl := List.mem_singleton.mp hm'
      exact .inl ((hseg _).trans (segmentsOf_next hdb))
  · rw [seq_append_self]
    omega
  · rw [rows_append_self] at hm'
    rcases List.mem_append.mp hm' with hm' | hm'
    · rw [hseg]
      exact ⟨m', hm', rfl, rfl, later_refl _⟩
    · obtain rfl := List.mem_singleton.mp hm'
      exact absurd hle (by show ¬ db.seq .messages + 1 ≤ n; omega)

/-- Messages are written, the number of their segments excepted. -/
theorem updated_messages {p : HubRow → Bool} {set : HubRow → Assignments Column Cell}
    (hset : ∀ r, ∀ x ∈ set r, x.1 ≠ .segments) : Grown n db (db.updated .messages p set) := by
  have hseg : ∀ i, segmentsOf (db.updated .messages p set) i = segmentsOf db i :=
    fun i => children_of_rows (rows_updated_ne Table.noConfusion)
  refine ⟨Nat.le_refl _, fun m' hm' _ => ?_⟩
  rw [rows_updated_self] at hm'
  obtain ⟨m, hm, rfl⟩ := List.mem_map.mp hm'
  rw [hseg]
  refine ⟨m, hm, (written_id m).symm, written_cell (hset m), later_refl _⟩

/-- One message is written. -/
theorem updated_message {i : Nat} {set : HubRow → Assignments Column Cell}
    (hset : ∀ r, ∀ x ∈ set r, x.1 ≠ .segments) :
    Shown (some i) db (db.updated .messages (fun r => r.id == i) set) ∧
      Grown n db (db.updated .messages (fun r => r.id == i) set) := by
  refine ⟨fun m' hm' hne => ?_, updated_messages hset⟩
  rw [rows_updated_self] at hm'
  obtain ⟨m, hm, rfl⟩ := List.mem_map.mp hm'
  have hother : ¬ (m.id == i) = true := by
    rw [beq_iff_eq]
    intro he
    exact hne (congrArg some ((written_id m).trans he))
  rw [written, if_neg hother]
  exact .inr ⟨m, hm, rfl, fun _ _ => rfl, children_of_rows (rows_updated_ne Table.noConfusion)⟩

/-- The columns of a summary. -/
def summaryColumns (x : String × Option String) : Assignments Column Cell :=
  [(.status, text x.1), (.error, x.2.map Cell.text)]

/-- **The summary of a message is taken.** -/
theorem take_summary {m : HubRow} (hdb : Sound db) (hm : m ∈ db.rows .messages)
    (ht : TallyBut m.id db) (hc : Complete db m) :
    Grown n db (db.updated .messages (fun r => r.id == m.id) fun _ =>
      summaryColumns (summary db m)) ∧
    Tally (db.updated .messages (fun r => r.id == m.id) fun _ => summaryColumns (summary db m)) := by
  have hset : ∀ r : HubRow, ∀ x ∈ (fun _ : HubRow => summaryColumns (summary db m)) r,
      x.1 ≠ .segments := by
    intro r x hx
    rcases List.mem_cons.mp hx with rfl | hx
    · exact Column.noConfusion
    · obtain rfl := List.mem_singleton.mp hx
      exact Column.noConfusion
  have hwritten : Shown (some m.id) db _ ∧ Grown n db _ := updated_message hset
  obtain ⟨hshown, hgrown⟩ := hwritten
  refine ⟨hgrown, fun m' hm' => ?_⟩
  by_cases hid : m'.id = m.id
  · rw [rows_updated_self] at hm'
    obtain ⟨m₀, hm₀, rfl⟩ := List.mem_map.mp hm'
    obtain rfl := hdb.row_eq hm₀ hm ((written_id m₀).symm.trans hid)
    have hseg : segmentsOf (db.updated .messages (fun r => r.id == m₀.id) fun _ =>
        summaryColumns (summary db m₀)) m₀.id = segmentsOf db m₀.id :=
      children_of_rows (rows_updated_ne Table.noConfusion)
    refine .inr ?_
    rw [written, if_pos (beq_self_eq_true m₀.id)]
    have hsame : summary (db.updated .messages (fun r => r.id == m₀.id) fun _ =>
        summaryColumns (summary db m₀)) ⟨m₀.id, assign (summaryColumns (summary db m₀)) m₀.cells⟩ =
        summary db m₀ := by
      show aggregateStatus (count (m₀.cells .segments)) (inOrder (segmentsOf _ m₀.id)) = _
      rw [hseg]
      rfl
    rw [hsame]
    refine ⟨rfl, rfl, ?_⟩
    unfold Complete
    rw [hseg]
    exact hc
  · exact hshown.tallyBut ht m' hm' hid

end Messages

/-! ## Statements on segments -/

section Segments

variable {db : HubDb} {n : Nat} {k : Option Nat}

/-- Segments of one message are written, and the messages are as they were. -/
theorem of_segments {db' : HubDb} (hrows : db'.rows .messages = db.rows .messages)
    (hseq : db'.seq .messages = db.seq .messages)
    (hothers : ∀ j, some j ≠ k → segmentsOf db' j = segmentsOf db j)
    (hlater : ∀ j, some j = k → j ≤ n → List.Forall₂ Later (segmentsOf db j) (segmentsOf db' j)) :
    Shown k db db' ∧ Grown n db db' := by
  refine ⟨fun m hm hne => ?_, ⟨Nat.le_of_eq hseq.symm, fun m hm hle => ?_⟩⟩
  · rw [hrows] at hm
    exact .inr ⟨m, hm, rfl, fun _ _ => rfl, hothers _ hne⟩
  · rw [hrows] at hm
    refine ⟨m, hm, rfl, rfl, ?_⟩
    by_cases hk : some m.id = k
    · exact hlater _ hk hle
    · rw [hothers _ hk]
      exact later_refl _

/-- A segment of the message `i` is stored. -/
theorem append_segment {i : Nat} {cells : Column → Option Cell}
    (hcell : cells .messageId = integer i) (hn : n < i) :
    Shown (some i) db (db.append .smsDeliverySegments cells) ∧
      Grown n db (db.append .smsDeliverySegments cells) := by
  refine of_segments (rows_append_ne Table.noConfusion) (seq_append_ne Table.noConfusion)
    (fun j hj => children_append ?_) fun j hj hle => ?_
  · rw [hcell]
    intro he
    exact hj (congrArg some (ref_injective (Option.some.inj he)).symm)
  · obtain rfl := Option.some.inj hj
    omega

/-- A report without a message is stored. -/
theorem append_waiting {cells : Column → Option Cell} (hcell : cells .messageId = none) :
    Shown none db (db.append .smsDeliverySegments cells) ∧
      Grown n db (db.append .smsDeliverySegments cells) := by
  refine of_segments (rows_append_ne Table.noConfusion) (seq_append_ne Table.noConfusion)
    (fun j _ => children_append ?_) fun j hj => (Option.some_ne_none j hj).elim
  rw [hcell]
  exact (Option.some_ne_none _).symm

/-- A report that waits becomes a segment of the message `i`. -/
theorem adopt_segment {i : Nat} {row : HubRow} {set : HubRow → Assignments Column Cell}
    (hdb : Sound db) (hrow : row ∈ db.rows .smsDeliverySegments) (hwaits : row.cells .messageId = none)
    (hset : ∀ r, assign (set r) r.cells .messageId = integer i) (hn : n < i) :
    Shown (some i) db (db.updated .smsDeliverySegments (fun r => r.id == row.id) set) ∧
      Grown n db (db.updated .smsDeliverySegments (fun r => r.id == row.id) set) := by
  refine of_segments (rows_updated_ne Table.noConfusion) rfl (fun j hj => children_updated ?_)
    fun j hj hle => ?_
  · intro r hr hid
    rw [hdb.row_eq hr hrow (beq_iff_eq.mp hid), hset, hwaits]
    refine ⟨(Option.some_ne_none _).symm, fun he => ?_⟩
    exact hj (congrArg some (ref_injective (Option.some.inj he)).symm)
  · obtain rfl := Option.some.inj hj
    omega

/-- A report is filled in that does not set the segment back. -/
theorem fill_segment {row : HubRow} {set : HubRow → Assignments Column Cell} (hdb : Sound db)
    (hrow : row ∈ db.rows .smsDeliverySegments) (hk : ∀ j : Nat, row.cells .messageId = integer j → k = some j)
    (hset : ∀ r, ∀ x ∈ set r, x.1 ≠ .messageId)
    (hforward : progress (row.cells .status) ≤ progress (assign (set row) row.cells .status)) :
    Shown k db (db.updated .smsDeliverySegments (fun r => r.id == row.id) set) ∧
      Grown n db (db.updated .smsDeliverySegments (fun r => r.id == row.id) set) := by
  have hcell : ∀ r : HubRow, assign (set r) r.cells .messageId = r.cells .messageId := by
    intro r
    refine assign_of_not_mem fun hm => ?_
    obtain ⟨x, hx, he⟩ := List.mem_map.mp hm
    exact hset r x hx he
  refine of_segments (rows_updated_ne Table.noConfusion) rfl (fun j hj => children_updated ?_)
    fun j hj _ => ?_
  · intro r hr hid
    rw [hcell, hdb.row_eq hr hrow (beq_iff_eq.mp hid)]
    have hne : row.cells .messageId ≠ some (SCHEMA.ref j) := fun he => hj (hk j he).symm
    exact ⟨hne, hne⟩
  · rw [show segmentsOf (db.updated _ _ set) j = _ from children_written hset]
    refine List.forall₂_map_right_iff.mpr (List.forall₂_same.mpr fun r hr => ⟨(written_id r).symm, ?_⟩)
    by_cases hid : (r.id == row.id) = true
    · have he := hdb.row_eq (mem_children.mp hr).1 hrow (beq_iff_eq.mp hid)
      rw [written, if_pos hid, he]
      exact hforward
    · rw [written, if_neg hid]

end Segments

end Air780eHub.Outbound
