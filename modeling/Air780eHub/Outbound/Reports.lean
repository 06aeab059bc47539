/-
  Delivery reports in any order.

  The programs that attach segments and record reports, and every other callback, keep the tally:
  where one of them returns, each message shows the summary of its segments.

  1. **Statements** of other writers, `minds_kept`, and **batches** of a retention pass,
     `batch_kept`.
  2. **`Keeps`**, what a program keeps; **`Adds`**, what is known of a message it has stored.
  3. **Attaching segments** and **recording reports**.
  4. **`keeps_apply`**: every callback.
-/
import Air780eHub.Outbound.Tally
import Air780eHub.Retention.Pass

namespace Air780eHub.Outbound

open Relational Server Retention

/-! ## The statements -/

/-- Nobody else writes segments or what a message shows of them; rows may be deleted. -/
def Minds : Statement Table Column Cell → Prop
  | .insert t _         => t ≠ .smsDeliverySegments
  | .insertOrIgnore t _ => t ≠ .smsDeliverySegments ∧ t ≠ .messages
  | .upsert t _ _ _     => t ≠ .smsDeliverySegments ∧ t ≠ .messages
  | .update t _ set     => t ≠ .smsDeliverySegments ∧ (t = .messages → ∀ r, ∀ x ∈ set r, x.1 ∉ SHOWN)
  | .delete t _         => t ≠ .smsDeliverySegments

variable {db db' : HubDb} {n : Nat}

/-- What a statement that is carried out keeps, it keeps when it raises. -/
theorem kept_outcome {α : Type} {m : Sql Table Column Cell α}
    (h : ∀ a db', m db = .ok (a, db') → Shown none db db' ∧ Grown n db db') :
    Shown none db (((m db).toOption.map Prod.snd).getD db) ∧
      Grown n db (((m db).toOption.map Prod.snd).getD db) := by
  cases hr : m db with
  | error e => exact ⟨.refl _ _, .refl _ _⟩
  | ok x => exact h x.1 x.2 hr

theorem kept_leaves {α : Type} {m : Sql Table Column Cell α} (hm : Leaves .messages m)
    (hs : Leaves .smsDeliverySegments m) :
    Shown none db (((m db).toOption.map Prod.snd).getD db) ∧
      Grown n db (((m db).toOption.map Prod.snd).getD db) :=
  ⟨shown_of_same (outcome_leaves hm db) (outcome_leaves hs db),
    grown_of_same (outcome_leaves hm db) (outcome_leaves hs db)⟩

/-- What a message shows is not written. -/
theorem update_kept {p : HubRow → Bool} {set : HubRow → Assignments Column Cell}
    (hset : ∀ r, ∀ x ∈ set r, x.1 ∉ SHOWN) :
    Shown none db (db.updated .messages p set) ∧ Grown n db (db.updated .messages p set) := by
  have hcell : ∀ r, ∀ c ∈ SHOWN, (written p set r).cells c = r.cells c := by
    intro r c hc
    refine written_cell fun x hx he => hset r x hx ?_
    rw [he]
    exact hc
  refine ⟨fun m' hm' _ => ?_, updated_messages fun r x hx he => hset r x hx ?_⟩
  · rw [rows_updated_self] at hm'
    obtain ⟨m, hm, rfl⟩ := List.mem_map.mp hm'
    exact .inr ⟨m, hm, (written_id m).symm, hcell m,
      children_of_rows (rows_updated_ne Table.noConfusion)⟩
  · rw [he]
    decide

/-- A deletion takes the segments of a message only with the message. -/
theorem delete_kept {t : Table} {p : HubRow → Bool} (hdb : Sound db)
    (ht : t ≠ .smsDeliverySegments) :
    Shown none db (SCHEMA.remaining t p db) ∧ Grown n db (SCHEMA.remaining t p db) := by
  have hrow : ∀ m' ∈ (SCHEMA.remaining t p db).rows .messages, ∃ m ∈ db.rows .messages,
      m.id = m'.id ∧ (∀ c ∈ SHOWN, m'.cells c = m.cells c) ∧
        segmentsOf (SCHEMA.remaining t p db) m'.id = segmentsOf db m'.id := by
    intro m' hm'
    obtain ⟨m, hm, rfl⟩ := List.mem_map.mp hm'
    obtain ⟨hmem, hkept⟩ := List.mem_filter.mp hm
    rw [Bool.not_eq_true'] at hkept
    refine ⟨m, hmem, rfl, fun c hc => if_neg ?_,
      children_remaining hdb rfl ref_injective ht.symm hkept⟩
    -- only the card of a message can be set to NULL
    have hcolumn : ∀ c ∈ SHOWN, Column.simId ≠ c := by decide
    show ¬ ((decide (Column.simId = c) && _ && _) || false) = true
    rw [decide_eq_false (hcolumn c hc), Bool.false_and, Bool.false_and, Bool.or_false]
    exact Bool.false_ne_true
  refine ⟨fun m' hm' _ => .inr (hrow m' hm'), ⟨Nat.le_refl _, fun m' hm' _ => ?_⟩⟩
  obtain ⟨m, hm, hid, hcells, hseg⟩ := hrow m' hm'
  rw [hseg]
  exact ⟨m, hm, hid, hcells .segments (by decide), later_refl _⟩

/-- A deletion of reports that wait for a message. -/
theorem delete_waiting_kept {p : HubRow → Bool} (hdb : Sound db)
    (hp : ∀ r ∈ db.rows .smsDeliverySegments, p r = true → r.cells .messageId = none) :
    Shown none db (SCHEMA.remaining .smsDeliverySegments p db) ∧
      Grown n db (SCHEMA.remaining .smsDeliverySegments p db) := by
  have hseg : ∀ j, segmentsOf (SCHEMA.remaining .smsDeliverySegments p db) j = segmentsOf db j := by
    intro j
    show List.filter _ ((SCHEMA.remaining .smsDeliverySegments p db).rows .smsDeliverySegments) = _
    rw [remaining_self hdb schema_ranked, List.filter_filter]
    refine List.filter_congr fun r hmem => ?_
    by_cases hr : p r = true
    · rw [hp r hmem hr, hr]
      rfl
    · rw [Bool.not_eq_true] at hr
      rw [hr, Bool.not_false, Bool.and_true]
  have hrank : rank .messages ≤ rank .smsDeliverySegments := by decide
  exact of_segments (remaining_below schema_ranked hrank Table.noConfusion) rfl
    (fun j _ => hseg j) fun j hj _ => (Option.some_ne_none j hj).elim

/-- **A statement that minds them** leaves every message with its segments and its summary. -/
theorem minds_kept {q : Statement Table Column Cell} (hq : Minds q) (hdb : Sound db)
    (hn : n ≤ db.seq .messages) :
    Shown none db (q.exec SCHEMA db) ∧ Grown n db (q.exec SCHEMA db) := by
  cases q with
  | insertOrIgnore t as =>
    exact kept_leaves (leaves_insertOrIgnore hq.2.symm) (leaves_insertOrIgnore hq.1.symm)
  | upsert t key as set => exact kept_leaves (leaves_upsert hq.2.symm) (leaves_upsert hq.1.symm)
  | insert t as =>
    by_cases ht : t = .messages
    · subst ht
      refine kept_outcome fun i db' hi => ?_
      obtain ⟨-, -, rfl⟩ := insertCells_inv hi
      exact append_message hdb hn
    · exact kept_leaves (leaves_insert (Ne.symm ht)) (leaves_insert (Ne.symm hq))
  | update t p set =>
    by_cases ht : t = .messages
    · subst ht
      refine kept_outcome fun x db' hu => ?_
      obtain ⟨rfl, -⟩ := update_inv hu
      exact update_kept (hq.2 rfl)
    · exact kept_leaves (leaves_update (Ne.symm ht)) (leaves_update hq.1.symm)
  | delete t p =>
    have hexec : (Statement.delete t p).exec SCHEMA db = SCHEMA.remaining t p db := by
      show ((SCHEMA.delete t p db).toOption.map Prod.snd).getD db = _
      rw [delete_eq hdb schema_ranked]
      rfl
    rw [hexec]
    exact delete_kept hdb hq

/-- Of the segments a retention pass deletes those that wait for a message. -/
theorem spec_waits {h : Horizons} {cutoff : Int → String} {spec : PurgeSpec}
    (hs : spec ∈ messageSpec h :: furtherSpecs h) (ht : spec.table = .smsDeliverySegments)
    {r : HubRow} (hr : spec.expires cutoff r = true) : r.cells .messageId = none := by
  unfold furtherSpecs at hs
  simp only [List.mem_cons, List.not_mem_nil, or_false] at hs
  rcases hs with rfl | rfl | rfl | rfl | rfl | rfl
  · cases ht
  · exact Option.isNone_iff_eq_none.mp (Bool.and_eq_true_iff.mp hr).1
  · cases ht
  · cases ht
  · cases ht
  · cases ht

/-- **A batch of a retention pass.** -/
theorem batch_kept {h : Horizons} {cutoff : Int → String} {spec : PurgeSpec} {size c : Nat}
    (hs : spec ∈ messageSpec h :: furtherSpecs h) (hdb : Sound db)
    (hrun : SCHEMA.deleteBatch spec.table (spec.expires cutoff) size db = .ok (c, db')) :
    Sound db' ∧ Shown none db db' ∧ Grown n db db' := by
  unfold Schema.deleteBatch at hrun
  dsimp only at hrun
  rw [delete_eq hdb schema_ranked] at hrun
  cases hrun
  refine ⟨remaining_consistent hdb schema_ranked _ _, ?_⟩
  by_cases ht : spec.table = .smsDeliverySegments
  · rw [ht]
    refine delete_waiting_kept hdb fun r hr hbatch => ?_
    obtain ⟨r', hr', hid⟩ := List.mem_map.mp (List.contains_iff_mem.mp hbatch)
    obtain ⟨hmem, hexpires⟩ := List.mem_filter.mp (List.mem_of_mem_take hr')
    rw [hdb.row_eq hr hmem hid.symm]
    exact spec_waits hs ht hexpires
  · exact delete_kept hdb ht

/-! ## Programs -/

/-- Where the program returns it has kept the first `n` messages, and every message shows the
    summary of its segments. -/
def Keeps (n : Nat) {α : Type} (m : Hub α) : Prop :=
  ∀ db a db', m db = .ok (a, db') → Sound db → n ≤ db.seq .messages → Tally db →
    Sound db' ∧ Grown n db db' ∧ Tally db'

namespace Keeps

variable {α β : Type} {m : Hub α} {f : α → Hub β}

theorem bind (hm : Keeps n m) (hf : ∀ a, Keeps n (f a)) : Keeps n (m >>= f) := by
  intro db b db' h hdb hn ht
  obtain ⟨a, db₁, ha, hb⟩ := of_bind_ok h
  obtain ⟨hdb₁, hg₁, ht₁⟩ := hm db a db₁ ha hdb hn ht
  obtain ⟨hdb', hg', ht'⟩ := hf a db₁ b db' hb hdb₁ (hn.trans hg₁.seq) ht₁
  exact ⟨hdb', hg₁.trans hg', ht'⟩

/-- A program whose statements mind them. -/
theorem of_issues (h : Issues SCHEMA Minds m) : Keeps n m := by
  intro db a db' hr hdb hn ht
  refine Machine.Path.invariant (I := fun db' => Sound db' ∧ Grown n db db' ∧ Tally db') ?_
    (h db a db' hr) ⟨hdb, .refl _ _, ht⟩
  rintro db₁ q db₂ ⟨hdb₁, hg, ht₁⟩ hq hs
  obtain rfl := Option.some.inj hs
  obtain ⟨hshown, hgrown⟩ := minds_kept hq hdb₁ (hn.trans hg.seq)
  exact ⟨Statement.exec_consistent hdb₁ q, hg.trans hgrown, hshown.tally ht₁⟩

/-- A program that writes other tables. -/
theorem of_touches {ts : List Table} (h : Touches ts m) (hm : .messages ∉ ts)
    (hs : .smsDeliverySegments ∉ ts) : Keeps n m := by
  refine of_issues (Issues.mono h fun q hq => ?_)
  have hne : ∀ t, t ∈ ts → t ≠ .smsDeliverySegments ∧ t ≠ .messages :=
    fun t ht => ⟨fun he => hs (he ▸ ht), fun he => hm (he ▸ ht)⟩
  cases q with
  | insert t as => exact (hne t hq).1
  | insertOrIgnore t as => exact hne t hq
  | upsert t key as set => exact hne t hq
  | update t p set => exact ⟨(hne t hq).1, fun he => absurd he (hne t hq).2⟩
  | delete t p => exact hq.elim

theorem reads (h : Touches [] m) : Keeps n m := of_touches h List.not_mem_nil List.not_mem_nil

theorem pure (a : α) : Keeps n (Pure.pure a : Hub α) := reads (.pure a)

end Keeps

/-- The message `i` is new: it is to have `k` segments, and has none yet. -/
structure Awaits (n : Nat) (k : Int) (i : Nat) (db : HubDb) : Prop where
  new   : n < i
  empty : segmentsOf db i = []
  cell  : ∀ m ∈ db.rows .messages, m.id = i → count (m.cells .segments) = k

/-- Such a program stores a message of `k` segments and returns its id. -/
def Adds (n : Nat) (k : Int) (m : Hub Nat) : Prop :=
  Keeps n m ∧ ∀ db i db', m db = .ok (i, db') → Sound db → n ≤ db.seq .messages → Tally db →
    Awaits n k i db'

theorem Adds.after {α : Type} {k : Int} {m : Hub α} {f : α → Hub Nat} (hm : Keeps n m)
    (hf : ∀ a, Adds n k (f a)) : Adds n k (m >>= f) := by
  refine ⟨.bind hm fun a => (hf a).1, fun db i db' h hdb hn ht => ?_⟩
  obtain ⟨a, db₁, ha, hi⟩ := of_bind_ok h
  obtain ⟨hdb₁, hg₁, ht₁⟩ := hm db a db₁ ha hdb hn ht
  exact (hf a).2 db₁ i db' hi hdb₁ (hn.trans hg₁.seq) ht₁

theorem adds_insert (as : Assignments Column Cell) :
    Adds n (count (assign as (SCHEMA.defaults .messages) .segments))
      (sql (SCHEMA.insert .messages as)) := by
  refine ⟨.of_issues (issues_sql (.insert Table.noConfusion)), fun db i db' h hdb hn _ => ?_⟩
  obtain ⟨-, rfl, rfl⟩ := insertCells_inv (of_sql_ok h)
  refine ⟨by omega, ?_, fun m hm hid => ?_⟩
  · exact (children_of_rows (rows_append_ne Table.noConfusion)).trans (segmentsOf_next hdb)
  · rw [rows_append_self] at hm
    rcases List.mem_append.mp hm with hm | hm
    · have hle : m.id ≤ db.seq .messages := hdb.bounded .messages _ (List.mem_map_of_mem hm)
      omega
    · obtain rfl := List.mem_singleton.mp hm
      rfl

variable {E : Env} {agentId streamId : String} {frame : Frame}

theorem adds_insertMessage (m : NewMessage) : Adds n m.segments (insertMessage E m) := by
  refine .after (.of_touches (touches_upsertSim _ _ _) (by decide) (by decide)) fun sim => ?_
  refine .after (.reads (touches_toUtcIso _)) fun ts => ?_
  refine .after (.reads (touches_bind _)) fun device => ?_
  refine .after (.reads (touches_bind _)) fun peer => ?_
  refine .after (.reads (touches_bind _)) fun body => ?_
  refine .after (.reads (touches_bind _)) fun seq => ?_
  refine .after (.reads (touches_bind _)) fun error => ?_
  refine .after (.reads (touches_bind _)) fun pdu => ?_
  refine .after (.reads (touches_bind _)) fun recovered => ?_
  exact .after (.reads (touches_bind _)) fun code => adds_insert _

/-! ### Attaching segments -/

section Attaching

variable {i : Nat} {device recipient submitted : String} {x : Unit}

/-- What is kept while the message `i` gets `k` segments. -/
structure Attached (n i k : Nat) (db db' : HubDb) : Prop where
  sound  : Sound db'
  shown  : Shown (some i) db db'
  grown  : Grown n db db'
  rows   : db'.rows .messages = db.rows .messages
  length : (segmentsOf db' i).length = (segmentsOf db i).length + k

/-- One segment. -/
theorem attachSegment_kept {k : Nat} {reference : Int} (hdb : Sound db) (hi : n < i)
    (h : attachSegment E i agentId device recipient submitted k reference db = .ok (x, db')) :
    Attached n i 1 db db' := by
  have htouches : Touches [.smsDeliverySegments]
      (attachSegment E i agentId device recipient submitted k reference) :=
    touches_attachSegment i device recipient submitted k reference
  suffices hkept : (Shown (some i) db db' ∧ Grown n db db') ∧
      (segmentsOf db' i).length = (segmentsOf db i).length + 1 from
    ⟨(htouches db x db' h).consistent hdb, hkept.1.1, hkept.1.2,
      (htouches.leaves (by decide) db x db' h).rows, hkept.2⟩
  obtain ⟨waiting, db₁, hw, hrest⟩ := of_bind_ok h
  cases hfound : waiting.reverse.find? fun r =>
      sameRecipient (textOf (r.cells .recipient)) recipient with
  | some early =>
    rw [hfound] at hrest
    cases hw
    obtain ⟨hrow, hcond⟩ := List.mem_filter.mp (List.mem_reverse.mp (List.mem_of_find?_eq_some hfound))
    obtain ⟨rfl, -⟩ := update_inv (of_sql_ok hrest)
    simp only [Bool.and_eq_true, Option.isNone_iff_eq_none] at hcond
    have hwaits : early.cells .messageId = none := hcond.1.1.1.1
    refine ⟨adopt_segment hdb hrow hwaits (fun _ => rfl) hi, children_adopted hdb hrow ?_ rfl⟩
    rw [hwaits]
    exact (Option.some_ne_none _).symm
  | none =>
    rw [hfound] at hrest
    cases hw
    obtain ⟨j, db₂, hins, hpure⟩ := of_bind_ok hrest
    cases hpure
    obtain ⟨-, -, rfl⟩ := insertCells_inv (of_sql_ok hins)
    refine ⟨append_segment rfl hi, ?_⟩
    rw [show segmentsOf (db.append _ _) i = _ from children_append_self rfl, List.length_append]
    rfl

/-- All of them. -/
theorem attachAll_kept (hi : n < i) (xs : List (Int × Nat)) (hdb : Sound db)
    (h : (xs.forM fun y => attachSegment E i agentId device recipient submitted y.2 y.1) db =
      .ok (x, db')) : Attached n i xs.length db db' := by
  induction xs generalizing db with
  | nil =>
    cases h
    exact ⟨hdb, .refl _ _, .refl _ _, rfl, rfl⟩
  | cons y ys ih =>
    obtain ⟨x₁, db₁, hfirst, hrest⟩ := of_bind_ok h
    have h₁ := attachSegment_kept hdb hi hfirst
    have h' := ih h₁.sound hrest
    refine ⟨h'.sound, h₁.shown.trans h'.shown, h₁.grown.trans h'.grown, h'.rows.trans h₁.rows, ?_⟩
    rw [h'.length, h₁.length, List.length_cons]
    omega

/-- **The summary is taken**: after it every message is settled that was, and this one. -/
theorem updateMessageDeliveryStatus_kept (hdb : Sound db) (ht : TallyBut i db)
    (hc : ∀ m ∈ db.rows .messages, m.id = i → segmentsOf db m.id ≠ [] → Complete db m)
    (h : updateMessageDeliveryStatus i db = .ok (x, db')) :
    Sound db' ∧ Grown n db db' ∧ Tally db' := by
  refine ⟨(touches_updateMessageDeliveryStatus i db x db' h).consistent hdb, ?_⟩
  obtain ⟨message, db₁, hm, hrest⟩ := of_bind_ok h
  cases hm
  obtain ⟨rows, db₂, hrows, hwrite⟩ := of_bind_ok hrest
  rw [segmentRows_eq] at hrows
  cases hrows
  cases hf : (db.rows .messages).find? fun r => r.id == i with
  | none =>
    rw [hf] at hwrite
    cases hwrite
    refine ⟨.refl _ _, fun m hm => ht m hm fun he => ?_⟩
    exact List.find?_eq_none.mp hf m hm (beq_iff_eq.mpr he)
  | some m₀ =>
    rw [hf] at hwrite
    dsimp only at hwrite
    have hm₀ := List.mem_of_find?_eq_some hf
    obtain rfl : m₀.id = i := beq_iff_eq.mp (List.find?_some (p := fun r : HubRow => r.id == i) hf)
    by_cases he : (inOrder (segmentsOf db m₀.id)).isEmpty = true
    · rw [if_pos he] at hwrite
      cases hwrite
      refine ⟨.refl _ _, fun m hm => ?_⟩
      by_cases hid : m.id = m₀.id
      · refine .inl ?_
        rw [hid]
        exact inOrder_eq_nil.mp (List.isEmpty_iff.mp he)
      · exact ht m hm hid
    · rw [if_neg he] at hwrite
      obtain ⟨rfl, -⟩ := update_inv (of_sql_ok hwrite)
      refine take_summary hdb hm₀ ht (hc m₀ hm₀ rfl fun hnil => he ?_)
      exact List.isEmpty_iff.mpr (inOrder_eq_nil.mpr hnil)

theorem attachSmsSegments_kept {references : List Int} {submittedAt : String} (hdb : Sound db)
    (hi : Awaits n references.length i db) (ht : Tally db)
    (h : attachSmsSegments E i agentId device recipient references submittedAt db = .ok (x, db')) :
    Sound db' ∧ Grown n db db' ∧ Tally db' := by
  obtain ⟨submitted, db₁, hts, hrest⟩ := of_bind_ok h
  obtain ⟨x₂, db₂, hall, hsummary⟩ := of_bind_ok hrest
  obtain rfl := Touches.unchanged (touches_toUtcIso _) hts
  have h₂ := attachAll_kept hi.new _ hdb hall
  have hcomplete : ∀ m ∈ db₂.rows .messages, m.id = i → segmentsOf db₂ m.id ≠ [] →
      Complete db₂ m := by
    intro m hm hid _
    rw [h₂.rows] at hm
    have hlength := h₂.length
    rw [hi.empty, List.length_nil, Nat.zero_add, List.length_zipIdx] at hlength
    unfold Complete
    rw [hid, hlength, hi.cell m hm hid]
  obtain ⟨hdb', hg', ht'⟩ := updateMessageDeliveryStatus_kept h₂.sound
    (h₂.shown.tallyBut fun m hm _ => ht m hm) hcomplete hsummary
  exact ⟨hdb', h₂.grown.trans hg', ht'⟩

end Attaching

/-- `_apply_sms_out`. -/
theorem keeps_applySmsOut : Keeps n (applySmsOut E agentId frame) := by
  refine .bind (.reads (touches_convert _)) fun raw => ?_
  refine .bind (.reads (touches_collectReferences _)) fun references => ?_
  intro db x db' h hdb hn ht
  obtain ⟨i, db₁, hinsert, hrest⟩ := of_bind_ok h
  obtain ⟨hdb₁, hg₁, ht₁⟩ := (adds_insertMessage _).1 db i db₁ hinsert hdb hn ht
  have hi := (adds_insertMessage _).2 db i db₁ hinsert hdb hn ht
  obtain ⟨x₂, db₂, hattach, hnote⟩ := of_bind_ok hrest
  have hkept : Sound db₂ ∧ Grown n db₁ db₂ ∧ Tally db₂ := by
    unfold attachReferences at hattach
    split at hattach
    · cases hattach
      exact ⟨hdb₁, .refl _ _, ht₁⟩
    · rename_i hreferences
      rw [if_neg hreferences] at hi
      exact attachSmsSegments_kept hdb₁ hi ht₁ hattach
  obtain ⟨hdb₂, hg₂, ht₂⟩ := hkept
  have hnoted : Keeps n (noteSend E agentId frame (textOr E (frame.get "status") "sent")) :=
    .of_touches (touches_noteSend _) (by decide) (by decide)
  obtain ⟨hdb', hg', ht'⟩ := hnoted db₂ x db' hnote hdb₂
    (hn.trans (hg₁.seq.trans hg₂.seq)) ht₂
  exact ⟨hdb', (hg₁.trans hg₂).trans hg', ht'⟩

/-! ### Recording reports -/

section Recording

variable {row : HubRow} {r : Report} {times : ReportTimes} {state : DeliveryState} {x : Unit}

/-- **A report that is taken does not set the segment back**: `_terminal_delivery_state`. -/
theorem reportTaken_forward {current : Option Cell} (h : reportTaken current state = true) :
    progress current ≤ progress (text state.text) := by
  by_cases hd : current = text "delivered"
  · subst hd
    cases state with
    | delivered => exact Nat.le_refl _
    | pending => cases h
    | failed => cases h
  · by_cases hf : current = text "failed"
    · subst hf
      cases state with
      | delivered => decide
      | pending => cases h
      | failed => exact Nat.le_refl _
    · rw [progress, if_neg hd, if_neg hf]
      exact Nat.zero_le _

theorem fillSegment_kept {more : Assignments Column Cell} {k : Option Nat} (hdb : Sound db)
    (hrow : row ∈ db.rows .smsDeliverySegments)
    (hk : ∀ j : Nat, row.cells .messageId = integer j → k = some j)
    (hmore : ∀ y ∈ more, y.1 ∉ [Column.messageId, .status])
    (h : fillSegment row r times state more db = .ok (x, db')) :
    Sound db' ∧ Shown k db db' ∧ Grown n db db' := by
  refine ⟨(touches_fillSegment row r times state more db x db' h).consistent hdb, ?_⟩
  unfold fillSegment at h
  by_cases htaken : reportTaken (row.cells .status) state = true
  · rw [if_pos htaken] at h
    obtain ⟨pdu, db₁, hpdu, hwrite⟩ := of_bind_ok h
    obtain rfl := Touches.unchanged (touches_bind _) hpdu
    obtain ⟨rfl, -⟩ := update_inv (of_sql_ok hwrite)
    refine fill_segment hdb hrow hk (fun _ y hy he => ?_) ?_
    · rcases List.mem_append.mp hy with hy | hy
      · refine hmore y hy ?_
        rw [he]
        exact List.mem_cons_self
      · have hcolumns : Column.messageId ∉ (reportColumns r times state pdu).map Prod.fst := by
          show Column.messageId ∉ [Column.status, .statusCode, .serviceCenterTs, .dischargeTs,
            .reportedAt, .rawPdu, .eventSeq]
          decide
        exact hcolumns (he ▸ List.mem_map_of_mem hy)
    · rw [assign_append fun y hy he => hmore y hy (by rw [he]; decide)]
      exact reportTaken_forward htaken
  · rw [if_neg htaken] at h
    cases h
    exact ⟨.refl _ _, .refl _ _⟩

/-- The segment a report is about is one of the candidates. -/
theorem matchedSegment_mem {serviceTs : Option String} {candidates : List HubRow}
    (h : matchedSegment E serviceTs candidates = some row) : row ∈ candidates := by
  cases serviceTs with
  | none => exact List.mem_of_head? h
  | some ts => exact List.argmin_mem h

/-- A report on a segment of a message. -/
theorem recordMatched_kept (hdb : Sound db) (ht : Tally db) (hrow : row ∈ db.rows .smsDeliverySegments)
    (h : recordMatched row r times state db = .ok (x, db')) :
    Sound db' ∧ Grown n db db' ∧ Tally db' := by
  obtain ⟨y, db₁, hfill, hrest⟩ := of_bind_ok h
  cases hid : row.cells .messageId with
  | none =>
    rw [hid] at hrest
    cases hrest
  | some cell =>
    cases cell with
    | real q => rw [hid] at hrest; cases hrest
    | text s => rw [hid] at hrest; cases hrest
    | integer m =>
      rw [hid] at hrest
      have hk : ∀ j : Nat, row.cells .messageId = integer j → some m.toNat = some j := by
        intro j hj
        have hm : m = j := Cell.integer.inj (Option.some.inj (hid.symm.trans hj))
        rw [hm, Int.toNat_natCast]
      have hfilled : ∀ k, Sound db₁ ∧ Shown (some m.toNat) db db₁ ∧ Grown k db db₁ :=
        fun k => fillSegment_kept hdb hrow hk (List.forall_mem_nil _) hfill
      obtain ⟨hdb₁, hs₁, hg₁⟩ := hfilled n
      -- the message has the segments it had
      have hcomplete : ∀ m' ∈ db₁.rows .messages, m'.id = m.toNat → segmentsOf db₁ m'.id ≠ [] →
          Complete db₁ m' :=
        fun m' hm' hid => (hfilled m.toNat).2.2.complete ht hm' (Nat.le_of_eq hid)
      obtain ⟨hdb', hg', ht'⟩ := updateMessageDeliveryStatus_kept hdb₁
        (hs₁.tallyBut fun m hm _ => ht m hm) hcomplete hrest
      exact ⟨hdb', hg₁.trans hg', ht'⟩

/-- A report that finds no segment. -/
theorem recordUnmatched_kept (hdb : Sound db) (ht : Tally db)
    (h : recordUnmatched E r times state db = .ok (x, db')) :
    Sound db' ∧ Grown n db db' ∧ Tally db' := by
  obtain ⟨unmatched, db₁, hq, hrest⟩ := of_bind_ok h
  cases hfound : unmatched.reverse.find? fun y =>
      sameRecipient (textOf (y.cells .recipient)) r.recipient with
  | some existing =>
    rw [hfound] at hrest
    cases hq
    obtain ⟨hrow, hcond⟩ := List.mem_filter.mp (List.mem_reverse.mp (List.mem_of_find?_eq_some hfound))
    simp only [Bool.and_eq_true, Option.isNone_iff_eq_none] at hcond
    have hk : ∀ j : Nat, existing.cells .messageId = integer j → none = some j := by
      intro j hj
      rw [hcond.1.1.1.1] at hj
      cases hj
    have hmore : ∀ y ∈ [(Column.recipient, text r.recipient),
        (Column.recipientKey, text (recipientKey r.recipient))], y.1 ∉ [Column.messageId, .status] := by
      intro y hy
      rcases List.mem_cons.mp hy with rfl | hy
      · show Column.recipient ∉ [Column.messageId, .status]
        decide
      · obtain rfl := List.mem_singleton.mp hy
        show Column.recipientKey ∉ [Column.messageId, .status]
        decide
    obtain ⟨hdb', hs', hg'⟩ := fillSegment_kept hdb hrow hk hmore hrest
    exact ⟨hdb', hg', hs'.tally ht⟩
  | none =>
    rw [hfound] at hrest
    cases hq
    obtain ⟨pdu, db₂, hpdu, hwrite⟩ := of_bind_ok hrest
    obtain rfl := Touches.unchanged (touches_bind _) hpdu
    obtain ⟨j, db₃, hins, hpure⟩ := of_bind_ok hwrite
    cases hpure
    have hins' := of_sql_ok hins
    obtain ⟨-, -, rfl⟩ := insertCells_inv hins'
    suffices hkept : Shown none _ _ ∧ Grown n _ _ from
      ⟨insert_consistent hdb hins', hkept.2, hkept.1.tally ht⟩
    exact append_waiting rfl

/-- `record_sms_delivery`. -/
theorem keeps_recordSmsDelivery : Keeps n (recordSmsDelivery E r) := by
  refine .bind (.reads (touches_optionalIso _)) fun serviceTs => ?_
  refine .bind (.reads (touches_optionalIso _)) fun discharge => ?_
  refine .bind (.reads (touches_toUtcIso _)) fun reported => ?_
  intro db x db' h hdb hn ht
  obtain ⟨found, db₁, hq, hrest⟩ := of_bind_ok h
  dsimp only at hrest
  cases hm : matchedSegment E serviceTs ((found.mergeSort laterFirst).filter fun y =>
      sameRecipient (textOf (y.cells .recipient)) r.recipient) with
  | none =>
    rw [hm] at hrest
    cases hq
    exact recordUnmatched_kept hdb ht hrest
  | some row =>
    rw [hm] at hrest
    cases hq
    refine recordMatched_kept hdb ht ?_ hrest
    have hmem := matchedSegment_mem hm
    exact List.mem_of_mem_filter (List.mem_mergeSort.mp (List.mem_of_mem_filter hmem))

end Recording

theorem keeps_applySmsDelivery : Keeps n (applySmsDelivery E agentId frame) := by
  refine .bind (.reads (touches_optionalInt _)) fun reference => ?_
  cases reference with
  | none => exact .pure _
  | some k =>
    dsimp only
    split
    · refine .bind (.reads (touches_optionalInt _)) fun code => ?_
      exact .bind (.reads (touches_optionalInt _)) fun seq => keeps_recordSmsDelivery
    · exact .pure _

/-- **Every callback keeps them.** -/
theorem keeps_apply (kind eventKey : String) :
    Keeps n (apply E agentId kind frame eventKey streamId) := by
  have hqueue : ∀ a, Keeps n (queueNotification E a frame) := fun a =>
    .of_touches (touches_queueNotification a) (by decide) (by decide)
  refine .bind ?_ fun a => .bind (hqueue a) fun _ => .pure _
  unfold dispatch
  split
  · refine .bind ?_ fun _ => .pure _
    refine .bind (.reads (touches_convert _)) fun segments => ?_
    refine .bind (.reads (touches_optionalInt _)) fun dcs => ?_
    exact .bind (.reads (touches_convert _)) fun isData => (adds_insertMessage _).1
  · exact .bind keeps_applySmsOut fun _ => .pure _
  · exact .bind keeps_applySmsDelivery fun _ => .pure _
  · exact .bind (.of_touches touches_applyStatus (by decide) (by decide)) fun _ => .pure _
  · exact .bind (.of_touches touches_applyCallEvent (by decide) (by decide)) fun _ => .pure _
  · exact .bind (.of_touches touches_applyLog (by decide) (by decide)) fun _ => .pure _
  · exact .bind (.of_touches touches_applyTaskResult (by decide) (by decide)) fun _ => .pure _
  · exact .bind (.of_touches touches_applyOperationResult (by decide) (by decide)) fun _ => .pure _
  · exact .bind (.of_touches touches_applyTasksApplied (by decide) (by decide)) fun _ => .pure _
  · exact .pure _

end Air780eHub.Outbound
