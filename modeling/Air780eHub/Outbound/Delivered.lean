/-
  Outbound messages of a running Server.

  Events of all agents arrive in any order, some again, and callbacks that raise are rolled back: a
  report may come before the message, twice, or take back what another said.  Other parts of the
  Server mark messages as read and delete rows, and a retention pass takes old messages out, batch
  by batch.

  1. **The system**: states, actions and steps.
  2. **`kept_step`**: every step keeps the tally, and no segment goes back.
  3. **`Verdict`**: what the segments say of their message, and that it moves forward with them.
  4. **`reports_counted`**: a message shows what its segments say; **`status_forward`**: its status
     never goes back.
-/
import Air780eHub.Notify.Model
import Air780eHub.Outbound.Reports

namespace Air780eHub.Outbound

open Relational Server Notify Retention

/-! ## The system -/

/-- What happens to the database. -/
inductive Action
  /-- An event arrives, for the first time or again. -/
  | ingest (x : Incoming)
  /-- Keys expire in `ingested`. -/
  | forget (expired : IngestKey → Bool)
  /-- A batch of a retention pass. -/
  | batch (h : Horizons) (cutoff : Int → String)
      (spec : { spec : PurgeSpec // spec ∈ messageSpec h :: furtherSpecs h })
  /-- A statement of another part of the Server is committed. -/
  | statement (q : { q : Statement Table Column Cell // Minds q })

/-- One step; a transaction that raised was rolled back. -/
def step (s : Database HubDb) : Action → Option (Database HubDb)
  | .ingest x =>
    match x.ingest s with
    | .error _    => some s
    | .ok (_, s') => some s'
  | .forget expired => some { s with ingested := s.ingested.filter fun k => !expired k }
  | .batch h cutoff spec =>
    match SCHEMA.deleteBatch spec.1.table (spec.1.expires cutoff) h.batchSize.toNat s.business with
    | .error _   => some s
    | .ok (_, b) => some { s with business := b }
  | .statement q    => some { s with business := q.1.exec SCHEMA s.business }

/-- The messages of a Server from the creation of its database on. -/
def reports : Machine (Database HubDb) Action where
  Start := fun s => s = ⟨[], Db.empty⟩
  step  := step

/-! ## A step -/

variable {s s' : Database HubDb} {a : Action}

/-- Constraints, and the tally. -/
structure Kept (s : Database HubDb) : Prop where
  sound : Sound s.business
  tally : Tally s.business

theorem kept_statement {db : HubDb} {q : Statement Table Column Cell} (hq : Minds q)
    (hdb : Sound db) (ht : Tally db) :
    Sound (q.exec SCHEMA db) ∧ Tally (q.exec SCHEMA db) ∧
      Grown (db.seq .messages) db (q.exec SCHEMA db) := by
  obtain ⟨hshown, hgrown⟩ := minds_kept hq hdb (Nat.le_refl (db.seq .messages))
  exact ⟨Statement.exec_consistent hdb q, hshown.tally ht, hgrown⟩

/-- **Every step** keeps them, and sets no segment back. -/
theorem kept_step (h : Kept s) (hs : reports.step s a = some s') :
    Kept s' ∧ Grown (s.business.seq .messages) s.business s'.business := by
  obtain ⟨hdb, ht⟩ := h
  cases a with
  | forget expired =>
    cases hs
    exact ⟨⟨hdb, ht⟩, .refl _ _⟩
  | statement q =>
    cases hs
    obtain ⟨hdb', ht', hg⟩ := kept_statement q.2 hdb ht
    exact ⟨⟨hdb', ht'⟩, hg⟩
  | batch h cutoff spec =>
    unfold reports step at hs
    dsimp only at hs
    cases hr : SCHEMA.deleteBatch spec.1.table (spec.1.expires cutoff) h.batchSize.toNat s.business with
    | error e =>
      rw [hr] at hs
      cases hs
      exact ⟨⟨hdb, ht⟩, .refl _ _⟩
    | ok y =>
      obtain ⟨c, b⟩ := y
      rw [hr] at hs
      cases hs
      obtain ⟨hdb', hshown, hg⟩ := batch_kept spec.2 hdb hr
      exact ⟨⟨hdb', hshown.tally ht⟩, hg⟩
  | ingest x =>
    have hminds : Minds x.noteSeq := ⟨Table.noConfusion, fun he => Table.noConfusion he⟩
    unfold reports step at hs
    dsimp only at hs
    cases hr : x.ingest s with
    | error e =>
      rw [hr] at hs
      cases hs
      exact ⟨⟨hdb, ht⟩, .refl _ _⟩
    | ok y =>
      obtain ⟨r, s₁⟩ := y
      rw [hr] at hs
      cases hs
      rcases Database.applyEvent_cases hr with ⟨rfl, hk, -⟩ | ⟨applied, b, rfl, -, hcall, rfl⟩
      · -- a replay notes its number and nothing else
        have hrun : x.ingest s = _ := if_pos hk
        rw [hr] at hrun
        cases hrun
        obtain ⟨hdb', ht', hg⟩ := kept_statement hminds hdb ht
        exact ⟨⟨hdb', ht'⟩, hg⟩
      · obtain ⟨hdb₁, hg₁, ht₁⟩ := keeps_apply x.kind x.eventKey s.business applied b hcall hdb
          (Nat.le_refl _) ht
        obtain ⟨hdb', ht', hg'⟩ := kept_statement hminds hdb₁ ht₁
        exact ⟨⟨hdb', ht'⟩, hg₁.trans (hg'.mono hg₁.seq)⟩

theorem kept_reachable (h : reports.Reachable s) : Kept s := by
  refine h.invariant (I := Kept) ?_ fun s a s' hk _ hs => (kept_step hk hs).1
  rintro s rfl
  exact ⟨.empty, List.forall_mem_nil _⟩

/-- No segment goes back along a run. -/
theorem grown_path (h : Kept s) (hp : reports.Path Machine.Always s s') :
    Grown (s.business.seq .messages) s.business s'.business := by
  refine Machine.Path.relation_of_invariant (I := Kept)
    (R := fun s s' => Grown (s.business.seq .messages) s.business s'.business)
    (fun s => .refl _ _) (fun s t r h h' => h.trans (h'.mono h.seq)) ?_ ?_ hp h
  · exact fun s a s' hk _ hs => (kept_step hk hs).1
  · exact fun s a s' hk _ hs => (kept_step hk hs).2

/-! ## What a message shows -/

section Verdicts

variable {rows : List HubRow} {status : String} {error : Option String}

/-- All segments were last said to be so. -/
def EachSaid (status : String) (rows : List HubRow) : Prop :=
  ∀ r ∈ rows, r.cells .status = text status

/-- Some segment was. -/
def AnySaid (status : String) (rows : List HubRow) : Prop :=
  ∃ r ∈ rows, r.cells .status = text status

/-- What the segments say of the message. -/
inductive Verdict (rows : List HubRow) : String → Option String → Prop
  | delivered : EachSaid "delivered" rows → Verdict rows "delivered" none
  | part {error : Option String} : AnySaid "delivered" rows → ¬ EachSaid "delivered" rows →
      (error.isSome ↔ AnySaid "failed" rows) → Verdict rows "partial" error
  | failed {error : String} : ¬ AnySaid "delivered" rows → AnySaid "failed" rows →
      Verdict rows "failed" (some error)
  | pending : ¬ AnySaid "delivered" rows → ¬ AnySaid "failed" rows → Verdict rows "pending" none

theorem progress_delivered {c : Option Cell} : 2 ≤ progress c ↔ c = text "delivered" := by
  unfold progress
  split
  · rename_i h
    exact iff_of_true (Nat.le_refl _) h
  · rename_i h
    split <;> exact iff_of_false (by omega) h

theorem progress_pos {c : Option Cell} :
    1 ≤ progress c ↔ c = text "delivered" ∨ c = text "failed" := by
  unfold progress
  split
  · rename_i h
    exact iff_of_true (by omega) (.inl h)
  · rename_i hd
    split
    · rename_i hf
      exact iff_of_true (Nat.le_refl _) (.inr hf)
    · rename_i hf
      exact iff_of_false (by omega) fun h => h.elim hd hf

/-- Every segment is still there. -/
theorem exists_later {rows' : List HubRow} (hl : List.Forall₂ Later rows rows') {r : HubRow}
    (hr : r ∈ rows) : ∃ r' ∈ rows', Later r r' := by
  induction hl with
  | nil => cases hr
  | cons hfirst _ ih =>
    rcases List.mem_cons.mp hr with rfl | hr
    · exact ⟨_, List.mem_cons_self, hfirst⟩
    · obtain ⟨r', hr', hlater⟩ := ih hr
      exact ⟨r', List.mem_cons_of_mem _ hr', hlater⟩

theorem EachSaid.later {rows' : List HubRow} (h : EachSaid "delivered" rows)
    (hl : List.Forall₂ Later rows rows') : EachSaid "delivered" rows' := by
  induction hl with
  | nil => exact List.forall_mem_nil _
  | cons hr _ ih =>
    obtain ⟨hfirst, hrest⟩ := List.forall_mem_cons.mp h
    have hfar := (progress_delivered.mpr hfirst).trans hr.2
    exact List.forall_mem_cons.mpr ⟨progress_delivered.mp hfar, ih hrest⟩

theorem equals_text_iff {c : Option Cell} : equals c (text status) = true ↔ c = text status := by
  cases c with
  | none => exact iff_of_false Bool.false_ne_true (Option.some_ne_none _).symm
  | some v =>
    show (true && some v == text status) = true ↔ _
    rw [Bool.true_and, beq_iff_eq]

/-- `sum(1 for row in rows if row["status"] == …)` counts them all. -/
theorem each_iff : (rows.length : Int) ≤
      (rows.filter fun r => equals (r.cells .status) (text status)).length ↔
    EachSaid status rows := by
  have hle := List.length_filter_le (fun r => equals (r.cells .status) (text status)) rows
  constructor
  · intro h r hr
    have hlength : (rows.filter fun r => equals (r.cells .status) (text status)).length =
        rows.length := by omega
    exact equals_text_iff.mp (List.length_filter_eq_length_iff.mp hlength r hr)
  · intro h
    rw [List.length_filter_eq_length_iff.mpr fun r hr => equals_text_iff.mpr (h r hr)]

theorem any_iff : (rows.filter fun r => equals (r.cells .status) (text status)) ≠ [] ↔
    AnySaid status rows := by
  constructor
  · intro h
    obtain ⟨r, hr⟩ := List.exists_mem_of_ne_nil _ h
    obtain ⟨hmem, hsaid⟩ := List.mem_filter.mp hr
    exact ⟨r, hmem, equals_text_iff.mp hsaid⟩
  · rintro ⟨r, hr, hsaid⟩
    exact List.ne_nil_of_mem (List.mem_filter.mpr ⟨hr, equals_text_iff.mpr hsaid⟩)

/-- **The summary is the verdict** of the segments, when they are all there. -/
theorem aggregateStatus_verdict (hne : rows ≠ []) :
    Verdict rows (aggregateStatus rows.length rows).1 (aggregateStatus rows.length rows).2 := by
  have hlength : (rows.length : Int) ≠ 0 := by
    have hpos := List.length_pos_iff.mpr hne
    omega
  have hexpected : max (if (rows.length : Int) = 0 then 1 else (rows.length : Int)) rows.length =
      rows.length := by
    rw [if_neg hlength, max_self]
  have hfailed : (rows.filter fun r => equals (r.cells .status) (text "failed")).isEmpty = false ↔
      AnySaid "failed" rows := by
    rw [← any_iff, List.isEmpty_eq_false_iff]
  have hdelivered : (rows.filter fun r => equals (r.cells .status) (text "delivered")).length ≠ 0 ↔
      AnySaid "delivered" rows := by
    rw [← any_iff, Ne, List.length_eq_zero_iff]
  unfold aggregateStatus
  dsimp only
  rw [hexpected]
  split
  · rename_i hall
    exact .delivered (each_iff.mp hall)
  · rename_i hall
    split
    · rename_i hsome
      refine .part (hdelivered.mp hsome) (fun he => hall (each_iff.mpr he)) ?_
      rw [← hfailed]
      cases (rows.filter fun r => equals (r.cells .status) (text "failed")).isEmpty with
      | true => exact iff_of_false Bool.false_ne_true Bool.noConfusion
      | false => exact iff_of_true rfl rfl
    · rename_i hnone
      have hnot : ¬ AnySaid "delivered" rows := fun he => hnone (hdelivered.mpr he)
      split
      · rename_i hsome
        exact .failed hnot (hfailed.mp ((Bool.not_eq_true' _).mp hsome))
      · rename_i hno
        exact .pending hnot fun he => hno ((Bool.not_eq_true' _).mpr (hfailed.mpr he))

/-- A verdict says which one it is. -/
theorem Verdict.reads (h : Verdict rows status error) (hne : rows ≠ []) :
    (status = "delivered" ↔ EachSaid "delivered" rows) ∧
    (status = "partial" ↔ AnySaid "delivered" rows ∧ ¬ EachSaid "delivered" rows) ∧
    (status = "failed" ↔ ¬ AnySaid "delivered" rows ∧ AnySaid "failed" rows) ∧
    (status = "pending" ↔ ¬ AnySaid "delivered" rows ∧ ¬ AnySaid "failed" rows) ∧
    (error.isSome ↔ AnySaid "failed" rows) := by
  have hany : EachSaid "delivered" rows → AnySaid "delivered" rows := by
    intro hall
    obtain ⟨r, hr⟩ := List.exists_mem_of_ne_nil _ hne
    exact ⟨r, hr, hall r hr⟩
  cases h with
  | delivered hall =>
    have hnone : ¬ AnySaid "failed" rows := by
      rintro ⟨r, hr, hsaid⟩
      have heq : text "delivered" = text "failed" := (hall r hr).symm.trans hsaid
      exact absurd (text_inj.mp heq) (by decide)
    exact ⟨iff_of_true rfl hall, iff_of_false (by decide) fun h => h.2 hall,
      iff_of_false (by decide) fun h => h.1 (hany hall),
      iff_of_false (by decide) fun h => h.1 (hany hall), iff_of_false Bool.false_ne_true hnone⟩
  | part hsome hall herror =>
    exact ⟨iff_of_false (by decide) hall, iff_of_true rfl ⟨hsome, hall⟩,
      iff_of_false (by decide) fun h => h.1 hsome, iff_of_false (by decide) fun h => h.1 hsome, herror⟩
  | failed hnone hsome =>
    exact ⟨iff_of_false (by decide) fun h => hnone (hany h),
      iff_of_false (by decide) fun h => hnone h.1, iff_of_true rfl ⟨hnone, hsome⟩,
      iff_of_false (by decide) fun h => h.2 hsome, iff_of_true rfl hsome⟩
  | pending hnone hno =>
    exact ⟨iff_of_false (by decide) fun h => hnone (hany h),
      iff_of_false (by decide) fun h => hnone h.1, iff_of_false (by decide) fun h => hno h.2,
      iff_of_true rfl ⟨hnone, hno⟩, iff_of_false Bool.false_ne_true hno⟩

/-- The order of the segments does not matter. -/
theorem Verdict.perm {rows' : List HubRow} (h : Verdict rows status error)
    (hp : rows.Perm rows') : Verdict rows' status error := by
  have heach : ∀ said, EachSaid said rows ↔ EachSaid said rows' := fun said =>
    ⟨fun hall r hr => hall r (hp.mem_iff.mpr hr), fun hall r hr => hall r (hp.mem_iff.mp hr)⟩
  have hany : ∀ said, AnySaid said rows ↔ AnySaid said rows' := by
    intro said
    constructor
    · rintro ⟨r, hr, hsaid⟩
      exact ⟨r, hp.mem_iff.mp hr, hsaid⟩
    · rintro ⟨r, hr, hsaid⟩
      exact ⟨r, hp.mem_iff.mpr hr, hsaid⟩
  cases h with
  | delivered hall => exact .delivered ((heach _).mp hall)
  | part hsome hall herror =>
    exact .part ((hany _).mp hsome) (fun h => hall ((heach _).mpr h)) (herror.trans (hany _))
  | failed hnone hsome => exact .failed (fun h => hnone ((hany _).mpr h)) ((hany _).mp hsome)
  | pending hnone hno =>
    exact .pending (fun h => hnone ((hany _).mpr h)) fun h => hno ((hany _).mpr h)

/-- How far a message has come. -/
def standing (status : Option Cell) : Nat :=
  if status = text "delivered" then 3
  else if status = text "partial" then 2
  else if status = text "failed" then 1
  else 0

/-- **The verdict moves forward** with the segments. -/
theorem Verdict.forward {rows' : List HubRow} {status' : String} {error' : Option String}
    (h : Verdict rows status error) (h' : Verdict rows' status' error') (hne : rows' ≠ [])
    (hl : List.Forall₂ Later rows rows') : standing (text status) ≤ standing (text status') := by
  cases h with
  | delivered hall =>
    rw [(h'.reads hne).1.mpr (hall.later hl)]
  | part hsome _ _ =>
    -- the segment that was delivered still is
    obtain ⟨r, hr, hsaid⟩ := hsome
    obtain ⟨r', hr', -, hle⟩ := exists_later hl hr
    have hsaid' : AnySaid "delivered" rows' :=
      ⟨r', hr', progress_delivered.mp ((progress_delivered.mpr hsaid).trans hle)⟩
    cases h' with
    | delivered _ => decide
    | part _ _ _ => exact Nat.le_refl _
    | failed hnone _ => exact absurd hsaid' hnone
    | pending hnone _ => exact absurd hsaid' hnone
  | failed _ hsome =>
    -- the segment that failed has not become pending
    obtain ⟨r, hr, hsaid⟩ := hsome
    obtain ⟨r', hr', -, hle⟩ := exists_later hl hr
    have hsaid' := progress_pos.mp ((progress_pos.mpr (.inr hsaid)).trans hle)
    cases h' with
    | delivered _ => decide
    | part _ _ _ => decide
    | failed _ _ => exact Nat.le_refl _
    | pending hnone hno =>
      rcases hsaid' with hd | hf
      · exact absurd ⟨r', hr', hd⟩ hnone
      · exact absurd ⟨r', hr', hf⟩ hno
  | pending _ _ => exact Nat.zero_le _

end Verdicts

/-- A message that has segments shows their verdict. -/
theorem Kept.verdict (h : Kept s) {m : HubRow} (hm : m ∈ s.business.rows .messages)
    (hs : segmentsOf s.business m.id ≠ []) :
    Complete s.business m ∧ ∃ status error, Verdict (segmentsOf s.business m.id) status error ∧
      m.cells .status = text status ∧ m.cells .error = error.map Cell.text := by
  rcases h.tally m hm with hnil | ⟨hstatus, herror, hc⟩
  · exact absurd hnil hs
  · refine ⟨hc, _, _, ?_, hstatus, herror⟩
    have hperm := inOrder_perm (segmentsOf s.business m.id)
    have hne : inOrder (segmentsOf s.business m.id) ≠ [] := fun hnil => hs (inOrder_eq_nil.mp hnil)
    have hverdict := aggregateStatus_verdict hne
    rw [hperm.length_eq, show _ = count _ from hc] at hverdict
    exact hverdict.perm hperm

/-! ## The results -/

/-- **The reports are counted**: in every run, a message that has segments has as many as it was
    sent in, and shows that it was delivered, in part, or has failed, or that nothing is known yet,
    just as its segments say; it shows an error while one of them has failed. -/
theorem reports_counted (h : reports.Reachable s) {m : HubRow}
    (hm : m ∈ s.business.rows .messages) (hs : segmentsOf s.business m.id ≠ []) :
    ((segmentsOf s.business m.id).length : Int) = count (m.cells .segments) ∧
    (m.cells .status = text "delivered" ↔ EachSaid "delivered" (segmentsOf s.business m.id)) ∧
    (m.cells .status = text "partial" ↔ AnySaid "delivered" (segmentsOf s.business m.id) ∧
      ¬ EachSaid "delivered" (segmentsOf s.business m.id)) ∧
    (m.cells .status = text "failed" ↔ ¬ AnySaid "delivered" (segmentsOf s.business m.id) ∧
      AnySaid "failed" (segmentsOf s.business m.id)) ∧
    (m.cells .status = text "pending" ↔ ¬ AnySaid "delivered" (segmentsOf s.business m.id) ∧
      ¬ AnySaid "failed" (segmentsOf s.business m.id)) ∧
    ((m.cells .error).isSome ↔ AnySaid "failed" (segmentsOf s.business m.id)) := by
  obtain ⟨hc, status, error, hverdict, hstatus, herror⟩ := (kept_reachable h).verdict hm hs
  rw [hstatus, herror, text_inj, text_inj, text_inj, text_inj, Option.isSome_map]
  exact ⟨hc, hverdict.reads hs⟩

/-- A message of one segment. -/
def sent : Incoming where
  env := ⟨"2026-01-01T00:00:00+00:00", fun _ => none, fun _ => "", fun _ => "", fun _ => ""⟩
  agentId  := "home"
  streamId := "s1"
  seq      := 1
  kind     := "sms_out"
  frame    := [("device", .str "m1"), ("peer", .str "10086"), ("body", .str "hi"),
    ("refs", .arr [.int 7])]

/-- The report on it, with this TP-ST. -/
def receipt (seq : Nat) (code : Int) : Incoming :=
  { sent with
    seq
    kind  := "sms_delivery"
    frame := [("device", .str "m1"), ("peer", .str "10086"), ("reference", .int 7),
      ("status_code", .int code)] }

/-- The message shows that it was delivered, and so says its segment. -/
theorem sent_counted :
    ∃ s, reports.run ⟨[], Db.empty⟩ [.ingest sent, .ingest (receipt 2 0)] = some s ∧
      ∃ m ∈ s.business.rows .messages, EachSaid "delivered" (segmentsOf s.business m.id) := by
  have hrun : ((reports.run ⟨[], Db.empty⟩ [.ingest sent, .ingest (receipt 2 0)]).any fun s =>
      (s.business.rows .messages).any fun m => !(segmentsOf s.business m.id).isEmpty &&
        m.cells .status == text "delivered") = true := by decide +kernel
  obtain ⟨s, hs, hany⟩ := (Option.any_eq_true _ _).mp hrun
  obtain ⟨m, hm, hboth⟩ := List.any_eq_true.mp hany
  obtain ⟨hsegments, hstatus⟩ := Bool.and_eq_true_iff.mp hboth
  have hne : segmentsOf s.business m.id ≠ [] :=
    List.isEmpty_eq_false_iff.mp ((Bool.not_eq_true' _).mp hsegments)
  exact ⟨s, hs, m, hm, (reports_counted (Machine.run_reachable rfl hs) hm hne).2.1.mp
    (beq_iff_eq.mp hstatus)⟩

/-- **A message never goes back**: its status moves from pending over failed and partial to
    delivered, whatever arrives later and in whatever order. -/
theorem status_forward (h : reports.Reachable s) (hp : reports.Path Machine.Always s s')
    {m m' : HubRow} (hm : m ∈ s.business.rows .messages) (hs : segmentsOf s.business m.id ≠ [])
    (hm' : m' ∈ s'.business.rows .messages) (hid : m'.id = m.id) :
    standing (m.cells .status) ≤ standing (m'.cells .status) := by
  have hkept := kept_reachable h
  have hold : m.id ≤ s.business.seq .messages :=
    hkept.sound.bounded .messages _ (List.mem_map_of_mem hm)
  obtain ⟨-, -, -, -, hlater⟩ := (grown_path hkept hp).kept m' hm' (hid ▸ hold)
  obtain ⟨-, status, error, hverdict, hstatus, -⟩ := hkept.verdict hm hs
  rw [← hid] at hs hverdict
  have hs' : segmentsOf s'.business m'.id ≠ [] := by
    intro hnil
    rw [hnil] at hlater
    exact hs (List.forall₂_nil_right_iff.mp hlater)
  obtain ⟨-, status', error', hverdict', hstatus', -⟩ :=
    (kept_reachable (h.path hp)).verdict hm' hs'
  rw [hstatus, hstatus']
  exact hverdict.forward hverdict' hs' hlater

/-- Another report says afterwards that it has failed. -/
theorem sent_stays :
    ∃ s s', reports.run ⟨[], Db.empty⟩ [.ingest sent, .ingest (receipt 2 0)] = some s ∧
      reports.step s (.ingest (receipt 3 0x41)) = some s' ∧
      ∃ m' ∈ s'.business.rows .messages, 3 ≤ standing (m'.cells .status) := by
  have hrun : ((reports.run ⟨[], Db.empty⟩ [.ingest sent, .ingest (receipt 2 0)]).any fun s =>
      (reports.step s (.ingest (receipt 3 0x41))).any fun s' =>
        (s.business.rows .messages).any fun m => (s'.business.rows .messages).any fun m' =>
          !(segmentsOf s.business m.id).isEmpty &&
            (m.cells .status == text "delivered" && m'.id == m.id)) = true := by decide +kernel
  obtain ⟨s, hs, hany⟩ := (Option.any_eq_true _ _).mp hrun
  obtain ⟨s', hs', hany'⟩ := (Option.any_eq_true _ _).mp hany
  obtain ⟨m, hm, hany''⟩ := List.any_eq_true.mp hany'
  obtain ⟨m', hm', hall⟩ := List.any_eq_true.mp hany''
  obtain ⟨hsegments, hboth⟩ := Bool.and_eq_true_iff.mp hall
  obtain ⟨hstatus, hid⟩ := Bool.and_eq_true_iff.mp hboth
  have hne : segmentsOf s.business m.id ≠ [] :=
    List.isEmpty_eq_false_iff.mp ((Bool.not_eq_true' _).mp hsegments)
  have hforward := status_forward (Machine.run_reachable rfl hs) (.single trivial hs') hm hne hm'
    (beq_iff_eq.mp hid)
  rw [beq_iff_eq.mp hstatus] at hforward
  exact ⟨s, s', hs, hs', m', hm', hforward⟩

end Air780eHub.Outbound
