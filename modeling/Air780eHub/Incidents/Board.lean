/-
  The incidents of a running Server: a board of lamps.

  Beside the database the machine remembers of every fault what was said of it last.  Frames of all
  agents arrive in any order, some again; other parts of the Server report faults of their own, the
  operator sets the status of a row, and a retention pass takes old rows out.

  1. **The system**: states, actions and steps.
  2. **A retention pass** takes out rows of faults that are over.
  3. **`turn`**: each step is a turn of the ledger.
  4. **`board_represents`**: the table holds a ledger; **`board_lit_iff`**: a fault has an unresolved
     row exactly while it was last said to be there; **`board_acknowledged`**: reports do not undo
     what the operator has acknowledged.
-/
import Air780eHub.Incidents.Words
import Air780eHub.Retention.Pass

namespace Air780eHub.Incidents

open Relational Server Notify Retention

/-! ## The system -/

/-- The database, and what was said last of each fault. -/
structure State where
  hub : Database HubDb
  due : String → Bool

/-- After some words the last one counts. -/
def heed (words : List Word) (due : String → Bool) : String → Bool :=
  fun name => (lastWord words name).getD (due name)

/-- What happens to the database. -/
inductive Action
  /-- An event arrives, for the first time or again. -/
  | ingest (x : Incoming)
  /-- Another part of the Server reports a fault of its own. -/
  | opened (env : Env) (fault kind severity source title detail : String)
  /-- It reports that the fault is over. -/
  | resolved (env : Env) (fault detail : String)
  /-- The operator sets the status of an incident. -/
  | set (env : Env) (incidentId : Int) (status : String)
  /-- A retention pass. -/
  | purge (h : Horizons) (cutoff : Int → String)
  /-- Keys expire in `ingested`. -/
  | forget (expired : IngestKey → Bool)
  /-- Any other statement that is committed. -/
  | statement (q : { q : Statement Table Column Cell // q.table ≠ .incidents })

/-- The state after a transaction; one that raised was rolled back. -/
def State.commit {α : Type} (s : State) (m : Hub α) (due : String → Bool) : State :=
  match m s.hub.business with
  | .error _   => s
  | .ok (_, b) => ⟨{ s.hub with business := b }, due⟩

/-- What is due when the operator has set the status of a row. -/
def State.dueSet (s : State) (incidentId : Int) (status : String) : String → Bool :=
  match nameOf s.hub.business incidentId with
  | none      => s.due
  | some name => heed [(name, decide (status ≠ "resolved"))] s.due

/-- One step. -/
def step (s : State) : Action → Option State
  | .ingest x =>
    match x.ingest s.hub with
    | .error _          => some s
    | .ok (none, hub)   => some { s with hub }
    | .ok (some _, hub) => some ⟨hub, heed (told x.env x.agentId x.kind x.frame) s.due⟩
  | .opened env fault kind severity source title detail =>
    some (s.commit (openIncident env fault kind severity source title detail)
      (heed [(fingerprintOf fault, true)] s.due))
  | .resolved env fault detail =>
    some (s.commit (resolveIncident env fault detail) (heed [(fingerprintOf fault, false)] s.due))
  | .set env incidentId status =>
    some (s.commit (setIncidentStatus env incidentId status) (s.dueSet incidentId status))
  | .purge h cutoff => some (s.commit (purgeBatches h cutoff) s.due)
  | .forget expired =>
    some { s with hub := { s.hub with ingested := s.hub.ingested.filter fun k => !expired k } }
  | .statement q =>
    some { s with hub := { s.hub with business := q.1.exec SCHEMA s.hub.business } }

/-- The incidents of a Server from the creation of its database on. -/
def board : Machine State Action where
  Start := fun s => s = ⟨⟨[], Db.empty⟩, fun _ => false⟩
  step  := step

/-! ## A retention pass -/

/-- The incidents depend on no table, so they may stand below every other. -/
def lowRank (t : Table) : Nat := if t = .incidents then 0 else rank t

theorem schema_lowRanked : Ranked SCHEMA lowRank where
  parent    := by intro t; cases t <;> decide
  bound     := by intro t; cases t <;> decide
  nullable  := by intro t; cases t <;> decide
  unchecked := schema_ranked.unchecked

variable {db db' : HubDb} {h : Horizons} {cutoff : Int → String} {spec : PurgeSpec} {n : Nat}

theorem Thinned.refl (hdb : Sound db) : Thinned db db fun _ => true where
  sound   := hdb
  rows    := by rw [List.filter_true]
  cleared := fun _ hk => absurd hk.symm Bool.false_ne_true

theorem Thinned.trans {db'' : HubDb} {keep keep' : HubRow → Bool} (h₁ : Thinned db db' keep)
    (h₂ : Thinned db' db'' keep') : Thinned db db'' fun r => keep' r && keep r := by
  refine ⟨h₂.sound, by rw [h₂.rows, h₁.rows, List.filter_filter], fun r hk => ?_⟩
  rcases Bool.and_eq_false_iff.mp hk with hk | hk
  · exact h₂.cleared r hk
  · exact h₁.cleared r hk

/-- The entry of the incidents takes out what is over, the others take out none. -/
theorem spec_resolved (hs : spec ∈ messageSpec h :: furtherSpecs h) (ht : spec.table = .incidents)
    {r : HubRow} (hr : spec.expires cutoff r = true) : Server.resolved r = true := by
  unfold furtherSpecs at hs
  simp only [List.mem_cons, List.not_mem_nil, or_false] at hs
  rcases hs with rfl | rfl | rfl | rfl | rfl | rfl
  · cases ht
  · cases ht
  · cases ht
  · cases ht
  · cases ht
  · exact (Bool.and_eq_true_iff.mp hr).1

theorem purgeTable_thins (hdb : Sound db) (hn : 0 < n)
    (hs : spec ∈ messageSpec h :: furtherSpecs h) {c : Nat}
    (hrun : purgeTable cutoff spec n db = .ok (c, db')) : ∃ keep, Thinned db db' keep := by
  have hk : ((db.rows spec.table).filter (spec.expires cutoff)).length <
      (db.rows spec.table).length + 1 := Nat.lt_succ_of_le (List.length_filter_le _ _)
  obtain ⟨db₁, hd, hdone⟩ := drain_eq schema_lowRanked hn hdb hk
  have hsql : sql (SCHEMA.drain spec.table (spec.expires cutoff) n
      ((db.rows spec.table).length + 1)) db = .ok (c, db') := hrun
  rw [of_sql_ok hsql] at hd
  cases hd
  by_cases ht : spec.table = .incidents
  · refine ⟨fun r => !spec.expires cutoff r, hdone.consistent, ?_, fun r hr => ?_⟩
    · rw [← ht]
      exact hdone.rows
    · have hexpires : spec.expires cutoff r = true := by
        rw [← Bool.not_not (spec.expires cutoff r), hr]
        rfl
      exact spec_resolved hs ht hexpires
  · have hrows := hdone.below .incidents (Nat.zero_le _) (Ne.symm ht)
    have hkeep := Thinned.refl hdone.consistent
    exact ⟨fun _ => true, hdone.consistent, by rw [hrows, List.filter_true], hkeep.cleared⟩

theorem purgeTables_thins {specs : List PurgeSpec} (hn : 0 < n)
    (hs : ∀ spec ∈ specs, spec ∈ messageSpec h :: furtherSpecs h) {db db' : HubDb} (hdb : Sound db)
    {x : List (String × Nat)} (hrun : purgeTables cutoff n specs db = .ok (x, db')) :
    ∃ keep, Thinned db db' keep := by
  induction specs generalizing db x with
  | nil =>
    cases hrun
    exact ⟨_, .refl hdb⟩
  | cons spec specs ih =>
    obtain ⟨c, db₁, hfirst, hrest⟩ := of_bind_ok hrun
    obtain ⟨removed, db₂, hothers, hpure⟩ := of_bind_ok hrest
    cases hpure
    obtain ⟨keep, hkeep⟩ := purgeTable_thins hdb hn (hs spec List.mem_cons_self) hfirst
    obtain ⟨keep', hkeep'⟩ :=
      ih (fun spec' hm => hs spec' (List.mem_cons_of_mem _ hm)) hkeep.sound hothers
    exact ⟨_, hkeep.trans hkeep'⟩

theorem purgeBatches_thins (hdb : Sound db) {x : List (String × Nat)}
    (hrun : purgeBatches h cutoff db = .ok (x, db')) : ∃ keep, Thinned db db' keep := by
  unfold purgeBatches at hrun
  by_cases hsize : h.batchSize < 1
  · rw [if_pos hsize] at hrun
    cases hrun
  · rw [if_neg hsize] at hrun
    exact purgeTables_thins (by omega) (fun spec hm => List.mem_of_mem_filter hm) hdb hrun

/-! ## Turns of the ledger -/

/-- Nobody says that the fault is over, and the operator leaves its row alone. -/
def Quiet (name : String) (s : State) : Action → Prop
  | .ingest x             => (name, false) ∉ told x.env x.agentId x.kind x.frame
  | .resolved _ fault _   => fingerprintOf fault ≠ name
  | .set _ incidentId _   => nameOf s.hub.business incidentId ≠ some name
  | _                     => True

/-- What a step does to the ledger the table holds. -/
structure Turn (s s' : State) (a : Action) (book book' : Book) : Prop where
  holds : Represents s'.hub.business book'
  path  : ledger.Path Machine.Always book book'
  lit   : (∀ name, book.lit name = s.due name) → ∀ name, book'.lit name = s'.due name
  seen  : ∀ {name since firstSeen repeats}, Quiet name s a →
    Seen book name since firstSeen repeats → Seen book' name since firstSeen repeats

namespace Turn

variable {s s' : State} {a : Action} {book : Book}

/-- Words are noted, and heeded. -/
theorem noted (notes : List Note) (hb : Represents s'.hub.business (book.after notes))
    (hdue : s'.due = heed (notes.map Note.word) s.due)
    (hquiet : ∀ name, Quiet name s a → (name, false) ∉ notes.map Note.word) :
    Turn s s' a book (book.after notes) where
  holds := hb
  path  := path_after book notes
  lit   := by
    intro hlit name
    rw [lit_after, hdue, hlit]
    rfl
  seen  := fun hq hs => acknowledged_after hs notes (hquiet _ hq)

/-- Nothing is said. -/
theorem idle (hb : Represents s'.hub.business book) (hdue : s'.due = s.due) :
    Turn s s' a book book :=
  noted [] hb hdue fun _ _ => List.not_mem_nil

/-- One entry is made. -/
theorem entered (e : Entry) (hb : Represents s'.hub.business (book.enter e))
    (hlit : (∀ name, book.lit name = s.due name) → ∀ name, (book.enter e).lit name = s'.due name)
    (hseen : ∀ {name since firstSeen repeats}, Quiet name s a →
      Seen book name since firstSeen repeats → Seen (book.enter e) name since firstSeen repeats) :
    Turn s s' a book (book.enter e) :=
  ⟨hb, Machine.Path.single (a := e) trivial rfl, hlit, hseen⟩

end Turn

variable {s s' : State} {a : Action} {book : Book}

/-- A transaction that notes words. -/
theorem turn_commit {α : Type} {m : Hub α} {L : List Word} (hb : Represents s.hub.business book)
    (hm : Notes L m) (hquiet : ∀ name, Quiet name s a → (name, false) ∉ L) :
    ∃ book', Turn s (s.commit m (heed L s.due)) a book book' := by
  unfold State.commit
  cases hr : m s.hub.business with
  | error e => exact ⟨book, .idle hb rfl⟩
  | ok x =>
    obtain ⟨notes, rfl, hb'⟩ := hm _ _ _ book hr hb
    exact ⟨_, .noted notes hb' rfl hquiet⟩

theorem turn_ingest (x : Incoming) (hb : Represents s.hub.business book)
    (hs : step s (.ingest x) = some s') : ∃ book', Turn s s' (.ingest x) book book' := by
  unfold step at hs
  dsimp only at hs
  have hseq : ∀ b, SameTable Table.incidents b (x.noteSeq.exec SCHEMA b) :=
    Statement.exec_leaves (t := Table.incidents) Table.noConfusion rfl
  cases hr : x.ingest s.hub with
  | error e =>
    rw [hr] at hs
    cases hs
    exact ⟨book, .idle hb rfl⟩
  | ok y =>
    obtain ⟨r, hub⟩ := y
    rw [hr] at hs
    rcases Database.applyEvent_cases hr with ⟨rfl, hk, -⟩ | ⟨applied, b, rfl, -, hcall, rfl⟩
    · -- a replay notes its number and nothing else
      cases hs
      have hrun : x.ingest s.hub = _ := if_pos hk
      rw [hr] at hrun
      cases hrun
      exact ⟨book, .idle (hb.same (hseq _) (Statement.exec_consistent hb.sound x.noteSeq)) rfl⟩
    · cases hs
      obtain ⟨notes, hwords, hb'⟩ := notes_apply (E := x.env) x.eventKey _ _ _ book hcall hb
      refine ⟨_, .noted notes (hb'.same (hseq _) (Statement.exec_consistent hb'.sound x.noteSeq)) ?_ ?_⟩
      · rw [hwords]
      · rw [hwords]
        exact fun _ hq => hq

theorem turn_set (E : Env) (incidentId : Int) (status : String)
    (hb : Represents s.hub.business book) :
    ∃ book', Turn s (s.commit (setIncidentStatus E incidentId status) (s.dueSet incidentId status))
      (.set E incidentId status) book book' := by
  unfold State.commit
  cases hr : setIncidentStatus E incidentId status s.hub.business with
  | error e => exact ⟨book, .idle hb rfl⟩
  | ok x =>
    obtain ⟨st, rfl, hb'⟩ := represents_set hb hr
    unfold Book.markOf at hb'
    cases hn : nameOf s.hub.business incidentId with
    | none =>
      rw [hn] at hb'
      refine ⟨book, .idle hb' ?_⟩
      unfold State.dueSet
      rw [hn]
    | some fault =>
      rw [hn] at hb'
      refine ⟨_, .entered (.mark E.utcnow fault st) hb' (fun hlit name => ?_) fun hq hs => ?_⟩
      · obtain ⟨r, hr', -⟩ := nameOf_eq hb hn
        obtain ⟨i, hi, -⟩ := hb.page hr'
        unfold State.dueSet
        rw [hn, lit_mark]
        show _ = (lastWord [(fault, _)] name).getD (s.due name)
        rw [lastWord_cons, lastWord_nil, Option.none_or]
        by_cases he : name = fault
        · subst he
          rw [hi, if_pos ⟨rfl, rfl⟩, if_pos rfl]
          show decide (st ≠ .resolved) = decide (st.name ≠ "resolved")
          cases st with
          | active => decide
          | acknowledged => decide
          | resolved => decide
        · rw [if_neg fun h => he h.1, if_neg he]
          exact hlit name
      · refine hs.enter (fun n he => by cases he) fun now status he => hq ?_
        cases he
        exact hn

/-- **Each step is a turn of the ledger.** -/
theorem turn (hb : Represents s.hub.business book) (hs : step s a = some s') :
    ∃ book', Turn s s' a book book' := by
  cases a with
  | ingest x => exact turn_ingest x hb hs
  | opened E fault kind severity source title detail =>
    cases hs
    refine turn_commit hb (notes_open _ _ _ _ _ _) fun name _ hm => ?_
    have hw := congrArg Prod.snd (List.mem_singleton.mp hm)
    cases hw
  | resolved E fault detail =>
    cases hs
    refine turn_commit hb (notes_resolve _ _) fun name hq hm => hq ?_
    exact (congrArg Prod.fst (List.mem_singleton.mp hm)).symm
  | set E incidentId status =>
    cases hs
    exact turn_set E incidentId status hb
  | purge h cutoff =>
    cases hs
    unfold State.commit
    cases hr : purgeBatches h cutoff s.hub.business with
    | error e => exact ⟨book, .idle hb rfl⟩
    | ok x =>
      obtain ⟨keep, hkeep⟩ := purgeBatches_thins hb.sound hr
      obtain ⟨gone, hb'⟩ := represents_expire hb hkeep
      refine ⟨_, .entered (.expire gone) hb' (fun hlit name => ?_) fun _ hs => ?_⟩
      · rw [lit_expire]
        exact hlit name
      · exact hs.enter (fun n he => by cases he) fun now status he => by cases he
  | forget expired =>
    cases hs
    exact ⟨book, .idle hb rfl⟩
  | statement q =>
    cases hs
    have hsame : SameTable Table.incidents s.hub.business (q.1.exec SCHEMA s.hub.business) :=
      Statement.exec_leaves (Ne.symm q.2) rfl _
    exact ⟨book, .idle (hb.same hsame (Statement.exec_consistent hb.sound q.1)) rfl⟩

/-! ## Runs -/

/-- The ledger the table holds, with what is lit. -/
def Kept (s : State) : Prop :=
  ∃ book, ledger.Reachable book ∧ Represents s.hub.business book ∧ ∀ name, book.lit name = s.due name

theorem board_kept (h : board.Reachable s) : Kept s := by
  refine h.invariant ?_ ?_
  · rintro _ rfl
    exact ⟨fun _ => none, .start rfl, represents_empty, fun _ => rfl⟩
  · rintro s a s' ⟨book, hbook, hb, hlit⟩ - hs
    obtain ⟨book', ht⟩ := turn hb hs
    exact ⟨book', hbook.path ht.path, ht.holds, ht.lit hlit⟩

/-- A module that is not registered. -/
def unregistered : Incoming where
  env := ⟨"2026-01-01T00:00:00+00:00", fun _ => none, fun _ => "", fun _ => "", fun _ => ""⟩
  agentId  := "home"
  streamId := "s1"
  seq      := 1
  kind     := "status"
  frame    := [("device", .str "m1"), ("online", .bool true), ("registered", .bool false)]

/-- A Server that has just been set up. -/
def fresh : State := ⟨⟨[], Db.empty⟩, fun _ => false⟩

/-- The fault has a row that is not resolved. -/
def Unresolved (db : HubDb) (name : String) : Prop :=
  ∃ r ∈ db.rows .incidents, r.cells .fingerprint = text name ∧ r.cells .status ≠ text "resolved"

theorem unresolved_iff (hb : Represents db book) (name : String) :
    Unresolved db name ↔ book.lit name = true := by
  have hstatus : ∀ (r : HubRow) (i : Incident), r.cells = i.cells name →
      (r.cells .status ≠ text "resolved" ↔ i.lit = true) := by
    intro r i hc
    unfold Incident.lit
    rw [hc]
    show text i.phase.status.name ≠ text "resolved" ↔ _
    rw [Ne, text_inj]
    cases i.phase.status with
    | active => decide
    | acknowledged => decide
    | resolved => decide
  constructor
  · rintro ⟨r, hr, hn, hs⟩
    obtain ⟨i, hi, hc⟩ := hb.page (page_of_mem hb.sound hr hn)
    unfold Book.lit
    rw [hi]
    exact (hstatus r i hc).mp hs
  · intro hl
    unfold Book.lit at hl
    cases hi : book name with
    | none => rw [hi] at hl; cases hl
    | some i =>
      rw [hi] at hl
      obtain ⟨r, hr, hc⟩ := hb.row hi
      obtain ⟨hmem, hn⟩ := mem_of_page hr
      exact ⟨r, hmem, hn, (hstatus r i hc).mpr hl⟩

/-- **The board shows the faults**: in every run, a fault has an unresolved row exactly while what
    was said of it last is that it is there. -/
theorem board_lit_iff (h : board.Reachable s) (name : String) :
    Unresolved s.hub.business name ↔ s.due name = true := by
  obtain ⟨book, -, hb, hlit⟩ := board_kept h
  rw [unresolved_iff hb, hlit]

/-- The lamp after the frame. -/
theorem unregistered_lit :
    ∃ s, board.run fresh [.ingest unregistered] = some s ∧
      Unresolved s.hub.business "network-registration:home:m1" := by
  obtain ⟨s, hs, hdue⟩ : ∃ s, board.run fresh [.ingest unregistered] = some s ∧
      s.due "network-registration:home:m1" = true := ⟨_, rfl, rfl⟩
  exact ⟨s, hs, (board_lit_iff (Machine.run_reachable rfl hs) _).mpr hdue⟩

/-! ## What the operator has acknowledged -/

theorem seen_path {name since firstSeen : String} {repeats : Nat}
    (hp : board.Path (Quiet name) s s') (hb : Represents s.hub.business book)
    (hs : Seen book name since firstSeen repeats) :
    ∃ book', Represents s'.hub.business book' ∧ Seen book' name since firstSeen repeats := by
  refine Machine.Path.invariant (I := fun s => ∃ book, Represents s.hub.business book ∧
    Seen book name since firstSeen repeats) ?_ hp ⟨book, hb, hs⟩
  rintro s a s' ⟨book, hb, hs⟩ hq hstep
  obtain ⟨book', ht⟩ := turn hb hstep
  exact ⟨book', ht.holds, ht.seen hq hs⟩

/-- **Reports do not undo an acknowledgement**: while nobody says that the fault is over and the
    operator leaves the row alone, it stays acknowledged, since when it was and with the time the
    fault began, however often the fault is reported. -/
theorem board_acknowledged (h : board.Reachable s) {name : String}
    (hp : board.Path (Quiet name) s s') {r : HubRow} (hr : r ∈ s.hub.business.rows .incidents)
    (hname : r.cells .fingerprint = text name) (hstatus : r.cells .status = text "acknowledged") :
    ∃ r' ∈ s'.hub.business.rows .incidents, r'.cells .fingerprint = text name ∧
      r'.cells .status = text "acknowledged" ∧ (r.cells .acknowledgedAt).isSome ∧
      r'.cells .acknowledgedAt = r.cells .acknowledgedAt ∧
      r'.cells .firstSeenAt = r.cells .firstSeenAt ∧
      count (r.cells .occurrences) ≤ count (r'.cells .occurrences) := by
  obtain ⟨book, -, hb, -⟩ := board_kept h
  obtain ⟨i, hi, hc⟩ := hb.page (page_of_mem hb.sound hr hname)
  obtain ⟨report, phase, repeats, firstSeen, lastSeen⟩ := i
  have hphase : ∃ since, phase = .acknowledged since := by
    rw [hc] at hstatus
    have hs := text_inj.mp (show text phase.status.name = text "acknowledged" from hstatus)
    cases phase with
    | active => exact absurd hs (by decide)
    | acknowledged since => exact ⟨since, rfl⟩
    | resolved since seen => exact absurd hs (show "resolved" ≠ "acknowledged" by decide)
  obtain ⟨since, rfl⟩ := hphase
  obtain ⟨book', hb', ⟨i', hi', hphase', hfirst', hle⟩⟩ :=
    seen_path hp hb ⟨_, hi, rfl, rfl, Nat.le_refl repeats⟩
  obtain ⟨r', hr', hc'⟩ := hb'.row hi'
  obtain ⟨hmem, hname'⟩ := mem_of_page hr'
  refine ⟨r', hmem, hname', ?_, ?_, ?_, ?_, ?_⟩
  · rw [hc']
    show text i'.phase.status.name = _
    rw [hphase']
    rfl
  · rw [hc]
    rfl
  · rw [hc', hc]
    show i'.phase.acknowledgedAt.map Cell.text = _
    rw [hphase']
    rfl
  · rw [hc', hc]
    exact congrArg text hfirst'
  · rw [hc', hc]
    show (repeats + 1 : Int) ≤ i'.repeats + 1
    omega

/-- The module is still not registered, and the operator has seen it. -/
theorem unregistered_acknowledged :
    ∃ s s', board.run fresh [.ingest unregistered, .set unregistered.env 1 "acknowledged"] = some s ∧
      board.run s [.ingest { unregistered with seq := 2 }] = some s' ∧
      ∃ r' ∈ s'.hub.business.rows .incidents, r'.cells .status = text "acknowledged" := by
  obtain ⟨s, hs, r, hr, hname, hstatus⟩ : ∃ s, board.run fresh [.ingest unregistered,
      .set unregistered.env 1 "acknowledged"] = some s ∧ ∃ r, r ∈ s.hub.business.rows .incidents ∧
      r.cells .fingerprint = text "network-registration:home:m1" ∧
      r.cells .status = text "acknowledged" := ⟨_, rfl, _, List.mem_singleton_self _, rfl, rfl⟩
  have hreach := Machine.run_reachable (M := board) rfl hs
  have hquiet : Quiet "network-registration:home:m1" s (.ingest { unregistered with seq := 2 }) := by
    show (_, false) ∉ told _ _ _ _
    decide
  cases hs
  obtain ⟨r', hr', -, hstatus', -⟩ :=
    board_acknowledged hreach (.single hquiet rfl) hr hname hstatus
  exact ⟨_, _, rfl, rfl, r', hr', hstatus'⟩

end Air780eHub.Incidents
