/-
  The `incidents` table holds the ledger.

  `Represents db book` : every row of the table is a page of the book, and every page has its row.
  Each operation on the table is an entry of the ledger.

  1. **`Incident.cells`**: the row of a page.
  2. **`open_incident`** and **`resolve_incident`** are notes.
  3. **`set_incident_status`** is the operator's mark.
  4. **Expiry**: what a retention pass takes out of the table.
-/
import Air780eHub.Lib.Keyed
import Air780eHub.Incidents.Ledger
import Air780eHub.Server.Footprints
import Air780eHub.Server.ApplySafe

namespace Air780eHub.Incidents

open Relational Server

/-! ## The row of a page -/

def Status.name : Status → String
  | .active       => "active"
  | .acknowledged => "acknowledged"
  | .resolved     => "resolved"

/-- The cells of a page's row. -/
def Incident.cells (name : String) (i : Incident) : Column → Option Cell
  | .fingerprint    => text name
  | .kind           => text i.report.kind
  | .severity       => text i.report.severity
  | .source         => text i.report.source
  | .title          => text i.report.title
  | .detail         => text i.report.detail
  | .status         => text i.phase.status.name
  | .occurrences    => integer (i.repeats + 1)
  | .firstSeenAt    => text i.firstSeen
  | .lastSeenAt     => text i.lastSeen
  | .acknowledgedAt => i.phase.acknowledgedAt.map .text
  | .resolvedAt     => i.phase.resolvedAt.map .text
  | _               => none

/-- The row of a fault, if there is one. -/
def pageOf (db : HubDb) (name : String) : Option HubRow :=
  db.at .incidents [.fingerprint] fun _ => text name

/-- The table holds the pages of the book. -/
structure Represents (db : HubDb) (book : Book) : Prop where
  sound : Sound db
  named : ∀ r ∈ db.rows .incidents, ∃ name, r.cells .fingerprint = text name
  shows : ∀ name, (pageOf db name).map Row.cells = (book name).map (Incident.cells name)

variable {E : Env} {db db' : HubDb} {book : Book} {name : String} {r : HubRow}

theorem represents_empty : Represents Db.empty fun _ => none where
  sound := ⟨fun _ => .nil, fun _ => List.forall_mem_nil _,
    fun _ => ⟨List.forall_mem_nil _, fun _ _ => .nil, List.forall_mem_nil _⟩⟩
  named := List.forall_mem_nil _
  shows := fun _ => rfl

theorem mem_of_page (h : pageOf db name = some r) :
    r ∈ db.rows .incidents ∧ r.cells .fingerprint = text name := by
  obtain ⟨hr, hk⟩ := mem_of_at h
  exact ⟨hr, (sameKey_iff.mp hk .fingerprint (List.mem_singleton_self _)).2⟩

theorem page_of_mem (h : Sound db) (hr : r ∈ db.rows .incidents)
    (hn : r.cells .fingerprint = text name) : pageOf db name = some r := by
  refine at_of_mem h (List.mem_singleton_self _) hr (sameKey_iff.mpr fun c hc => ?_)
  obtain rfl := List.mem_singleton.mp hc
  rw [hn]
  exact ⟨rfl, rfl⟩

theorem equals_text (s s' : String) : equals (text s) (text s') = decide (s = s') := by
  show (text s == text s') = decide (s = s')
  rw [Bool.eq_iff_iff, beq_iff_eq, decide_eq_true_iff]
  exact text_inj

namespace Represents

/-- A row shows its page. -/
theorem page (h : Represents db book) (hr : pageOf db name = some r) :
    ∃ i, book name = some i ∧ r.cells = i.cells name := by
  have hs := h.shows name
  rw [hr, Option.map_some] at hs
  obtain ⟨i, hi, hc⟩ := Option.map_eq_some_iff.mp hs.symm
  exact ⟨i, hi, hc.symm⟩

theorem of_mem (h : Represents db book) (hr : r ∈ db.rows .incidents) :
    ∃ name i, book name = some i ∧ r.cells = i.cells name := by
  obtain ⟨name, hn⟩ := h.named r hr
  obtain ⟨i, hi⟩ := h.page (page_of_mem h.sound hr hn)
  exact ⟨name, i, hi⟩

/-- A page has its row. -/
theorem row (h : Represents db book) {i : Incident} (hi : book name = some i) :
    ∃ r, pageOf db name = some r ∧ r.cells = i.cells name := by
  have hs := h.shows name
  rw [hi, Option.map_some] at hs
  exact Option.map_eq_some_iff.mp hs

/-- Statements on other tables. -/
theorem same (h : Represents db book) (hs : SameTable .incidents db db') (hdb : Sound db') :
    Represents db' book := by
  refine ⟨hdb, ?_, fun name => ?_⟩
  · rw [hs.rows]
    exact h.named
  · rw [pageOf, at_of_rows hs.rows]
    exact h.shows name

theorem touches (h : Represents db book) {α : Type} {m : Hub α} {ts : List Table} {a : α}
    (hm : Touches ts m) (ht : .incidents ∉ ts) (hrun : m db = .ok (a, db')) :
    Represents db' book :=
  h.same (hm.leaves ht db a db' hrun) ((hm db a db' hrun).consistent h.sound)

end Represents

/-- Whether a row is of a fault that is over. -/
theorem resolved_cells {i : Incident} (hr : r.cells = i.cells name) : resolved r = !i.lit := by
  unfold resolved Incident.lit
  rw [hr]
  show equals (text i.phase.status.name) _ = _
  cases i.phase.status with
  | active => decide
  | acknowledged => decide
  | resolved => decide

/-! ## Reports -/

/-- `fingerprint[:256]`. -/
def fingerprintOf (s : String) : String := pyTake 256 s

/-- The texts of a report, as long as the columns take them. -/
def reportOf (kind severity source title detail : String) : Report where
  kind     := pyTake 64 kind
  severity := pyTake 16 severity
  source   := pyTake 128 source
  title    := pyTake 256 title
  detail   := pyTake 1000 detail

section Open

variable {fault kind severity source title detail : String} {u : Unit}

/-- What `open_incident` inserts. -/
def openCells (E : Env) (fault kind severity source title detail : String) :
    Assignments Column Cell :=
  [(.fingerprint, text (pyTake 256 fault)), (.kind, text (pyTake 64 kind)),
   (.severity, text (pyTake 16 severity)), (.source, text (pyTake 128 source)),
   (.title, text (pyTake 256 title)), (.detail, text (pyTake 1000 detail)),
   (.status, text "active"), (.occurrences, integer 1), (.firstSeenAt, text E.utcnow),
   (.lastSeenAt, text E.utcnow)]

/-- What it writes over a row that is there. -/
def refreshCells (E : Env) (kind severity source title detail : String) (r : HubRow) :
    Assignments Column Cell :=
  [(.kind, text (pyTake 64 kind)), (.severity, text (pyTake 16 severity)),
   (.source, text (pyTake 128 source)), (.title, text (pyTake 256 title)),
   (.detail, text (pyTake 1000 detail)),
   (.status, if resolved r then text "active" else r.cells .status),
   (.occurrences, integer (count (r.cells .occurrences) + 1)),
   (.firstSeenAt, if resolved r then text E.utcnow else r.cells .firstSeenAt),
   (.lastSeenAt, text E.utcnow),
   (.acknowledgedAt, if resolved r then none else r.cells .acknowledgedAt),
   (.resolvedAt, none)]

theorem openIncident_eq : openIncident E fault kind severity source title detail =
    sql (SCHEMA.upsert .incidents [.fingerprint] (openCells E fault kind severity source title detail)
      (refreshCells E kind severity source title detail)) := rfl

theorem assign_open : assign (openCells E fault kind severity source title detail)
      (SCHEMA.defaults .incidents) =
    (Incident.opened E.utcnow (reportOf kind severity source title detail)).cells
      (fingerprintOf fault) := by
  funext c
  cases c <;> rfl

theorem assign_refresh {i : Incident} (hr : r.cells = i.cells name) :
    assign (refreshCells E kind severity source title detail r) r.cells =
      (i.again E.utcnow (reportOf kind severity source title detail)).cells name := by
  have hres := resolved_cells hr
  obtain ⟨id, cells⟩ := r
  obtain ⟨report, phase, repeats, firstSeen, lastSeen⟩ := i
  dsimp only at hr hres
  subst hr
  unfold refreshCells
  rw [hres]
  funext c
  cases phase with
  | active => cases c <;> rfl
  | acknowledged since => cases c <;> rfl
  | resolved since seen => cases c <;> rfl

/-- **`open_incident` notes a fault.** -/
theorem represents_open (h : Represents db book)
    (ho : openIncident E fault kind severity source title detail db = .ok (u, db')) :
    Represents db' (book.note (.fault E.utcnow (fingerprintOf fault)
      (reportOf kind severity source title detail))) := by
  rw [openIncident_eq] at ho
  have hu := of_sql_ok ho
  have hset : ∀ r, ∀ x ∈ refreshCells E kind severity source title detail r,
      x.1 ∉ [Column.fingerprint] := by
    intro r
    simp only [refreshCells, List.forall_mem_cons, List.not_mem_nil, false_imp_iff, implies_true,
      and_true]
    decide
  have hkey : ∀ c ∈ [Column.fingerprint], assign (openCells E fault kind severity source title
      detail) (SCHEMA.defaults .incidents) c = text (fingerprintOf fault) := by
    intro c hc
    obtain rfl := List.mem_singleton.mp hc
    rw [assign_open]
    rfl
  have hself := at_upsert_self hset (fun c hc => by rw [hkey c hc]; rfl) hu
  rw [at_congr hkey] at hself
  unfold upserted at hself
  rw [at_congr hkey] at hself
  refine ⟨upsert_consistent h.sound hu, ?_, fun name => ?_⟩
  · intro r hr
    rcases mem_upsert hset hu hr with ⟨r', hr', hc⟩ | hc
    · rw [hc .fingerprint (List.mem_singleton_self _)]
      exact h.named r' hr'
    · exact ⟨fingerprintOf fault, by rw [hc]; exact hkey _ (List.mem_singleton_self _)⟩
  · show _ = ((book.write (fingerprintOf fault) _) name).map (Incident.cells name)
    by_cases hn : name = fingerprintOf fault
    · subst hn
      rw [Book.write_self, pageOf, hself]
      cases hp : db.at .incidents [.fingerprint] fun _ => text (fingerprintOf fault) with
      | none =>
        have hs := h.shows (fingerprintOf fault)
        rw [pageOf, hp, Option.map_none] at hs
        rw [Option.map_eq_none_iff.mp hs.symm]
        exact congrArg some assign_open
      | some r =>
        obtain ⟨i, hi, hc⟩ := h.page hp
        rw [hi]
        exact congrArg some (assign_refresh hc)
    · have hne : sameKey [.fingerprint] (assign (openCells E fault kind severity source title detail)
          (SCHEMA.defaults .incidents)) (fun _ => text name) = false := by
        rw [Bool.eq_false_iff, Ne, sameKey_iff]
        intro hk
        have he := (hk .fingerprint (List.mem_singleton_self _)).2
        rw [hkey _ (List.mem_singleton_self _)] at he
        exact hn (text_inj.mp he).symm
      rw [Book.write_ne _ _ hn, pageOf, at_upsert_ne h.sound hset hu hne]
      exact h.shows name

end Open

/-! ## Updates -/

/-- An update that leaves the names alone rewrites pages, each from what it was. -/
theorem represents_update (h : Represents db book) {p : HubRow → Bool}
    {set : HubRow → Assignments Column Cell} {u : Unit}
    (hset : ∀ r, ∀ x ∈ set r, x.1 ≠ Column.fingerprint)
    (hu : SCHEMA.update .incidents p set db = .ok (u, db')) {g : String → Incident → Incident}
    (hg : ∀ name i r, pageOf db name = some r → r.cells = i.cells name →
      (written p set r).cells = (g name i).cells name) :
    Represents db' fun name => (book name).map (g name) := by
  obtain ⟨rfl, -⟩ := update_inv hu
  refine ⟨update_consistent h.sound hu, fun r hr => ?_, fun name => ?_⟩
  · rw [rows_updated_self] at hr
    obtain ⟨r', hr', rfl⟩ := List.mem_map.mp hr
    rw [written_cell (hset r')]
    exact h.named r' hr'
  · rw [pageOf, at_updated fun r x hx hm => hset r x hx (List.mem_singleton.mp hm)]
    show ((pageOf db name).map (written p set)).map Row.cells = _
    cases hp : pageOf db name with
    | none =>
      have hs := h.shows name
      rw [hp, Option.map_none] at hs
      rw [Option.map_eq_none_iff.mp hs.symm]
      rfl
    | some r =>
      obtain ⟨i, hi, hc⟩ := h.page hp
      rw [hi]
      exact congrArg some (hg name i r hp hc)

/-- One page is rewritten. -/
theorem write_eq_map (book : Book) (fault : String) (f : Incident → Incident) :
    book.write fault (Option.map f) =
      fun name => (book name).map fun i => if name = fault then f i else i := by
  funext name
  by_cases h : name = fault
  · subst h
    rw [Book.write_self]
    simp only [if_true]
  · rw [Book.write_ne book _ h]
    simp only [if_neg h, Option.map_id']

theorem written_of_true {p : HubRow → Bool} {set : HubRow → Assignments Column Cell}
    (hp : p r = true) : (written p set r).cells = assign (set r) r.cells := by
  rw [written, if_pos hp]

theorem written_of_false {p : HubRow → Bool} {set : HubRow → Assignments Column Cell}
    (hp : p r = false) : written p set r = r := by
  rw [written, if_neg (by rw [hp]; exact Bool.false_ne_true)]

/-! ### Faults that are over -/

/-- What `resolve_incident` writes. -/
def settleCells (E : Env) (detail : String) : Assignments Column Cell :=
  if detail = "" then
    [(.status, text "resolved"), (.lastSeenAt, text E.utcnow), (.resolvedAt, text E.utcnow)]
  else
    [(.status, text "resolved"), (.detail, text (pyTake 1000 detail)),
     (.lastSeenAt, text E.utcnow), (.resolvedAt, text E.utcnow)]

theorem pyTake_eq_empty {n : Nat} (hn : 0 < n) {s : String} : pyTake n s = "" ↔ s = "" := by
  unfold pyTake
  rw [String.ofList_eq_empty_iff, List.take_eq_nil_iff]
  constructor
  · rintro (h | h)
    · omega
    · exact String.toList_eq_nil_iff.mp h
  · intro h
    exact .inr (String.toList_eq_nil_iff.mpr h)

theorem assign_settle {i : Incident} {detail : String} (hlit : i.lit = true)
    (hr : r.cells = i.cells name) : assign (settleCells E detail) r.cells =
      (i.settle E.utcnow (pyTake 1000 detail)).cells name := by
  rw [hr]
  unfold settleCells Incident.settle
  rw [if_pos hlit]
  by_cases hd : detail = ""
  · subst hd
    funext c
    cases c <;> rfl
  · have hd' : pyTake 1000 detail ≠ "" := fun h => hd ((pyTake_eq_empty (by omega)).mp h)
    simp only [if_neg hd, if_neg hd']
    funext c
    cases c <;> rfl

/-- **`resolve_incident` notes that a fault is over.** -/
theorem represents_resolve (h : Represents db book) {fault detail : String} {u : Unit}
    (hr : resolveIncident E fault detail db = .ok (u, db')) :
    Represents db' (book.note (.cleared E.utcnow (fingerprintOf fault) (pyTake 1000 detail))) := by
  show Represents db' (book.write (fingerprintOf fault)
    (Option.map (Incident.settle E.utcnow (pyTake 1000 detail))))
  rw [write_eq_map]
  have hu : SCHEMA.update .incidents (fun r => equals (r.cells .fingerprint)
    (text (pyTake 256 fault)) && !resolved r) (fun _ => settleCells E detail) db = .ok (u, db') :=
    of_sql_ok hr
  refine represents_update h ?_ hu fun name i r hp hc => ?_
  · intro _
    unfold settleCells
    split
    · simp only [List.forall_mem_cons, List.not_mem_nil, false_imp_iff, implies_true, and_true]
      decide
    · simp only [List.forall_mem_cons, List.not_mem_nil, false_imp_iff, implies_true, and_true]
      decide
  · have hmatch : (equals (r.cells .fingerprint) (text (pyTake 256 fault)) && !resolved r) =
        (decide (name = fingerprintOf fault) && i.lit) := by
      rw [(mem_of_page hp).2, equals_text, resolved_cells hc, Bool.not_not]
      rfl
    by_cases hn : name = fingerprintOf fault
    · rw [decide_eq_true hn, Bool.true_and] at hmatch
      rw [if_pos hn]
      cases hlit : i.lit with
      | true => rw [written_of_true (hmatch.trans hlit), assign_settle hlit hc]
      | false =>
        rw [written_of_false (hmatch.trans hlit), hc, Incident.settle,
          if_neg (by rw [hlit]; exact Bool.false_ne_true)]
    · rw [decide_eq_false hn, Bool.false_and] at hmatch
      rw [if_neg hn, written_of_false hmatch, hc]

/-! ## The operator's mark -/

/-- `set_incident_status`. -/
def setIncidentStatus (E : Env) (incidentId : Int) (status : String) : Hub (Option HubRow) :=
  if status = "active" ∨ status = "acknowledged" ∨ status = "resolved" then do
    sql (SCHEMA.update .incidents (fun r => equals (integer r.id) (integer incidentId)) fun _ =>
      [(.status, text status),
       (.acknowledgedAt, if status = "acknowledged" then text E.utcnow else none),
       (.resolvedAt, if status = "resolved" then text E.utcnow else none)])
    one .incidents fun r => equals (integer r.id) (integer incidentId)
  else throw .valueError

/-- The fault of the row with an id. -/
def nameOf (db : HubDb) (incidentId : Int) : Option String :=
  ((db.rows .incidents).find? fun r => equals (integer r.id) (integer incidentId)).map fun r =>
    textOf (r.cells .fingerprint)

theorem equals_integer (m n : Int) : equals (integer m) (integer n) = decide (m = n) := by
  show (integer m == integer n) = decide (m = n)
  rw [Bool.eq_iff_iff, beq_iff_eq, decide_eq_true_iff, integer, integer, Option.some.injEq,
    Cell.integer.injEq]

theorem nameOf_eq (h : Represents db book) {incidentId : Int} {name : String}
    (hn : nameOf db incidentId = some name) :
    ∃ r, pageOf db name = some r ∧ (r.id : Int) = incidentId := by
  obtain ⟨r, hr, ht⟩ := Option.map_eq_some_iff.mp hn
  have hmem := List.mem_of_find?_eq_some hr
  obtain ⟨name', hname⟩ := h.named r hmem
  have hid := List.find?_some hr
  rw [equals_integer] at hid
  rw [hname] at ht
  refine ⟨r, page_of_mem h.sound hmem ?_, of_decide_eq_true hid⟩
  rw [hname]
  exact congrArg text ht

/-- A page is the one with the id exactly when it is the one the id names. -/
theorem nameOf_iff (h : Represents db book) {incidentId : Int} (hr : pageOf db name = some r) :
    nameOf db incidentId = some name ↔ (r.id : Int) = incidentId := by
  constructor
  · intro hn
    obtain ⟨r', hr', hid⟩ := nameOf_eq h hn
    rw [hr] at hr'
    cases hr'
    exact hid
  · intro hid
    have hmem := (mem_of_page hr).1
    cases hf : nameOf db incidentId with
    | none =>
      have hnone := List.find?_eq_none.mp (Option.map_eq_none_iff.mp hf) r hmem
      rw [equals_integer, decide_eq_true hid] at hnone
      exact absurd rfl hnone
    | some name' =>
      obtain ⟨r', hr', hid'⟩ := nameOf_eq h hf
      have he : r' = r := by
        refine h.sound.row_eq (mem_of_page hr').1 hmem ?_
        omega
      rw [he] at hr'
      have ht := (mem_of_page hr').2.symm.trans (mem_of_page hr).2
      rw [text_inj.mp ht]

/-- The page an id names is marked. -/
def Book.markOf (book : Book) (db : HubDb) (now : String) (incidentId : Int) (s : Status) : Book :=
  match nameOf db incidentId with
  | none      => book
  | some name => book.enter (.mark now name s)

/-- **`set_incident_status` marks the page of the row.** -/
theorem represents_set (h : Represents db book) {incidentId : Int} {status : String}
    {x : Option HubRow} (hx : setIncidentStatus E incidentId status db = .ok (x, db')) :
    ∃ s : Status, status = s.name ∧ Represents db' (book.markOf db E.utcnow incidentId s) := by
  unfold setIncidentStatus at hx
  by_cases hs : status = "active" ∨ status = "acknowledged" ∨ status = "resolved"
  · rw [if_pos hs] at hx
    obtain ⟨u, db₁, hu, hone⟩ := of_bind_ok hx
    cases hone
    obtain ⟨s, rfl⟩ : ∃ s : Status, status = s.name := by
      rcases hs with rfl | rfl | rfl
      · exact ⟨.active, rfl⟩
      · exact ⟨.acknowledged, rfl⟩
      · exact ⟨.resolved, rfl⟩
    have hmark : book.markOf db E.utcnow incidentId s = fun name => (book name).map fun i =>
        if nameOf db incidentId = some name then i.mark E.utcnow s else i := by
      unfold Book.markOf
      cases nameOf db incidentId with
      | none =>
        funext name
        exact Option.map_id'.symm
      | some fault =>
        refine (write_eq_map book fault _).trans (funext fun name => ?_)
        congr 1
        funext i
        exact if_congr (by rw [Option.some.injEq]; exact eq_comm) rfl rfl
    refine ⟨s, rfl, ?_⟩
    rw [hmark]
    refine represents_update h ?_ (of_sql_ok hu) fun name i r hp hc => ?_
    · intro _
      simp only [List.forall_mem_cons, List.not_mem_nil, false_imp_iff, implies_true, and_true]
      decide
    · by_cases hn : nameOf db incidentId = some name
      · have hid := (nameOf_iff h hp).mp hn
        rw [if_pos hn, written_of_true (by rw [equals_integer]; exact decide_eq_true hid), hc]
        funext c
        cases s with
        | active => cases c <;> rfl
        | acknowledged => cases c <;> rfl
        | resolved => cases c <;> rfl
      · have hid : ¬ (r.id : Int) = incidentId := fun hid => hn ((nameOf_iff h hp).mpr hid)
        rw [if_neg hn, written_of_false (by rw [equals_integer]; exact decide_eq_false hid), hc]
  · rw [if_neg hs] at hx
    cases hx

/-! ## Expiry -/

/-- Rows of faults that are over were taken out. -/
structure Thinned (db db' : HubDb) (keep : HubRow → Bool) : Prop where
  sound : Sound db'
  rows  : db'.rows .incidents = (db.rows .incidents).filter keep
  cleared : ∀ r, keep r = false → resolved r = true

/-- **What is over may be taken out.** -/
theorem represents_expire (h : Represents db book) {keep : HubRow → Bool}
    (ht : Thinned db db' keep) : ∃ gone, Represents db' (book.enter (.expire gone)) := by
  refine ⟨fun name => !((pageOf db name).all keep), ht.sound, fun r hr => ?_, fun name => ?_⟩
  · rw [ht.rows] at hr
    exact h.named r (List.mem_of_mem_filter hr)
  · show (pageOf db' name).map Row.cells = ((book name).filter _).map _
    rw [pageOf, at_filter h.sound (List.mem_singleton_self _) ht.rows]
    show ((pageOf db name).filter keep).map Row.cells = _
    cases hp : pageOf db name with
    | none =>
      have hs := h.shows name
      rw [hp, Option.map_none] at hs
      rw [Option.map_eq_none_iff.mp hs.symm]
      rfl
    | some r =>
      obtain ⟨i, hi, hc⟩ := h.page hp
      rw [hi]
      simp only [Bool.not_not, hp, Option.all_some]
      cases hk : keep r with
      | true =>
        have hstays : (some i).filter (fun i => i.lit || true) = some i :=
          Option.filter_some_pos (Bool.or_true i.lit)
        rw [Option.filter_some_pos hk, hstays]
        exact congrArg some hc
      | false =>
        have hover := ht.cleared r hk
        rw [resolved_cells hc, Bool.not_eq_true'] at hover
        rw [Option.filter_some_neg hk, Option.filter_some_neg (by rw [hover]; rfl)]
        rfl

end Air780eHub.Incidents
