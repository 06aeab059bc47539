/-
  No statement of an event's callback breaks a constraint, the receipt of a deleted task apart.

  `Safe P m Q` says of a program over the database that, started with `P`, it raises no integrity
  error and leaves `Q` where it returns.  Every operation is safe on a consistent database and
  leaves a consistent one, provided the values that go into NOT NULL columns are there.

  1. **Conversions and parameters.**
  2. **Incidents, cards and modules.**
  3. **Messages, calls and delivery reports.**
  4. **Notifications, operations and task synchronisation.**
-/
import Air780eHub.Server.Apply

namespace Air780eHub.Server

open Relational

/-- The exception is an integrity error. -/
def Failure.isIntegrity : Failure → Bool
  | .integrity _ => true
  | _            => false

/-- No integrity error from a database with `P`, and `Q` of what is left. -/
def Safe {α : Type} (P : HubDb → Prop) (m : Hub α) (Q : α → HubDb → Prop) : Prop :=
  Avoids (fun f : Failure => f.isIntegrity = true) P m Q

/-- Every declared constraint holds. -/
abbrev Sound (db : HubDb) : Prop := Consistent SCHEMA db

/-- A parameter for a NOT NULL column: neither None nor NaN. -/
def Filled : Value → Prop
  | .null    => False
  | .float t => ∃ q, Schedule.pyFloat t.toList = some (.finite q)
  | _        => True

variable {E : Env} {P : HubDb → Prop}

/-! ## Conversions and parameters -/

/-- A statement that raises no violation is safe. -/
theorem safe_sql {α : Type} {m : Sql Table Column Cell α} {Q : α → HubDb → Prop}
    (h : Avoids (fun _ => True) P m Q) : Safe P (sql m) Q := by
  intro db hP
  have h' := h db hP
  unfold sql
  cases hr : m db with
  | error v => rw [hr] at h'; exact absurd trivial h'
  | ok x => rw [hr] at h'; exact h'

theorem safe_convert {α : Type} {x : Except Failure α}
    (h : ∀ f, x = .error f → f.isIntegrity = false) : Safe P (convert x) fun _ => P := by
  intro db hP
  unfold convert
  cases hx : x with
  | error f => show ¬ f.isIntegrity = true; rw [h f hx]; exact Bool.false_ne_true
  | ok a => exact hP

theorem toInt_not_integrity {v : Value} {f : Failure} (h : toInt v = .error f) :
    f.isIntegrity = false := by
  unfold toInt at h
  split at h
  · cases h; rfl
  · cases h
  · cases h
  · split at h <;> cases h <;> rfl
  · split at h <;> cases h; rfl
  · cases h; rfl
  · cases h; rfl

theorem safe_toInt (v : Value) : Safe P (convert (toInt v)) fun _ => P :=
  safe_convert fun _ h => toInt_not_integrity h

theorem safe_optionalInt (v : Value) : Safe P (optionalInt v) fun _ => P := by
  unfold optionalInt
  split
  · exact Avoids.pure fun _ h => h
  · split
    · exact Avoids.pure fun _ h => h
    · exact Avoids.throw Bool.false_ne_true
    · exact Avoids.pure fun _ h => h

/-- What is bound for a value that is there is not NULL. -/
theorem safe_bind (v : Value) : Safe P (bind v) fun c db => P db ∧ (Filled v → c.isSome) := by
  cases v with
  | null => exact Avoids.pure fun db h => ⟨h, fun hf => hf.elim⟩
  | bool b => exact Avoids.pure fun db h => ⟨h, fun _ => rfl⟩
  | int n => exact Avoids.pure fun db h => ⟨h, fun _ => rfl⟩
  | float t =>
    refine Avoids.pure fun db h => ⟨h, fun hf => ?_⟩
    obtain ⟨q, hq⟩ := hf
    rw [hq]; rfl
  | str s => exact Avoids.pure fun db h => ⟨h, fun _ => rfl⟩
  | arr xs => exact Avoids.throw Bool.false_ne_true
  | obj fs => exact Avoids.throw Bool.false_ne_true

/-- A parameter is bound, and the program goes on with it. -/
theorem safe_bind_then {β : Type} {v : Value} {f : Option Cell → Hub β} {R : β → HubDb → Prop}
    (h : ∀ c, (Filled v → c.isSome) → Safe P (f c) R) : Safe P (bind v >>= f) R :=
  Avoids.bind (safe_bind v) fun c db hdb => h c hdb.2 db hdb.1

theorem safe_toUtcIso (v : Value) : Safe P (toUtcIso E v) fun _ => P := by
  unfold toUtcIso
  refine Avoids.ite (fun _ => ?_) fun _ => Avoids.pure fun _ h => h
  split
  · split
    · exact Avoids.pure fun _ h => h
    · exact Avoids.pure fun _ h => h
  · exact Avoids.throw Bool.false_ne_true

theorem safe_floatOrZero (v : Value) :
    Safe P (floatOrZero v) fun x db =>
      P db ∧ ((∀ t, v = .float t → Filled v) → (∀ s, v ≠ .str s) → (realCell x).isSome) := by
  unfold floatOrZero
  split
  · exact Avoids.pure fun db h => ⟨h, fun _ _ => rfl⟩
  · split
    · exact Avoids.pure fun db h => ⟨h, fun _ _ => rfl⟩
    · exact Avoids.throw Bool.false_ne_true
  · rename_i t
    refine Avoids.pure fun db h => ⟨h, fun hf _ => ?_⟩
    obtain ⟨q, hq⟩ := hf t rfl
    rw [hq]; rfl
  · rename_i s
    exact Avoids.pure fun db h => ⟨h, fun _ hs => absurd rfl (hs s)⟩
  · exact Avoids.pure fun db h => ⟨h, fun _ _ => rfl⟩

theorem safe_query (t : Table) (p : HubRow → Bool) :
    Safe P (query t p) fun rows db => P db ∧ ∀ r ∈ rows, r ∈ db.rows t ∧ p r = true :=
  Avoids.get fun db hP => Avoids.pure fun db' he => by
    subst he
    exact ⟨hP, fun r hr => List.mem_filter.mp hr⟩

theorem safe_one (t : Table) (p : HubRow → Bool) :
    Safe P (one t p) fun row db => P db ∧ ∀ r, row = some r → r ∈ db.rows t ∧ p r = true :=
  Avoids.get fun db hP => Avoids.pure fun db' he => by
    subst he
    exact ⟨hP, fun r hr => ⟨List.mem_of_find?_eq_some hr, List.find?_some hr⟩⟩

/-! ## Incidents -/

/-- A NOT NULL column of a stored row has a value. -/
theorem Sound.isSome {db : HubDb} (h : Sound db) {t : Table} {r : HubRow} (hr : r ∈ db.rows t)
    {c : Column} (hc : c ∈ SCHEMA.notNull t) : (r.cells c).isSome :=
  ((h.table t).rowOk r hr).notNull c hc

/-- What an incident is refreshed with leaves its NOT NULL columns filled. -/
theorem refresh_filled {db : HubDb} (h : Sound db) {r : HubRow} (hr : r ∈ db.rows .incidents)
    (c : Column) (hc : c ∈ SCHEMA.notNull .incidents) (s : String) :
    (if resolved r then text s else r.cells c).isSome := by
  split
  · rfl
  · exact h.isSome hr hc

theorem safe_openIncident (fingerprint kind severity source title detail : String) :
    Safe Sound (openIncident E fingerprint kind severity source title detail) fun _ => Sound := by
  refine safe_sql (upsert_avoids fun db h =>
    ⟨h, rowOk_of_all rfl rfl, fun r hr _ => ?_, fun hnew => ?_, fun _ h' _ => h'⟩)
  · have hstatus := refresh_filled h hr .status (by decide) "active"
    have hseen := refresh_filled h hr .firstSeenAt (by decide) E.utcnow
    refine Rewrites.assign_free h hr ?_ rfl rfl rfl
    simp only [List.forall_mem_cons, List.not_mem_nil, false_imp_iff, implies_true, and_true]
    refine ⟨fun _ => rfl, fun _ => rfl, fun _ => rfl, fun _ => rfl, fun _ => rfl, fun _ => hstatus,
      fun _ => rfl, fun _ => hseen, fun _ => rfl, fun hn => absurd hn (by decide),
      fun hn => absurd hn (by decide)⟩
  · refine { rowOk_of_all rfl rfl with unique := ?_, refers := refers_of_nil rfl }
    intro columns hc r hr
    obtain rfl := List.mem_singleton.mp hc
    exact hnew r hr

theorem safe_resolveIncident (fingerprint detail : String) :
    Safe Sound (resolveIncident E fingerprint detail) fun _ => Sound := by
  refine safe_sql (update_avoids fun db h => ⟨h, fun r hr _ => ?_, fun h' => h'⟩)
  by_cases hd : detail = ""
  · rw [if_pos hd]
    refine Rewrites.assign_free h hr ?_ rfl rfl rfl
    simp only [List.forall_mem_cons, List.not_mem_nil, false_imp_iff, implies_true, and_true]
    exact ⟨fun _ => rfl, fun _ => rfl, fun _ => rfl⟩
  · rw [if_neg hd]
    refine Rewrites.assign_free h hr ?_ rfl rfl rfl
    simp only [List.forall_mem_cons, List.not_mem_nil, false_imp_iff, implies_true, and_true]
    exact ⟨fun _ => rfl, fun _ => rfl, fun _ => rfl, fun _ => rfl⟩

/-! ## Cards and modules -/

/-- A row of the table has this id. -/
def Has (t : Table) (i : Nat) (db : HubDb) : Prop := i ∈ db.ids t

theorem safe_learn {card : Option Cell} {column : Column} {v : Value} {cell : Option Cell}
    (hcell : Filled v → cell.isSome) (hv : v.truthy = true → Filled v)
    (hcolumn : column = .operator ∨ column = .smsc) :
    Safe Sound (learn card column v cell) fun _ => Sound := by
  refine Avoids.ite (fun ht => ?_) fun _ => Avoids.pure fun _ h => h
  have hsome := hcell (hv ht)
  refine safe_sql (update_avoids fun db h => ⟨h, fun r hr _ => ?_, fun h' => h'⟩)
  rcases hcolumn with rfl | rfl
  · refine Rewrites.assign_free h hr ?_ rfl rfl rfl
    simp only [List.forall_mem_cons, List.not_mem_nil, false_imp_iff, implies_true, and_true]
    exact fun _ => hsome
  · refine Rewrites.assign_free h hr ?_ rfl rfl rfl
    simp only [List.forall_mem_cons, List.not_mem_nil, false_imp_iff, implies_true, and_true]
    exact fun _ => hsome

/-- A value that names a card or says what is known of it: a string. -/
theorem filled_str (s : String) : Filled (.str s) := trivial

theorem safe_putSim {iccid operator smsc : Value} (hi : Filled iccid) (ho : Filled operator)
    (hs : Filled smsc) :
    Safe Sound (putSim E iccid operator smsc) fun i db =>
      Sound db ∧ ∀ n, i = some n → Has .sims n db := by
  unfold putSim
  refine safe_bind_then fun card hcard => safe_bind_then fun op hop => safe_bind_then fun centre hcentre => ?_
  refine Avoids.bind (Q := fun _ db => Sound db) ?_ fun _ => ?_
  · obtain ⟨c, rfl⟩ := Option.isSome_iff_exists.mp (hcard hi)
    obtain ⟨o, rfl⟩ := Option.isSome_iff_exists.mp (hop ho)
    obtain ⟨s, rfl⟩ := Option.isSome_iff_exists.mp (hcentre hs)
    refine safe_sql (upsert_avoids fun db h =>
      ⟨h, rowOk_of_all rfl rfl, fun r hr _ => ?_, fun hnew => ?_, fun _ h' _ => h'⟩)
    · refine Rewrites.assign_free h hr ?_ rfl rfl rfl
      simp only [List.forall_mem_cons, List.not_mem_nil, false_imp_iff, implies_true, and_true]
      exact fun _ => rfl
    · refine { rowOk_of_all rfl rfl with unique := ?_, refers := refers_of_nil rfl }
      intro columns hc r hr
      obtain rfl := List.mem_singleton.mp hc
      exact hnew r hr
  · refine Avoids.bind (safe_learn hop (fun _ => ho) (Or.inl rfl)) fun _ => ?_
    refine Avoids.bind (safe_learn hcentre (fun _ => hs) (Or.inr rfl)) fun _ => ?_
    refine Avoids.bind (safe_one .sims _) fun row => Avoids.pure fun db h => ⟨h.1, fun n hn => ?_⟩
    obtain ⟨r, hr, rfl⟩ := Option.map_eq_some_iff.mp hn
    exact List.mem_map_of_mem (h.2 r hr).1

theorem safe_upsertSim {iccid operator smsc : Value} (hi : iccid.truthy = true → Filled iccid)
    (ho : Filled operator) (hs : Filled smsc) :
    Safe Sound (upsertSim E iccid operator smsc) fun i db =>
      Sound db ∧ ∀ n, i = some n → Has .sims n db := by
  refine Avoids.ite (fun ht => safe_putSim (hi ht) ho hs) fun _ => Avoids.pure fun db h => ⟨h, ?_⟩
  intro n hn
  cases hn

/-- The card a program goes on with is stored. -/
def Carded (sim : Option Nat) (db : HubDb) : Prop :=
  Sound db ∧ ∀ n, sim = some n → Has .sims n db

/-- A reference to a stored card. -/
theorem Carded.names {sim : Option Nat} {db : HubDb} (h : Carded sim db) {v : Cell}
    (hv : simCell sim = some v) : ∃ i ∈ db.ids .sims, SCHEMA.ref i = v := by
  obtain ⟨n, hn, hv⟩ := Option.bind_eq_some_iff.mp hv
  cases hv
  exact ⟨n, h.2 n hn, rfl⟩

/-- A table whose only reference is to a card. -/
theorem Carded.refers {sim : Option Nat} {db : HubDb} (h : Carded sim db) {t : Table}
    {onDelete : OnDelete} (ht : SCHEMA.foreign t = [⟨.simId, .sims, onDelete⟩])
    {cells : Column → Option Cell} (hc : cells .simId = simCell sim) : Refers SCHEMA db t cells := by
  intro fk hfk v hv
  rw [ht] at hfk
  obtain rfl := List.mem_singleton.mp hfk
  rw [hc] at hv
  exact h.names hv

/-- The columns of a module that a payload may write. -/
def DEVICE_COLUMNS : List Column :=
  (DEVICE_FLAGS ++ DEVICE_BITS ++ DEVICE_READINGS ++ DEVICE_COUNTS ++ DEVICE_IDENTITY).map Prod.snd

theorem mem_present {payload : Frame} {f : Value → Value} {fields : List (String × Column)}
    {x : Column × Value} (h : x ∈ present payload f fields) :
    ∃ y ∈ fields, payload.has y.1 = true ∧ x = (y.2, f (payload.get y.1)) := by
  obtain ⟨y, hy, rfl⟩ := List.mem_map.mp h
  obtain ⟨hy, hp⟩ := List.mem_filter.mp hy
  exact ⟨y, hy, hp, rfl⟩

theorem deviceColumns_subset {payload : Frame} {x : Column × Value} (h : x ∈ deviceColumns payload) :
    x.1 ∈ DEVICE_COLUMNS := by
  unfold deviceColumns at h
  unfold DEVICE_COLUMNS
  simp only [List.mem_append, List.map_append] at h ⊢
  rcases h with (((h | h) | h) | h) | h
  · obtain ⟨y, hy, -, rfl⟩ := mem_present h
    exact Or.inl (Or.inl (Or.inl (Or.inl (List.mem_map_of_mem hy))))
  · obtain ⟨y, hy, -, rfl⟩ := mem_present h
    exact Or.inl (Or.inl (Or.inl (Or.inr (List.mem_map_of_mem hy))))
  · obtain ⟨y, hy, -, rfl⟩ := mem_present h
    exact Or.inl (Or.inl (Or.inr (List.mem_map_of_mem hy)))
  · obtain ⟨y, hy, -, rfl⟩ := mem_present h
    exact Or.inl (Or.inr (List.mem_map_of_mem hy))
  · obtain ⟨y, hy, rfl⟩ := List.mem_map.mp h
    exact Or.inr (List.mem_map_of_mem (List.mem_of_mem_filter hy))

/-- The bound parameters, column by column. -/
def BoundFrom (xs : List (Column × Value)) (as : Assignments Column Cell) : Prop :=
  ∀ y ∈ as, ∃ x ∈ xs, x.1 = y.1 ∧ (Filled x.2 → y.2.isSome)

theorem safe_bindAll_then {β : Type} {xs : List (Column × Value)}
    {f : Assignments Column Cell → Hub β} {R : β → HubDb → Prop}
    (h : ∀ as, BoundFrom xs as → Safe P (f as) R) : Safe P (bindAll xs >>= f) R := by
  have hall : Safe P (bindAll xs) fun as db => P db ∧ BoundFrom xs as := by
    clear h
    induction xs with
    | nil => exact Avoids.pure fun db hP => ⟨hP, fun y hy => absurd hy List.not_mem_nil⟩
    | cons x xs ih =>
      obtain ⟨c, v⟩ := x
      refine safe_bind_then fun cell hcell => Avoids.bind ih fun rest => Avoids.pure fun db hP => ?_
      refine ⟨hP.1, fun y hy => ?_⟩
      rcases List.mem_cons.mp hy with rfl | hy
      · exact ⟨(c, v), List.mem_cons_self, rfl, hcell⟩
      · obtain ⟨x, hx, hxy⟩ := hP.2 y hy
        exact ⟨x, List.mem_cons_of_mem _ hx, hxy⟩
  exact Avoids.bind hall fun as db hdb => h as hdb.2 db hdb.1

/-- The `sim_id` column names a stored card. -/
def SimColumn (as : Assignments Column Cell) (db : HubDb) : Prop :=
  Sound db ∧ ∀ y ∈ as, y.1 = .simId ∧ ∀ v, y.2 = some v → ∃ i ∈ db.ids .sims, SCHEMA.ref i = v

/-- The identity of a module and its card are strings. -/
structure Identified (payload : Frame) : Prop where
  iccid    : (payload.get "iccid").truthy = true → Filled (payload.get "iccid")
  operator : Filled (pyOr (payload.getD "operator" (.str "")) (.str ""))
  smsc     : Filled (pyOr (payload.getD "smsc" (.str "")) (.str ""))

theorem safe_simColumn {payload : Frame} (h : Identified payload) :
    Safe Sound (simColumn E payload) SimColumn := by
  refine Avoids.ite (fun ht => ?_) fun _ =>
    Avoids.pure fun db hs => ⟨hs, fun _ hy => absurd hy List.not_mem_nil⟩
  refine Avoids.bind (safe_upsertSim h.iccid h.operator h.smsc) fun i => Avoids.pure fun db hi => ?_
  refine ⟨hi.1, fun y hy => ?_⟩
  obtain rfl := List.mem_singleton.mp hy
  exact ⟨rfl, fun v hv => Carded.names hi hv⟩

/-- The new cells of a module, for an old row or for a new one. -/
structure DeviceCells (as : Assignments Column Cell) (db : HubDb) : Prop where
  filled : ∀ x ∈ as, x.1 ∈ SCHEMA.notNull .devices → x.2.isSome
  free   : ∀ x ∈ as, x.1 ≠ .agentId ∧ x.1 ≠ .name
  card   : ∀ v, (Column.simId, some v) ∈ as → ∃ i ∈ db.ids .sims, SCHEMA.ref i = v

theorem deviceCells_of {payload : Frame} {cells sim : Assignments Column Cell} {db : HubDb}
    {s : String} (hcols : ∀ x ∈ deviceColumns payload, x.1 ∈ SCHEMA.notNull .devices → Filled x.2)
    (hcells : BoundFrom (deviceColumns payload) cells) (hsim : SimColumn sim db) :
    DeviceCells ((.lastSeenAt, text s) :: (cells ++ sim)) db := by
  have hcolumn : ∀ x ∈ cells, x.1 ∈ DEVICE_COLUMNS := by
    intro x hx
    obtain ⟨y, hy, he, -⟩ := hcells x hx
    rw [← he]; exact deviceColumns_subset hy
  refine ⟨fun x hx hn => ?_, fun x hx => ?_, fun v hv => ?_⟩
  · rcases List.mem_cons.mp hx with rfl | hx
    · rfl
    · rcases List.mem_append.mp hx with hx | hx
      · obtain ⟨y, hy, he, hf⟩ := hcells x hx
        exact hf (hcols y hy (he ▸ hn))
      · rw [(hsim.2 x hx).1] at hn
        exact absurd hn (by decide)
  · rcases List.mem_cons.mp hx with rfl | hx
    · exact ⟨nofun, nofun⟩
    · rcases List.mem_append.mp hx with hx | hx
      · have hd := hcolumn x hx
        exact ⟨fun he => absurd (he ▸ hd) (by decide), fun he => absurd (he ▸ hd) (by decide)⟩
      · rw [(hsim.2 x hx).1]
        exact ⟨by decide, by decide⟩
  · rcases List.mem_cons.mp hv with hv | hv
    · cases hv
    · rcases List.mem_append.mp hv with hv | hv
      · exact absurd (hcolumn _ hv) (show Column.simId ∉ DEVICE_COLUMNS by decide)
      · exact (hsim.2 _ hv).2 v rfl

/-- The columns of a module without a default are its key. -/
theorem device_defaults : ∀ c ∈ SCHEMA.notNull .devices, c ≠ .agentId → c ≠ .name →
    (SCHEMA.defaults .devices c).isSome := by
  decide

theorem DeviceCells.rowOk {as : Assignments Column Cell} {db : HubDb} (h : DeviceCells as db)
    (agentId : String) (name : Cell) :
    RowOk SCHEMA .devices
      (assign ((.agentId, text agentId) :: (.name, some name) :: as) (SCHEMA.defaults .devices)) := by
  refine ⟨fun c hc => ?_, rfl⟩
  by_cases ha : c = .agentId
  · subst ha; rfl
  · by_cases hn : c = .name
    · subst hn; rfl
    · rcases assign_cases ((.agentId, text agentId) :: (.name, some name) :: as)
        (SCHEMA.defaults .devices) c with hm | he
      · rcases List.mem_cons.mp hm with hm | hm
        · exact absurd (Prod.mk.inj hm).1 ha
        · rcases List.mem_cons.mp hm with hm | hm
          · exact absurd (Prod.mk.inj hm).1 hn
          · exact h.filled _ hm hc
      · rw [he]; exact device_defaults c hc ha hn

theorem safe_upsertDevice {agentId : String} {payload : Frame} (hid : Identified payload)
    (hname : Filled (payload.getD "name" (.str "")))
    (hcols : ∀ x ∈ deviceColumns payload, x.1 ∈ SCHEMA.notNull .devices → Filled x.2) :
    Safe Sound (upsertDevice E agentId payload) fun i db => Sound db ∧ Has .devices i db := by
  unfold upsertDevice
  refine Avoids.bind (safe_simColumn hid) fun sim => ?_
  refine safe_bind_then fun name hn => safe_bindAll_then fun cells hcells => ?_
  obtain ⟨n, rfl⟩ := Option.isSome_iff_exists.mp (hn hname)
  refine Avoids.bind (Q := fun _ db => Sound db) ?_ fun _ => ?_
  · refine safe_sql (upsert_avoids fun db h => ?_)
    have hnew : DeviceCells ((.lastSeenAt, text E.utcnow) :: (cells ++ sim)) db :=
      deviceCells_of hcols hcells h
    have hcard : ∀ fk ∈ SCHEMA.foreign .devices, ∀ v,
        (fk.column, some v) ∈ (Column.lastSeenAt, text E.utcnow) :: (cells ++ sim) →
        ∃ i ∈ db.ids fk.parent, SCHEMA.ref i = v := by
      intro fk hfk v hv
      obtain rfl := List.mem_singleton.mp hfk
      exact hnew.card v hv
    refine ⟨h.1, hnew.rowOk agentId n, fun r hr _ => ?_, fun hno => ?_, fun _ h' _ => h'⟩
    · refine Rewrites.assign h.1 hr hnew.filled rfl ?_ hcard
      refine keyFree_of_not_mem fun key hk c hc hm => ?_
      obtain rfl := List.mem_singleton.mp hk
      obtain ⟨x, hx, rfl⟩ := List.mem_map.mp hm
      obtain ⟨ha, hb⟩ := hnew.free x hx
      rcases List.mem_cons.mp hc with hc | hc
      · exact ha hc
      · exact hb (List.mem_singleton.mp hc)
    · refine { hnew.rowOk agentId n with unique := ?_, refers := ?_ }
      · intro columns hc r hr
        obtain rfl := List.mem_singleton.mp hc
        exact hno r hr
      · have hdefaults : Refers SCHEMA db .devices (SCHEMA.defaults .devices) := by
          intro fk hfk v hv
          obtain rfl := List.mem_singleton.mp hfk
          cases hv
        refine hdefaults.assign fun fk hfk v hv => hcard fk hfk v ?_
        obtain rfl := List.mem_singleton.mp hfk
        rcases List.mem_cons.mp hv with hv | hv
        · cases hv
        · rcases List.mem_cons.mp hv with hv | hv
          · cases hv
          · exact hv
  · refine Avoids.bind (safe_one .devices _) fun row => ?_
    cases row with
    | none => exact Avoids.throw Bool.false_ne_true
    | some r => exact Avoids.pure fun db h => ⟨h.1, List.mem_map_of_mem (h.2 r rfl).1⟩

theorem safe_recordStatus {i : Nat} (payload : Frame) :
    Safe (fun db => Sound db ∧ Has .devices i db) (recordStatus E i payload) fun _ => Sound := by
  unfold recordStatus
  refine Avoids.bind (safe_toUtcIso _) fun ts => ?_
  refine safe_bind_then fun rssi _ => safe_bind_then fun dbm _ => safe_bind_then fun bars _ => ?_
  refine safe_bind_then fun rsrp _ => safe_bind_then fun rsrq _ => safe_bind_then fun used _ => ?_
  refine safe_bind_then fun capacity _ => safe_bind_then fun voltage _ => ?_
  refine Avoids.bind (Q := fun _ db => Sound db) ?_ fun _ => Avoids.pure fun _ h => h
  refine safe_sql (insert_avoids fun db h => ⟨h.1, ?_, fun h' => h'⟩)
  refine { rowOk_of_all rfl rfl with unique := nofun, refers := ?_ }
  intro fk hfk v hv
  obtain rfl := List.mem_singleton.mp hfk
  cases hv
  exact ⟨i, h.2, rfl⟩

/-! ## Messages and calls -/

/-- A message that was just stored: no segment is attached to it yet. -/
structure NewlyStored (i : Nat) (db : HubDb) : Prop where
  sound  : Sound db
  stored : Has .messages i db
  bare   : ∀ r ∈ db.rows .smsDeliverySegments, r.cells .messageId ≠ integer i

/-- Segments only refer to messages that were there before. -/
theorem newlyStored_append {db : HubDb} {cells : Column → Option Cell} (h : Sound db)
    (h' : Sound (db.append .messages cells)) :
    NewlyStored (db.seq .messages + 1) (db.append .messages cells) where
  sound  := h'
  stored := new_mem_ids_append
  bare   := by
    intro r hr he
    rw [rows_append_ne (by decide)] at hr
    obtain ⟨j, hj, hji⟩ := (h.table .smsDeliverySegments).refers r hr
      ⟨.messageId, .messages, .cascade⟩ (List.mem_singleton_self _) _ he
    have hle := h.bounded .messages j hj
    have hj' : (j : Int) = ((db.seq .messages + 1 : Nat) : Int) := Cell.integer.inj hji
    omega

theorem safe_insertMessage (m : NewMessage) (hi : m.iccid.truthy = true → Filled m.iccid)
    (hd : Filled m.device) (hp : Filled m.peer) (hb : Filled m.body) :
    Safe Sound (insertMessage E m) NewlyStored := by
  unfold insertMessage
  refine Avoids.bind (safe_upsertSim hi (filled_str "") (filled_str "")) fun sim => ?_
  refine Avoids.bind (safe_toUtcIso _) fun ts => ?_
  refine safe_bind_then fun device hdevice => safe_bind_then fun peer hpeer => ?_
  refine safe_bind_then fun body hbody => safe_bind_then fun seq _ => safe_bind_then fun error _ => ?_
  refine safe_bind_then fun pdu _ => safe_bind_then fun recovered _ => safe_bind_then fun code _ => ?_
  obtain ⟨d, rfl⟩ := Option.isSome_iff_exists.mp (hdevice hd)
  obtain ⟨p, rfl⟩ := Option.isSome_iff_exists.mp (hpeer hp)
  obtain ⟨b, rfl⟩ := Option.isSome_iff_exists.mp (hbody hb)
  refine safe_sql (insert_avoids fun db h => ⟨h.1, ?_, fun h' => newlyStored_append h.1 h'⟩)
  exact { rowOk_of_all rfl rfl with unique := nofun, refers := Carded.refers h rfl rfl }

theorem safe_insertCall (c : NewCall) (hr : (realCell c.ringSeconds).isSome) :
    Safe Sound (insertCall E c) fun _ => Sound := by
  unfold insertCall
  refine Avoids.bind (safe_upsertSim (fun _ => filled_str _) (filled_str "") (filled_str "")) fun sim => ?_
  refine Avoids.bind (safe_toUtcIso _) fun ts => ?_
  obtain ⟨x, hx⟩ := Option.isSome_iff_exists.mp hr
  rw [hx]
  refine safe_sql (insert_avoids fun db h => ⟨h.1, ?_, fun h' => h'⟩)
  exact { rowOk_of_all rfl rfl with unique := nofun, refers := Carded.refers h rfl rfl }

/-! ## Segments and delivery reports -/

theorem safe_updateMessageDeliveryStatus (i : Nat) :
    Safe Sound (updateMessageDeliveryStatus i) fun _ => Sound := by
  unfold updateMessageDeliveryStatus segmentRows
  refine Avoids.bind (safe_one .messages _) fun message => ?_
  refine Avoids.bind (Q := fun _ db => Sound db) ?_ fun rows => ?_
  · exact Avoids.bind (safe_query .smsDeliverySegments _) fun rows => Avoids.pure fun _ h => h.1.1
  · cases message with
    | none => exact Avoids.pure fun _ h => h
    | some m =>
      refine Avoids.ite (fun _ => Avoids.pure fun _ h => h) fun _ => ?_
      refine safe_sql (update_avoids fun db h => ⟨h, fun r hr _ => ?_, fun h' => h'⟩)
      refine Rewrites.assign_free h hr ?_ rfl rfl rfl
      simp only [List.forall_mem_cons, List.not_mem_nil, false_imp_iff, implies_true, and_true]
      exact ⟨fun _ => rfl, fun hn => absurd hn (by decide)⟩

/-- The segments attached to a message so far have the indexes up to `k`. -/
structure Attached (i k : Nat) (db : HubDb) : Prop where
  sound  : Sound db
  stored : Has .messages i db
  below  : ∀ r ∈ db.rows .smsDeliverySegments, r.cells .messageId = integer i →
    ∃ n : Nat, n ≤ k ∧ r.cells .segmentIndex = integer n

theorem NewlyStored.attached {i : Nat} {db : HubDb} (h : NewlyStored i db) : Attached i 0 db :=
  ⟨h.sound, h.stored, fun r hr he => absurd he (h.bare r hr)⟩

/-- The next index of a message is free. -/
theorem Attached.free {i k : Nat} {db : HubDb} (h : Attached i k db) {r : HubRow}
    (hr : r ∈ db.rows .smsDeliverySegments) {cells : Column → Option Cell}
    (hm : cells .messageId = integer i) (hs : cells .segmentIndex = integer (k + 1 : Nat)) :
    sameKey [.messageId, .segmentIndex] r.cells cells = false := by
  rw [Bool.eq_false_iff]
  intro hsame
  simp only [sameKey, List.all_cons, List.all_nil, Bool.and_true, Bool.and_eq_true,
    beq_iff_eq] at hsame
  obtain ⟨⟨-, hmid⟩, -, hidx⟩ := hsame
  obtain ⟨n, hn, hrn⟩ := h.below r hr (hmid.trans hm)
  have he : (n : Int) = (k + 1 : Nat) := Cell.integer.inj (Option.some.inj ((hrn.symm.trans hidx).trans hs))
  omega

/-- A segment row that names the message at the next index fits. -/
theorem Attached.fits {i k : Nat} {db : HubDb} (h : Attached i k db) {others : List HubRow}
    (ho : ∀ r ∈ others, r ∈ db.rows .smsDeliverySegments) {cells : Column → Option Cell}
    (hrow : RowOk SCHEMA .smsDeliverySegments cells) (hm : cells .messageId = integer i)
    (hs : cells .segmentIndex = integer (k + 1 : Nat)) :
    Fits SCHEMA db .smsDeliverySegments others cells := by
  refine { hrow with unique := fun columns hc r hr => ?_, refers := fun fk hfk v hv => ?_ }
  · obtain rfl := List.mem_singleton.mp hc
    exact h.free (ho r hr) hm hs
  · obtain rfl := List.mem_singleton.mp hfk
    rw [hm] at hv
    cases hv
    exact ⟨i, h.stored, rfl⟩

theorem safe_attachSegment (i k : Nat) (agentId device recipient submitted : String)
    (reference : Int) :
    Safe (Attached i k) (attachSegment E i agentId device recipient submitted (k + 1) reference)
      fun _ => Attached i (k + 1) := by
  unfold attachSegment
  refine Avoids.bind (safe_query .smsDeliverySegments _) fun waiting => ?_
  split
  · -- the report came first: its row is adopted
    rename_i early _
    refine safe_sql (updateOne_avoids fun db h => ⟨h.1.sound, fun r hr _ => ?_, fun h' => ?_⟩)
    · refine h.1.fits (fun x hx => List.mem_of_mem_filter hx) ?_ rfl rfl
      refine ((h.1.sound.table .smsDeliverySegments).rowOk r hr).assign ?_ rfl
      simp only [List.forall_mem_cons, List.not_mem_nil, false_imp_iff, implies_true, and_true]
      exact ⟨fun _ => rfl, fun _ => rfl, fun _ => rfl, fun _ => rfl, fun _ => rfl⟩
    · refine ⟨h', by unfold Has; rw [ids_updated]; exact h.1.stored, fun r' hr' he => ?_⟩
      rw [rows_updated_self] at hr'
      obtain ⟨r, hr, rfl⟩ := List.mem_map.mp hr'
      unfold written at he ⊢
      split at he
      · rename_i hp
        rw [if_pos hp]
        exact ⟨k + 1, Nat.le_refl _, rfl⟩
      · rename_i hp
        rw [if_neg hp]
        obtain ⟨n, hn, hrn⟩ := h.1.below r hr he
        exact ⟨n, by omega, hrn⟩
  · refine Avoids.bind (Q := fun _ => Attached i (k + 1)) ?_ fun _ => Avoids.pure fun _ h => h
    refine safe_sql (insert_avoids fun db h => ⟨h.1.sound, ?_, fun h' => ?_⟩)
    · exact h.1.fits (fun _ hx => hx) (rowOk_of_all rfl rfl) rfl rfl
    · refine ⟨h', mem_ids_append h.1.stored, fun r hr he => ?_⟩
      rw [rows_append_self] at hr
      rcases List.mem_append.mp hr with hr | hr
      · obtain ⟨n, hn, hrn⟩ := h.1.below r hr he
        exact ⟨n, by omega, hrn⟩
      · obtain rfl := List.mem_singleton.mp hr
        exact ⟨k + 1, Nat.le_refl _, rfl⟩

theorem safe_attachSmsSegments (i : Nat) (agentId device recipient : String)
    (references : List Int) (submittedAt : String) :
    Safe (NewlyStored i) (attachSmsSegments E i agentId device recipient references submittedAt)
      fun _ => Sound := by
  unfold attachSmsSegments
  refine Avoids.bind (safe_toUtcIso _) fun submitted => ?_
  refine Avoids.bind (Q := fun _ db => Sound db) ?_ fun _ => safe_updateMessageDeliveryStatus i
  -- the invariant: the segments stored so far have the indexes up to their number
  refine Avoids.mono (Avoids.forM (I := fun done => Attached i done.length) ?_)
    (fun _ h => h.attached) fun _ _ h => h.sound
  intro done x rest he
  have hx : x.2 = done.length + 1 := by
    have hget : (references.zipIdx 1)[done.length]? = some x := by rw [he]; simp
    rw [List.getElem?_zipIdx] at hget
    obtain ⟨y, -, rfl⟩ := Option.map_eq_some_iff.mp hget
    exact Nat.add_comm _ _
  rw [hx, List.length_append, List.length_singleton]
  exact safe_attachSegment i done.length agentId device recipient submitted x.1

/-- The columns a report may fill in beside its own: the recipient, or nothing. -/
def RecipientOnly (more : Assignments Column Cell) : Prop :=
  more = [] ∨ ∃ s s', more = [(.recipient, text s), (.recipientKey, text s')]

theorem safe_fillSegment {row : HubRow} {r : Report} {times : ReportTimes} {state : DeliveryState}
    {more : Assignments Column Cell} (hm : RecipientOnly more) :
    Safe Sound (fillSegment row r times state more) fun _ => Sound := by
  refine Avoids.ite (fun _ => ?_) fun _ => Avoids.pure fun _ h => h
  refine safe_bind_then fun pdu _ => ?_
  refine safe_sql (update_avoids fun db h => ⟨h, fun x hx _ => ?_, fun h' => h'⟩)
  have hcolumns : ∀ y ∈ reportColumns r times state pdu,
      y.1 ∈ SCHEMA.notNull .smsDeliverySegments → y.2.isSome := by
    simp only [reportColumns, List.forall_mem_cons, List.not_mem_nil, false_imp_iff, implies_true,
      and_true]
    exact ⟨fun _ => rfl, fun hn => absurd hn (by decide), fun hn => absurd hn (by decide),
      fun hn => absurd hn (by decide), fun _ => rfl, fun hn => absurd hn (by decide),
      fun hn => absurd hn (by decide)⟩
  rcases hm with rfl | ⟨s, s', rfl⟩
  · exact Rewrites.assign_free h hx hcolumns rfl rfl rfl
  · refine Rewrites.assign_free h hx ?_ rfl rfl rfl
    intro y hy
    rcases List.mem_append.mp hy with hy | hy
    · rcases List.mem_cons.mp hy with rfl | hy
      · exact fun _ => rfl
      · rw [List.mem_singleton.mp hy]; exact fun _ => rfl
    · exact hcolumns y hy

theorem safe_recordMatched (row : HubRow) (r : Report) (times : ReportTimes)
    (state : DeliveryState) : Safe Sound (recordMatched row r times state) fun _ => Sound := by
  unfold recordMatched
  refine Avoids.bind (safe_fillSegment (Or.inl rfl)) fun _ => ?_
  split
  · exact safe_updateMessageDeliveryStatus _
  · exact Avoids.throw Bool.false_ne_true

/-- A report that waits names no message, so it collides with no segment. -/
theorem safe_recordUnmatched (r : Report) (times : ReportTimes) (state : DeliveryState) :
    Safe Sound (recordUnmatched E r times state) fun _ => Sound := by
  unfold recordUnmatched
  refine Avoids.bind (Q := fun _ db => Sound db) ?_ fun waiting => ?_
  · exact (safe_query .smsDeliverySegments _).post fun _ _ h => h.1
  · split
    · exact safe_fillSegment (Or.inr ⟨_, _, rfl⟩)
    · refine safe_bind_then fun pdu _ => ?_
      refine Avoids.bind (Q := fun _ db => Sound db) ?_ fun _ => Avoids.pure fun _ h => h
      refine safe_sql (insert_avoids fun db h => ⟨h, ?_, fun h' => h'⟩)
      refine { rowOk_of_all rfl rfl with unique := fun columns hc x hx => ?_, refers := fun fk hfk v hv => ?_ }
      · obtain rfl := List.mem_singleton.mp hc
        rw [sameKey_comm]
        rfl
      · obtain rfl := List.mem_singleton.mp hfk
        cases hv

theorem safe_optionalIso (v : Value) : Safe P (optionalIso E v) fun _ => P :=
  Avoids.ite (fun _ => Avoids.bind (safe_toUtcIso v) fun _ => Avoids.pure fun _ h => h)
    fun _ => Avoids.pure fun _ h => h

theorem safe_recordSmsDelivery (r : Report) :
    Safe Sound (recordSmsDelivery E r) fun _ => Sound := by
  unfold recordSmsDelivery
  refine Avoids.bind (safe_optionalIso _) fun serviceTs => ?_
  refine Avoids.bind (safe_optionalIso _) fun discharge => ?_
  refine Avoids.bind (safe_toUtcIso _) fun reported => ?_
  refine Avoids.bind (Q := fun _ db => Sound db) ?_ fun found => ?_
  · exact (safe_query .smsDeliverySegments _).post fun _ _ h => h.1
  · dsimp only
    split
    · exact safe_recordMatched _ r _ _
    · exact safe_recordUnmatched r _ _

/-! ## Notifications, operations and task synchronisation -/

theorem safe_enqueueNotification (kind : String) (refId : Int) (frame : Frame)
    (eventKey : Option String) :
    Safe Sound (enqueueNotification E kind refId frame eventKey) fun _ => Sound :=
  safe_sql (insertOrIgnore_avoids rfl fun _ h => ⟨h, fun _ _ h' => h'⟩)

/-- The statuses a result may bring are among those the table admits. -/
theorem outcome_admitted {frame : Frame} (h : wellFormedResult frame = true) :
    ∃ s ∈ OPERATION_STATUSES, frame.get "status" = .str s := by
  simp only [wellFormedResult, Bool.and_eq_true, List.any_eq_true, beq_iff_eq] at h
  obtain ⟨⟨⟨⟨⟨s, hs, he⟩, -⟩, -⟩, -⟩, -⟩ := h
  exact ⟨s, (show ∀ s ∈ OUTCOMES, s ∈ OPERATION_STATUSES by decide) s hs, he⟩

theorem safe_applyOperationResult (agentId streamId : String) (frame : Frame) :
    Safe Sound (applyOperationResult E agentId streamId frame) fun _ => Sound := by
  refine Avoids.ite (fun hwf => ?_) fun _ => Avoids.pure fun _ h => h
  obtain ⟨s, hs, hstatus⟩ := outcome_admitted hwf
  rw [hstatus]
  refine Avoids.bind (Q := fun c db => Sound db ∧ c = text s) (Avoids.pure fun _ h => ⟨h, rfl⟩)
    fun status => ?_
  refine Avoids.assume (fun _ h => h.2) fun he => ?_
  subst he
  refine safe_bind_then fun error _ => safe_bind_then fun cmdId _ => safe_bind_then fun device _ => ?_
  refine safe_bind_then fun token _ => ?_
  refine Avoids.get fun db₀ h₀ => ?_
  refine safe_sql (update_avoids fun db he => ?_)
  subst he
  refine ⟨h₀.1, fun r hr _ => ?_, fun h' => h'⟩
  refine Rewrites.assign_free h₀.1 hr ?_ ?_ rfl rfl
  · simp only [List.forall_mem_cons, List.not_mem_nil, false_imp_iff, implies_true, and_true]
    exact ⟨fun _ => rfl, fun _ => rfl, fun hn => absurd hn (by decide), fun _ => rfl⟩
  · exact List.any_eq_true.mpr ⟨s, hs, beq_self_eq_true _⟩

theorem safe_finishTaskSync (agentId revision syncId : String) (ok : Bool) (error : String) :
    Safe Sound (finishTaskSync E agentId revision syncId ok error) fun _ => Sound := by
  refine safe_sql (update_avoids fun db h => ⟨h, fun r hr _ => ?_, fun h' => h'⟩)
  refine Rewrites.assign_free h hr ?_ rfl rfl rfl
  simp only [List.forall_mem_cons, List.not_mem_nil, false_imp_iff, implies_true, and_true]
  refine ⟨fun _ => rfl, fun _ => rfl, fun hn => ?_, fun hn => absurd hn (by decide)⟩
  cases ok
  · exact h.isSome hr hn
  · rfl

end Air780eHub.Server
