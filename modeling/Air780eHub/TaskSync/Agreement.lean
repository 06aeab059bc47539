/-
  Task configuration sync agrees.

  1. `Later` : what a run leaves of an applied row.  A step leaves it alone or begins a sync.
  2. `Inv.is_last`, `Inv.applied_row`, `Inv.applied_stays` : what the invariant says of an applied
     row.  Nothing the Agent applied or can still read ranks above the sync that began last, so
     what ranks no lower IS that sync.
  3. `applied_agrees`, and a run in which a list is edited between two pushes.
-/
import Air780eHub.TaskSync.Invariant
import Mathlib.Logic.Equiv.Basic

namespace Air780eHub.TaskSync

variable {E : Env}

section Steps

variable {s s' : State}

/-! ## What a run leaves of an applied row -/

/-- Syncs only begin; an applied row stays as it is until the next one does. -/
structure Later (s t : State) : Prop where
  begun : ∃ l, t.begun = s.begun ++ l
  row   : ∀ r, s.row = some r → r.tasksSyncStatus = .applied →
    (∃ r', t.row = some r' ∧ r'.tasksSyncId = r.tasksSyncId ∧
      r'.tasksRevision = r.tasksRevision ∧ r'.tasksSyncStatus = .applied) ∨
    s.begun.length < t.begun.length

theorem Later.of_row {s t : State} (hb : t.begun = s.begun) (hr : t.row = s.row) : Later s t :=
  ⟨⟨[], by rw [hb, List.append_nil]⟩, fun r hrow hst => Or.inl ⟨r, hr.trans hrow, rfl, rfl, hst⟩⟩

theorem Later.trans {s t r : State} (h₁ : Later s t) (h₂ : Later t r) : Later s r := by
  obtain ⟨l₁, hl₁⟩ := h₁.begun
  obtain ⟨l₂, hl₂⟩ := h₂.begun
  have hlen : t.begun.length = s.begun.length + l₁.length := by rw [hl₁, List.length_append]
  have hlen' : r.begun.length = t.begun.length + l₂.length := by rw [hl₂, List.length_append]
  refine ⟨⟨l₁ ++ l₂, by rw [hl₂, hl₁, List.append_assoc]⟩, fun row hrow hst => ?_⟩
  rcases h₁.row row hrow hst with ⟨row', hrow', hsid, hrev, hst'⟩ | hlt
  · rcases h₂.row row' hrow' hst' with ⟨row'', hrow'', hsid', hrev', hst''⟩ | hlt
    · exact Or.inl ⟨row'', hrow'', hsid'.trans hsid, hrev'.trans hrev, hst''⟩
    · exact Or.inr (by omega)
  · exact Or.inr (by omega)

/-- A step that leaves applied rows alone. -/
theorem Later.of_map {t : State} {f : AgentRow → AgentRow} (hb : t.begun = s.begun)
    (hr : t.row = s.row.map f) (hf : ∀ r, r.tasksSyncStatus = .applied → f r = r) : Later s t :=
  ⟨⟨[], by rw [hb, List.append_nil]⟩, fun r hrow hst => Or.inl
    ⟨r, by rw [hr, hrow]; exact congrArg some (hf r hst), rfl, rfl, hst⟩⟩

/-- An applied row is not changed by any receipt. -/
theorem applyTasksApplied_applied {r : AgentRow} (h : r.tasksSyncStatus = .applied)
    (frame : Frame) (now : String) : applyTasksApplied r frame now = r := by
  unfold applyTasksApplied
  split
  · split
    · rfl
    · exact finishTaskSync_applied h _ _ _ _ _
  · rfl

/-- A receipt of another revision or sync id changes nothing. -/
theorem applyTasksApplied_stale {r : AgentRow} {frame : Frame}
    (h : frame.get "revision" ≠ .str r.tasksRevision ∨
      frame.get "sync_id" ≠ .str r.tasksSyncId) (now : String) :
    applyTasksApplied r frame now = r := by
  unfold applyTasksApplied
  split
  · rename_i revision syncId ok hrev hsid _
    split
    · rfl
    · refine finishTaskSync_stale ?_ _ _ _
      rcases h with h | h
      · exact Or.inl fun heq => h (by rw [hrev, heq])
      · exact Or.inr fun heq => h (by rw [hsid, heq])
  · rfl

theorem Later.begins {t : State} {x : String × String} (h : t.begun = s.begun ++ [x]) :
    Later s t :=
  ⟨⟨[x], h⟩, fun _ _ _ => Or.inr (by rw [h, List.length_append]; exact Nat.lt_succ_self _)⟩

theorem later_pushPrepare {i : Nat} {fresh now : String}
    (hs : pushPrepare E s i fresh now = some s') : Later s s' := by
  unfold pushPrepare at hs
  split at hs
  case h_2 => cases hs
  case h_1 =>
    split at hs
    case isFalse => cases hs
    case isTrue =>
      split at hs
      rename_i row p hprep
      cases hs
      by_cases hfresh : p.syncId = fresh
      · exact Later.begins (x := (fresh, p.revision)) (if_pos hfresh)
      · obtain ⟨_, _, ⟨hsid, _⟩ | ⟨_, _, r, sentAt, hrow, _, _, rfl⟩⟩ := prepareTaskSync_cases hprep
        · exact absurd hsid hfresh
        · refine ⟨⟨[], (if_neg hfresh).trans (List.append_nil _).symm⟩, fun r' hr' hst => ?_⟩
          obtain rfl : r = r' := Option.some.inj (hrow.symm.trans hr')
          exact Or.inl ⟨_, rfl, rfl, rfl, hst⟩

theorem later_pushOffline {fresh : String} (hs : pushOffline E s fresh = some s') :
    Later s s' := by
  unfold pushOffline at hs
  split at hs
  case isFalse => cases hs
  case isTrue =>
    split at hs
    rename_i row p hprep
    cases hs
    by_cases hfresh : row.map AgentRow.tasksSyncId = some fresh
    · exact Later.begins (x := (fresh, p.revision)) (if_pos hfresh)
    · obtain ⟨_, ⟨r, _, rfl⟩ | rfl⟩ := prepareTaskSync_offline hprep
      · exact absurd rfl hfresh
      · exact Later.of_row (if_neg hfresh) rfl

/-- **Every step leaves an applied row alone or begins a sync.** -/
theorem later_step {a : Action} (hs : step E s a = some s') : Later s s' := by
  cases a with
  | edit tasks => cases hs; exact Later.of_row rfl rfl
  | hello i =>
    simp only [step, hello] at hs
    split at hs
    · cases hs; split <;> exact Later.of_row rfl rfl
    · cases hs
  | persist i =>
    simp only [step, persist] at hs
    split at hs
    · cases hs
      exact ⟨⟨[], (List.append_nil _).symm⟩, fun r hr hst => Or.inl
        ⟨r, by rw [hr]; rfl, rfl, rfl, hst⟩⟩
    · cases hs
  | becomeReady i =>
    simp only [step, becomeReady] at hs
    split at hs
    · cases hs; exact Later.of_row rfl rfl
    · cases hs
  | disconnect i =>
    simp only [step, disconnect] at hs
    split at hs
    · cases hs; exact Later.of_row rfl rfl
    · cases hs; exact Later.of_row rfl rfl
    · cases hs; exact Later.of_row rfl rfl
    · cases hs
    · cases hs
  | release i =>
    simp only [step, release] at hs
    split at hs
    · cases hs; exact Later.of_row rfl rfl
    · cases hs
  | restart => cases hs; exact Later.of_row rfl rfl
  | pushStart i =>
    simp only [step, pushStart] at hs
    split at hs
    · split at hs
      · cases hs; exact Later.of_row rfl rfl
      · cases hs
    · cases hs
  | pushPrepare i fresh now => exact later_pushPrepare hs
  | pushOffline fresh => exact later_pushOffline hs
  | pushRecheck i =>
    simp only [step, pushRecheck] at hs
    split at hs
    · cases hs; split <;> exact Later.of_row rfl rfl
    · cases hs
  | pushSend i arrives ok =>
    simp only [step, pushSend] at hs
    split at hs
    · cases hs; exact Later.of_row rfl rfl
    · cases hs
  | pushFail i now =>
    simp only [step, pushFail] at hs
    split at hs
    · rename_i p _
      cases hs
      exact Later.of_map (f := fun r => finishTaskSync r p.revision p.syncId false pushFailed now)
        rfl rfl fun r hst => finishTaskSync_applied hst _ _ _ _ _
    · cases hs
  | pushAbort i => cases hs; exact Later.of_row rfl rfl
  | deliver k now =>
    obtain ⟨frame, _, rfl⟩ := Option.map_eq_some_iff.mp hs
    exact Later.of_map (f := fun r => applyTasksApplied r frame now) rfl rfl fun r hst =>
      applyTasksApplied_applied hst frame now
  | connect =>
    simp only [step, connect] at hs
    split at hs
    · cases hs
    · cases hs; exact Later.of_row rfl rfl
  | drop => cases hs; exact Later.of_row rfl rfl
  | receive accepted =>
    simp only [step, receive] at hs
    split at hs
    · cases hs
    · split at hs
      · cases hs
      · cases hs; split <;> exact Later.of_row rfl rfl
  | execute fault =>
    simp only [step, execute] at hs
    split at hs
    · cases hs
    · cases hs; exact Later.of_row rfl rfl
  | noteRun id last next => cases hs; exact Later.of_row rfl rfl

end Steps

/-! ## Agreement -/

section Agreement

variable {s : State}

/-- Two entries of the log with one id are the same entry. -/
theorem Inv.revision_unique (h : Inv E s) {syncId revision revision' : String}
    (ha : (syncId, revision) ∈ s.begun) (hb : (syncId, revision') ∈ s.begun) :
    revision = revision' :=
  congrArg Prod.snd (eq_of_key_eq h.nodup ha hb rfl)

/-- A sync that ranks no lower than the last one begun is the last one begun. -/
theorem Inv.is_last (h : Inv E s) {syncId revision : String}
    (hlast : s.begun.getLast? = some (syncId, revision)) {f : Sync}
    (hf : Genuine E s.begun f) (hle : rank s.begun syncId ≤ rank s.begun f.syncId) :
    f.syncId = syncId ∧ f.revision = revision := by
  obtain ⟨init, hinit⟩ := List.getLast?_eq_some_iff.mp hlast
  have hnodup := h.nodup
  have hnew : syncId ∉ init.map Prod.fst := by
    rw [hinit, List.map_append] at hnodup
    intro hmem
    exact (List.nodup_append.mp hnodup).2.2 _ hmem _ (List.mem_singleton.mpr rfl) rfl
  have hrank : rank s.begun syncId = init.length := by rw [hinit]; exact rank_last hnew revision
  have hlt : rank s.begun f.syncId < s.begun.length := rank_lt_iff.mpr hf.mem
  have hlen : s.begun.length = init.length + 1 := by rw [hinit, List.length_append]; rfl
  have hsid : f.syncId = syncId := rank_inj hf.mem (by omega)
  have hknown : (syncId, f.revision) ∈ s.begun := hsid ▸ hf.known
  exact ⟨hsid, h.revision_unique hknown (List.mem_of_getLast? hlast)⟩

/-- The Agent's side of an applied row. -/
theorem Inv.applied_row (h : Inv E s) {r : AgentRow} (hrow : s.row = some r)
    (hst : r.tasksSyncStatus = .applied) :
    ∃ f, s.applied.getLast? = some f ∧ f.syncId = r.tasksSyncId ∧ f.revision = r.tasksRevision ∧
      E.taskRevision f.tasks = r.tasksRevision ∧
      ∀ g ∈ s.queue ++ s.incoming, g.syncId = r.tasksSyncId ∧ g.revision = r.tasksRevision ∧
        E.taskRevision g.tasks = r.tasksRevision := by
  rcases h.row r hrow with ⟨_, hne⟩ | ⟨hlast, happ⟩
  · exact absurd hst hne
  · obtain ⟨a, ha, hsid⟩ := happ hst
    obtain ⟨hord, _, hcross⟩ := List.pairwise_append.mp h.ordered
    -- the last list applied ranks no lower than the row's sync, which is the last one begun
    obtain ⟨init, f, hf⟩ : ∃ init f, s.applied = init ++ [f] :=
      (List.eq_nil_or_concat' s.applied).resolve_left (List.ne_nil_of_mem ha)
    have hmem : f ∈ s.applied := by rw [hf]; exact List.mem_append.mpr (Or.inr List.mem_cons_self)
    have hle : rank s.begun r.tasksSyncId ≤ rank s.begun f.syncId := by
      rw [← hsid]
      rw [hf] at ha hord
      rcases List.mem_append.mp ha with ha | ha
      · exact (List.pairwise_append.mp hord).2.2 a ha f List.mem_cons_self
      · obtain rfl := List.mem_singleton.mp ha
        exact Nat.le_refl _
    have hgen := h.genuine f (List.mem_append.mpr (Or.inl hmem))
    obtain ⟨hfsid, hfrev⟩ := h.is_last hlast hgen hle
    refine ⟨f, by rw [hf]; exact List.getLast?_concat, hfsid, hfrev, hgen.revision.trans hfrev,
      fun g hg => ?_⟩
    have hggen := h.genuine g (List.mem_append.mpr (Or.inr hg))
    obtain ⟨hgsid, hgrev⟩ := h.is_last hlast hggen (Nat.le_trans hle (hcross f hmem g hg))
    exact ⟨hgsid, hgrev, hggen.revision.trans hgrev⟩

/-- An applied row stays applied while its sync is the current one. -/
theorem Inv.applied_stays {t : State} (h : Inv E s) (ht : Inv E t) (hl : Later s t)
    {r r' : AgentRow} (hrow : s.row = some r) (hst : r.tasksSyncStatus = .applied)
    (hrow' : t.row = some r') (hsid : r'.tasksSyncId = r.tasksSyncId) :
    r'.tasksSyncStatus = .applied ∧ r'.tasksRevision = r.tasksRevision := by
  rcases hl.row r hrow hst with ⟨r₁, hr₁, _, hrev, hst'⟩ | hlt
  · obtain rfl : r₁ = r' := Option.some.inj (hr₁.symm.trans hrow')
    exact ⟨hst', hrev⟩
  · rcases h.row r hrow with ⟨_, hne⟩ | ⟨hlast, _⟩
    · exact absurd hst hne
    · exfalso
      have hmem : r.tasksSyncId ∈ s.begun.map Prod.fst :=
        List.mem_map.mpr ⟨_, List.mem_of_getLast? hlast, rfl⟩
      rcases ht.row r' hrow' with ⟨h0, _⟩ | ⟨hlast', _⟩
      · rw [← hsid, h0] at hmem
        exact h.nonempty hmem
      · -- the sync begun last in `t` began after all of `s`
        obtain ⟨l, hl⟩ := hl.begun
        have hne : l ≠ [] := by
          rintro rfl
          rw [hl, List.append_nil] at hlt
          exact Nat.lt_irrefl _ hlt
        obtain ⟨l', x, rfl⟩ := (List.eq_nil_or_concat' l).resolve_left hne
        rw [hl, ← List.append_assoc, List.getLast?_concat] at hlast'
        have hnodup := ht.nodup
        rw [hl, List.map_append] at hnodup
        refine (List.nodup_append.mp hnodup).2.2 _ hmem _ (List.mem_map.mpr
          ⟨x, List.mem_append.mpr (Or.inr List.mem_cons_self), rfl⟩) ?_
        rw [Option.some.inj hlast', hsid]

/-- **Task configuration sync agrees.**  In every reachable state whose `agents` row is applied,
    the last list the Agent applied came under the row's sync id, its revision is the row's, and
    the Agent's table still holds exactly that list; every list of that revision has the same
    text; and whatever the Agent can still read on its connection is that sync with that list.
    The row stays applied as long as its sync is the current one.  A receipt of another revision
    or sync id never changes a row, and none changes an applied row. -/
theorem applied_agrees (hfree : Function.Injective E.sha256) (h : (machine E).Reachable s) :
    (∀ r, s.row = some r → r.tasksSyncStatus = .applied →
      ∃ f, s.applied.getLast? = some f ∧ f.syncId = r.tasksSyncId ∧
        E.taskRevision f.tasks = r.tasksRevision ∧
        s.store.revision = some r.tasksRevision ∧ s.store.Holds f.tasks ∧
        (∀ tasks, E.taskRevision tasks = r.tasksRevision →
          Value.dumps (.arr tasks) = Value.dumps (.arr f.tasks)) ∧
        ∀ g ∈ s.queue ++ s.incoming, g.syncId = r.tasksSyncId ∧ g.revision = r.tasksRevision ∧
          Value.dumps (.arr g.tasks) = Value.dumps (.arr f.tasks)) ∧
    (∀ t, (machine E).Path Machine.Always s t → ∀ r r', s.row = some r → t.row = some r' →
      r.tasksSyncStatus = .applied → r'.tasksSyncId = r.tasksSyncId →
      r'.tasksSyncStatus = .applied ∧ r'.tasksRevision = r.tasksRevision) ∧
    (∀ (r : AgentRow) (frame : Frame) (now : String),
      frame.get "revision" ≠ .str r.tasksRevision ∨ frame.get "sync_id" ≠ .str r.tasksSyncId ∨
        r.tasksSyncStatus = .applied →
      applyTasksApplied r frame now = r) := by
  have hi := inv_reachable h
  refine ⟨fun r hrow hst => ?_, fun t ht r r' hrow hrow' hst hsid => ?_, fun r frame now hc => ?_⟩
  · obtain ⟨f, hlast, hsid, hrev, htext, hin⟩ := hi.applied_row hrow hst
    have hsame : ∀ tasks, E.taskRevision tasks = r.tasksRevision →
        Value.dumps (.arr tasks) = Value.dumps (.arr f.tasks) := fun tasks ht =>
      hfree (ht.trans htext.symm)
    refine ⟨f, hlast, hsid, htext, ?_, (hi.store f hlast).2, hsame, fun g hg => ?_⟩
    · rw [(hi.store f hlast).1, hrev]
    · obtain ⟨hgsid, hgrev, hgtext⟩ := hin g hg
      exact ⟨hgsid, hgrev, hsame g.tasks hgtext⟩
  · have hlater : Later s t := ht.relation (R := Later) (fun _ => Later.of_row rfl rfl)
      (fun _ _ _ h₁ h₂ => h₁.trans h₂) (fun _ _ _ _ hs => later_step hs)
    exact hi.applied_stays (inv_reachable (h.path ht)) hlater hrow hst hrow' hsid
  · rcases hc with hc | hc | hc
    · exact applyTasksApplied_stale (Or.inl hc) now
    · exact applyTasksApplied_stale (Or.inr hc) now
    · exact applyTasksApplied_applied hc frame now

/-- A task as `tasks_for` lists it. -/
def keepAlive : Value := .obj
  [("id", .int 1), ("device", .str "auto-123456"), ("name", .str "keep-alive"),
   ("enabled", .bool true), ("action", .str "sms"), ("target_number", .str "10086"),
   ("content", .str "CXYE"), ("schedule_type", .str "cron"),
   ("schedule_expr", .str "0 9 * * *"), ("jitter_seconds", .int 0),
   ("random_suffix", .bool true), ("retry_max", .int 2), ("notify_on_result", .bool false)]

/-- The canonical text of the list of that task. -/
def keepAliveText : String :=
  "[\x7b\"action\":\"sms\",\"content\":\"CXYE\",\"device\":\"auto-123456\",\"enable" ++
  "d\":true,\"id\":1,\"jitter_seconds\":0,\"name\":\"keep-alive\",\"notify_on_resul" ++
  "t\":false,\"random_suffix\":true,\"retry_max\":2,\"schedule_expr\":\"0 9 * * *\",\"sch" ++
  "edule_type\":\"cron\",\"target_number\":\"10086\"\x7d]"

/-- SHA-256 on the two lists of the run. -/
def twoDigests : Equiv.Perm String :=
  (Equiv.swap "[]" "4f53cda18c2baa0c0354bb5f9a3ecbe5ed12ab4d8e11ba873c2f11161202b945").trans
    (Equiv.swap keepAliveText
      "48122372cca41ea499e76ff96441f3dabdb021faae10adad95c900d536560dbf")

/-- The first sync of a connection and the second. -/
def syncA : String := "0123456789abcdef0123456789abcdef"
def syncB : String := "fedcba9876543210fedcba9876543210"

/-- The list is edited between the two pushes of a connection.  Both syncs are applied, and the
    receipt of the first comes once more after that of the second. -/
def editRun : List Action :=
  [.connect, .hello 0, .persist 0, .becomeReady 0, .pushStart 0, .pushPrepare 0 syncA "09:00",
   .edit [keepAlive], .pushRecheck 0, .pushSend 0 true true, .receive true, .pushStart 0,
   .pushPrepare 0 syncB "09:01", .pushRecheck 0, .pushSend 0 true true, .receive true,
   .execute false, .deliver 0 "09:02", .execute false, .deliver 1 "09:03", .deliver 0 "09:04"]

theorem applied_agrees_edited :
    ∃ s, (machine ⟨twoDigests, fun _ => none, fun _ => ""⟩).run (.init []) editRun = some s ∧
      ∃ r, s.row = some r ∧ r.tasksSyncStatus = .applied ∧ r.tasksSyncId = syncB ∧
        ∃ f, s.applied.getLast? = some f ∧ f.syncId = syncB ∧ s.store.Holds f.tasks := by
  have hrun : ((machine ⟨twoDigests, fun _ => none, fun _ => ""⟩).run (.init []) editRun).map
      (fun s => s.row.map fun r => (r.tasksSyncStatus, r.tasksSyncId)) =
        some (some (.applied, syncB)) := by decide +kernel
  obtain ⟨s, hs, hsum⟩ := Option.map_eq_some_iff.mp hrun
  obtain ⟨r, hr, hsum⟩ := Option.map_eq_some_iff.mp hsum
  simp only [Prod.mk.injEq] at hsum
  obtain ⟨f, hf, hsid, _, _, hholds, _⟩ :=
    (applied_agrees twoDigests.injective (Machine.run_reachable ⟨[], rfl⟩ hs)).1 r hr hsum.1
  exact ⟨s, hs, r, hr, hsum.1, hsum.2, f, hf, hsid.trans hsum.2, hholds⟩

end Agreement

end Air780eHub.TaskSync
