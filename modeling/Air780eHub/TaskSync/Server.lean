/-
  Task configuration on the Server: the sync columns of an `agents` row, and who writes them.

  `begin_task_sync` starts a sync: a revision and a fresh id, status `pending`.  A receipt finishes
  it, `finish_task_sync`, whose UPDATE names the revision AND the id and spares a row that is
  already `applied`.  `_prepare_task_sync` decides, in one database operation, whether a push
  starts a new sync, sends the current one again, or has nothing to send.

  `finish_cases` is everything a receipt can do to a row: nothing unless it names the row's current
  sync, and nothing to a row that is applied.
-/
import Air780eHub.TaskSync.Agent

namespace Air780eHub.TaskSync

/-- `tasks_sync_status`. -/
inductive SyncStatus
  | pending | failed | applied
deriving DecidableEq, Repr

/-- The task columns of an `agents` row. -/
structure AgentRow where
  tasksRevision        : String
  tasksAppliedRevision : String
  tasksSyncId          : String
  tasksSyncStatus      : SyncStatus
  tasksSyncError       : String
  tasksSyncSentAt      : Option String
  tasksSyncedAt        : Option String

/-- A row as `upsert_agent` inserts it. -/
def AgentRow.fresh : AgentRow := ⟨"", "", "", .pending, "", none, none⟩

/-- `begin_task_sync`. -/
def beginTaskSync (row : AgentRow) (revision syncId : String) (sentAt : Option String) :
    AgentRow :=
  { row with
    tasksRevision   := revision
    tasksSyncId     := syncId
    tasksSyncStatus := .pending
    tasksSyncError  := ""
    tasksSyncSentAt := sentAt }

/-- `finish_task_sync`. -/
def finishTaskSync (row : AgentRow) (revision syncId : String) (ok : Bool) (error now : String) :
    AgentRow :=
  if row.tasksRevision = revision ∧ row.tasksSyncId = syncId ∧ row.tasksSyncStatus ≠ .applied then
    { row with
      tasksSyncStatus      := if ok then .applied else .failed
      tasksSyncError       := if ok then "" else error
      tasksAppliedRevision := if ok then revision else row.tasksAppliedRevision
      tasksSyncedAt        := if ok then some now else row.tasksSyncedAt }
  else row

/-- What a push is to send. -/
structure Prepared where
  tasks      : List Value
  revision   : String
  syncId     : String
  shouldSend : Bool

variable (E : Env)

/-- `_prepare_task_sync`.  `syncId` is the connection's, or `none` without one; `fresh` is what
    `secrets` returns, if asked. -/
def prepareTaskSync (row : Option AgentRow) (tasks : List Value) (syncId : Option String)
    (fresh now : String) : Option AgentRow × Prepared :=
  let revision := E.taskRevision tasks
  match syncId with
  | none =>
    (row.map fun r => if revision ≠ r.tasksRevision then beginTaskSync r revision fresh none else r,
      ⟨tasks, revision, "", false⟩)
  | some sid =>
    match row with
    | none   => (none, ⟨tasks, revision, fresh, true⟩)
    | some r =>
      if revision ≠ r.tasksRevision ∨ sid = "" ∨ sid ≠ r.tasksSyncId then
        (some (beginTaskSync r revision fresh (some now)), ⟨tasks, revision, fresh, true⟩)
      else if r.tasksSyncStatus = .applied then (some r, ⟨tasks, revision, sid, false⟩)
      else (some { r with tasksSyncSentAt := some now }, ⟨tasks, revision, sid, true⟩)

/-- The texts of the error codes. -/
def syncErrors : List (String × String) :=
  [("invalid_tasks", "任务配置格式无效"), ("revision_mismatch", "任务配置版本校验失败"),
   ("apply_failed", "Agent 未能保存任务配置")]

/-- The text of a receipt's error. -/
def syncError (code : Value) : String :=
  match code with
  | .str c => ((syncErrors.find? fun x => x.1 = c).map Prod.snd).getD "Agent 未能应用任务配置"
  | _      => "Agent 未能应用任务配置"

/-- The text of a send that failed. -/
def pushFailed : String := "任务配置下发失败"

/-- `_apply_tasks_applied`. -/
def applyTasksApplied (row : AgentRow) (frame : Frame) (now : String) : AgentRow :=
  match frame.get "revision", frame.get "sync_id", frame.get "ok" with
  | .str revision, .str syncId, .bool ok =>
    if revision = "" ∨ syncId = "" then row
    else finishTaskSync row revision syncId ok (syncError (frame.get "error")) now
  | _, _, _ => row

/-! ## What a receipt can do -/

/-- A receipt of another revision or sync id changes nothing. -/
theorem finishTaskSync_stale {row : AgentRow} {revision syncId : String}
    (h : row.tasksRevision ≠ revision ∨ row.tasksSyncId ≠ syncId) (ok : Bool)
    (error now : String) : finishTaskSync row revision syncId ok error now = row := by
  unfold finishTaskSync
  rw [if_neg]
  rintro ⟨hr, hs, _⟩
  rcases h with h | h
  · exact h hr
  · exact h hs

/-- An applied row is not changed by any receipt. -/
theorem finishTaskSync_applied {row : AgentRow} (h : row.tasksSyncStatus = .applied)
    (revision syncId : String) (ok : Bool) (error now : String) :
    finishTaskSync row revision syncId ok error now = row := by
  unfold finishTaskSync
  rw [if_neg]
  rintro ⟨_, _, hs⟩
  exact hs h

/-- **What finishing does**: the sync stays the same one, and a row becomes applied only by a
    success that names it. -/
theorem finish_cases (row : AgentRow) (revision syncId : String) (ok : Bool)
    (error now : String) :
    let row' := finishTaskSync row revision syncId ok error now
    row'.tasksRevision = row.tasksRevision ∧ row'.tasksSyncId = row.tasksSyncId ∧
    (row'.tasksSyncStatus = .applied → row.tasksSyncStatus = .applied ∨
      (ok = true ∧ row.tasksRevision = revision ∧ row.tasksSyncId = syncId)) := by
  intro row'
  by_cases h : row.tasksRevision = revision ∧ row.tasksSyncId = syncId ∧
      row.tasksSyncStatus ≠ .applied
  · have hrow : row' = { row with
        tasksSyncStatus      := if ok then .applied else .failed
        tasksSyncError       := if ok then "" else error
        tasksAppliedRevision := if ok then revision else row.tasksAppliedRevision
        tasksSyncedAt        := if ok then some now else row.tasksSyncedAt } := if_pos h
    rw [hrow]
    refine ⟨rfl, rfl, fun hst => Or.inr ⟨?_, h.1, h.2.1⟩⟩
    cases ok with
    | true => rfl
    | false => cases hst
  · have hrow : row' = row := if_neg h
    rw [hrow]
    exact ⟨rfl, rfl, Or.inl⟩

/-- **What a receipt does.** -/
theorem applyTasksApplied_cases (row : AgentRow) (frame : Frame) (now : String) :
    let row' := applyTasksApplied row frame now
    row'.tasksRevision = row.tasksRevision ∧ row'.tasksSyncId = row.tasksSyncId ∧
    (row'.tasksSyncStatus = .applied → row.tasksSyncStatus = .applied ∨
      (frame.get "ok" = .bool true ∧ frame.get "revision" = .str row.tasksRevision ∧
        frame.get "sync_id" = .str row.tasksSyncId)) := by
  intro row'
  have hsame : row' = row → row'.tasksRevision = row.tasksRevision ∧
      row'.tasksSyncId = row.tasksSyncId ∧ (row'.tasksSyncStatus = .applied →
        row.tasksSyncStatus = .applied ∨ (frame.get "ok" = .bool true ∧
          frame.get "revision" = .str row.tasksRevision ∧
          frame.get "sync_id" = .str row.tasksSyncId)) := by
    intro h
    rw [h]; exact ⟨rfl, rfl, Or.inl⟩
  by_cases hall : ∃ revision syncId ok, frame.get "revision" = .str revision ∧
      frame.get "sync_id" = .str syncId ∧ frame.get "ok" = .bool ok ∧
      revision ≠ "" ∧ syncId ≠ ""
  · obtain ⟨revision, syncId, ok, hr, hs, ho, hne, hne'⟩ := hall
    have hrow : row' = finishTaskSync row revision syncId ok (syncError (frame.get "error")) now := by
      show applyTasksApplied row frame now = _
      unfold applyTasksApplied
      rw [hr, hs, ho]
      dsimp only
      rw [if_neg (by simp [hne, hne'])]
    rw [hrow, hr, hs, ho]
    obtain ⟨h1, h2, h3⟩ := finish_cases row revision syncId ok (syncError (frame.get "error")) now
    refine ⟨h1, h2, fun hst => ?_⟩
    rcases h3 hst with h | ⟨hok, hrev, hsid⟩
    · exact Or.inl h
    · rw [hok, hrev, hsid]; exact Or.inr ⟨rfl, rfl, rfl⟩
  · refine hsame ?_
    show applyTasksApplied row frame now = row
    unfold applyTasksApplied
    split
    · rename_i revision syncId ok hr hs ho
      split
      · rfl
      · rename_i hne
        exact absurd ⟨revision, syncId, ok, hr, hs, ho, fun h => hne (Or.inl h),
          fun h => hne (Or.inr h)⟩ hall
    · rfl

/-! ## What preparing a push does -/

variable {E}

/-- **What preparing a push does**: a new sync begins under the fresh id, or the row's current sync
    is the connection's and its revision is the list's, and only the time of sending moves. -/
theorem prepareTaskSync_cases {row row' : Option AgentRow} {tasks : List Value}
    {sid fresh now : String} {p : Prepared}
    (h : prepareTaskSync E row tasks (some sid) fresh now = (row', p)) :
    p.tasks = tasks ∧ p.revision = E.taskRevision tasks ∧
    ((p.syncId = fresh ∧ row' = row.map fun r => beginTaskSync r p.revision fresh (some now)) ∨
      (sid ≠ "" ∧ p.syncId = sid ∧ ∃ r sentAt, row = some r ∧ r.tasksSyncId = sid ∧
        r.tasksRevision = p.revision ∧ row' = some { r with tasksSyncSentAt := sentAt })) := by
  unfold prepareTaskSync at h
  dsimp only at h
  split at h
  · cases h; exact ⟨rfl, rfl, Or.inl ⟨rfl, rfl⟩⟩
  · rename_i r
    split at h
    · cases h; exact ⟨rfl, rfl, Or.inl ⟨rfl, rfl⟩⟩
    · rename_i hsame
      simp only [not_or, not_not] at hsame
      obtain ⟨hrev, hne, hsid⟩ := hsame
      split at h
      · cases h
        exact ⟨rfl, rfl, Or.inr ⟨hne, rfl, r, r.tasksSyncSentAt, rfl, hsid.symm, hrev.symm, rfl⟩⟩
      · cases h
        exact ⟨rfl, rfl, Or.inr ⟨hne, rfl, r, some now, rfl, hsid.symm, hrev.symm, rfl⟩⟩

/-- Without a connection a new sync begins, or the row stays. -/
theorem prepareTaskSync_offline {row row' : Option AgentRow} {tasks : List Value}
    {fresh now : String} {p : Prepared}
    (h : prepareTaskSync E row tasks none fresh now = (row', p)) :
    p.revision = E.taskRevision tasks ∧
    ((∃ r, row = some r ∧ row' = some (beginTaskSync r p.revision fresh none)) ∨ row' = row) := by
  unfold prepareTaskSync at h
  cases h
  refine ⟨rfl, ?_⟩
  cases row with
  | none => exact Or.inr rfl
  | some r =>
    by_cases hrev : E.taskRevision tasks ≠ r.tasksRevision
    · exact Or.inl ⟨r, rfl, congrArg some (if_pos hrev)⟩
    · exact Or.inr (congrArg some (if_neg hrev))

end Air780eHub.TaskSync
