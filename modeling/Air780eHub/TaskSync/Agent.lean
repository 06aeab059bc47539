/-
  Task configuration on the Agent: `replace_tasks` of `store.py` and `_cmd_sync_tasks` of `app.py`.

  The Server sends its whole task list, labelled with a revision (the digest of the list's canonical
  text) and the id of the sync.  The Agent checks the revision against the list it received, replaces
  its table in one transaction, and reports: the receipt of a success commits WITH the table, the
  receipt of a failure is appended afterwards.

  `cmdSyncTasks_spec` says everything a later module needs: a success receipt carries the revision
  and id of the frame, and the list the Agent then holds has that revision.

  Column values are kept as the frame gives them.  SQLite converts a value of another type on the
  way in; the Server sends every column in its own type.
-/
import Air780eHub.Wire.Json
import Mathlib.Algebra.Group.Int.Defs

namespace Air780eHub.TaskSync

/-! ## The environment -/

/-- What the task code takes from outside: SHA-256, Python's `int` and `str` of a list or
    dictionary. -/
structure Env where
  sha256 : String → String
  toInt  : Value → Option Int
  repr   : Value → String

/-- `task_revision`, on either side. -/
def Env.taskRevision (E : Env) (tasks : List Value) : String := E.sha256 (Value.dumps (.arr tasks))

/-! ## The table -/

/-- `TASK_FIELDS`. -/
def TASK_FIELDS : List String :=
  ["id", "device", "name", "enabled", "action", "target_number", "content", "schedule_type",
   "schedule_expr", "jitter_seconds", "random_suffix", "retry_max", "notify_on_result"]

/-- A row of the Agent's `tasks`: its configuration columns, and when it ran and will run. -/
structure TaskRow where
  id        : Int
  columns   : Frame
  lastRunAt : Option String
  nextRunAt : Option String

/-- The Agent's task table and the revision kept in `kv`. -/
structure TaskStore where
  tasks    : List TaskRow
  revision : Option String

/-- `task.get(key)` of an item that may not be a dictionary. -/
def field (task : Value) (key : String) : Value :=
  match task with
  | .obj fs => Frame.get fs key
  | _       => .null

/-- `int(bool(task.get(key, True)))`. -/
def flag (task : Value) (key : String) : Value :=
  match task with
  | .obj fs => .int (if (Frame.getD fs key (.bool true)).truthy then 1 else 0)
  | _       => .int 1

/-- The column values of a task. -/
def columnsOf (task : Value) : Frame :=
  TASK_FIELDS.map fun key =>
    (key, if key = "enabled" ∨ key = "random_suffix" ∨ key = "notify_on_result" then flag task key
      else field task key)

/-- SQLite takes the value into a NOT NULL column: it is no null, container or oversized integer. -/
def storable : Value → Bool
  | .null  => false
  | .arr _ => false
  | .obj _ => false
  | .int n => decide (-(2 ^ 63) ≤ n) && decide (n < 2 ^ 63)
  | _      => true

/-- The positive integer ids of a list of tasks, when there are no others and no two alike. -/
def taskIds : List Value → List Int → Option (List Int)
  | [], keep            => some keep
  | task :: tasks, keep =>
    match field task "id" with
    | .int n => if n ≤ 0 ∨ n ∈ keep then none else taskIds tasks (keep ++ [n])
    | _      => none

variable (E : Env)

/-- `int(v or 0)`. -/
def intOr0 (v : Value) : Option Int := if v.truthy then E.toInt v else some 0

/-- `_schedule_changed` of an existing row. -/
def scheduleChanged (row : TaskRow) (values : Frame) : Option Bool :=
  if row.columns.get "schedule_type" ≠ values.get "schedule_type" ∨
      pyStr E.repr (row.columns.get "schedule_expr") ≠
        pyStr E.repr (values.get "schedule_expr") then some true
  else match intOr0 E (row.columns.get "jitter_seconds"),
      intOr0 E (values.get "jitter_seconds") with
    | some a, some b => some (decide (a ≠ b))
    | _, _           => none

/-- The upsert of one task.  `none`: a statement or a conversion raised. -/
def upsertTask (rows : List TaskRow) (task : Value) : Option (List TaskRow) :=
  let values := columnsOf task
  match field task "id" with
  | .int n =>
    if values.all (fun f => storable f.2) then
      match rows.find? fun r => r.id = n with
      | none     => some (rows ++ [⟨n, values, none, none⟩])
      | some row => match scheduleChanged E row values with
        | none         => none
        | some changed => some (rows.map fun r => if r.id = n then
            { r with columns := values, nextRunAt := if changed then none else r.nextRunAt }
          else r)
    else none
  | _ => none

/-- The upserts of the transaction, in order. -/
def upsertTasks : List TaskRow → List Value → Option (List TaskRow)
  | rows, []            => some rows
  | rows, task :: tasks => match upsertTask E rows task with
    | none       => none
    | some rows' => upsertTasks rows' tasks

/-- `replace_tasks`.  `none`: it raised, and its transaction left the store alone. -/
def replaceTasks (s : TaskStore) (tasks : List Value) (revision : String) : Option TaskStore :=
  match taskIds tasks [] with
  | none      => none
  | some keep =>
    match upsertTasks E (s.tasks.filter fun r => decide (r.id ∈ keep)) tasks with
    | none      => none
    | some rows => some ⟨rows, some revision⟩

/-! ## The command -/

/-- Lower-case hexadecimal digits, as many as `n`. -/
def isHex (n : Nat) (s : String) : Bool :=
  decide (s.toList.length = n) && s.toList.all fun c => "0123456789abcdef".toList.contains c

/-- The payload of a receipt. -/
def receipt (syncId revision : Value) (ok : Bool) (rest : Frame) : Frame :=
  [("sync_id", syncId), ("revision", revision), ("ok", .bool ok)] ++ rest

/-- The error code of a failed sync. -/
def failure (syncId revision : Value) (code : String) : Frame :=
  receipt syncId revision false [("error", .str code)]

/-- `_cmd_sync_tasks`: the store, and the receipt it appended if any.  `fault` says that SQLite
    raised in the transaction. -/
def cmdSyncTasks (s : TaskStore) (frame : Frame) (fault : Bool) : TaskStore × Option Frame :=
  let revision := frame.getD "revision" (.str "")
  let syncId := frame.getD "sync_id" (.str "")
  match frame.has "revision" || frame.has "sync_id", revision, syncId with
  | true, .str rev, .str sid =>
    if !(isHex 64 rev && isHex 32 sid) then (s, none)
    else match frame.get "tasks" with
      | .arr tasks =>
        if E.taskRevision tasks ≠ rev then
          (s, some (failure syncId revision "revision_mismatch"))
        else match (if fault then none else replaceTasks E s tasks rev) with
          | none    => (s, some (failure syncId revision "apply_failed"))
          | some s' => (s', some (receipt syncId revision true [("count", .int tasks.length)]))
      | _ => (s, some (failure syncId revision "invalid_tasks"))
  | true, _, _ => (s, none)
  | false, _, _ =>
    match frame.get "tasks" with
    | .arr tasks => match (if fault then none else replaceTasks E s tasks "") with
      | none    => (s, none)
      | some s' => (s', none)
    | _ => (s, none)

/-! ## What the command does -/

/-- A sync frame of the Server. -/
structure Sync where
  tasks    : List Value
  revision : String
  syncId   : String

/-- The frame of `push_tasks`. -/
def Sync.frame (f : Sync) : Frame :=
  [("type", .str "sync_tasks"), ("tasks", .arr f.tasks), ("revision", .str f.revision),
   ("sync_id", .str f.syncId)]

theorem replaceTasks_revision {s s' : TaskStore} {tasks : List Value} {revision : String}
    (h : replaceTasks E s tasks revision = some s') : s'.revision = some revision := by
  unfold replaceTasks at h
  split at h
  · cases h
  · split at h
    · cases h
    · cases h; rfl

/-! ## A replaced table holds the list -/

/-- The table holds the tasks of the list: the same ids, with the same columns. -/
def TaskStore.Holds (s : TaskStore) (tasks : List Value) : Prop :=
  ∀ id columns, (∃ row ∈ s.tasks, row.id = id ∧ row.columns = columns) ↔
    ∃ task ∈ tasks, field task "id" = .int id ∧ columnsOf task = columns

theorem taskIds_spec {tasks : List Value} {keep out : List Int}
    (h : taskIds tasks keep = some out) :
    tasks.Pairwise (fun a b => field a "id" ≠ field b "id") ∧
    (∀ task ∈ tasks, ∃ n, field task "id" = .int n ∧ n ∉ keep) ∧
    (∀ n, n ∈ out → n ∈ keep ∨ ∃ task ∈ tasks, field task "id" = .int n) := by
  induction tasks generalizing keep with
  | nil =>
    cases h
    exact ⟨.nil, nofun, fun n hn => Or.inl hn⟩
  | cons task tasks ih =>
    rw [taskIds] at h
    split at h
    · rename_i n hid
      split at h
      · cases h
      · rename_i hfree
        have hn : n ∉ keep := fun hmem => hfree (Or.inr hmem)
        obtain ⟨hpair, hids, hout⟩ := ih h
        refine ⟨List.pairwise_cons.mpr ⟨fun t ht heq => ?_, hpair⟩, ?_, ?_⟩
        · obtain ⟨m, hm, hmk⟩ := hids t ht
          rw [hid, hm] at heq
          cases heq
          exact hmk (List.mem_append.mpr (Or.inr (List.mem_singleton.mpr rfl)))
        · intro t ht
          rcases List.mem_cons.mp ht with rfl | ht
          · exact ⟨n, hid, hn⟩
          · obtain ⟨m, hm, hmk⟩ := hids t ht
            exact ⟨m, hm, fun hmem => hmk (List.mem_append.mpr (Or.inl hmem))⟩
        · intro m hm
          rcases hout m hm with hk | ⟨t, ht, htid⟩
          · rcases List.mem_append.mp hk with hk | hk
            · exact Or.inl hk
            · obtain rfl := List.mem_singleton.mp hk
              exact Or.inr ⟨task, List.mem_cons_self, hid⟩
          · exact Or.inr ⟨t, List.mem_cons_of_mem _ ht, htid⟩
    · cases h

/-- What one upsert leaves: the task's row with its columns, and the other rows as they were. -/
theorem upsertTask_spec {rows rows' : List TaskRow} {task : Value}
    (h : upsertTask E rows task = some rows') :
    ∃ n, field task "id" = .int n ∧
      (∃ row ∈ rows', row.id = n ∧ row.columns = columnsOf task) ∧
      (∀ row ∈ rows', (row.id = n ∧ row.columns = columnsOf task) ∨ (row.id ≠ n ∧ row ∈ rows)) ∧
      (∀ row ∈ rows, row.id ≠ n → row ∈ rows') := by
  unfold upsertTask at h
  dsimp only at h
  split at h
  case h_2 => cases h
  case h_1 n hid =>
    refine ⟨n, hid, ?_⟩
    split at h
    case isFalse => cases h
    case isTrue =>
      split at h
      · rename_i hnone
        cases h
        refine ⟨⟨_, List.mem_append.mpr (Or.inr List.mem_cons_self), rfl, rfl⟩, ?_, ?_⟩
        · intro row hrow
          rcases List.mem_append.mp hrow with hrow | hrow
          · have hne := List.find?_eq_none.mp hnone row hrow
            exact Or.inr ⟨by simpa using hne, hrow⟩
          · obtain rfl := List.mem_singleton.mp hrow
            exact Or.inl ⟨rfl, rfl⟩
        · intro row hrow _
          exact List.mem_append.mpr (Or.inl hrow)
      · rename_i old hold
        split at h
        · cases h
        · cases h
          have hmem := List.mem_of_find?_eq_some hold
          have hid' : old.id = n := by simpa using List.find?_some hold
          refine ⟨⟨_, List.mem_map.mpr ⟨old, hmem, rfl⟩, ?_, ?_⟩, ?_, ?_⟩
          · rw [if_pos hid']; exact hid'
          · rw [if_pos hid']
          · intro row hrow
            obtain ⟨r, hr, rfl⟩ := List.mem_map.mp hrow
            by_cases hrn : r.id = n
            · rw [if_pos hrn]; exact Or.inl ⟨hrn, rfl⟩
            · rw [if_neg hrn]; exact Or.inr ⟨hrn, hr⟩
          · intro row hrow hne
            exact List.mem_map.mpr ⟨row, hrow, if_neg hne⟩

/-- What the upserts leave: a row for each task of the list, and the rows of no task. -/
theorem upsertTasks_spec {tasks : List Value} {rows rows' : List TaskRow}
    (hpair : tasks.Pairwise fun a b => field a "id" ≠ field b "id")
    (h : upsertTasks E rows tasks = some rows') :
    (∀ task ∈ tasks, ∃ row ∈ rows', field task "id" = .int row.id ∧
      row.columns = columnsOf task) ∧
    (∀ row ∈ rows', (∃ task ∈ tasks, field task "id" = .int row.id ∧
        columnsOf task = row.columns) ∨
      (row ∈ rows ∧ ∀ task ∈ tasks, field task "id" ≠ .int row.id)) ∧
    (∀ row ∈ rows, (∀ task ∈ tasks, field task "id" ≠ .int row.id) → row ∈ rows') := by
  induction tasks generalizing rows with
  | nil =>
    cases h
    exact ⟨nofun, fun row hrow => Or.inr ⟨hrow, nofun⟩, fun row hrow _ => hrow⟩
  | cons task tasks ih =>
    rw [upsertTasks] at h
    obtain ⟨hhead, htail⟩ := List.pairwise_cons.mp hpair
    cases hone : upsertTask E rows task with
    | none => simp [hone] at h
    | some rows₁ =>
      simp only [hone] at h
      obtain ⟨n, hid, ⟨row₁, hrow₁, hid₁, hcol₁⟩, hback, hkeep⟩ := upsertTask_spec E hone
      obtain ⟨hall, hback', hkeep'⟩ := ih htail h
      refine ⟨?_, ?_, ?_⟩
      · intro t ht
        rcases List.mem_cons.mp ht with rfl | ht
        · -- the later tasks have other ids, so its row stays
          have hfree : ∀ t' ∈ tasks, field t' "id" ≠ .int row₁.id := fun t' ht' heq =>
            hhead t' ht' (by rw [hid, heq, hid₁])
          exact ⟨row₁, hkeep' row₁ hrow₁ hfree, by rw [hid, hid₁], hcol₁⟩
        · exact hall t ht
      · intro row hrow
        rcases hback' row hrow with ⟨t, ht, hx⟩ | ⟨hmem, hfree⟩
        · exact Or.inl ⟨t, List.mem_cons_of_mem _ ht, hx⟩
        · rcases hback row hmem with ⟨hrid, hcol⟩ | ⟨hrid, hmem'⟩
          · exact Or.inl ⟨task, List.mem_cons_self, by rw [hid, hrid], hcol.symm⟩
          · refine Or.inr ⟨hmem', fun t ht heq => ?_⟩
            rcases List.mem_cons.mp ht with rfl | ht
            · rw [hid] at heq
              exact hrid (Value.int.inj heq).symm
            · exact hfree t ht heq
      · intro row hrow hfree
        have hne : row.id ≠ n := fun heq =>
          hfree task List.mem_cons_self (by rw [hid, heq])
        exact hkeep' row (hkeep row hrow hne) fun t ht => hfree t (List.mem_cons_of_mem _ ht)

/-- **A replaced table holds exactly the list**: full-replace, with the columns as sent. -/
theorem replaceTasks_holds {s s' : TaskStore} {tasks : List Value} {revision : String}
    (h : replaceTasks E s tasks revision = some s') : s'.Holds tasks := by
  unfold replaceTasks at h
  split at h
  · cases h
  · rename_i keep hkeep
    split at h
    · cases h
    · rename_i rows hrows
      cases h
      obtain ⟨hpair, _, hids⟩ := taskIds_spec hkeep
      obtain ⟨hall, hback, _⟩ := upsertTasks_spec E hpair hrows
      intro id columns
      constructor
      · rintro ⟨row, hrow, rfl, rfl⟩
        rcases hback row hrow with hx | ⟨hmem, hfree⟩
        · exact hx
        · have hk : row.id ∈ keep := by simpa using (List.mem_filter.mp hmem).2
          rcases hids _ hk with hnil | ⟨t, ht, htid⟩
          · cases hnil
          · exact absurd htid (hfree t ht)
      · rintro ⟨task, htask, hid, rfl⟩
        obtain ⟨row, hrow, hrid, hcol⟩ := hall task htask
        rw [hid] at hrid
        exact ⟨row, hrow, (Value.int.inj hrid).symm, hcol⟩

/-! ## What the command does to a sync frame -/

variable {E}

/-- **What a sync frame does**: the list is applied and a success receipt with its id and revision
    is appended, or the store stays and no success receipt is appended. -/
theorem cmdSyncTasks_spec {s s' : TaskStore} {f : Sync} {fault : Bool} {out : Option Frame}
    (h : cmdSyncTasks E s f.frame fault = (s', out)) :
    (E.taskRevision f.tasks = f.revision ∧ s'.revision = some f.revision ∧
      replaceTasks E s f.tasks f.revision = some s' ∧
      out = some (receipt (.str f.syncId) (.str f.revision) true
        [("count", .int f.tasks.length)])) ∨
    (s' = s ∧ ∀ r, out = some r → ∃ code, r = failure (.str f.syncId) (.str f.revision) code) := by
  unfold cmdSyncTasks at h
  have hrev : Frame.getD f.frame "revision" (.str "") = .str f.revision := rfl
  have hsid : Frame.getD f.frame "sync_id" (.str "") = .str f.syncId := rfl
  have htasks : f.frame.get "tasks" = .arr f.tasks := rfl
  have hver : (f.frame.has "revision" || f.frame.has "sync_id") = true := rfl
  rw [hrev, hsid, htasks, hver] at h
  dsimp only at h
  split at h
  · cases h; exact Or.inr ⟨rfl, nofun⟩
  · split at h
    · cases h; exact Or.inr ⟨rfl, fun r hr => ⟨_, (Option.some.inj hr).symm⟩⟩
    · rename_i hne
      cases hfault : fault with
      | true =>
        rw [hfault] at h
        cases h; exact Or.inr ⟨rfl, fun r hr => ⟨_, (Option.some.inj hr).symm⟩⟩
      | false =>
        rw [hfault] at h
        cases hrep : replaceTasks E s f.tasks f.revision with
        | none =>
          simp only [hrep] at h
          cases h; exact Or.inr ⟨rfl, fun r hr => ⟨_, (Option.some.inj hr).symm⟩⟩
        | some s₁ =>
          simp only [hrep] at h
          cases h
          exact Or.inl ⟨not_not.mp hne, replaceTasks_revision E hrep, rfl, rfl⟩

end Air780eHub.TaskSync
