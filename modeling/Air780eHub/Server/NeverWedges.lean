/-
  Ingest and the foreign keys: which events the Server can never take.

  An event whose callback raises rolls its transaction back; the connection is closed, the event
  stays at the head of the Agent's queue and comes again.  A broken constraint is broken again each
  time, so such an event stops everything behind it.

  The machine below writes to the Server's database the way its program does: any committed
  statement of the API, the retention, the notifier or the gateway's own bookkeeping, the backup a
  restore puts in its place, and the transactions of the events.  Statements are not limited to
  those the program has; what is proved of every run here holds of its runs.

  1. **Every event is safe, a receipt on condition**: `safe_dispatch`.
  2. **The machine** and its invariant: the database stays consistent.
  3. **When ingest raises**: for the receipt of a task that is gone, and for nothing else.
-/
import Air780eHub.Lib.Machine
import Air780eHub.Server.CallbackSafe
import Air780eHub.Server.Ingest

namespace Air780eHub.Server

open Relational

variable {E : Env} {agentId streamId key : String}

/-! ## Every event is safe, a receipt on condition -/

/-- The task an event reports on, when it reports on one, is there. -/
def TaskKept (e : AgentEvent) (db : HubDb) : Prop := ∀ n, e.task = some n → HasTask n db

/-- The columns of a module are filled from the state the Agent describes. -/
theorem status_fields (device ts port : String) (low : Int) (state : DeviceState) (seq : Nat)
    (name : Value) :
    DeviceFields (("name", name) :: (AgentEvent.status device ts port low state).frame seq) where
  flags := by
    simp only [DEVICE_FLAGS, List.forall_mem_cons, List.not_mem_nil, false_imp_iff, implies_true,
      and_true]
    refine ⟨fun hn => absurd hn (by decide), fun hn => absurd hn (by decide),
      fun hn => absurd hn (by decide), fun hn => absurd hn (by decide), fun _ => ?_,
      fun hn => absurd hn (by decide), fun hn => absurd hn (by decide),
      fun hn => absurd hn (by decide), fun _ => ?_, fun _ => ?_⟩
    · show Value.bool state.dataEnabled ≠ .null
      exact nofun
    · show Value.bool state.roamingDataAllowed ≠ .null
      exact nofun
    · show Value.bool state.dataBlockedByRoaming ≠ .null
      exact nofun
  counts := by
    simp only [DEVICE_COUNTS, List.forall_mem_cons, List.not_mem_nil, false_imp_iff, implies_true,
      and_true]
    exact ⟨trivial, trivial, trivial⟩
  identity := by
    simp only [DEVICE_IDENTITY, List.forall_mem_cons, List.not_mem_nil, false_imp_iff, implies_true,
      and_true]
    refine ⟨fun ht => ?_, fun _ => filled_str port, fun _ => filled_str state.model,
      fun _ => filled_str state.hardwareModel, fun _ => filled_str state.firmware,
      fun _ => filled_str state.imei, fun _ => filled_str state.operator⟩
    -- the Agent sends no label
    exact absurd ht Bool.false_ne_true

/-- What the Agent says of a module's identity and its card is text. -/
theorem status_identified (device ts port : String) (low : Int) (state : DeviceState) (seq : Nat)
    (name : Value) :
    Identified (("name", name) :: (AgentEvent.status device ts port low state).frame seq) where
  iccid    := fun _ => filled_str state.iccid
  operator := filled_pyOr (fun _ => filled_str state.operator) (filled_str "")
  smsc     := filled_pyOr (fun _ => filled_str state.smsc) (filled_str "")

/-- **Every callback is safe on the event its kind stands for**, a receipt while its task is
    there. -/
theorem safe_dispatch (e : AgentEvent) (seq : Nat) (start : AppliedEvent) :
    Safe (fun db => Sound db ∧ TaskKept e db)
      (dispatch E agentId e.kind (e.frame seq) start streamId) fun _ => Sound := by
  have drop : ∀ {α : Type} {m : Hub α} {Q : α → HubDb → Prop}, Safe Sound m Q →
      Safe (fun db => Sound db ∧ TaskKept e db) m Q := fun h => Avoids.pre h fun _ hdb => hdb.1
  cases e with
  | smsIn device iccid sms now =>
    refine Avoids.bind (drop (safe_applySmsIn ?_)) fun _ => Avoids.pure fun _ h => h
    exact ⟨⟨_, rfl⟩, ⟨_, rfl⟩, ⟨_, rfl⟩, ⟨_, rfl⟩⟩
  | smsFailed device iccid number body ts cmdId error =>
    refine Avoids.bind (drop (safe_applySmsOut ?_)) fun _ => Avoids.pure fun _ h => h
    exact ⟨⟨_, rfl⟩, ⟨_, rfl⟩, ⟨_, rfl⟩, ⟨_, rfl⟩⟩
  | smsSent device iccid number body ts refs cmdId =>
    refine Avoids.bind (drop (safe_applySmsOut ?_)) fun _ => Avoids.pure fun _ h => h
    exact ⟨⟨_, rfl⟩, ⟨_, rfl⟩, ⟨_, rfl⟩, ⟨_, rfl⟩⟩
  | smsDelivery device iccid report now =>
    exact Avoids.bind (drop safe_applySmsDelivery) fun _ => Avoids.pure fun _ h => h
  | status device ts port low state =>
    refine Avoids.bind (drop (safe_applyStatus ?_ ?_ ?_)) fun _ => Avoids.pure fun _ h => h
    · exact status_identified device ts port low state seq _
    · exact ⟨_, rfl⟩
    · exact status_fields device ts port low state seq _
  | callIn device iccid number ts =>
    exact Avoids.bind (drop (safe_applyCallEvent (x := FiniteFloat.zero) rfl)) fun _ =>
      Avoids.pure fun _ h => h
  | callOut device iccid number ts result =>
    exact Avoids.bind (drop (safe_applyCallEvent (x := result.ringSeconds) rfl)) fun _ =>
      Avoids.pure fun _ h => h
  | log device level message ts =>
    refine Avoids.bind (drop (safe_applyLog ?_)) fun _ => Avoids.pure fun _ h => h
    exact ⟨⟨_, rfl⟩, filled_str level, ⟨_, rfl⟩, fun _ => filled_str ts⟩
  | recovery device level message ts action outcome reason attempt =>
    refine Avoids.bind (drop (safe_applyLog ?_)) fun _ => Avoids.pure fun _ h => h
    exact ⟨⟨_, rfl⟩, filled_str level, ⟨_, rfl⟩, fun _ => filled_str ts⟩
  | adopted device message imei iccid =>
    refine Avoids.bind (drop (safe_applyLog ?_)) fun _ => Avoids.pure fun _ h => h
    exact ⟨⟨_, rfl⟩, filled_str "info", ⟨_, rfl⟩, fun ht => absurd ht Bool.false_ne_true⟩
  | taskResult r =>
    refine Avoids.bind (Q := fun _ db => Sound db) ?_ fun _ => Avoids.pure fun _ h => h
    exact (safe_applyTaskResult r seq).pre fun _ h => ⟨h.1, h.2 r.taskId rfl⟩
  | cmdResult frame outcome data error =>
    exact Avoids.bind (drop (safe_applyOperationResult _ _ _)) fun _ => Avoids.pure fun _ h => h
  | plainResult cmdId ok data error =>
    exact Avoids.bind (drop (safe_applyOperationResult _ _ _)) fun _ => Avoids.pure fun _ h => h
  | tasksApplied syncId revision count =>
    exact Avoids.bind (drop safe_applyTasksApplied) fun _ => Avoids.pure fun _ h => h
  | tasksRefused syncId revision error =>
    exact Avoids.bind (drop safe_applyTasksApplied) fun _ => Avoids.pure fun _ h => h

/-- The callback of an event, with the notification it owes. -/
theorem safe_apply (e : AgentEvent) (seq : Nat) :
    Safe (fun db => Sound db ∧ TaskKept e db)
      (apply E agentId e.kind (e.frame seq) key streamId) fun _ => Sound := by
  unfold apply
  refine Avoids.bind (safe_dispatch e seq _) fun applied => ?_
  exact Avoids.bind (safe_queueNotification applied) fun _ => Avoids.pure fun _ h => h

/-- The receipt of a task that is gone raises. -/
theorem apply_raises {e : AgentEvent} {db : HubDb} (h : ¬ TaskKept e db) (seq : Nat) :
    ∃ f, apply E agentId e.kind (e.frame seq) key streamId db = .error f ∧
      f.isIntegrity = true := by
  unfold TaskKept at h
  push Not at h
  obtain ⟨n, hn, hno⟩ := h
  cases e with
  | taskResult r =>
    obtain rfl := Option.some.inj hn
    obtain ⟨f, hf, hint⟩ := (insertTaskLog_error_iff E r seq db).mpr hno
    -- the receipt row is the first statement of the callback
    exact ⟨f, bind_error (bind_error (bind_error hf)), hint⟩
  | _ => cases hn

/-! ## The machine -/

/-- The moment and the standard library of a transaction, and whose event it applies. -/
structure Arrival where
  env       : Env
  agentId   : String
  streamId  : String
  seq       : Nat
  event     : AgentEvent

namespace Arrival

/-- `f"{agent_id}|{connection.stream_id}|{seq}"`. -/
def eventKey (x : Arrival) : String := x.agentId ++ "|" ++ x.streamId ++ "|" ++ toString x.seq

/-- The callback `_ingest` gives to `apply_event`. -/
def callback (x : Arrival) : Hub AppliedEvent :=
  apply x.env x.agentId x.event.kind (x.event.frame x.seq) x.eventKey x.streamId

/-- `UPDATE agents SET last_seq = MAX(last_seq, ?) WHERE id = ?`. -/
def noteSeq (x : Arrival) : Statement Table Column Cell :=
  .update .agents (fun r => equals (r.cells .id) (text x.agentId)) fun r =>
    [(.lastSeq, integer (max (count (r.cells .lastSeq)) x.seq))]

theorem callback_safe (x : Arrival) :
    Safe (fun db => Sound db ∧ TaskKept x.event db) x.callback fun _ => Sound :=
  safe_apply x.event x.seq

theorem callback_raises {x : Arrival} {db : HubDb} (h : ¬ TaskKept x.event db) :
    ∃ f, x.callback db = .error f ∧ f.isIntegrity = true :=
  apply_raises h x.seq

end Arrival

/-- What happens to the database. -/
inductive HubStep
  /-- A statement that is committed. -/
  | statement (q : Statement Table Column Cell)
  /-- A restore: a backup is put in place after its constraints were checked. -/
  | restore (backup : { db : Database HubDb // Sound db.business })
  /-- `apply_event`. -/
  | ingest (x : Arrival)

/-- `apply_event` of an arrival. -/
def Arrival.ingest (x : Arrival) (s : Database HubDb) :
    Except Failure (Option AppliedEvent × Database HubDb) :=
  s.applyEvent ⟨x.agentId, x.streamId, x.seq⟩ x.callback (x.noteSeq.exec SCHEMA)

/-- One step; a transaction that raises is rolled back. -/
def HubStep.exec (s : Database HubDb) : HubStep → Database HubDb
  | .statement q => { s with business := q.exec SCHEMA s.business }
  | .restore b   => b.1
  | .ingest x    => match x.ingest s with
    | .ok (_, s') => s'
    | .error _    => s

/-- The Server's database from its creation on. -/
def hubDatabase : Machine (Database HubDb) HubStep where
  Start := fun s => s = ⟨[], Db.empty⟩
  step  := fun s a => some (a.exec s)

/-- An event leaves a consistent database behind. -/
theorem ingest_sound {x : Arrival} {s s' : Database HubDb} {r : Option AppliedEvent}
    (h : Sound s.business) (hi : x.ingest s = .ok (r, s')) : Sound s'.business := by
  rcases Database.applyEvent_cases hi with ⟨rfl, hk, -⟩ | ⟨a, b, rfl, -, ha, rfl⟩
  · unfold Arrival.ingest Database.applyEvent at hi
    rw [if_pos hk] at hi
    cases hi
    exact Statement.exec_consistent h x.noteSeq
  · have hkept : TaskKept x.event s.business := by
      by_contra hno
      obtain ⟨f, hf, -⟩ := Arrival.callback_raises hno
      exact absurd (ha.symm.trans hf) nofun
    have hsafe := x.callback_safe s.business ⟨h, hkept⟩
    rw [ha] at hsafe
    exact Statement.exec_consistent hsafe x.noteSeq

/-- **The database stays consistent**: after every run its constraints hold. -/
theorem hubDatabase_sound {s : Database HubDb} (h : hubDatabase.Reachable s) :
    Sound s.business := by
  refine h.invariant (I := fun s => Sound s.business) ?_ ?_
  · intro s hs
    obtain rfl : s = ⟨[], Db.empty⟩ := hs
    exact Consistent.empty
  · intro s a s' hs _ hstep
    obtain rfl := Option.some.inj hstep
    cases a with
    | statement q => exact Statement.exec_consistent hs q
    | restore b => exact b.2
    | ingest x =>
      show Sound (match x.ingest s with
        | .ok (_, s') => s'
        | .error _    => s).business
      cases hi : x.ingest s with
      | error f => exact hs
      | ok p => exact ingest_sound hs hi

/-! ## When ingest raises -/

/-- **Ingest wedges on the receipts of deleted tasks, and on nothing else.**  Whatever was written
    before, the callback of an event raises an integrity error exactly when the event is the
    receipt of a task that is not there. -/
theorem callback_raises_iff {s : Database HubDb} (h : hubDatabase.Reachable s) (x : Arrival) :
    (∃ f, x.callback s.business = .error f ∧ f.isIntegrity = true) ↔
      ∃ n, x.event.task = some n ∧ ¬ HasTask n s.business := by
  constructor
  · rintro ⟨f, hf, hint⟩
    by_contra hno
    push Not at hno
    have hsafe := x.callback_safe s.business ⟨hubDatabase_sound h, hno⟩
    rw [hf] at hsafe
    exact hsafe hint
  · rintro ⟨n, hn, hno⟩
    exact Arrival.callback_raises fun hkept => hno (hkept n hn)

/-- A receipt of the first task, queued while the Agent had no connection. -/
def lateReceipt : Arrival where
  env := { utcnow := "2025-01-02T00:00:00+00:00", fromisoformat := fun _ => none
           isoformat := fun _ => "", cutoff := fun _ => "", repr := fun _ => "" }
  agentId  := "edge"
  streamId := "s1"
  seq      := 7
  event    := .taskResult
    { runId := none, taskId := 1, device := some "m1", ts := "2025-01-01T00:00:00+00:00"
      status := .ok, attempts := 1, detail := "", error := none, nextAt := none, notify := true }

/-- An administrator adds a task and deletes it again. -/
def addAndDelete : List HubStep :=
  [.statement (.insert .tasks [(.createdAt, text "2024-12-31T00:00:00+00:00")]),
   .statement (.delete .tasks fun r => r.id == 1)]

/-- The task ran in between, without a connection; its receipt is an integrity error. -/
theorem lateReceipt_raises :
    ∃ s, hubDatabase.run ⟨[], Db.empty⟩ addAndDelete = some s ∧
      lateReceipt.ingest s = .error (.integrity (.foreignKey .taskLogs .taskId)) :=
  ⟨_, rfl, rfl⟩

/-- With the task still there the receipt is taken. -/
theorem callback_raises_iff_kept :
    ∃ s, hubDatabase.Reachable s ∧
      ((∃ f, lateReceipt.callback s.business = .error f ∧ f.isIntegrity = true) ↔
        ∃ n, lateReceipt.event.task = some n ∧ ¬ HasTask n s.business) ∧
      HasTask 1 s.business :=
  have hrun : hubDatabase.Reachable _ :=
    @Machine.run_reachable _ _ hubDatabase _ _ (addAndDelete.take 1) rfl rfl
  ⟨_, hrun, callback_raises_iff hrun lateReceipt, 1, List.mem_singleton_self _, rfl⟩

end Air780eHub.Server
