/-
  What a frame says of the faults, and that its transaction notes exactly that.

  1. **`told`**: the words of a frame, read off its fields; the later of two words on one fault
     counts.
  2. **`Notes`**: a program notes these words, in this order.
  3. **The callbacks**, and **`notes_apply`**.
-/
import Air780eHub.Incidents.Rows
import Air780eHub.Notify.Model

namespace Air780eHub.Incidents

open Relational Server Notify

variable {E : Env} {agentId kind streamId : String} {frame : Frame}

/-! ## Words of a frame -/

/-- The fault that a module is not registered to its network. -/
def registrationFault (E : Env) (agentId : String) (frame : Frame) : String :=
  fingerprintOf ("network-registration:" ++ agentId ++ ":" ++
    pyStr E.repr (frame.getD "device" (.str "")))

/-- The fault that the module could not send. -/
def sendFault (E : Env) (agentId : String) (frame : Frame) : String :=
  fingerprintOf (sendFingerprint E agentId frame)

/-- The fault that the supply voltage of a module is low. -/
def voltageFault (E : Env) (agentId : String) (frame : Frame) : String :=
  fingerprintOf ("supply-voltage:" ++ agentId ++ ":" ++ textOr E (frame.get "device") "")

/-- The fault that a module has to be recovered. -/
def recoveryFault (E : Env) (agentId : String) (frame : Frame) : String :=
  fingerprintOf ("device-recovery:" ++ agentId ++ ":" ++ textOr E (frame.get "device") "")

/-- The fault that a task fails. -/
def taskFault (E : Env) (frame : Frame) : String :=
  fingerprintOf ("keepalive-task:" ++ pyStr E.repr (frame.get "task_id"))

/-- A module that is offline is neither unregistered nor failing to send; one whose radio is off
    is not expected to register. -/
def toldRegistration (E : Env) (agentId : String) (frame : Frame) : List Word :=
  if offline frame then
    [(registrationFault E agentId frame, false), (sendFault E agentId frame, false)]
  else if frame.has "registered" then
    [(registrationFault E agentId frame,
      decide (frame.get "radio_enabled" ≠ .bool false) && !(frame.get "registered").truthy)]
  else []

/-- A frame tells of the voltage when it has a reading and a threshold. -/
def toldVoltage (E : Env) (agentId : String) (frame : Frame) : List Word :=
  match (toInt (frame.get "voltage_mv")).toOption, (toInt (frame.get "low_voltage_mv")).toOption with
  | some voltage, some threshold =>
    if threshold = 0 then []
    else [(voltageFault E agentId frame, !offline frame && decide (voltage < threshold))]
  | _, _ => []

/-- A message that is still on its way tells nothing. -/
def toldSend (E : Env) (agentId : String) (frame : Frame) : List Word :=
  let status := textOr E (frame.get "status") "sent"
  if status = "failed" then [(sendFault E agentId frame, true)]
  else if status = "sent" ∨ status = "delivered" then [(sendFault E agentId frame, false)]
  else []

/-- The log of a recovery tells when it began, when it was given up and when it ended. -/
def toldRecovery (E : Env) (agentId : String) (frame : Frame) : List Word :=
  let outcome := textOr E (frame.get "outcome") ""
  if frame.get "event" ≠ .str "device_recovery" then []
  else if textOr E (frame.get "device") "" = "" ∨ textOr E (frame.get "action") "" = "" then []
  else if outcome = "started" ∨ outcome = "exhausted" then [(recoveryFault E agentId frame, true)]
  else if outcome = "succeeded" ∨ outcome = "cancelled" then
    [(recoveryFault E agentId frame, false)]
  else []

/-- The result of a task that is named; a run that was skipped tells nothing. -/
def toldTask (E : Env) (frame : Frame) : List Word :=
  if frame.get "task_id" = .null then []
  else if frame.get "status" = .str "failed" then [(taskFault E frame, true)]
  else if frame.get "status" = .str "ok" then [(taskFault E frame, false)]
  else []

/-- What a frame says of the faults. -/
def told (E : Env) (agentId kind : String) (frame : Frame) : List Word :=
  match kind with
  | "status"      => toldRegistration E agentId frame ++ toldVoltage E agentId frame
  | "sms_out"     => toldSend E agentId frame
  | "log"         => toldRecovery E agentId frame
  | "task_result" => toldTask E frame
  | _             => []

/-! ## Noting -/

/-- Where the program returns, it has noted these words. -/
def Notes {α : Type} (L : List Word) (m : Hub α) : Prop :=
  ∀ db a db' book, m db = .ok (a, db') → Represents db book →
    ∃ notes : List Note, notes.map Note.word = L ∧ Represents db' (book.after notes)

namespace Notes

variable {α β : Type} {L L' : List Word} {m : Hub α} {f : α → Hub β} {ts : List Table}

theorem bind (hm : Notes L m) (hf : ∀ a, Notes L' (f a)) : Notes (L ++ L') (m >>= f) := by
  intro db b db' book h hb
  obtain ⟨a, db₁, ha, hrest⟩ := of_bind_ok h
  obtain ⟨notes, rfl, hb₁⟩ := hm db a db₁ book ha hb
  obtain ⟨notes', rfl, hb'⟩ := hf a db₁ b db' _ hrest hb₁
  refine ⟨notes ++ notes', List.map_append, ?_⟩
  rw [Book.after, List.foldl_append]
  exact hb'

/-- A program that does not write the table notes nothing. -/
theorem nothing (h : Touches ts m) (ht : .incidents ∉ ts) : Notes [] m :=
  fun _ _ _ _ hrun hb => ⟨[], rfl, hb.touches h ht hrun⟩

theorem pure (a : α) : Notes [] (Pure.pure a) :=
  have h : Touches [] (Pure.pure a) := .pure a
  nothing h List.not_mem_nil

/-- A program that does not write the table comes first. -/
theorem next (h : Touches ts m) (ht : .incidents ∉ ts) (hf : ∀ a, Notes L (f a)) :
    Notes L (m >>= f) :=
  bind (nothing h ht) hf

/-- A program that writes nothing comes first. -/
theorem reads (h : Touches [] m) (hf : ∀ a, Notes L (f a)) : Notes L (m >>= f) :=
  next h List.not_mem_nil hf

/-- Nothing is written after the program. -/
theorem last (h : Notes L m) (hf : ∀ a, Notes [] (f a)) : Notes L (m >>= f) := by
  have hb := bind h hf
  rwa [List.append_nil] at hb

theorem ite {c : Prop} [Decidable c] {n : Hub α} (hm : c → Notes L m) (hn : ¬ c → Notes L n) :
    Notes L (if c then m else n) := by
  by_cases hc : c
  · rw [if_pos hc]; exact hm hc
  · rw [if_neg hc]; exact hn hc

end Notes

theorem notes_open (fault kind severity source title detail : String) :
    Notes [(fingerprintOf fault, true)] (openIncident E fault kind severity source title detail) :=
  fun _ _ _ _ h hb => ⟨[.fault E.utcnow (fingerprintOf fault)
    (reportOf kind severity source title detail)], rfl, represents_open hb h⟩

theorem notes_resolve (fault detail : String) :
    Notes [(fingerprintOf fault, false)] (resolveIncident E fault detail) :=
  fun _ _ _ _ h hb => ⟨[.cleared E.utcnow (fingerprintOf fault) (pyTake 1000 detail)], rfl,
    represents_resolve hb h⟩

/-- A reading, where none is out of the range of an integer. -/
theorem optionalInt_ok {v : Value} {db db' : HubDb} {x : Option Int}
    (h : optionalInt v db = .ok (x, db')) : x = (toInt v).toOption ∧ db' = db := by
  have hnull : v = .null ∨ v ≠ .null := Classical.em _
  rcases hnull with rfl | hv
  · cases h
    exact ⟨rfl, rfl⟩
  · rw [optionalInt.eq_2 v hv] at h
    cases hn : toInt v with
    | ok n =>
      rw [hn] at h
      cases h
      exact ⟨rfl, rfl⟩
    | error e =>
      rw [hn] at h
      cases e with
      | overflowError => cases h
      | _ => cases h; exact ⟨rfl, rfl⟩

/-- A program that goes on with a reading. -/
theorem notes_reading {β : Type} {v : Value} {f : Option Int → Hub β} {L : List Word}
    (hf : Notes L (f (toInt v).toOption)) : Notes L (optionalInt v >>= f) := by
  intro db b db' book h hb
  obtain ⟨x, db₁, hx, hrest⟩ := of_bind_ok h
  obtain ⟨rfl, rfl⟩ := optionalInt_ok hx
  exact hf _ b db' book hrest hb

/-! ## The callbacks -/

theorem notes_noteSend (status : String) (h : status = textOr E (frame.get "status") "sent") :
    Notes (toldSend E agentId frame) (noteSend E agentId frame status) := by
  unfold toldSend noteSend
  rw [h]
  dsimp only
  by_cases hf : textOr E (frame.get "status") "sent" = "failed"
  · rw [if_pos hf, if_pos hf]
    exact notes_open _ _ _ _ _ _
  · rw [if_neg hf, if_neg hf]
    by_cases hs : textOr E (frame.get "status") "sent" = "sent" ∨
        textOr E (frame.get "status") "sent" = "delivered"
    · rw [if_pos hs, if_pos hs]
      exact notes_resolve _ _
    · rw [if_neg hs, if_neg hs]
      exact .pure _

theorem notes_applySmsOut : Notes (toldSend E agentId frame) (applySmsOut E agentId frame) := by
  refine .reads (touches_convert _) fun raw => ?_
  refine .reads (touches_collectReferences _) fun references => ?_
  refine .next (touches_insertMessage _) (by decide) fun i => ?_
  exact .next (.ite (.pure _) (touches_attachSmsSegments _ _ _ _ _)) (by decide) fun _ =>
    notes_noteSend _ rfl

theorem notes_noteRegistration :
    Notes (toldRegistration E agentId frame) (noteRegistration E agentId frame) := by
  unfold toldRegistration noteRegistration
  dsimp only
  by_cases hoff : offline frame = true
  · rw [if_pos hoff, if_pos (by rw [hoff, Bool.or_true]), if_pos hoff]
    exact .bind (notes_resolve _ _) fun _ => notes_resolve _ _
  · have hon : offline frame = false := (Bool.not_eq_true _).mp hoff
    rw [if_neg hoff, hon, Bool.or_false]
    by_cases hreg : frame.has "registered" = true
    · rw [if_pos hreg, if_pos hreg, if_neg Bool.false_ne_true]
      by_cases hradio : frame.get "radio_enabled" = .bool false
      · rw [if_pos hradio, decide_eq_false (fun h => h hradio), Bool.false_and]
        exact notes_resolve _ _
      · rw [if_neg hradio, decide_eq_true hradio, Bool.true_and]
        cases (frame.get "registered").truthy with
        | true => exact notes_resolve _ _
        | false => exact notes_open _ _ _ _ _ _
    · rw [if_neg hreg, if_neg hreg]
      exact .pure _

theorem notes_noteVoltage (voltage threshold : Int) :
    Notes [(voltageFault E agentId frame, !offline frame && decide (voltage < threshold))]
      (noteVoltage E agentId frame voltage threshold) := by
  unfold noteVoltage
  dsimp only
  by_cases hoff : offline frame = true
  · rw [if_pos hoff, hoff]
    exact notes_resolve _ _
  · rw [if_neg hoff, (Bool.not_eq_true _).mp hoff, Bool.not_false, Bool.true_and]
    by_cases hlow : threshold ≤ voltage
    · rw [if_pos hlow, decide_eq_false (by omega)]
      exact notes_resolve _ _
    · rw [if_neg hlow, decide_eq_true (by omega)]
      exact notes_open _ _ _ _ _ _

theorem notes_applySupplyVoltage :
    Notes (toldVoltage E agentId frame) (applySupplyVoltage E agentId frame) := by
  unfold applySupplyVoltage toldVoltage
  refine notes_reading (notes_reading ?_)
  cases (toInt (frame.get "voltage_mv")).toOption with
  | none => exact .pure _
  | some voltage =>
    cases (toInt (frame.get "low_voltage_mv")).toOption with
    | none => exact .pure _
    | some threshold =>
      dsimp only
      by_cases hzero : threshold = 0
      · rw [if_pos hzero, if_pos hzero]
        exact .pure _
      · rw [if_neg hzero, if_neg hzero]
        exact notes_noteVoltage voltage threshold

theorem notes_applyStatus : Notes (toldRegistration E agentId frame ++ toldVoltage E agentId frame)
    (applyStatus E agentId frame) := by
  refine .next (touches_upsertDevice _) (by decide) fun i => ?_
  refine .next (touches_recordStatus _ _) (by decide) fun _ => ?_
  refine .bind notes_noteRegistration fun _ => ?_
  exact .last notes_applySupplyVoltage fun _ => .pure _

theorem notes_applyLog : Notes (toldRecovery E agentId frame) (applyLog E agentId frame) := by
  have hbind : ∀ v, Touches [] (bind v) := touches_bind
  refine .next (hbind _) List.not_mem_nil fun device => ?_
  refine .next (hbind _) List.not_mem_nil fun level => ?_
  refine .next (hbind _) List.not_mem_nil fun message => ?_
  refine .next (hbind _) List.not_mem_nil fun ts => ?_
  refine .next (touches_insert (List.mem_singleton_self _)) (by decide) fun _ => ?_
  unfold toldRecovery applyDeviceRecovery
  dsimp only
  by_cases hevent : frame.get "event" = .str "device_recovery"
  · rw [if_pos hevent, if_neg (fun h => h hevent)]
    by_cases hblank : textOr E (frame.get "device") "" = "" ∨ textOr E (frame.get "action") "" = ""
    · rw [if_pos hblank, if_pos hblank]
      exact .pure _
    · rw [if_neg hblank, if_neg hblank]
      generalize textOr E (frame.get "outcome") "" = outcome
      by_cases hend : outcome = "succeeded" ∨ outcome = "cancelled"
      · have hgoing : ¬ (outcome = "started" ∨ outcome = "exhausted") := by
          rcases hend with rfl | rfl
          · decide
          · decide
        rw [if_pos hend, if_neg hgoing, if_pos hend]
        exact notes_resolve _ _
      · rw [if_neg hend, if_neg hend]
        by_cases hgoing : outcome = "started" ∨ outcome = "exhausted"
        · rw [if_pos hgoing, if_neg (fun h => hgoing.elim h.1 h.2)]
          exact notes_reading (notes_open _ _ _ _ _ _)
        · rw [if_neg hgoing, if_pos (not_or.mp hgoing)]
          exact .pure _
  · rw [if_neg hevent, if_pos hevent]
    exact .pure _

theorem notes_applyTaskResult : Notes (toldTask E frame) (applyTaskResult E frame) := by
  refine .next touches_insertTaskLog (by decide) fun _ => ?_
  unfold toldTask
  by_cases hid : frame.get "task_id" = .null
  · rw [if_pos hid, if_pos hid]
    exact .pure _
  · rw [if_neg hid, if_neg hid]
    refine .reads (touches_bind _) fun taskId => ?_
    refine .reads (touches_one _ _) fun task => ?_
    refine .last ?_ fun _ => ?_
    · unfold noteTask
      dsimp only
      by_cases hf : frame.get "status" = .str "failed"
      · rw [if_pos hf, if_pos hf]
        exact notes_open _ _ _ _ _ _
      · rw [if_neg hf, if_neg hf]
        by_cases hok : frame.get "status" = .str "ok"
        · rw [if_pos hok, if_pos hok]
          exact notes_resolve _ _
        · rw [if_neg hok, if_neg hok]
          exact .pure _
    · refine .next (touches_noteRunTimes _) (by decide) fun _ => ?_
      exact .reads (touches_convert _) fun _ => .pure _

/-- A frame of another kind says nothing. -/
theorem told_eq_nil (hstatus : kind ≠ "status") (hout : kind ≠ "sms_out") (hlog : kind ≠ "log")
    (htask : kind ≠ "task_result") : told E agentId kind frame = [] := by
  unfold told
  split
  · exact absurd rfl hstatus
  · exact absurd rfl hout
  · exact absurd rfl hlog
  · exact absurd rfl htask
  · rfl

theorem notes_dispatch (start : AppliedEvent) :
    Notes (told E agentId kind frame) (dispatch E agentId kind frame start streamId) := by
  unfold dispatch
  split
  · exact .next touches_applySmsIn (by decide) fun _ => .pure _
  · exact .last notes_applySmsOut fun _ => .pure _
  · exact .next touches_applySmsDelivery (by decide) fun _ => .pure _
  · exact .last notes_applyStatus fun _ => .pure _
  · exact .next touches_applyCallEvent (by decide) fun _ => .pure _
  · exact .last notes_applyLog fun _ => .pure _
  · exact .last notes_applyTaskResult fun _ => .pure _
  · exact .next touches_applyOperationResult (by decide) fun _ => .pure _
  · exact .next touches_applyTasksApplied (by decide) fun _ => .pure _
  · rename_i _ hout _ hstatus _ hlog htask _ _
    rw [told_eq_nil hstatus hout hlog htask]
    exact .pure _

/-- **The transaction of an event notes what its frame says**, and nothing else. -/
theorem notes_apply (eventKey : String) :
    Notes (told E agentId kind frame) (apply E agentId kind frame eventKey streamId) := by
  refine .last (notes_dispatch _) fun a => ?_
  exact .next (touches_queueNotification a) (by decide) fun _ => .pure _

end Air780eHub.Incidents
