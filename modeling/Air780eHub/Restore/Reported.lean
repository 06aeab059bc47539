/-
  What a restore reports about the database (`reported_outcome`).

  `unchanged` says that the restore wrote nothing, `rolledBack` that the database is what it was
  when `replace_prepared` was called.  The updates that come before the snapshot are written in
  place and no failure undoes them, so `unchanged` is true as long as they found nothing to change;
  and the snapshot is the database of `replace_prepared` as long as nobody writes in between.
-/
import Air780eHub.Restore.Model

namespace Air780eHub.Restore

variable {ρ : Type} {s s' : State ρ} {a : Act ρ}

/-- The outcome that was reported is true. -/
structure Reported (s : State ρ) : Prop where
  unchanged  : s.outcome = some .unchanged → s.db = s.alone
  rolledBack : s.outcome = some .rolledBack → s.db = s.before

/-- An update was written in place, and the database is not replaced yet. -/
def Phase.updating : Phase ρ → Bool
  | .markingAgents _ | .markingDevices _ | .recovering _ | .checking _ | .copying _
  | .syncing _ _ => true
  | _ => false

/-- The database has to stay what the snapshot is. -/
def Phase.copied : Phase ρ → Bool
  | .syncing _ _ | .replacing _ _ | .reverifying => true
  | _ => false

/-- No step fails after an update found a row to change, until the database is replaced; and nobody
    else changes the database between the snapshot and `replace_prepared`, or while a rollback is
    verified. -/
def Clean (s : State ρ) : Act ρ → Prop
  | .fail    => s.phase.updating = true → s.touched = false
  | .other f => s.phase.copied = true → f s.db = s.db
  | _        => True

/-! ## The updates -/

theorem updateWhere_eq_self {p : Operation → Bool} {f : Operation → Operation}
    {ops : List Operation} (h : ops.any p = false) : updateWhere p f ops = ops := by
  unfold updateWhere
  refine (List.map_congr_left fun r hr => ?_).trans (List.map_id _)
  have hp : ¬ p r = true := fun hp => by
    rw [List.any_eq_false] at h
    exact h r hr hp
  exact if_neg hp

theorem cancelQueued_eq_self {db : Content ρ}
    (h : (db.operations.any fun r => decide (r.status = .queued)) = false) :
    db.cancelQueued = db := by
  show { db with operations := Operation.cancelQueued db.operations } = db
  rw [show Operation.cancelQueued db.operations = db.operations from updateWhere_eq_self h]

theorem recover_eq_self {db : Content ρ}
    (h : (db.operations.any fun r => decide (r.status = .running)) = false) : db.recover = db := by
  show { db with operations := Operation.recover db.operations } = db
  rw [show Operation.recover db.operations = db.operations from updateWhere_eq_self h]

theorem markAgents_eq_self {db : Content ρ} (h : db.rows.agents.any Prod.snd = false) :
    db.markAgents = db := by
  have hmap : (db.rows.agents.map fun r => (r.1, false)) = db.rows.agents := by
    refine (List.map_congr_left fun r hr => ?_).trans (List.map_id _)
    have hoff : r.2 = false := Bool.eq_false_iff.mpr (List.any_eq_false.mp h r hr)
    rw [← hoff]
    rfl
  unfold Content.markAgents
  rw [hmap]

theorem markDevices_eq_self {db : Content ρ}
    (h : db.rows.devices.any Gateway.Device.online = false) : db.markDevices = db := by
  have hmap : (db.rows.devices.map fun d => { d with online := false }) = db.rows.devices := by
    refine (List.map_congr_left fun d hd => ?_).trans (List.map_id _)
    have hoff : d.online = false := Bool.eq_false_iff.mpr (List.any_eq_false.mp h d hd)
    rw [← hoff]
    rfl
  unfold Content.markDevices
  rw [hmap]

/-! ## The invariant -/

/-- What the database is, wherever the task is. -/
def Inv (s : State ρ) : Prop :=
  match s.phase with
  | .idle | .preparing | .draining _ | .pausing _ | .cancelling _ =>
    s.outcome = none ∧ s.touched = false ∧ s.db = s.alone
  | .markingAgents _ | .markingDevices _ | .recovering _ | .checking _ | .copying _ =>
    s.outcome = none ∧ (s.touched = false → s.db = s.alone)
  | .syncing _ snap | .replacing _ snap =>
    s.outcome = none ∧ (s.touched = false → s.db = s.alone) ∧ snap = s.db
  | .resetting snap | .verifying snap | .rollingBack snap => s.outcome = none ∧ snap = s.before
  | .reverifying => s.outcome = none ∧ s.db = s.before
  | .leaving     => (s.outcome = none → s.db = s.alone) ∧ Reported s
  | .ended       => Reported s

theorem Reported.of_none (h : s.outcome = none) : Reported s := by
  constructor
  · intro ho
    exact nomatch h.symm.trans ho
  · intro ho
    exact nomatch h.symm.trans ho

theorem Inv.reported (h : Inv s) : Reported s := by
  unfold Inv at h
  split at h
  case h_17 => exact h.2
  case h_18 => exact h
  all_goals exact .of_none h.1

/-- The request is answered. -/
theorem inv_conclude (hnone : s.outcome = none → s.db = s.alone) (h : Reported s) :
    Inv s.conclude := by
  show Reported s.conclude
  unfold State.conclude
  cases ho : s.outcome with
  | none => exact ⟨fun _ => hnone ho, fun h => nomatch h⟩
  | some o => exact ⟨fun hu => h.unchanged (ho.trans hu), fun hr => h.rolledBack (ho.trans hr)⟩

/-- An update that finds nothing changes nothing. -/
theorem update_alone {write : Content ρ → Content ρ} {finds : Bool} {next : Phase ρ}
    (h : s.touched = false → s.db = s.alone) (hself : finds = false → write s.db = s.db) :
    (s.update write finds next).touched = false →
      (s.update write finds next).db = (s.update write finds next).alone := by
  intro ht
  obtain ⟨htouched, hfinds⟩ := (Bool.or_eq_false_iff.mp ht : s.touched = false ∧ finds = false)
  exact (hself hfinds).trans (h htouched)

theorem inv_succeed (h : Inv s) (hs : s.succeed = some s') : Inv s' := by
  unfold State.succeed at hs
  unfold Inv at h
  cases hp : s.phase with
  | idle | preparing | ended => rw [hp] at hs; cases hs
  | draining c | pausing c =>
    rw [hp] at hs h
    obtain rfl := Option.some.inj hs
    exact h
  | cancelling c =>
    rw [hp] at hs h
    obtain rfl := Option.some.inj hs
    obtain ⟨ho, -, heq⟩ := h
    exact ⟨ho, update_alone (fun _ => heq) cancelQueued_eq_self⟩
  | markingAgents c =>
    rw [hp] at hs h
    obtain rfl := Option.some.inj hs
    exact ⟨h.1, update_alone h.2 markAgents_eq_self⟩
  | markingDevices c =>
    rw [hp] at hs h
    obtain rfl := Option.some.inj hs
    exact ⟨h.1, update_alone h.2 markDevices_eq_self⟩
  | recovering c =>
    rw [hp] at hs h
    obtain rfl := Option.some.inj hs
    exact ⟨h.1, update_alone h.2 recover_eq_self⟩
  | checking c =>
    rw [hp] at hs h
    obtain rfl := Option.some.inj hs
    exact h
  | copying c =>
    rw [hp] at hs h
    obtain rfl := Option.some.inj hs
    exact ⟨h.1, h.2, rfl⟩
  | syncing c snap =>
    rw [hp] at hs h
    obtain rfl := Option.some.inj hs
    exact h
  | replacing c snap =>
    rw [hp] at hs h
    obtain rfl := Option.some.inj hs
    exact ⟨h.1, h.2.2⟩
  | resetting snap =>
    rw [hp] at hs h
    obtain rfl := Option.some.inj hs
    exact h
  | verifying snap =>
    rw [hp] at hs h
    obtain rfl := Option.some.inj hs
    exact ⟨nofun, nofun, nofun⟩
  | rollingBack snap =>
    rw [hp] at hs h
    obtain rfl := Option.some.inj hs
    exact h
  | reverifying =>
    rw [hp] at hs h
    obtain rfl := Option.some.inj hs
    exact ⟨nofun, nofun, fun _ => h.2⟩
  | leaving =>
    rw [hp] at hs h
    obtain rfl := Option.some.inj hs
    exact inv_conclude h.1 h.2

/-- Once the task is done others write as before it. -/
theorem reported_other {f : Content ρ → Content ρ} (h : Reported s) : Reported (s.other f) := by
  constructor
  · intro ho
    exact congrArg f (h.unchanged ho)
  · intro ho
    replace ho : s.outcome = some .rolledBack := ho
    show f s.db = if s.outcome = some .rolledBack then f s.before else s.before
    rw [if_pos ho]
    exact congrArg f (h.rolledBack ho)

/-- A failure that leaves `outcome` unset finds the database as others left it. -/
theorem inv_leave (ho : s.outcome = none) (heq : s.db = s.alone) : Inv { s with phase := .leaving } :=
  ⟨fun _ => heq, .of_none ho⟩

theorem inv_fail (h : Inv s) (hclean : Clean s .fail) (hs : s.fail = some s') : Inv s' := by
  unfold State.fail at hs
  unfold Inv at h
  replace hclean : s.phase.updating = true → s.touched = false := hclean
  cases hp : s.phase with
  | idle | ended => rw [hp] at hs; cases hs
  | preparing =>
    rw [hp] at hs h
    obtain rfl := Option.some.inj hs
    exact inv_conclude (fun _ => h.2.2) (.of_none h.1)
  | draining c | pausing c | cancelling c =>
    rw [hp] at hs h
    obtain rfl := Option.some.inj hs
    exact inv_leave h.1 h.2.2
  | markingAgents c | markingDevices c | recovering c | checking c | copying c =>
    rw [hp] at hs h hclean
    obtain rfl := Option.some.inj hs
    exact inv_leave h.1 (h.2 (hclean rfl))
  | syncing c snap =>
    rw [hp] at hs h hclean
    obtain rfl := Option.some.inj hs
    exact inv_leave h.1 (h.2.1 (hclean rfl))
  | replacing c snap =>
    rw [hp] at hs h
    obtain rfl := Option.some.inj hs
    exact ⟨h.1, h.2.2⟩
  | resetting snap | verifying snap =>
    rw [hp] at hs h
    obtain rfl := Option.some.inj hs
    exact h
  | rollingBack snap | reverifying | leaving =>
    rw [hp] at hs
    obtain rfl := Option.some.inj hs
    exact ⟨nofun, nofun⟩

theorem inv_other (h : Inv s) (f : Content ρ → Content ρ) (hclean : Clean s (.other f)) :
    Inv (s.other f) := by
  unfold Inv at h
  replace hclean : s.phase.copied = true → f s.db = s.db := hclean
  have hnone : s.outcome = none → (s.other f).before = s.before := by
    intro ho
    refine if_neg fun hr => ?_
    rw [ho] at hr
    cases hr
  unfold Inv
  rw [show (s.other f).phase = s.phase from rfl]
  cases hp : s.phase with
  | idle | preparing | draining c | pausing c | cancelling c =>
    rw [hp] at h
    exact ⟨h.1, h.2.1, congrArg f h.2.2⟩
  | markingAgents c | markingDevices c | recovering c | checking c | copying c =>
    rw [hp] at h
    exact ⟨h.1, fun ht => congrArg f (h.2 ht)⟩
  | syncing c snap | replacing c snap =>
    rw [hp] at h hclean
    exact ⟨h.1, fun ht => congrArg f (h.2.1 ht), h.2.2.trans (hclean rfl).symm⟩
  | resetting snap | verifying snap | rollingBack snap =>
    rw [hp] at h
    exact ⟨h.1, h.2.trans (hnone h.1).symm⟩
  | reverifying =>
    rw [hp] at h hclean
    exact ⟨h.1, (hclean rfl).trans (h.2.trans (hnone h.1).symm)⟩
  | leaving =>
    rw [hp] at h
    exact ⟨fun ho => congrArg f (h.1 ho), reported_other h.2⟩
  | ended =>
    rw [hp] at h
    exact reported_other h

/-- **Every step keeps the invariant, under the condition.** -/
theorem inv_step (h : Inv s) (hclean : Clean s a) (hs : step s a = some s') : Inv s' := by
  cases a with
  | start =>
    replace hs : s.start = s' := by
      dsimp only [step] at hs
      split at hs
      · exact Option.some.inj hs
      · split at hs
        · cases hs
        · exact Option.some.inj hs
      · cases hs
    subst hs
    exact ⟨rfl, rfl, rfl⟩
  | prepared c =>
    dsimp only [step] at hs
    unfold Inv at h
    cases hp : s.phase with
    | preparing =>
      rw [hp] at hs h
      obtain rfl := Option.some.inj hs
      exact h
    | _ => rw [hp] at hs; cases hs
  | succeed => exact inv_succeed h hs
  | fail => exact inv_fail h hclean hs
  | other f =>
    obtain rfl := Option.some.inj hs
    exact inv_other h f hclean

/-! ## Every run -/

/-- **The reported outcome is true.**  In every run of restores and other writes whose steps are
    clean, after `unchanged` the database is what the writes of others made it, and after
    `rolledBack` what it was when `replace_prepared` was called. -/
theorem reported_outcome (h : (controller ρ).ReachableBy Clean s) : Reported s := by
  have hinv : Inv s := by
    refine h.invariant ?_ fun s a s' hs hg hstep => inv_step hs hg hstep
    rintro s ⟨db, rfl⟩
    exact ⟨rfl, rfl, rfl⟩
  exact hinv.reported

/-! ## Two restores -/

/-- A command that waits for its Agent. -/
def waiting : Operation where
  id             := "op-1"
  actor          := "admin"
  deviceId       := 1
  agentId        := "agent"
  device         := "cat1"
  commandType    := .str "reboot"
  requestHash    := ""
  idempotencyKey := "key-1"
  frame          := [("type", .str "reboot")]
  status         := .queued
  deadline       := "2026-01-01T00:05:00"
  streamId       := "s1"
  connectionId   := "c1"
  resultToken    := "t1"
  expectedImei   := ""
  expectedIccid  := ""
  result         := none
  error          := .null
  createdAt      := "2026-01-01T00:00:00"

/-- A Server with one Agent, connected, and the command. -/
def live : Content Unit :=
  ⟨[waiting], ⟨[("agent", true)], [⟨"agent", .str "cat1", true⟩]⟩, ["session"], [], [], [], ()⟩

/-- A backup with nothing in it. -/
def backup : Content Unit := ⟨[], ⟨[], []⟩, [], [], [], [], ()⟩

/-- The controller over that Server. -/
def State.live : State Unit := { db := Restore.live, alone := Restore.live, before := Restore.live }

/-- The steps up to the end of a phase. -/
def upTo (n : Nat) : List (Act Unit) := .start :: .prepared backup :: List.replicate n .succeed

/-- `Clean`, without other writes. -/
def undisturbed (s : State Unit) : Act Unit → Bool
  | .fail    => !s.phase.updating || !s.touched
  | .other _ => false
  | _        => true

theorem clean_of_undisturbed (s : State Unit) (a : Act Unit) (h : undisturbed s a = true) :
    Clean s a := by
  cases a with
  | fail =>
    intro hup
    replace h : (!s.phase.updating || !s.touched) = true := h
    rw [hup, Bool.not_true, Bool.false_or] at h
    simpa using h
  | other f => cases h
  | _ => trivial

/-- `replace_prepared` fails, and the snapshot is put back: the report is true. -/
theorem reported_outcome_rolledBack :
    ∃ s : State Unit, s.outcome = some .rolledBack ∧ Reported s :=
  have hpath := @Machine.runBy_path _ _ (controller Unit) undisturbed State.live _
    (upTo 9 ++ [.fail, .succeed, .succeed, .succeed]) rfl
  ⟨_, rfl, reported_outcome ⟨State.live, ⟨live, rfl⟩, hpath.mono clean_of_undisturbed⟩⟩

/-- There is no room for the snapshot: the report is `unchanged`, and the command is cancelled and
    the Agent and its module are offline. -/
theorem full_disk_misreported :
    ∃ s, (controller Unit).run State.live (upTo 6 ++ [.fail, .succeed]) = some s ∧
      s.outcome = some .unchanged ∧ s.alone = live ∧
      live.operations.map Operation.status = [.queued] ∧
      s.db.operations.map Operation.status = [.cancelled] ∧
      live.rows.agents = [("agent", true)] ∧ s.db.rows.agents = [("agent", false)] ∧
      ¬ Reported s := by
  refine ⟨_, rfl, rfl, rfl, rfl, rfl, rfl, rfl, fun h => ?_⟩
  have hops := congrArg (fun c => c.operations.map Operation.status) (h.unchanged rfl)
  exact absurd hops (by decide)

end Air780eHub.Restore
