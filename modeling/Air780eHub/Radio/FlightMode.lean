/-
  A deliberate flight mode and the radio cycle.

  `cycle_radio` asks once whether it may act, and then sends `AT+CFUN=0`, sleeps and sends
  `AT+CFUN=1`.  The command `set_radio_enabled(False)` may come in between: the last `AT+CFUN=1`
  switches RF on again.

  1. **The condition.**  When the command's `AT+CFUN=0` succeeds, no cycle is past its question.  Over
     reconnects also: no cycle is allowed by an unanswered `AT+CFUN?` of which the new connection
     knows nothing, and the module does not start again by itself or by a reset.
  2. **The invariant.**  While the flight mode is deliberate, RF is off, the modem knows it if it knows
     anything, and no cycle is past its question.
  3. **Steps and runs.**
-/
import Mathlib.Tactic.SplitIfs
import Air780eHub.Radio.Model

namespace Air780eHub.Radio

variable {s s' : State} {a : Act}

/-! ## The condition -/

/-- A cycle past its question. -/
def Phase.cycling : Phase → Bool
  | .switchingOff => true
  | .sleeping     => true
  | .switchingOn  => true
  | _             => false

/-- The condition on a step. -/
def uncrossed (s : State) : Act → Bool
  | .commandReplied .done =>
    !(s.command = some (.sending false) && s.samples.any Phase.cycling)
  | .advanced k (.queried false) =>
    !(s.deliberate && s.info = none && s.samples[k]? = some (.permission true))
  | .advanced k (.replied reply) =>
    !(s.deliberate && reply.effect && s.samples[k]? = some .resetting)
  | .rebooted => !s.deliberate
  | _ => true

/-! ## The invariant -/

/-- A deliberate flight mode stands and nothing is about to undo it. -/
structure Kept (s : State) : Prop where
  rf      : s.deliberate = true → s.rf = false
  info    : s.deliberate = true → s.info ≠ some true
  cycles  : s.deliberate = true → ∀ p ∈ s.samples, p.cycling = false
  command : s.command = some (.sending true) → s.deliberate = false
  notes   : ∀ d, .automaticOn d ∈ s.notes → d = false

/-- A sample goes on, not past its question while the flight mode stands. -/
theorem Kept.resume {next : Option Phase} (h : Kept s) (k : Nat)
    (hnext : s.deliberate = true → ∀ p, next = some p → p.cycling = false) :
    Kept (State.resume k (s, next)) := by
  refine ⟨h.rf, h.info, fun hd p hp => ?_, h.command, h.notes⟩
  rcases of_mem_place hp with hp | hp
  · exact h.cycles hd p hp
  · exact hnext hd p hp

/-- A sample ends. -/
theorem Kept.ends (h : Kept s) (k : Nat) : Kept (State.resume k (s, none)) :=
  h.resume k fun _ _ hp => by cases hp

/-- Fewer samples. -/
theorem Kept.fewer {samples : List Phase} (h : Kept s) (hsub : ∀ p ∈ samples, p ∈ s.samples) :
    Kept { s with samples } :=
  ⟨h.rf, h.info, fun hd p hp => h.cycles hd p (hsub p hp), h.command, h.notes⟩

theorem Kept.note {n : Note} (h : Kept s) (hn : ∀ d, n = .automaticOn d → d = false) :
    Kept (s.note n) := by
  refine ⟨h.rf, h.info, h.cycles, h.command, fun d hd => ?_⟩
  rcases List.mem_append.mp hd with hd | hd
  · exact h.notes d hd
  · exact hn d (List.mem_singleton.mp hd).symm

/-- Without a deliberate flight mode RF and what the modem knows may change. -/
theorem Kept.free (h : Kept s) (hfree : s.deliberate = false) (off : Option Cause)
    (info : Option Bool) : Kept { s with off, info } := by
  have hno : s.deliberate = true → False := fun hd => by rw [hfree] at hd; cases hd
  exact ⟨fun hd => (hno hd).elim, fun hd => (hno hd).elim, h.cycles, h.command, h.notes⟩

/-! ## Samples -/

/-- A coroutine that is past the question runs only without a deliberate flight mode. -/
theorem Kept.not_deliberate {k : Nat} {phase : Phase} (h : Kept s)
    (hk : s.samples[k]? = some phase) (hcycling : phase.cycling = true) : s.deliberate = false := by
  cases hd : s.deliberate with
  | false => rfl
  | true =>
    have hidle := h.cycles hd phase (List.mem_of_getElem? hk)
    rw [hcycling] at hidle
    cases hidle

theorem Kept.maybeRecover (h : Kept s) (k : Nat) (action : Option Action) :
    Kept (State.resume k (s.maybeRecover action)) := by
  unfold State.maybeRecover
  split_ifs
  · exact Kept.ends (h.note fun _ hn => by cases hn) k
  · cases action with
    | none => exact h.ends k
    | some action =>
      cases action with
      | operatorReselect => exact h.resume k fun _ p hp => by cases hp; rfl
      | radioCycle => exact h.resume k fun _ p hp => by cases hp; rfl
      | moduleReset => exact h.resume k fun _ p hp => by cases hp; rfl

/-- The question: while the flight mode stands it is answered, or the modem knows. -/
theorem Kept.automaticRecoveryAllowed {k : Nat} {cycle answered : Bool} (h : Kept s)
    (hk : s.samples[k]? = some (.permission cycle))
    (hcalm : uncrossed s (.advanced k (.queried answered)) = true) :
    Kept (State.resume k (s.automaticRecoveryAllowed cycle answered)) := by
  rw [State.automaticRecoveryAllowed]
  split_ifs with hrefused hcycle
  · have hinfo : Kept { s with info := some false } :=
      ⟨h.rf, fun _ => nofun, h.cycles, h.command, h.notes⟩
    exact Kept.ends (hinfo.note fun _ hn => by cases hn) k
  · refine h.resume k fun hd => ?_
    -- a deliberate flight mode would have been refused
    refine absurd ?_ hrefused
    cases answered with
    | true => simp [State.readRadioEnabled, h.rf hd]
    | false =>
      have hknown : s.info ≠ none := by
        intro hnone
        simp [uncrossed, hd, hnone, hk, hcycle] at hcalm
      have hnot := h.info hd
      rcases hinfo : s.info with _ | info
      · exact absurd hinfo hknown
      · cases info with
        | false => rfl
        | true => exact absurd hinfo hnot
  · exact h.ends k

/-- A sample goes on. -/
theorem Kept.advance {k : Nat} {phase : Phase} {event : Event} {r : State × Option Phase}
    (h : Kept s) (hk : s.samples[k]? = some phase)
    (hcalm : uncrossed s (.advanced k event) = true) (hr : s.advance phase event = some r) :
    Kept (State.resume k r) := by
  rw [State.advance.eq_def] at hr
  split at hr
  case h_1 answered =>
    obtain rfl := Option.some.inj hr
    have hread : Kept (s.readStatus answered) := ⟨h.rf, h.info, h.cycles, h.command, h.notes⟩
    exact hread.resume k fun _ p hp => by cases hp; rfl
  case h_2 action =>
    obtain rfl := Option.some.inj hr
    exact h.maybeRecover k action
  case h_3 cycle answered =>
    obtain rfl := Option.some.inj hr
    exact h.automaticRecoveryAllowed hk hcalm
  case h_4 reply =>
    obtain rfl := Option.some.inj hr
    have hfree := h.not_deliberate hk rfl
    have hoff : Kept (if reply.effect then { s with off := some (s.off.getD .cycle) } else s) := by
      split_ifs
      · exact h.free hfree _ s.info
      · exact h
    refine hoff.resume k fun hd => ?_
    split_ifs at hd
    · exact absurd hd (by simp [hfree])
    · exact absurd hd (by simp [hfree])
  case h_5 =>
    obtain rfl := Option.some.inj hr
    have hfree := h.not_deliberate hk rfl
    exact h.resume k fun hd => by rw [hfree] at hd; cases hd
  case h_6 reply =>
    obtain rfl := Option.some.inj hr
    have hfree := h.not_deliberate hk rfl
    refine Kept.ends (Kept.note ?_ fun d hd => ?_) k
    · split_ifs
      · exact h.free hfree _ s.info
      · exact h
    · cases hd
      exact hfree
  case h_7 reply =>
    obtain rfl := Option.some.inj hr
    refine Kept.ends ?_ k
    rw [State.reset]
    split_ifs with heffect
    · refine h.free ?_ none s.info
      simpa [uncrossed, heffect, hk] using hcalm
    · exact h
  case h_8 => cases hr

/-! ## Steps and runs -/

/-- The reply to the command. -/
theorem Kept.commandReply {enabled : Bool} {reply : Reply} (h : Kept s)
    (hcommand : s.command = some (.sending enabled))
    (hcalm : uncrossed s (.commandReplied reply) = true) : Kept (s.commandReply enabled reply) := by
  cases enabled with
  | true =>
    have hfree := h.command hcommand
    cases reply with
    | done =>
      have hon := h.free hfree none (some true)
      exact ⟨hon.rf, hon.info, hon.cycles, nofun, hon.notes⟩
    | failed effect =>
      have hon := h.free hfree (if effect then none else s.off) s.info
      exact ⟨hon.rf, hon.info, hon.cycles, nofun, hon.notes⟩
  | false =>
    cases reply with
    | done =>
      have hnone : ∀ p ∈ s.samples, p.cycling = false := by
        simpa [uncrossed, hcommand] using hcalm
      have hoff : Kept s.switchedOff := ⟨fun _ => rfl, fun _ => nofun, fun _ => hnone, nofun, h.notes⟩
      exact hoff.note nofun
    | failed effect =>
      refine ⟨fun hd => ?_, h.info, h.cycles, nofun, h.notes⟩
      have hrf := h.rf hd
      cases effect with
      | true => rfl
      | false => exact hrf

theorem Kept.step (h : Kept s) (hcalm : uncrossed s a = true) (hs : s.step a = some s') :
    Kept s' := by
  cases a with
  | sampled =>
    simp only [State.step, Option.ite_none_right_eq_some, Option.some.injEq] at hs
    obtain ⟨-, rfl⟩ := hs
    refine ⟨h.rf, h.info, fun hd p hp => ?_, h.command, h.notes⟩
    rcases List.mem_append.mp hp with hp | hp
    · exact h.cycles hd p hp
    · rw [List.mem_singleton.mp hp]
      rfl
  | advanced k event =>
    rw [State.step] at hs
    cases hk : s.samples[k]? with
    | none => rw [hk] at hs; cases hs
    | some phase =>
      rw [hk] at hs
      obtain ⟨r, hr, rfl⟩ := Option.map_eq_some_iff.mp hs
      exact h.advance hk hcalm hr
  | dropped k =>
    simp only [State.step, Option.ite_none_right_eq_some, Option.some.injEq] at hs
    obtain ⟨-, rfl⟩ := hs
    exact h.fewer fun _ hp => List.mem_of_mem_eraseIdx hp
  | called enabled =>
    simp only [State.step, Option.ite_none_right_eq_some, Option.some.injEq] at hs
    obtain ⟨-, rfl⟩ := hs
    have hstill : (s.deliberate && !enabled) = true → s.deliberate = true :=
      fun hd => (Bool.and_eq_true_iff.mp hd).1
    refine ⟨fun hd => h.rf (hstill hd), fun hd => h.info (hstill hd),
      fun hd => h.cycles (hstill hd), fun hc => ?_, h.notes⟩
    obtain rfl : enabled = true := by simpa using hc
    exact Bool.and_false _
  | commandReplied reply =>
    rw [State.step] at hs
    split at hs
    case h_1 enabled hcommand =>
      obtain rfl := Option.some.inj hs
      exact h.commandReply hcommand hcalm
    case h_2 => cases hs
  | commandDone =>
    simp only [State.step, Option.ite_none_right_eq_some, Option.some.injEq] at hs
    obtain ⟨-, rfl⟩ := hs
    exact ⟨h.rf, h.info, h.cycles, nofun, h.notes⟩
  | commandDropped =>
    obtain rfl := Option.some.inj hs
    exact ⟨h.rf, h.info, h.cycles, nofun, h.notes⟩
  | disconnected =>
    obtain rfl := Option.some.inj hs
    refine ⟨h.rf, h.info, fun _ _ hp => (nomatch hp), fun hc => h.command ?_, h.notes⟩
    split_ifs at hc with hregistering
    exact hc
  | orphanDecided =>
    simp only [State.step, Option.ite_none_right_eq_some, Option.some.injEq] at hs
    obtain ⟨-, rfl⟩ := hs
    have hdecided : Kept (s.maybeRecover none).1 := by
      unfold State.maybeRecover
      split_ifs
      · exact h.note nofun
      · exact h
    exact ⟨hdecided.rf, hdecided.info, hdecided.cycles, hdecided.command, hdecided.notes⟩
  | connected answered =>
    simp only [State.step, Option.ite_none_left_eq_some, Option.some.injEq] at hs
    obtain ⟨-, rfl⟩ := hs
    have hopened : Kept { s with
        live := true, info := s.readRadioEnabled answered, state := s.readRadioEnabled answered } := by
      refine ⟨h.rf, fun hd => ?_, h.cycles, h.command, h.notes⟩
      have hrf := h.rf hd
      cases answered with
      | true => simp [State.readRadioEnabled, hrf]
      | false => exact nofun
    rw [State.settleAfterConnect]
    split_ifs
    · exact hopened.note nofun
    · exact hopened
  | restarted =>
    obtain rfl := Option.some.inj hs
    exact ⟨h.rf, fun _ => nofun, fun _ _ hp => (nomatch hp), nofun, h.notes⟩
  | rebooted =>
    obtain rfl := Option.some.inj hs
    exact h.free (by simpa [uncrossed] using hcalm) none s.info

theorem Kept.start (h : s.Starts) : Kept s := by
  have hno : s.deliberate = true → False := fun hd => by rw [h.deliberate] at hd; cases hd
  refine ⟨fun hd => (hno hd).elim, fun hd => (hno hd).elim, fun hd => (hno hd).elim,
    fun _ => h.deliberate, fun d hd => ?_⟩
  rw [h.notes] at hd
  cases hd

/-- **A deliberate flight mode is not undone.**  Every `AT+CFUN=1` of an automatic action is sent
    while no deliberate `AT+CFUN=0` stands. -/
theorem flight_mode_kept (hs : radio.ReachableBy (fun s a => uncrossed s a = true) s) :
    ∀ deliberate, .automaticOn deliberate ∈ s.notes → deliberate = false := by
  have hkept : Kept s :=
    hs.invariant (fun _ => Kept.start) fun _ _ _ hI hG hstep => hI.step hG hstep
  exact hkept.notes

/-- A module and an Agent that has not opened it yet. -/
def unopened : State := ⟨none, none, none, false, [], 0, none, false, false, []⟩

/-- A sample comes to `cycle_radio` and may act. -/
def allowedCycle : List Act :=
  [.connected true, .sampled, .advanced 0 (.queried true), .advanced 0 (.decided (some .radioCycle)),
    .advanced 0 (.queried true)]

/-- The cycle is complete before the command comes; the next cycle is refused. -/
theorem flight_mode_kept_after_cycle : ∃ s,
    radio.ReachableBy (fun s a => uncrossed s a = true) s ∧
    s.notes = [.automaticOn false, .cancelled false, .refused false] ∧
    ∀ deliberate, .automaticOn deliberate ∈ s.notes → deliberate = false := by
  have hrun : (radio.runBy uncrossed unopened (allowedCycle ++ [.advanced 0 (.replied .done),
      .advanced 0 .slept, .advanced 0 (.replied .done), .sampled, .advanced 0 (.queried true),
      .advanced 0 (.decided (some .radioCycle)), .called false, .commandReplied .done,
      .advanced 0 (.queried false)])).map (fun s => s.notes) =
      some [.automaticOn false, .cancelled false, .refused false] := by decide +kernel
  obtain ⟨s, hs, hnotes⟩ := Option.map_eq_some_iff.mp hrun
  have hreach : radio.ReachableBy (fun s a => uncrossed s a = true) s :=
    ⟨unopened, ⟨rfl, rfl, rfl, rfl, rfl, rfl, rfl, rfl, rfl, rfl⟩, Machine.runBy_path hs⟩
  exact ⟨s, hreach, hnotes, flight_mode_kept hreach⟩

/-- The command comes between the question of a cycle and its `AT+CFUN=0`. -/
theorem cycle_undoes_flight_mode : ∃ s, radio.Reachable s ∧ s.deliberate = true ∧
    s.rf = true ∧ .automaticOn true ∈ s.notes := by
  have hrun : (radio.run unopened (allowedCycle ++ [.called false, .commandReplied .done,
      .advanced 0 (.replied .done), .advanced 0 .slept, .advanced 0 (.replied .done)])).map
      (fun s => (s.deliberate, s.rf, s.notes)) =
      some (true, true, [.cancelled false, .automaticOn true]) := by decide +kernel
  obtain ⟨s, hs, hsummary⟩ := Option.map_eq_some_iff.mp hrun
  obtain ⟨hdeliberate, hrf, hnotes⟩ : s.deliberate = true ∧ s.rf = true ∧
      s.notes = [.cancelled false, .automaticOn true] := by
    simpa only [Prod.mk.injEq] using hsummary
  exact ⟨s, Machine.run_reachable ⟨rfl, rfl, rfl, rfl, rfl, rfl, rfl, rfl, rfl, rfl⟩ hs, hdeliberate,
    hrf, by simp [hnotes]⟩

end Air780eHub.Radio
