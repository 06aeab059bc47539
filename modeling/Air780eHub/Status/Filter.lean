/-
  Which samples of a module the Agent reports: `_emit_status` and `_status_worth_sending`
  (`worker.py`).

  A sample is compared with the one that was sent last, never with the one before it, so a reading
  that creeps cannot get away.

  1. **The comparison**, field by field.
  2. **The reporter** of a worker.
  3. **`statusWorthSending_eq_false`**: a sample is held back exactly when it is `Close` to the one
     that was sent last and that one is young.
-/
import Mathlib.Algebra.Order.Ring.Unbundled.Rat
import Air780eHub.Agent.Payloads

namespace Air780eHub.Status

/-! ## The comparison -/

/-- Below this change in +CSQ a sample is not worth a row. -/
def RSSI_NOISE_FLOOR : Int := 2

/-- The same of the supply voltage. -/
def VOLTAGE_NOISE_MV : Int := 50

/-- The threshold of a module that has none of its own. -/
def VOLTAGE_LOW_MV : Int := 3500

/-- An unchanged status is sent at least this often, in seconds. -/
def STATUS_HEARTBEAT : Rat := 900

/-- The fields whose every change is worth sending. -/
def WATCHED : List String :=
  ["online", "registered", "radio_enabled", "eps_registered", "cs_registered", "ims_registered",
   "data_enabled", "data_attached", "pdp_active", "roaming", "roaming_data_allowed",
   "data_blocked_by_roaming", "operator", "storage_used", "port"]

/-- A number or None. -/
def reading : Value → Option Int
  | .int n => some n
  | _      => none

/-- `_metric_changed`. -/
def metricChanged (previous payload : Frame) (key : String) (floor : Int) : Bool :=
  match reading (previous.get key), reading (payload.get key) with
  | none, none         => false
  | some old, some new => decide (floor ≤ (old - new).natAbs)
  | _, _               => true

/-- `_crossed_voltage_threshold`. -/
def crossedVoltageThreshold (threshold : Int) (previous payload : Frame) : Bool :=
  match reading (previous.get "voltage_mv"), reading (payload.get "voltage_mv") with
  | some old, some new => decide (old < threshold) != decide (new < threshold)
  | _, _               => false

/-! ## The reporter -/

/-- One sample: the state of a module, where it is and when it was taken. -/
structure Sample where
  ts    : String
  port  : String
  state : DeviceState

/-- The event a sample is sent as. -/
def Sample.event (name : String) (lowVoltageMv : Int) (s : Sample) : AgentEvent :=
  .status name s.ts s.port lowVoltageMv s.state

/-- The payload of that event. -/
abbrev Sample.payload (name : String) (lowVoltageMv : Int) (s : Sample) : Frame :=
  (s.event name lowVoltageMv).fields

/-- `_low_voltage_threshold`; `configured` is 0 where the module has none of its own. -/
def lowVoltageThreshold (configured : Int) : Int :=
  if configured = 0 then VOLTAGE_LOW_MV else configured

/-- What a worker remembers of its reports. -/
structure Reporter where
  name         : String
  lowVoltageMv : Int
  last         : Option Sample
  sentAt       : Rat

namespace Reporter

/-- A worker that has just been made. -/
def init (name : String) (configured : Int) : Reporter :=
  ⟨name, lowVoltageThreshold configured, none, 0⟩

/-- `_status_worth_sending`. -/
def statusWorthSending (w : Reporter) (now : Rat) (s : Sample) : Bool :=
  match w.last with
  | none          => true
  | some previous =>
    let previous := previous.payload w.name w.lowVoltageMv
    let payload := s.payload w.name w.lowVoltageMv
    if STATUS_HEARTBEAT ≤ now - w.sentAt then true
    else if WATCHED.any fun key => decide (previous.get key ≠ payload.get key) then true
    else if metricChanged previous payload "rssi" RSSI_NOISE_FLOOR then true
    else if crossedVoltageThreshold w.lowVoltageMv previous payload then true
    else metricChanged previous payload "voltage_mv" VOLTAGE_NOISE_MV

/-- `_emit_status`: the worker afterwards, and whether the sample was sent. -/
def emitStatus (w : Reporter) (now : Rat) (force : Bool) (s : Sample) : Reporter × Bool :=
  if !force && !w.statusWorthSending now s then (w, false)
  else ({ w with last := some s, sentAt := now }, true)

end Reporter

/-! ## What is held back -/

/-- Two readings are both there and less than `floor` apart, or neither is. -/
def Within (floor : Int) : Option Int → Option Int → Prop
  | none, none     => True
  | some a, some b => (a - b).natAbs < floor
  | _, _           => False

/-- Two payloads with the same watched fields, readings that differ by noise, and supply voltages on
    the same side of the threshold. -/
structure Close (threshold : Int) (previous payload : Frame) : Prop where
  watched : ∀ key ∈ WATCHED, previous.get key = payload.get key
  rssi    : Within RSSI_NOISE_FLOOR (reading (previous.get "rssi")) (reading (payload.get "rssi"))
  voltage : Within VOLTAGE_NOISE_MV (reading (previous.get "voltage_mv"))
    (reading (payload.get "voltage_mv"))
  side    : ∀ old ∈ reading (previous.get "voltage_mv"), ∀ new ∈ reading (payload.get "voltage_mv"),
    (old < threshold ↔ new < threshold)

theorem Within.refl {floor : Int} (h : 0 < floor) (x : Option Int) : Within floor x x := by
  cases x with
  | none => trivial
  | some n =>
    show ((n - n).natAbs : Int) < floor
    omega

theorem Within.symm {floor : Int} {x y : Option Int} (h : Within floor x y) : Within floor y x := by
  cases x with
  | none =>
    cases y with
    | none => trivial
    | some b => exact h.elim
  | some a =>
    cases y with
    | none => exact h.elim
    | some b =>
      have hab : ((a - b).natAbs : Int) < floor := h
      show ((b - a).natAbs : Int) < floor
      omega

/-- Noise adds up. -/
theorem Within.trans {floor floor' : Int} {x y z : Option Int} (h : Within floor x y)
    (h' : Within floor' y z) : Within (floor + floor') x z := by
  cases x with
  | none =>
    cases y with
    | none =>
      cases z with
      | none => trivial
      | some c => exact h'.elim
    | some b => exact h.elim
  | some a =>
    cases y with
    | none => exact h.elim
    | some b =>
      cases z with
      | none => exact h'.elim
      | some c =>
        have hab : ((a - b).natAbs : Int) < floor := h
        have hbc : ((b - c).natAbs : Int) < floor' := h'
        show ((a - c).natAbs : Int) < floor + floor'
        omega

theorem metricChanged_eq_false {previous payload : Frame} {key : String} {floor : Int} :
    metricChanged previous payload key floor = false ↔
      Within floor (reading (previous.get key)) (reading (payload.get key)) := by
  unfold metricChanged
  cases reading (previous.get key) with
  | none =>
    cases reading (payload.get key) with
    | none => exact iff_of_true rfl trivial
    | some b => exact iff_of_false Bool.false_ne_true.symm id
  | some a =>
    cases reading (payload.get key) with
    | none => exact iff_of_false Bool.false_ne_true.symm id
    | some b =>
      show decide (floor ≤ ((a - b).natAbs : Int)) = false ↔ ((a - b).natAbs : Int) < floor
      rw [decide_eq_false_iff_not]
      omega

theorem crossed_eq_false {threshold : Int} {previous payload : Frame} :
    crossedVoltageThreshold threshold previous payload = false ↔
      ∀ old ∈ reading (previous.get "voltage_mv"), ∀ new ∈ reading (payload.get "voltage_mv"),
        (old < threshold ↔ new < threshold) := by
  unfold crossedVoltageThreshold
  cases reading (previous.get "voltage_mv") with
  | none => exact iff_of_true rfl fun _ h => by cases h
  | some a =>
    cases reading (payload.get "voltage_mv") with
    | none => exact iff_of_true rfl fun _ _ _ h => by cases h
    | some b =>
      show (decide (a < threshold) != decide (b < threshold)) = false ↔ _
      rw [bne_eq_false_iff_eq, decide_eq_decide]
      constructor
      · rintro h old ho new hn
        cases ho
        cases hn
        exact h
      · intro h
        exact h a rfl b rfl

/-- **What is held back**: a sample that is close to the one sent last, while that one is young. -/
theorem statusWorthSending_eq_false {w : Reporter} {now : Rat} {s : Sample} :
    w.statusWorthSending now s = false ↔ ∃ previous, w.last = some previous ∧
      now - w.sentAt < STATUS_HEARTBEAT ∧
      Close w.lowVoltageMv (previous.payload w.name w.lowVoltageMv)
        (s.payload w.name w.lowVoltageMv) := by
  unfold Reporter.statusWorthSending
  cases w.last with
  | none =>
    refine iff_of_false Bool.false_ne_true.symm ?_
    rintro ⟨_, h, -⟩
    cases h
  | some previous =>
    dsimp only
    constructor
    · intro h
      refine ⟨previous, rfl, ?_⟩
      by_cases hold : STATUS_HEARTBEAT ≤ now - w.sentAt
      · rw [if_pos hold] at h
        cases h
      · rw [if_neg hold] at h
        split at h
        · cases h
        · rename_i hwatched
          split at h
          · cases h
          · rename_i hrssi
            split at h
            · cases h
            · rename_i hside
              refine ⟨not_le.mp hold, ?_, metricChanged_eq_false.mp ((Bool.not_eq_true _).mp hrssi),
                metricChanged_eq_false.mp h, crossed_eq_false.mp ((Bool.not_eq_true _).mp hside)⟩
              intro key hkey
              by_contra hne
              exact hwatched (List.any_eq_true.mpr ⟨key, hkey, decide_eq_true hne⟩)
    · rintro ⟨_, he, hyoung, hclose⟩
      cases he
      rw [if_neg (not_le.mpr hyoung), if_neg, if_neg, if_neg]
      · exact metricChanged_eq_false.mpr hclose.voltage
      · rw [crossed_eq_false.mpr hclose.side]
        exact Bool.false_ne_true
      · rw [metricChanged_eq_false.mpr hclose.rssi]
        exact Bool.false_ne_true
      · intro hany
        obtain ⟨key, hkey, hne⟩ := List.any_eq_true.mp hany
        exact of_decide_eq_true hne (hclose.watched key hkey)

theorem Close.refl (threshold : Int) (payload : Frame) : Close threshold payload payload where
  watched := fun _ _ => rfl
  rssi    := Within.refl (by decide) _
  voltage := Within.refl (by decide) _
  side    := by
    intro old ho new hn
    rw [Option.mem_unique ho hn]

/-- The worker keeps its name and its threshold. -/
theorem emitStatus_same (w : Reporter) (now : Rat) (force : Bool) (s : Sample) :
    (w.emitStatus now force s).1.name = w.name ∧
      (w.emitStatus now force s).1.lowVoltageMv = w.lowVoltageMv := by
  unfold Reporter.emitStatus
  split
  · exact ⟨rfl, rfl⟩
  · exact ⟨rfl, rfl⟩

theorem emitStatus_held {w : Reporter} {now : Rat} {s : Sample}
    (h : w.statusWorthSending now s = false) : w.emitStatus now false s = (w, false) := by
  unfold Reporter.emitStatus
  rw [h]
  rfl

/-- **After a sample** the one sent last is close to it and young, and it is the sample itself when
    that was sent. -/
theorem emitStatus_close (w : Reporter) (now : Rat) (force : Bool) (s : Sample) :
    ∃ p, (w.emitStatus now force s).1.last = some p ∧
      Close w.lowVoltageMv (p.payload w.name w.lowVoltageMv) (s.payload w.name w.lowVoltageMv) ∧
      now - (w.emitStatus now force s).1.sentAt < STATUS_HEARTBEAT ∧
      if (w.emitStatus now force s).2 then p = s
      else w.last = some p ∧ (w.emitStatus now force s).1.sentAt = w.sentAt := by
  unfold Reporter.emitStatus
  by_cases hheld : (!force && !w.statusWorthSending now s) = true
  · rw [if_pos hheld]
    have hworth : w.statusWorthSending now s = false := by
      rw [← Bool.not_not (w.statusWorthSending now s), (Bool.and_eq_true_iff.mp hheld).2]
      rfl
    obtain ⟨p, hp, hyoung, hclose⟩ := statusWorthSending_eq_false.mp hworth
    exact ⟨p, hp, hclose, hyoung, hp, rfl⟩
  · rw [if_neg hheld]
    refine ⟨s, rfl, .refl _ _, ?_, rfl⟩
    show now - now < 900
    rw [sub_self]
    decide

end Air780eHub.Status
