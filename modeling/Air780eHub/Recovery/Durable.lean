/-
  What is on the disk whenever the process may die.

  1. `Durable P s`: the disk has the property `P` now and had it before each write of the last step.
     Assigning to the worker keeps it, and a write keeps it if the new disk has `P`.
  2. The step rule: for a property of the disk and of the worker, it is enough to look at complete
     steps.  Dying leaves one of the disks of `Durable`.
-/
import Air780eHub.Recovery.Model

namespace Air780eHub.Recovery

/-- `P` holds of the disk, also before each write of the last step. -/
structure Durable (P : Disk → Prop) (s : State) : Prop where
  disk    : P s.disk
  crashes : ∀ d ∈ s.crashes, P d

variable {P : Disk → Prop} {s s' : State} {w w' : Worker}

/-! ## Writes -/

theorem Durable.put (h : Durable P s) : Durable P (s.put w) := ⟨h.disk, h.crashes⟩

theorem Durable.write {d : Disk} (h : Durable P s) (hd : P d) : Durable P (s.write d) := by
  refine ⟨hd, fun x hx => ?_⟩
  rcases List.mem_append.mp hx with hx | hx
  · exact h.crashes x hx
  · rw [List.mem_singleton.mp hx]
    exact h.disk

theorem Durable.persist (h : Durable P s) (hd : P { s.disk with stored := some w.memory }) :
    Durable P (s.persist w) := (h.write hd).put

/-- The property may change with the state, as long as it still holds. -/
theorem Durable.mono {Q : Disk → Prop} (h : Durable P s) (hPQ : ∀ d, P d → Q d) : Durable Q s :=
  ⟨hPQ _ h.disk, fun d hd => hPQ d (h.crashes d hd)⟩

/-! ## Steps -/

/-- A step is a complete one, or leaves the disk as it was before one of its writes. -/
theorem step_cases {cfg : Config} {l : Label} (h : s.step cfg l = some s') :
    ∃ r, State.act cfg { s with crashes := [] } l.act = some r ∧
      (r = s' ∨ ∃ k d, l.dies = some k ∧ r.crashes[k]? = some d ∧ r.died d = s') := by
  rw [State.step] at h
  cases hact : State.act cfg { s with crashes := [] } l.act with
  | none => rw [hact] at h; cases h
  | some r =>
    rw [hact] at h
    refine ⟨r, rfl, ?_⟩
    cases hdies : l.dies with
    | none => rw [hdies] at h; exact .inl (Option.some.inj h)
    | some k =>
      rw [hdies] at h
      obtain ⟨d, hk, hd⟩ := Option.map_eq_some_iff.mp h
      exact .inr ⟨k, d, rfl, hk, hd⟩

end Air780eHub.Recovery
