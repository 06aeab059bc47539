/-
  The roaming guard of `ping`.

  `ping` trusts `state.data_enabled`, which is older than the policies and the roaming reading whenever
  some coroutine has changed one of them and has not come to the recomputation yet.

  1. **The condition.**  No `ping` comes to its guard while a coroutine is between an assignment that
     leaves data not permitted and its recomputation; and when an attach is over, data is still
     permitted or such a coroutine will still recompute.
  2. **The invariant.**  If `data_enabled` is set without permission there is such a coroutine, and if
     `roaming_data_allowed` is also older than the store, one that has not read the store yet.
  3. **Steps and runs.**
-/
import Mathlib.Tactic.SplitIfs
import Air780eHub.DataPolicy.Model

namespace Air780eHub.DataPolicy

variable {s s' : State} {a : Act}

/-! ## The condition -/

/-- The condition on a step. -/
def settled (s : State) : Act → Bool
  | .pinged               => s.routines.all fun r => !r.withdrew
  | .advanced _ .attached => s.permits || s.routines.any Routine.withdrew
  | _                     => true

/-! ## The invariant -/

/-- A coroutine that has not come to `_enforce_data_policy` yet. -/
def Phase.behind : Phase → Bool
  | .waiting     => true
  | .registering => true
  | _            => false

/-- The coroutines that cannot be marked are not. -/
def Idle (routines : List Routine) : Prop :=
  ∀ r ∈ routines, r.phase = .reading ∨ r.phase = .enabling → r.withdrew = false

/-- What `data_enabled` may be older than. -/
structure Watched (s : State) : Prop where
  enabled : s.dataEnabled = true → s.permits = false → ∃ r ∈ s.routines, r.withdrew = true
  allowed : s.roamingDataAllowed = true → s.allowed = false → s.permits = false →
    ∃ r ∈ s.routines, r.withdrew = true ∧ r.phase.behind = true
  idle    : Idle s.routines
  pings   : ∀ permitted ∈ s.pings, permitted = true

theorem Idle.append {routines : List Routine} {r : Routine} (h : Idle routines)
    (hr : r.phase = .reading ∨ r.phase = .enabling → r.withdrew = false) :
    Idle (routines ++ [r]) := by
  intro x hx hphase
  rcases List.mem_append.mp hx with hx | hx
  · exact h x hx hphase
  · obtain rfl := List.mem_singleton.mp hx
    exact hr hphase

theorem Idle.place {routines : List Routine} {next : Option Routine} (h : Idle routines) (k : Nat)
    (hnext : ∀ r, next = some r → r.phase = .reading ∨ r.phase = .enabling → r.withdrew = false) :
    Idle (place routines k next) := by
  intro x hx hphase
  rcases of_mem_place hx with hx | hx
  · exact h x hx hphase
  · exact hnext x hx hphase

/-- A state right after an assignment, with the coroutine that made it: the mark says whether data
    is permitted. -/
theorem Watched.marked (phase : Phase) (hmem : ⟨phase, !s.permits⟩ ∈ s.routines)
    (hbehind : phase.behind = true ∨ s.roamingDataAllowed = s.allowed) (hidle : Idle s.routines)
    (hpings : ∀ permitted ∈ s.pings, permitted = true) : Watched s := by
  refine ⟨fun _ hp => ⟨_, hmem, by simp [hp]⟩, fun hstale hoff hp => ⟨_, hmem, by simp [hp], ?_⟩,
    hidle, hpings⟩
  rcases hbehind with hb | hsame
  · exact hb
  · rw [hstale, hoff] at hsame
    cases hsame

/-- Another coroutine that has assigned nothing begins. -/
theorem Watched.append {r : Routine} (h : Watched s) (hr : r.withdrew = false) :
    Watched { s with routines := s.routines ++ [r] } := by
  refine ⟨fun hd hp => ?_, fun hstale hoff hp => ?_, h.idle.append fun _ => hr, h.pings⟩
  · obtain ⟨x, hx, hwithdrew⟩ := h.enabled hd hp
    exact ⟨x, List.mem_append_left _ hx, hwithdrew⟩
  · obtain ⟨x, hx, hwithdrew⟩ := h.allowed hstale hoff hp
    exact ⟨x, List.mem_append_left _ hx, hwithdrew⟩

/-- Data is switched off. -/
theorem Watched.off {live : Bool} (h : Watched s) :
    Watched { s with dataEnabled := false, live } :=
  ⟨fun hd => Bool.noConfusion hd, h.allowed, h.idle, h.pings⟩

/-- A coroutine that is not marked ends. -/
theorem Watched.unmarked {k : Nat} {r : Routine} (h : Watched s) (hk : s.routines[k]? = some r)
    (hr : r.withdrew = false) : Watched { s with routines := s.routines.eraseIdx k } := by
  have hstays : ∀ x ∈ s.routines, x.withdrew = true → x ∈ place s.routines k none := by
    intro x hx hwithdrew
    refine mem_place_of_ne hx hk fun heq => ?_
    rw [heq, hr] at hwithdrew
    cases hwithdrew
  have hidle : Idle (place s.routines k none) := h.idle.place k nofun
  refine ⟨fun hd hp => ?_, fun hstale hoff hp => ?_, hidle, h.pings⟩
  · obtain ⟨x, hx, hwithdrew⟩ := h.enabled hd hp
    exact ⟨x, hstays x hx hwithdrew, hwithdrew⟩
  · obtain ⟨x, hx, hwithdrew, hbehind⟩ := h.allowed hstale hoff hp
    exact ⟨x, hstays x hx hwithdrew, hwithdrew, hbehind⟩

/-! ## Coroutines -/

/-- A coroutine assigns, and waits as `phase`. -/
theorem Watched.assigns {t : State} {k : Nat} {q : Routine} {phase : Phase} (h : Watched s)
    (hk : s.routines[k]? = some q) (hroutines : t.routines = s.routines) (hpings : t.pings = s.pings)
    (hbehind : phase.behind = true ∨ t.roamingDataAllowed = t.allowed)
    (hphase : ¬ (phase = .reading ∨ phase = .enabling)) : Watched (State.resume k (t.mark phase)) := by
  have hplace : (State.resume k (t.mark phase)).routines =
      place s.routines k (some ⟨phase, !t.permits⟩) := by rw [← hroutines]; rfl
  refine Watched.marked phase ?_ hbehind ?_ ?_
  · rw [hplace]
    exact mem_place_self hk
  · rw [hplace]
    exact h.idle.place k fun r hr hp => absurd (by cases hr; exact hp) hphase
  · show ∀ permitted ∈ t.pings, permitted = true
    rw [hpings]
    exact h.pings

/-- `_enforce_data_policy` begins: the coroutine keeps its mark. -/
theorem Watched.enforces {k : Nat} {r : Routine} (h : Watched s) (hk : s.routines[k]? = some r) :
    Watched (State.resume k (s.enforce, some ⟨.refreshing, r.withdrew⟩)) := by
  have hidle : Idle (place s.routines k (some ⟨.refreshing, r.withdrew⟩)) :=
    h.idle.place k fun x hx hp => by cases hx; rcases hp with hp | hp <;> cases hp
  refine ⟨fun hd hp => ?_, fun hstale hoff _ => ?_, hidle, h.pings⟩
  · obtain ⟨x, hx, hwithdrew⟩ := h.enabled hd hp
    by_cases hxr : x = r
    · exact ⟨_, mem_place_self hk, by rw [← hxr]; exact hwithdrew⟩
    · have hstays : x ∈ place s.routines k (some ⟨.refreshing, r.withdrew⟩) :=
        mem_place_of_ne hx hk hxr
      exact ⟨x, hstays, hwithdrew⟩
  · have hsame : s.allowed = true := hstale
    have hfalse : s.allowed = false := hoff
    rw [hsame] at hfalse
    cases hfalse

/-- The recomputation: with the stored roaming policy it is right, and with an older one somebody is
    still behind. -/
theorem Watched.recomputes {k : Nat} {r : Routine} {next : Option Routine} (h : Watched s)
    (hk : s.routines[k]? = some r) (hphase : r.phase = .refreshing)
    (hnext : ∀ x, next = some x → x = ⟨.enabling, false⟩) :
    Watched (State.resume k (s.recompute, next)) := by
  have hbehind : s.roamingDataAllowed = true → s.allowed = false → s.permits = false →
      ∃ x ∈ place s.routines k next, x.withdrew = true ∧ x.phase.behind = true := by
    intro hstale hoff hp
    obtain ⟨x, hx, hwithdrew, hb⟩ := h.allowed hstale hoff hp
    refine ⟨x, mem_place_of_ne hx hk fun heq => ?_, hwithdrew, hb⟩
    rw [heq, hphase] at hb
    cases hb
  refine ⟨fun hd hp => ?_, hbehind, h.idle.place k fun x hx _ => by rw [hnext x hx], h.pings⟩
  have hdata : (s.desired && !(s.desired && s.roaming ≠ some false && !s.roamingDataAllowed)) = true :=
    hd
  have hnot : (s.desired && (s.roaming = some false || s.allowed)) = false := hp
  have hstale : s.roamingDataAllowed = true ∧ s.allowed = false := by
    by_cases hhome : s.roaming = some false
    · simp [hhome] at hdata hnot
      exact absurd hdata (by simp [hnot])
    · simp [hhome] at hdata hnot
      obtain ⟨hdesired, hoff | hstale⟩ := hdata
      · rw [hdesired] at hoff
        cases hoff
      · exact ⟨hstale, hnot hdesired⟩
  obtain ⟨x, hx, hwithdrew, -⟩ := hbehind hstale.1 hstale.2 hp
  exact ⟨x, hx, hwithdrew⟩

/-- An attach is over: data is permitted, or a marked coroutine is still to come. -/
theorem Watched.attaches {k : Nat} {r : Routine} (h : Watched s) (hk : s.routines[k]? = some r)
    (hr : r.withdrew = false)
    (hcalm : s.permits = true ∨ ∃ x ∈ s.routines, x.withdrew = true) :
    Watched (State.resume k ({ s with dataEnabled := true }, none)) := by
  have hrest : Watched { s with routines := s.routines.eraseIdx k } := h.unmarked hk hr
  refine ⟨fun _ hp => ?_, hrest.allowed, hrest.idle, hrest.pings⟩
  have hnot : s.permits = false := hp
  rcases hcalm with hpermits | ⟨x, hx, hwithdrew⟩
  · rw [hpermits] at hnot
    cases hnot
  · have hstays : x ∈ place s.routines k none := by
      refine mem_place_of_ne hx hk fun heq => ?_
      rw [heq, hr] at hwithdrew
      cases hwithdrew
    exact ⟨x, hstays, hwithdrew⟩

/-- A coroutine goes on. -/
theorem Watched.advance {k : Nat} {r : Routine} {event : Event} {t : State × Option Routine}
    (h : Watched s) (hk : s.routines[k]? = some r)
    (hcalm : settled s (.advanced k event) = true) (ht : s.advance r event = some t) :
    Watched (State.resume k t) := by
  cases event with
  | read roaming =>
    rw [State.advance] at ht
    split at ht
    case h_1 =>
      obtain rfl := Option.some.inj ht
      exact h.assigns hk rfl rfl (.inr rfl) (by rintro (h | h) <;> cases h)
    case h_2 =>
      obtain rfl := Option.some.inj ht
      exact h.assigns hk rfl rfl (.inl rfl) (by rintro (h | h) <;> cases h)
    case h_3 =>
      obtain rfl := Option.some.inj ht
      exact h.assigns hk rfl rfl (.inr rfl) (by rintro (h | h) <;> cases h)
    case h_4 => cases ht
  | resumed =>
    rw [State.advance] at ht
    split at ht
    case h_1 =>
      obtain rfl := Option.some.inj ht
      exact h.enforces hk
    case h_2 => cases ht
  | refreshed attach =>
    rw [State.advance] at ht
    split at ht
    case h_1 hphase =>
      obtain rfl := Option.some.inj ht
      refine h.recomputes hk hphase fun x hx => ?_
      split_ifs at hx
      exact (Option.some.inj hx).symm
    case h_2 => cases ht
  | attached =>
    rw [State.advance] at ht
    split at ht
    case h_1 hphase =>
      obtain rfl := Option.some.inj ht
      refine h.attaches hk (h.idle r (List.mem_of_getElem? hk) (.inr hphase)) ?_
      simpa [settled] using hcalm
    case h_2 => cases ht

/-! ## Steps and runs -/

/-- A command stores a policy and goes on to its first await. -/
theorem Watched.stored {t : State} (h : Watched s) (reads : Bool) (hroutines : t.routines = s.routines)
    (hpings : t.pings = s.pings) : Watched (t.stored reads) := by
  have hmem : ∀ r, r ∈ t.routines ++ [r] := fun r => List.mem_append_right _ List.mem_cons_self
  have hidle : ∀ r : Routine, ¬ (r.phase = .reading ∨ r.phase = .enabling) →
      Idle (t.routines ++ [r]) := by
    intro r hr
    rw [hroutines]
    exact h.idle.append fun hp => absurd hp hr
  have hping : ∀ permitted ∈ t.pings, permitted = true := by
    rw [hpings]
    exact h.pings
  rw [State.stored]
  split_ifs
  · exact Watched.marked .registering (hmem _) (.inl rfl)
      (hidle _ (by rintro (h | h) <;> cases h)) hping
  · exact Watched.marked .refreshing (hmem _) (.inr rfl)
      (hidle _ (by rintro (h | h) <;> cases h)) hping

theorem Watched.step (h : Watched s) (hcalm : settled s a = true) (hs : s.step a = some s') :
    Watched s' := by
  cases a with
  | connectBegins =>
    simp only [State.step, Option.ite_none_left_eq_some, Option.some.injEq] at hs
    obtain ⟨-, rfl⟩ := hs
    exact h.append rfl
  | sampleBegins =>
    simp only [State.step, Option.ite_none_right_eq_some, Option.some.injEq] at hs
    obtain ⟨-, rfl⟩ := hs
    exact h.append rfl
  | setDataEnabled enabled reads =>
    simp only [State.step, Option.ite_none_right_eq_some, Option.some.injEq] at hs
    obtain ⟨-, rfl⟩ := hs
    exact h.stored reads rfl rfl
  | setRoamingDataAllowed allowed reads =>
    simp only [State.step, Option.ite_none_right_eq_some, Option.some.injEq] at hs
    obtain ⟨-, rfl⟩ := hs
    exact h.stored reads rfl rfl
  | advanced k event =>
    rw [State.step] at hs
    cases hk : s.routines[k]? with
    | none => rw [hk] at hs; cases hs
    | some r =>
      rw [hk] at hs
      obtain ⟨t, ht, rfl⟩ := Option.map_eq_some_iff.mp hs
      exact h.advance hk hcalm ht
  | failed k =>
    rw [State.step] at hs
    split at hs
    case h_1 withdrew hk =>
      obtain rfl := Option.some.inj hs
      have hidle : Idle (place s.routines k none) := h.idle.place k nofun
      refine ⟨fun hd => Bool.noConfusion hd, fun hstale hoff hp => ?_, hidle, h.pings⟩
      obtain ⟨x, hx, hmarked, hbehind⟩ := h.allowed hstale hoff hp
      have hstays : x ∈ place s.routines k none := by
        refine mem_place_of_ne hx hk fun heq => ?_
        rw [heq] at hbehind
        cases hbehind
      exact ⟨x, hstays, hmarked, hbehind⟩
    case h_2 withdrew hk =>
      obtain rfl := Option.some.inj hs
      exact h.unmarked hk (h.idle _ (List.mem_of_getElem? hk) (.inl rfl))
    case h_3 withdrew hk =>
      obtain rfl := Option.some.inj hs
      exact h.unmarked hk (h.idle _ (List.mem_of_getElem? hk) (.inr rfl))
    case h_4 => cases hs
  | wentOffline =>
    obtain rfl := Option.some.inj hs
    exact h.off
  | pinged =>
    obtain rfl := Option.some.inj hs
    refine ⟨h.enabled, h.allowed, h.idle, fun permitted hp => ?_⟩
    have hcases : permitted ∈ s.pings ∨ (s.dataEnabled = true ∧ permitted = s.permits) := by
      simp only at hp
      split_ifs at hp with hd
      · rcases List.mem_append.mp hp with hp | hp
        · exact .inl hp
        · exact .inr ⟨hd, List.mem_singleton.mp hp⟩
      · exact .inl hp
    rcases hcases with hp | ⟨hd, rfl⟩
    · exact h.pings permitted hp
    · by_contra hnot
      obtain ⟨x, hx, hwithdrew⟩ := h.enabled hd (Bool.eq_false_iff.mpr hnot)
      have hclear := List.all_eq_true.mp hcalm x hx
      rw [hwithdrew] at hclear
      cases hclear

theorem Watched.start (h : s.Starts) : Watched s := by
  have hmem : ⟨.connecting, !s.permits⟩ ∈ s.routines := by
    rw [h.routines]
    exact List.mem_cons_self
  refine Watched.marked .connecting hmem (.inr h.roamingDataAllowed) (fun r hr hp => ?_) fun _ hp => ?_
  · rw [h.routines, List.mem_singleton] at hr
    subst hr
    rcases hp with hp | hp <;> cases hp
  · rw [h.pings] at hp
    cases hp

/-- **The roaming guard.**  Whenever `ping` passes its guard, the persisted data policy is on, and the
    network is not roaming or the persisted roaming policy allows data. -/
theorem roaming_guard (hs : worker.ReachableBy (fun s a => settled s a = true) s) :
    ∀ permitted ∈ s.pings, permitted = true := by
  have hwatched : Watched s :=
    hs.invariant (fun _ => Watched.start) fun _ _ _ hI hG hstep => hI.step hG hstep
  exact hwatched.pings

/-- Data is on and may not be used while roaming. -/
def homeOnly : State := ⟨true, false, true, none, false, false, [⟨.connecting, true⟩], []⟩

theorem homeOnly_starts : homeOnly.Starts := ⟨rfl, rfl, rfl, rfl, rfl, rfl⟩

/-- A ping at home; then a sample finds that the network is roaming, and the next ping is stopped. -/
theorem roaming_guard_at_home : ∃ s, worker.ReachableBy (fun s a => settled s a = true) s ∧
    s.pings = [true] ∧ ∀ permitted ∈ s.pings, permitted = true := by
  have hrun : (worker.runBy settled homeOnly [.advanced 0 (.read (some false)),
      .advanced 0 (.refreshed false), .pinged, .sampleBegins, .advanced 0 (.read (some true)),
      .advanced 0 .resumed, .advanced 0 (.refreshed false), .pinged]).map State.pings =
      some [true] := by decide +kernel
  obtain ⟨s, hs, hpings⟩ := Option.map_eq_some_iff.mp hrun
  have hreach : worker.ReachableBy (fun s a => settled s a = true) s :=
    ⟨homeOnly, homeOnly_starts, Machine.runBy_path hs⟩
  exact ⟨s, hreach, hpings, roaming_guard hreach⟩

/-- `_connect` finds a roaming network and sets `data_enabled` to the data policy alone; a ping comes
    before the data state is read. -/
theorem ping_while_roaming : ∃ s, worker.Reachable s ∧ s.roaming = some true ∧
    s.allowed = false ∧ false ∈ s.pings := by
  have hrun : (worker.run homeOnly [.advanced 0 (.read (some true)), .pinged]).map
      (fun s => (s.roaming, s.allowed, s.pings)) = some (some true, false, [false]) := by
    decide +kernel
  obtain ⟨s, hs, hsummary⟩ := Option.map_eq_some_iff.mp hrun
  obtain ⟨hroaming, hallowed, hpings⟩ : s.roaming = some true ∧ s.allowed = false ∧
      s.pings = [false] := by
    simpa only [Prod.mk.injEq] using hsummary
  exact ⟨s, Machine.run_reachable homeOnly_starts hs, hroaming, hallowed, by simp [hpings]⟩

end Air780eHub.DataPolicy
