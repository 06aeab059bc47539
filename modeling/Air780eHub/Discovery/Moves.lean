/-
  What a step of discovery can do, and what holds whatever the modules answer.

  1. **`adoptAll_induction`**: adoptions one after the other.
  2. **`Moves`**: everything a step can do (`step_moves`), which is all the later modules use.
  3. **`Inv`**: names are distinct, the claims are what the workers hold, and an `acquire` only
     looks at ports nobody claims.
-/
import Air780eHub.Discovery.Model
import Mathlib.Data.List.Sort

namespace Air780eHub.Discovery

variable {A : Site} {s t : State}

theorem norm_empty (A : Site) : A.norm "" = "" := by
  have hstrip : pyStrip "" = "" := by decide
  rw [Site.norm, hstrip, A.lowerEmpty]

/-! ## Adoptions -/

/-- The name of an adopted module is no worker's. -/
theorem nameFor_not_mem (kv : Dict String String) (workers : List String) (imei iccid : String) :
    (nameFor kv workers imei iccid).1 ∉ workers := by
  unfold nameFor
  dsimp only
  split
  · split
    · rename_i h
      exact h.2
    · exact FreshName.freshName_not_mem _ _
  · exact FreshName.freshName_not_mem _ _

/-- The block of an adopted module. -/
def adoptedConfig (name : String) (found : ProbeResult) : DeviceConfig :=
  ⟨name, "", found.imei, "", found.model⟩

/-- One adoption: it changes nothing, or adds a worker under a free name for an identity that no
    block has. -/
inductive Adopts (A : Site) (s : State) (found : ProbeResult) : State → Prop
  | stays : Adopts A s found s
  | adds (identity : Identity) (name : String) (kv : Dict String String)
      (hid : A.probeIdentity found = some identity) (hname : name ∉ s.names)
      (hnew : ∀ d ∈ A.devices ++ s.adopted, A.deviceIdentity d ≠ some identity) :
      Adopts A s found { s with
        adopted := s.adopted ++ [adoptedConfig name found]
        workers := s.workers ++ [⟨adoptedConfig name found, some identity⟩]
        kv }

theorem adopts (A : Site) (s : State) (found : ProbeResult) :
    Adopts A s found (s.adopt A found) := by
  unfold State.adopt
  split
  · exact .stays
  · rename_i identity hid
    split
    · exact .stays
    · rename_i hnew
      refine .adds identity _ _ hid (nameFor_not_mem _ _ _ _) fun d hd heq => hnew ?_
      exact List.any_eq_true.mpr ⟨d, hd, decide_eq_true heq⟩

/-- What every adoption of the list preserves, the loop preserves. -/
theorem adoptAll_induction {P : State → Prop} (found : List ProbeResult) (seen : List Identity)
    (h : P s) (hstep : ∀ u, ∀ r ∈ found, P u → P (u.adopt A r)) : P (s.adoptAll A found seen) := by
  induction found generalizing s seen with
  | nil => exact h
  | cons r more ih =>
    have hmore : ∀ u, ∀ r ∈ more, P u → P (u.adopt A r) :=
      fun u r' hr' => hstep u r' (List.mem_cons_of_mem _ hr')
    unfold State.adoptAll
    split
    · exact ih _ h hmore
    · split
      · exact ih _ h hmore
      · exact ih _ (hstep s r List.mem_cons_self h) hmore

/-- The loop touches neither the claims nor the lock. -/
theorem adoptAll_frame (A : Site) (s : State) (found : List ProbeResult) (seen : List Identity) :
    (s.adoptAll A found seen).claimed = s.claimed ∧ (s.adoptAll A found seen).ports = s.ports ∧
      (s.adoptAll A found seen).call = s.call ∧
      (s.adoptAll A found seen).waiting = s.waiting := by
  refine adoptAll_induction (P := fun u => u.claimed = s.claimed ∧ u.ports = s.ports ∧
    u.call = s.call ∧ u.waiting = s.waiting) found seen ⟨rfl, rfl, rfl, rfl⟩ fun u r _ hu => ?_
  have hadopts := adopts A u r
  generalize u.adopt A r = v at hadopts
  cases hadopts with
  | stays => exact hu
  | adds _ _ _ _ _ _ => exact hu

/-! ## Steps -/

/-- A probe in `acquire` that makes the port the device's. -/
def Accepts (A : Site) (config : DeviceConfig) (found : ProbeResult) : Prop :=
  (config.identified = true ∧ A.isModuleOf config found = true) ∨
  (config.identified = false ∧ A.soleDevice = true)

/-- `survey` goes on to a port that is neither claimed nor pinned, or ends in adoptions. -/
inductive Scans (A : Site) (s : State) (reserved : List DeviceConfig) (pinned rest : List String)
    (found : List ProbeResult) (seen : List Identity) : State → Prop
  | goes (port : String) (ports : List String) (hsuffix : (port :: ports) <:+ rest)
      (hclaimed : s.claimed.get? port = none) (hpinned : port ∉ pinned) :
      Scans A s reserved pinned rest found seen
        { s with call := some (.survey reserved pinned (port :: ports) found seen) }
  | ends : Scans A s reserved pinned rest found seen ({ s with call := none }.adoptAll A found [])

theorem scans (A : Site) (s : State) (reserved : List DeviceConfig) (pinned rest : List String)
    (found : List ProbeResult) (seen : List Identity) :
    Scans A s reserved pinned rest found seen (s.surveyNext A reserved pinned rest found seen) := by
  unfold State.surveyNext
  split
  · exact .ends
  · rename_i ports hne
    match hdrop : rest.dropWhile fun p => (s.claimed.get? p).isSome || decide (p ∈ pinned) with
    | [] => exact absurd hdrop hne
    | port :: ports =>
      have hhead := List.head?_dropWhile_not
        (fun p => (s.claimed.get? p).isSome || decide (p ∈ pinned)) rest
      rw [hdrop] at hhead
      simp only [List.head?_cons, Bool.or_eq_false_iff,
        Option.isSome_eq_false_iff, Option.isNone_iff_eq_none, decide_eq_false_iff_not] at hhead
      exact .goes port ports (hdrop ▸ List.dropWhile_suffix _) hhead.1 hhead.2

/-- What a survey has found, and seen, after an answer. -/
def Site.heard (A : Site) (reserved : List DeviceConfig) (port : String) (found : List ProbeResult)
    (seen : List Identity) (answer : Option Answer) : List ProbeResult × List Identity :=
  answer.elim (found, seen) fun a => A.report reserved { a with port } found seen

/-- The blocks a survey respects. -/
def State.reserved (s : State) (A : Site) : List DeviceConfig := A.devices ++ s.adopted

/-- The ports that blocks name, resolved. -/
def Site.pinnedPorts (A : Site) (reserved : List DeviceConfig) : List String :=
  (reserved.filter DeviceConfig.isPinned).map fun d => A.realpath d.port

/-- **Everything a step can do.** -/
inductive Moves (A : Site) (s : State) : Action → State → Prop
  | stays (a : Action) : Moves A s a s
  /-- A worker without a port has found ports to probe. -/
  | begins (name : String) (ports candidates : List String) (w : Worker) (hfree : s.call = none)
      (hw : w ∈ s.workers) (hname : w.name = name) (hpinned : w.config.isPinned = false)
      (hport : s.ports.get? name = none) (hne : candidates ≠ [])
      (hunclaimed : ∀ p ∈ candidates, p ∈ ports ∧ s.claimed.get? p = none) :
      Moves A s (.acquire name ports) { s with call := some (.acquire w.config candidates) }
  | waits (hblank : A.devices.any DeviceConfig.blank = false)
      (hidle : ∀ reserved pinned ports found seen,
        s.call ≠ some (.survey reserved pinned ports found seen)) :
      Moves A s .autodetect { s with waiting := some (s.reserved A, A.pinnedPorts (s.reserved A)) }
  | surveys (ports : List String) (reserved : List DeviceConfig) (pinned : List String) (t : State)
      (hfree : s.call = none) (hwaiting : s.waiting = some (reserved, pinned))
      (ht : Scans A { s with waiting := none } reserved pinned (sorted ports) [] [] t) :
      Moves A s (.survey ports) t
  /-- The port is not the device's. -/
  | next (config : DeviceConfig) (port : String) (rest : List String) (answer : Option Answer)
      (hcall : s.call = some (.acquire config (port :: rest))) (hne : rest ≠ []) :
      Moves A s (.probe answer) { s with call := some (.acquire config rest) }
  /-- NoSuchDevice. -/
  | fails (config : DeviceConfig) (ports : List String) (answer : Option Answer)
      (hcall : s.call = some (.acquire config ports)) :
      Moves A s (.probe answer) { s with call := none }
  | claims (config : DeviceConfig) (port : String) (rest : List String) (a : Answer)
      (hcall : s.call = some (.acquire config (port :: rest)))
      (hok : Accepts A config { a with port }) :
      Moves A s (.probe (some a)) { s with
        call    := none
        claimed := s.claimed.set port config.name
        ports   := s.ports.set config.name port }
  | surveyed (reserved : List DeviceConfig) (pinned : List String) (port : String)
      (rest : List String) (found : List ProbeResult) (seen : List Identity)
      (answer : Option Answer) (t : State)
      (hcall : s.call = some (.survey reserved pinned (port :: rest) found seen))
      (ht : Scans A s reserved pinned rest (A.heard reserved port found seen answer).1
        (A.heard reserved port found seen answer).2 t) :
      Moves A s (.probe answer) t
  | cancels (c : Call) (hcall : s.call = some c) : Moves A s .cancel { s with call := none }
  | releases (name port : String) (hport : s.ports.get? name = some port) :
      Moves A s (.release name) { s with
        claimed := s.claimed.erase port
        ports   := s.ports.erase name }

/-- A probe in `acquire` goes on, fails or claims. -/
theorem moves_acquireProbed {config : DeviceConfig} {port : String} {rest : List String}
    (answer : Option Answer) (hcall : s.call = some (.acquire config (port :: rest))) :
    Moves A s (.probe answer) (s.acquireProbed A config port rest answer) := by
  have hnext : Moves A s (.probe answer) (s.acquireNext config rest) := by
    unfold State.acquireNext
    cases rest with
    | nil => exact .fails config [port] answer hcall
    | cons q rest => exact .next config port (q :: rest) answer hcall (List.cons_ne_nil q rest)
  unfold State.acquireProbed
  cases answer with
  | none => exact hnext
  | some a =>
    dsimp only
    split
    · exact hnext
    · rename_i hours
      split
      · exact .fails config (port :: rest) _ hcall
      · rename_i hsole
        refine .claims config port rest a hcall ?_
        cases hid : config.identified with
        | true => exact .inl ⟨hid, by simpa [hid] using hours⟩
        | false => exact .inr ⟨hid, by simpa [hid] using hsole⟩

/-- **Every step is one of the moves.** -/
theorem step_moves {a : Action} (h : step A s a = some t) : Moves A s a t := by
  cases a with
  | acquire name ports =>
    simp only [step] at h
    split at h
    · rename_i w hfree hw
      split at h
      · cases h
      · rename_i hcan
        simp only [Bool.or_eq_true, not_or, Bool.not_eq_true, Option.isSome_eq_false_iff,
          Option.isNone_iff_eq_none] at hcan
        split at h
        · cases h
          exact .stays _
        · rename_i candidates hne
          cases h
          have hname : w.name = name := by simpa using List.find?_some hw
          refine .begins name ports _ w hfree (List.mem_of_find?_eq_some hw) hname hcan.1 hcan.2 hne
            fun p hp => ?_
          obtain ⟨hmem, hnone⟩ := List.mem_filter.mp hp
          exact ⟨(List.mem_insertionSort _).mp hmem, Option.isNone_iff_eq_none.mp hnone⟩
    · cases h
  | autodetect =>
    simp only [step] at h
    split at h
    · cases h
    · cases h
    · rename_i hidle
      split at h
      · cases h
        exact .stays _
      · rename_i hblank
        cases h
        exact .waits (by simpa using hblank) hidle
  | survey ports =>
    simp only [step] at h
    split at h
    · rename_i reserved pinned hfree hwaiting
      cases h
      exact .surveys ports reserved pinned _ hfree hwaiting (scans _ _ _ _ _ _ _)
    · cases h
  | probe answer =>
    simp only [step] at h
    split at h
    · rename_i config port rest hcall
      cases h
      exact moves_acquireProbed answer hcall
    · rename_i reserved pinned port rest found seen hcall
      cases h
      unfold State.surveyProbed
      cases answer with
      | none =>
        exact .surveyed reserved pinned port rest found seen none _ hcall (scans _ _ _ _ _ _ _)
      | some a =>
        exact .surveyed reserved pinned port rest found seen (some a) _ hcall (scans _ _ _ _ _ _ _)
    · cases h
  | cancel =>
    simp only [step] at h
    split at h
    · rename_i c hcall
      cases h
      exact .cancels c hcall
    · cases h
  | release name =>
    simp only [step] at h
    split at h
    · rename_i port hport
      cases h
      exact .releases name port hport
    · cases h
      exact .stays _

/-! ## What always holds -/

/-- What holds in every reachable state. -/
structure Inv (A : Site) (s : State) : Prop where
  names     : s.names.Nodup
  configs   : s.workers.map Worker.config = s.reserved A
  /-- A claim is what a worker holds. -/
  held      : ∀ p n, s.claimed.get? p = some n ↔ s.ports.get? n = some p
  acquiring : ∀ config ports, s.call = some (.acquire config ports) →
    config ∈ s.reserved A ∧ config.isPinned = false ∧ s.ports.get? config.name = none ∧
      ∀ p ∈ ports, s.claimed.get? p = none
  waiting   : ∀ reserved pinned, s.waiting = some (reserved, pinned) →
    reserved = s.reserved A ∧ pinned = A.pinnedPorts reserved
  surveying : ∀ reserved pinned ports found seen,
    s.call = some (.survey reserved pinned ports found seen) →
      reserved = s.reserved A ∧ pinned = A.pinnedPorts reserved ∧ s.waiting = none
  /-- Beside a block that names nothing, nothing is adopted. -/
  blank     : A.devices.any DeviceConfig.blank = true → s.adopted = [] ∧ s.waiting = none ∧
    ∀ reserved pinned ports found seen, s.call ≠ some (.survey reserved pinned ports found seen)

theorem inv_start (kv : Dict String String) : Inv A (A.start kv) where
  names     := by
    show ((A.devices.map A.worker).map Worker.name).Nodup
    rw [List.map_map]
    exact A.names
  configs   := by
    show (A.devices.map A.worker).map Worker.config = A.devices ++ []
    rw [List.map_map, List.append_nil]
    exact List.map_id' A.devices
  held      := fun _ _ => iff_of_false nofun nofun
  acquiring := nofun
  waiting   := nofun
  surveying := nofun
  blank     := fun _ => ⟨rfl, rfl, nofun⟩

/-- An adoption keeps names distinct and the list of blocks. -/
theorem adopt_names {found : ProbeResult} (h : s.names.Nodup ∧ s.workers.map Worker.config =
    s.reserved A) : (s.adopt A found).names.Nodup ∧
      (s.adopt A found).workers.map Worker.config = (s.adopt A found).reserved A := by
  obtain ⟨hnames, hconfigs⟩ := h
  have hadopts := adopts A s found
  generalize s.adopt A found = u at hadopts
  cases hadopts with
  | stays => exact ⟨hnames, hconfigs⟩
  | adds identity name kv hid hname hnew =>
    constructor
    · show ((s.workers ++ [_]).map Worker.name).Nodup
      rw [List.map_append]
      refine List.nodup_append.mpr ⟨hnames, List.nodup_singleton _, fun x hx y hy hxy => hname ?_⟩
      obtain rfl : y = name := List.mem_singleton.mp hy
      rw [← hxy]
      exact hx
    · show (s.workers ++ [_]).map Worker.config = A.devices ++ (s.adopted ++ [_])
      rw [List.map_append, hconfigs, State.reserved, List.append_assoc]
      rfl

/-- A survey keeps the invariant, whether it goes on or ends in adoptions. -/
theorem Inv.scans {reserved : List DeviceConfig} {pinned rest : List String}
    {found : List ProbeResult} {seen : List Identity} (hi : Inv A s)
    (hreserved : reserved = s.reserved A) (hpinned : pinned = A.pinnedPorts reserved)
    (hwaiting : s.waiting = none) (hblank : A.devices.any DeviceConfig.blank = false)
    (h : Scans A s reserved pinned rest found seen t) : Inv A t := by
  have hno : A.devices.any DeviceConfig.blank = true → False := by
    rw [hblank]
    exact nofun
  cases h with
  | goes port ports hsuffix hclaimed hpin =>
    refine { hi with acquiring := nofun, surveying := ?_, blank := fun h => (hno h).elim }
    intro r p ports' f sn h
    cases h
    exact ⟨hreserved, hpinned, hwaiting⟩
  | ends =>
    obtain ⟨hclaimed, hports, hcall, hwait⟩ := adoptAll_frame A { s with call := none } found []
    have hcall' : ({ s with call := none }.adoptAll A found []).call = none := hcall
    have hwait' : ({ s with call := none }.adoptAll A found []).waiting = none := hwait.trans hwaiting
    obtain ⟨hnames, hconfigs⟩ := adoptAll_induction (A := A) (s := { s with call := none })
      (P := fun u => u.names.Nodup ∧ u.workers.map Worker.config = u.reserved A) found []
      ⟨hi.names, hi.configs⟩ fun u r _ hu => adopt_names hu
    refine ⟨hnames, hconfigs, ?_, ?_, ?_, ?_, fun h => (hno h).elim⟩
    · rw [hclaimed, hports]
      exact hi.held
    · rw [hcall']
      exact nofun
    · rw [hwait']
      exact nofun
    · rw [hcall']
      exact nofun

/-- A call that ends without a claim keeps the invariant. -/
theorem Inv.unlock (hi : Inv A s) : Inv A { s with call := none } :=
  { hi with
    acquiring := nofun
    surveying := nofun
    blank     := fun h => ⟨(hi.blank h).1, (hi.blank h).2.1, nofun⟩ }

/-- **Every step preserves the invariant.** -/
theorem inv_step {a : Action} (hi : Inv A s) (h : step A s a = some t) : Inv A t := by
  cases step_moves h with
  | stays => exact hi
  | begins name ports candidates w hfree hw hname hpinned hport hne hunclaimed =>
    have hmem : w.config ∈ s.reserved A := by
      rw [← hi.configs]
      exact List.mem_map_of_mem hw
    refine { hi with acquiring := ?_, surveying := nofun, blank := ?_ }
    · intro config ports' hc
      cases hc
      exact ⟨hmem, hpinned, by rw [← hport, ← hname]; rfl, fun p hp => (hunclaimed p hp).2⟩
    · exact fun hb => ⟨(hi.blank hb).1, (hi.blank hb).2.1, nofun⟩
  | waits hblank hidle =>
    refine { hi with waiting := ?_, surveying := ?_, blank := ?_ }
    · intro r p hw
      cases hw
      exact ⟨rfl, rfl⟩
    · intro r p ports f sn hc
      exact absurd hc (hidle r p ports f sn)
    · intro hb
      rw [hblank] at hb
      cases hb
  | surveys ports reserved pinned t hfree hwaiting ht =>
    have hblank : A.devices.any DeviceConfig.blank = false := by
      rw [← Bool.not_eq_true]
      intro hb
      rw [(hi.blank hb).2.1] at hwaiting
      cases hwaiting
    have hi' : Inv A { s with waiting := none } :=
      { hi with
        waiting   := nofun
        surveying := fun r p ports f sn hc => by rw [show _ = none from hfree] at hc; cases hc
        blank     := fun hb => ⟨(hi.blank hb).1, rfl, (hi.blank hb).2.2⟩ }
    exact hi'.scans (hi.waiting _ _ hwaiting).1 (hi.waiting _ _ hwaiting).2 rfl hblank ht
  | next config port rest answer hcall hne =>
    obtain ⟨hmem, hpinned, hport, hunclaimed⟩ := hi.acquiring _ _ hcall
    refine { hi with acquiring := ?_, surveying := nofun, blank := ?_ }
    · intro config' ports' hc
      cases hc
      exact ⟨hmem, hpinned, hport, fun p hp => hunclaimed p (List.mem_cons_of_mem _ hp)⟩
    · exact fun hb => ⟨(hi.blank hb).1, (hi.blank hb).2.1, nofun⟩
  | fails config ports answer hcall => exact hi.unlock
  | claims config port rest a hcall hok =>
    obtain ⟨-, -, hport, hunclaimed⟩ := hi.acquiring _ _ hcall
    have hfree := hunclaimed port List.mem_cons_self
    refine { hi.unlock with held := fun p n => ?_, acquiring := nofun }
    show (s.claimed.set port config.name).get? p = some n ↔
      (s.ports.set config.name port).get? n = some p
    by_cases hp : p = port
    · subst hp
      by_cases hn : n = config.name
      · subst hn
        simp
      · rw [Dict.get?_set, Dict.get?_set_ne hn, ← hi.held, hfree]
        exact iff_of_false (fun h => hn (Option.some.inj h).symm) nofun
    · by_cases hn : n = config.name
      · subst hn
        rw [Dict.get?_set, Dict.get?_set_ne hp, hi.held, hport]
        exact iff_of_false nofun fun h => hp (Option.some.inj h).symm
      · rw [Dict.get?_set_ne hp, Dict.get?_set_ne hn]
        exact hi.held p n
  | surveyed reserved pinned port rest found seen answer t hcall ht =>
    obtain ⟨hreserved, hpinned, hwaiting⟩ := hi.surveying _ _ _ _ _ hcall
    have hblank : A.devices.any DeviceConfig.blank = false := by
      rw [← Bool.not_eq_true]
      intro hb
      exact (hi.blank hb).2.2 _ _ _ _ _ hcall
    exact hi.scans hreserved hpinned hwaiting hblank ht
  | cancels c hcall => exact hi.unlock
  | releases name port hport =>
    have hclaim := (hi.held port name).mpr hport
    refine { hi with held := fun p n => ?_, acquiring := fun config ports hc => ?_ }
    · show (s.claimed.erase port).get? p = some n ↔ (s.ports.erase name).get? n = some p
      by_cases hp : p = port
      · subst hp
        by_cases hn : n = name
        · subst hn
          simp
        · rw [Dict.get?_erase, Dict.get?_erase_ne hn, ← hi.held, hclaim]
          exact iff_of_false nofun fun h => hn (Option.some.inj h).symm
      · by_cases hn : n = name
        · subst hn
          rw [Dict.get?_erase, Dict.get?_erase_ne hp, hi.held, hport]
          exact iff_of_false (fun h => hp (Option.some.inj h).symm) nofun
        · rw [Dict.get?_erase_ne hp, Dict.get?_erase_ne hn]
          exact hi.held p n
    · obtain ⟨hmem, hpinned, hnone, hunclaimed⟩ := hi.acquiring config ports hc
      refine ⟨hmem, hpinned, ?_, fun p hp => ?_⟩
      · show (s.ports.erase name).get? config.name = none
        by_cases hn : config.name = name
        · rw [hn, Dict.get?_erase]
        · rw [Dict.get?_erase_ne hn]
          exact hnone
      · show (s.claimed.erase port).get? p = none
        by_cases hpp : p = port
        · rw [hpp, Dict.get?_erase]
        · rw [Dict.get?_erase_ne hpp]
          exact hunclaimed p hp

theorem inv_reachable {G : State → Action → Prop} (h : (machine A).ReachableBy G s) : Inv A s := by
  refine h.invariant (I := Inv A) ?_ fun s a t hi _ hs => inv_step hi hs
  rintro s ⟨kv, rfl⟩
  exact inv_start kv

end Air780eHub.Discovery
