/-
  The ports that are probed, against the ports that are held.

  A claim keeps its port from being probed under the name it was claimed by.  The claims are names
  the glob matched; the pinned ports are names of the configuration, which only the survey looks at,
  resolved, beside names that are not.  So a tty is kept from a probe when everything that leads to
  it goes by one name.

  1. **`Alone`**: no claim and no block leads to the port under another name.
  2. **`Careful`**: a call finds no port that is not.
  3. **`Untouched`**, which every probe of a careful run is (`probes_untouched`), and the `acquire`
     that opens a pinned port.
-/
import Air780eHub.Discovery.Moves

namespace Air780eHub.Discovery

variable {A : Site} {s t : State}

/-! ## Names of one tty -/

/-- The port that is open for a probe. -/
def State.probing (s : State) : Option String :=
  match s.call with
  | some (.acquire _ ports)      => ports.head?
  | some (.survey _ _ ports _ _) => ports.head?
  | none                         => none

/-- No other claimed port, and no port of a pinned device, is the same tty. -/
structure Alone (A : Site) (claimed : Dict String String) (p : String) : Prop where
  claims : ∀ q n, claimed.get? q = some n → q ≠ p → A.realpath q ≠ A.realpath p
  blocks : ∀ d ∈ A.devices, d.isPinned = true → A.realpath d.port ≠ A.realpath p

/-- The tty that is open for a probe is no claimed port and no pinned device's. -/
def Untouched (A : Site) (s : State) : Prop :=
  ∀ p, s.probing = some p →
    (∀ q n, s.claimed.get? q = some n → A.realpath q ≠ A.realpath p) ∧
    ∀ d ∈ A.devices, d.isPinned = true → A.realpath d.port ≠ A.realpath p

/-- What the glob matches beside the claimed ports is no tty that a claim or a block leads to by
    another name.  A survey also passes over what a block's port resolves to. -/
def Careful (A : Site) (s : State) : Action → Prop
  | .acquire _ ports => ∀ p ∈ ports, s.claimed.get? p = none → Alone A s.claimed p
  | .survey ports    => ∀ p ∈ ports, s.claimed.get? p = none →
    p ∉ A.pinnedPorts (s.reserved A) → Alone A s.claimed p
  | _                => True

/-! ## What a careful run keeps -/

/-- Claims are alone, and so is what a call still looks at. -/
structure Apart (A : Site) (s : State) : Prop where
  claimed   : ∀ p n, s.claimed.get? p = some n → Alone A s.claimed p
  acquiring : ∀ config ports, s.call = some (.acquire config ports) → ∀ p ∈ ports, Alone A s.claimed p
  /-- A survey looks at no port by the name it was pinned by. -/
  surveying : ∀ reserved pinned ports found seen,
    s.call = some (.survey reserved pinned ports found seen) →
      (∀ p ∈ ports, p ∉ pinned → Alone A s.claimed p) ∧
      ∀ p, ports.head? = some p → p ∉ pinned ∧ s.claimed.get? p = none

/-- With fewer claims a port stays alone. -/
theorem Alone.mono {p : String} {claimed less : Dict String String} (h : Alone A claimed p)
    (hclaims : ∀ q n, less.get? q = some n → claimed.get? q = some n) : Alone A less p :=
  ⟨fun q n hq => h.claims q n (hclaims q n hq), h.blocks⟩

theorem Apart.untouched (h : Apart A s) (hi : Inv A s) : Untouched A s := by
  intro p hp
  -- the open port is alone, and nobody claims it
  have hopen : Alone A s.claimed p ∧ s.claimed.get? p = none := by
    unfold State.probing at hp
    split at hp
    · rename_i config ports hcall
      have hmem := List.mem_of_mem_head? hp
      exact ⟨h.acquiring _ _ hcall p hmem, (hi.acquiring _ _ hcall).2.2.2 p hmem⟩
    · rename_i reserved pinned ports found seen hcall
      obtain ⟨halone, hhead⟩ := h.surveying _ _ _ _ _ hcall
      exact ⟨halone p (List.mem_of_mem_head? hp) (hhead p hp).1, (hhead p hp).2⟩
    · cases hp
  refine ⟨fun q n hq => hopen.1.claims q n hq fun heq => ?_, hopen.1.blocks⟩
  rw [heq, hopen.2] at hq
  cases hq

/-- A survey goes on to a port that is alone. -/
theorem Apart.scans {reserved : List DeviceConfig} {pinned rest : List String}
    {found : List ProbeResult} {seen : List Identity}
    (hclaimed : ∀ p n, s.claimed.get? p = some n → Alone A s.claimed p)
    (hrest : ∀ p ∈ rest, p ∉ pinned → Alone A s.claimed p)
    (h : Scans A s reserved pinned rest found seen t) : Apart A t := by
  cases h with
  | goes port ports hsuffix hfree hpinned =>
    refine ⟨hclaimed, nofun, fun r p ports' f sn hc => ?_⟩
    cases hc
    refine ⟨fun p hp => hrest p (hsuffix.subset hp), fun p hp => ?_⟩
    cases hp
    exact ⟨hpinned, hfree⟩
  | ends =>
    obtain ⟨hsame, -, hcall, -⟩ := adoptAll_frame A { s with call := none } found []
    have hcall' : ({ s with call := none }.adoptAll A found []).call = none := hcall
    refine ⟨?_, by rw [hcall']; exact nofun, by rw [hcall']; exact nofun⟩
    rw [hsame]
    exact hclaimed

theorem apart_step {a : Action} (hi : Inv A s) (h : Apart A s) (hg : Careful A s a)
    (hs : step A s a = some t) : Apart A t := by
  cases step_moves hs with
  | stays => exact h
  | begins name ports candidates w hfree hw hname hpinned hport hne hunclaimed =>
    refine ⟨h.claimed, fun config ports' hc p hp => ?_, nofun⟩
    cases hc
    exact hg p (hunclaimed p hp).1 (hunclaimed p hp).2
  | waits hblank hidle => exact ⟨h.claimed, h.acquiring, h.surveying⟩
  | surveys ports reserved pinned t hfree hwaiting ht =>
    obtain ⟨rfl, rfl⟩ := hi.waiting _ _ hwaiting
    refine .scans (s := { s with waiting := none }) h.claimed (fun p hp hpinned => ?_) ht
    have hp' := (List.mem_insertionSort _).mp hp
    cases hclaim : s.claimed.get? p with
    | none => exact hg p hp' hclaim hpinned
    | some n => exact h.claimed p n hclaim
  | next config port rest answer hcall hne =>
    refine ⟨h.claimed, fun config' ports' hc p hp => ?_, nofun⟩
    cases hc
    exact h.acquiring _ _ hcall p (List.mem_cons_of_mem _ hp)
  | fails => exact ⟨h.claimed, nofun, nofun⟩
  | claims config port rest a hcall hok =>
    have hnew := h.acquiring _ _ hcall port List.mem_cons_self
    refine ⟨fun p n hp => ⟨fun q m hq hne => ?_, ?_⟩, nofun, nofun⟩
    · show A.realpath q ≠ A.realpath p
      by_cases hqp : q = port
      · subst hqp
        have hold : s.claimed.get? p = some n := by
          rw [← hp]
          exact (Dict.get?_set_ne (Ne.symm hne)).symm
        exact (hnew.claims p n hold (Ne.symm hne)).symm
      · have hold : s.claimed.get? q = some m := by
          rw [← hq]
          exact (Dict.get?_set_ne hqp).symm
        by_cases hpp : p = port
        · rw [hpp]
          exact hnew.claims q m hold hqp
        · have hold' : s.claimed.get? p = some n := by
            rw [← hp]
            exact (Dict.get?_set_ne hpp).symm
          exact (h.claimed p n hold').claims q m hold hne
    · by_cases hpp : p = port
      · rw [hpp]
        exact hnew.blocks
      · have hold : s.claimed.get? p = some n := by
          rw [← hp]
          exact (Dict.get?_set_ne hpp).symm
        exact (h.claimed p n hold).blocks
  | surveyed reserved pinned port rest found seen answer t hcall ht =>
    refine .scans h.claimed (fun p hp => ?_) ht
    exact (h.surveying _ _ _ _ _ hcall).1 p (List.mem_cons_of_mem _ hp)
  | cancels => exact ⟨h.claimed, nofun, nofun⟩
  | releases name port hport =>
    have hless : ∀ q n, (s.claimed.erase port).get? q = some n → s.claimed.get? q = some n := by
      intro q n hq
      by_cases hqp : q = port
      · rw [hqp, Dict.get?_erase] at hq
        cases hq
      · rw [Dict.get?_erase_ne hqp] at hq
        exact hq
    refine ⟨fun p n hp => (h.claimed p n (hless p n hp)).mono hless,
      fun config ports hc p hp => (h.acquiring config ports hc p hp).mono hless,
      fun r pinned ports found seen hc => ?_⟩
    obtain ⟨halone, hhead⟩ := h.surveying _ _ _ _ _ hc
    refine ⟨fun p hp hpinned => (halone p hp hpinned).mono hless, fun p hp => ⟨(hhead p hp).1, ?_⟩⟩
    show (s.claimed.erase port).get? p = none
    cases hclaim : (s.claimed.erase port).get? p with
    | none => rfl
    | some n =>
      have hold := hless p n hclaim
      rw [(hhead p hp).2] at hold
      cases hold

/-- **No probe of a careful run opens a tty that a worker has claimed or a pinned device names.** -/
theorem probes_untouched (h : (machine A).ReachableBy (Careful A) s) : Untouched A s := by
  refine Apart.untouched ?_ (inv_reachable h)
  refine h.bundle (I := Inv A) (J := Apart A) (fun _ => inv_reachable) ?_
    fun s a t hi ha hg hs => apart_step hi ha hg hs
  rintro s ⟨kv, rfl⟩
  have hempty : ∀ p n, (A.start kv).claimed.get? p = some n → False := fun p n hp => by cases hp
  have hidle : (A.start kv).call = none := rfl
  exact ⟨fun p n hp => (hempty p n hp).elim, by rw [hidle]; exact nofun, by rw [hidle]; exact nofun⟩

/-- The site of a pinned device, by a link, and a device that is looked for. -/
def pinnedSite : Site where
  lower      := fun s => String.ofList (s.toList.map Char.toLower)
  lowerEmpty := lower_empty
  devices    := [⟨"modem-a", "/dev/air780e-a", "", "", ""⟩, ⟨"modem-b", "", "862323088372050", "", ""⟩]
  names      := by decide
  realpath   := fun p => if p = "/dev/air780e-a" then "/dev/ttyACM0" else p
  behind     := fun _ => none

/-- Where the glob matches only the other tty, that one is probed. -/
theorem probes_untouched_other : ∃ s, s.probing = some "/dev/ttyACM1" ∧ Untouched pinnedSite s := by
  have hfree : Alone pinnedSite (pinnedSite.start ∅).claimed "/dev/ttyACM1" := by
    refine ⟨fun q n hq => absurd hq nofun, fun d hd => ?_⟩
    simp only [pinnedSite, List.mem_cons, List.not_mem_nil, or_false] at hd
    rcases hd with rfl | rfl <;> decide
  have hguard : Careful pinnedSite (pinnedSite.start ∅)
      (.acquire "modem-b" ["/dev/ttyACM1"]) := by
    intro p hp _
    rw [List.mem_singleton.mp hp]
    exact hfree
  have hrun : ((step pinnedSite (pinnedSite.start ∅) (.acquire "modem-b" ["/dev/ttyACM1"])).map
      State.probing) = some (some "/dev/ttyACM1") := by decide
  obtain ⟨s, hs, hprobing⟩ := Option.map_eq_some_iff.mp hrun
  exact ⟨s, hprobing, probes_untouched ⟨_, ⟨∅, rfl⟩, .single hguard hs⟩⟩

/-- `acquire` opens the tty of the pinned device when the glob matches it. -/
theorem probes_pinned : ∃ s, (machine pinnedSite).Reachable s ∧ ¬ Untouched pinnedSite s := by
  have hrun : (((machine pinnedSite).run (pinnedSite.start ∅)
      [.acquire "modem-b" ["/dev/ttyACM0", "/dev/ttyACM1"]]).map State.probing) =
      some (some "/dev/ttyACM0") := by decide
  obtain ⟨s, hs, hprobing⟩ := Option.map_eq_some_iff.mp hrun
  refine ⟨s, Machine.run_reachable ⟨∅, rfl⟩ hs, fun h => ?_⟩
  exact (h _ hprobing).2 ⟨"modem-a", "/dev/air780e-a", "", "", ""⟩ List.mem_cons_self (by decide)
    (by decide)

end Air780eHub.Discovery
