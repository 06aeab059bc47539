/-
  The claims of the registry, in any interleaving of `acquire`, `release` and `survey`.

  No port is claimed twice: a claim is made under the lock, for a port nobody claims, and a release
  only takes back what its worker holds.  Whether the claim is the right one rests on the device's
  identifiers.  `sole_device` counts the configured blocks, so a module without IMEI that is adopted
  beside exactly one of them, its worker without any identifier, takes the first port that answers.

  1. **`Lawful`**: what the claims promise.
  2. **`Named`**: adopted devices have an IMEI, where modules without one are not adopted.
  3. **`claims_lawful`**, and the run in which an adopted device takes a configured one's port.
-/
import Air780eHub.Discovery.Moves

namespace Air780eHub.Discovery

variable {A : Site} {s t : State}

/-! ## What the claims promise -/

/-- The probe agrees with every identifier of the block, or the block has none and is the only
    device. -/
def Rightful (A : Site) (s : State) (config : DeviceConfig) (a : Answer) : Prop :=
  (config.identified = true ∧ (A.norm config.imei ≠ "" → A.norm config.imei = A.norm a.imei) ∧
    (A.norm config.iccid ≠ "" → A.norm config.iccid = A.norm a.iccid)) ∨
  (config.identified = false ∧ s.workers.map Worker.config = [config])

/-- The step belongs to a call of `acquire`. -/
def OfAcquire (s : State) : Action → Prop
  | .acquire _ _ => True
  | .probe _     => ∃ config ports, s.call = some (.acquire config ports)
  | .cancel      => ∃ config ports, s.call = some (.acquire config ports)
  | _            => False

/-- The law of the claims. -/
structure Lawful (A : Site) (s : State) : Prop where
  /-- No port has two names among those that acquired it and have not released it. -/
  exclusive : ∀ p n n', s.ports.get? n = some p → s.ports.get? n' = some p → n = n'
  recorded  : ∀ p n, s.claimed.get? p = some n ↔ s.ports.get? n = some p
  /-- A port is returned by an `acquire` whose probe of it, unclaimed, was rightful. -/
  returned  : ∀ a t, step A s a = some t → ∀ n p, s.ports.get? n ≠ some p →
    t.ports.get? n = some p → s.claimed.get? p = none ∧ ∃ w ∈ s.workers, w.name = n ∧
      ∃ rest answer, s.call = some (.acquire w.config (p :: rest)) ∧ a = .probe (some answer) ∧
        Rightful A s w.config answer
  /-- An `acquire` that returns no port changes no claim. -/
  failed    : ∀ a t, step A s a = some t → OfAcquire s a → t.ports = s.ports →
    t.claimed = s.claimed

/-! ## Adopted devices have an IMEI -/

/-- No survey of an Agent with exactly one block hears of a module that has an ICCID, no IMEI, and
    no block it matches. -/
def answersImei (A : Site) (s : State) (a : Action) : Bool :=
  match a, s.call with
  | .probe (some a), some (.survey reserved _ (port :: _) _ _) =>
    !A.soleDevice || (reserved.any fun d => A.isModuleOf d { a with port }) ||
      decide (A.norm a.imei ≠ "") || decide (A.norm a.iccid = "")
  | _, _ => true

/-- The runs without such a survey. -/
def AnswersImei (A : Site) : State → Action → Prop := fun s a => answersImei A s a = true

/-- A module that has an IMEI, or no identity at all. -/
def HasImei (A : Site) (r : ProbeResult) : Prop := A.norm r.imei ≠ "" ∨ A.probeIdentity r = none

/-- Beside a single block, every adopted device has an IMEI. -/
structure Named (A : Site) (s : State) : Prop where
  adopted : A.soleDevice = true → ∀ d ∈ s.adopted, d.identified = true
  found   : A.soleDevice = true → ∀ reserved pinned ports found seen,
    s.call = some (.survey reserved pinned ports found seen) → ∀ r ∈ found, HasImei A r

/-- An adopted device has the IMEI of its module. -/
theorem identified_of_hasImei {r : ProbeResult} {identity : Identity} {name : String}
    (h : HasImei A r) (hid : A.probeIdentity r = some identity) :
    (adoptedConfig name r).identified = true := by
  have himei : A.norm r.imei ≠ "" := by
    rcases h with h | h
    · exact h
    · rw [h] at hid
      cases hid
  have hne : r.imei ≠ "" := by
    intro heq
    rw [heq, norm_empty] at himei
    exact himei rfl
  simp [DeviceConfig.identified, adoptedConfig, hne]

/-- What a survey reports after an answer has an IMEI. -/
theorem hasImei_heard {reserved : List DeviceConfig} {pinned rest : List String} {port : String}
    {found : List ProbeResult} {seen : List Identity} {answer : Option Answer}
    (hsole : A.soleDevice = true)
    (hcall : s.call = some (.survey reserved pinned (port :: rest) found seen))
    (hfound : ∀ r ∈ found, HasImei A r) (hg : AnswersImei A s (.probe answer)) :
    ∀ r ∈ (A.heard reserved port found seen answer).1, HasImei A r := by
  cases answer with
  | none => exact hfound
  | some a =>
    have hnew : (reserved.any fun d => A.isModuleOf d { a with port }) = false →
        HasImei A { a with port } := by
      intro hmatch
      by_cases himei : A.norm a.imei ≠ ""
      · exact .inl himei
      · have hiccid : A.norm a.iccid = "" := by
          simp only [AnswersImei, answersImei, hcall, hsole, hmatch, himei, Bool.not_true,
            Bool.false_or, decide_false, decide_eq_true_eq] at hg
          exact hg
        refine .inr ?_
        show A.identity a.imei a.iccid = none
        rw [Site.identity, if_neg himei, if_neg (not_not.mpr hiccid)]
    show ∀ r ∈ (A.report reserved { a with port } found seen).1, HasImei A r
    unfold Site.report
    split
    · exact hfound
    · rename_i hmatch
      have hnew' := hnew (Bool.not_eq_true _ ▸ hmatch)
      have happend : ∀ r ∈ found ++ [({ a with port } : ProbeResult)], HasImei A r := by
        intro r hr
        rcases List.mem_append.mp hr with hr | hr
        · exact hfound r hr
        · rw [List.mem_singleton.mp hr]
          exact hnew'
      split
      · exact happend
      · split
        · exact hfound
        · exact happend

/-- A survey keeps adopted devices named. -/
theorem Named.scans {reserved : List DeviceConfig} {pinned rest : List String}
    {found : List ProbeResult} {seen : List Identity}
    (hadopted : A.soleDevice = true → ∀ d ∈ s.adopted, d.identified = true)
    (hfound : A.soleDevice = true → ∀ r ∈ found, HasImei A r)
    (h : Scans A s reserved pinned rest found seen t) : Named A t := by
  cases h with
  | goes port ports hsuffix hclaimed hpinned =>
    refine ⟨hadopted, fun hsole r p ports' f sn hc => ?_⟩
    cases hc
    exact hfound hsole
  | ends =>
    have hcall : ({ s with call := none }.adoptAll A found []).call = none :=
      (adoptAll_frame A { s with call := none } found []).2.2.1
    refine ⟨fun hsole => ?_, by rw [hcall]; exact fun _ => nofun⟩
    refine adoptAll_induction (P := fun u => ∀ d ∈ u.adopted, d.identified = true) found []
      (hadopted hsole) fun u r hr hu => ?_
    have hadopts := adopts A u r
    generalize u.adopt A r = v at hadopts
    cases hadopts with
    | stays => exact hu
    | adds identity name kv hid hname hnew =>
      intro d hd
      rcases List.mem_append.mp hd with hd | hd
      · exact hu d hd
      · rw [List.mem_singleton.mp hd]
        exact identified_of_hasImei (hfound hsole r hr) hid

theorem named_step {a : Action} (hn : Named A s) (hg : AnswersImei A s a)
    (h : step A s a = some t) : Named A t := by
  cases step_moves h with
  | stays => exact hn
  | begins => exact ⟨hn.adopted, fun _ => nofun⟩
  | waits hblank hidle => exact ⟨hn.adopted, hn.found⟩
  | surveys ports reserved pinned t hfree hwaiting ht =>
    exact .scans (s := { s with waiting := none }) hn.adopted
      (fun _ r hr => absurd hr List.not_mem_nil) ht
  | next => exact ⟨hn.adopted, fun _ => nofun⟩
  | fails => exact ⟨hn.adopted, fun _ => nofun⟩
  | claims => exact ⟨hn.adopted, fun _ => nofun⟩
  | surveyed reserved pinned port rest found seen answer t hcall ht =>
    exact .scans hn.adopted (fun hsole =>
      hasImei_heard hsole hcall (hn.found hsole _ _ _ _ _ hcall) hg) ht
  | cancels => exact ⟨hn.adopted, fun _ => nofun⟩
  | releases => exact ⟨hn.adopted, hn.found⟩

theorem named_reachable (h : (machine A).ReachableBy (AnswersImei A) s) : Named A s := by
  refine h.invariant (I := Named A) ?_ fun s a t hn hg hs => named_step hn hg hs
  rintro s ⟨kv, rfl⟩
  refine ⟨fun _ d hd => ?_, fun _ r p ports f sn hc => ?_⟩
  · have hnil : (A.start kv).adopted = [] := rfl
    rw [hnil] at hd
    exact absurd hd List.not_mem_nil
  · have hnone : (A.start kv).call = none := rfl
    rw [hnone] at hc
    cases hc

/-! ## The law -/

theorem isModuleOf_agrees {config : DeviceConfig} {found : ProbeResult}
    (h : A.isModuleOf config found = true) :
    (A.norm config.imei ≠ "" → A.norm config.imei = A.norm found.imei) ∧
    (A.norm config.iccid ≠ "" → A.norm config.iccid = A.norm found.iccid) := by
  unfold Site.isModuleOf at h
  split at h
  · cases h
  · rename_i himei
    split at h
    · cases h
    · rename_i hiccid
      exact ⟨fun hne => not_not.mp fun hno => himei ⟨hne, hno⟩,
        fun hne => not_not.mp fun hno => hiccid ⟨hne, hno⟩⟩

/-- A device that is accepted in `acquire` is rightful. -/
theorem rightful_of_accepts (hi : Inv A s) (hn : Named A s) {config : DeviceConfig} {port : String}
    {ports : List String} {a : Answer} (hcall : s.call = some (.acquire config ports))
    (hpinned : config.isPinned = false) (h : Accepts A config { a with port }) :
    Rightful A s config a := by
  rcases h with ⟨hid, hours⟩ | ⟨hid, hsole⟩
  · have hagrees := isModuleOf_agrees hours
    exact .inl ⟨hid, hagrees⟩
  · refine .inr ⟨hid, ?_⟩
    have hmem := (hi.acquiring _ _ hcall).1
    have hdevice : config ∈ A.devices := by
      rcases List.mem_append.mp hmem with hd | hd
      · exact hd
      · rw [hn.adopted hsole config hd] at hid
        cases hid
    -- the block names nothing, so nothing is adopted beside it
    have hblank : A.devices.any DeviceConfig.blank = true := by
      refine List.any_eq_true.mpr ⟨config, hdevice, ?_⟩
      have hport : config.port = "" := by simpa [DeviceConfig.isPinned] using hpinned
      simp [DeviceConfig.blank, hport, hid]
    have hlen : A.devices.length = 1 := by simpa [Site.soleDevice] using hsole
    obtain ⟨d, hd⟩ := List.length_eq_one_iff.mp hlen
    rw [hd] at hdevice
    rw [hi.configs, State.reserved, (hi.blank hblank).1, List.append_nil, hd,
      List.mem_singleton.mp hdevice]

/-- A survey gives nobody a port and takes nobody's. -/
theorem Scans.frame {reserved : List DeviceConfig} {pinned rest : List String}
    {found : List ProbeResult} {seen : List Identity}
    (h : Scans A s reserved pinned rest found seen t) :
    t.ports = s.ports ∧ t.claimed = s.claimed := by
  cases h with
  | goes => exact ⟨rfl, rfl⟩
  | ends =>
    obtain ⟨hclaimed, hports, -⟩ := adoptAll_frame A { s with call := none } found []
    exact ⟨hports, hclaimed⟩

/-- A step that gives a worker a port is a probe that was accepted. -/
theorem returned_of_moves {a : Action} {n p : String} (h : Moves A s a t)
    (hbefore : s.ports.get? n ≠ some p) (hafter : t.ports.get? n = some p) :
    ∃ config rest answer, s.call = some (.acquire config (p :: rest)) ∧ config.name = n ∧
      a = .probe (some answer) ∧ Accepts A config { answer with port := p } := by
  cases h with
  | claims config port rest answer hcall hok =>
    by_cases hn : n = config.name
    · subst hn
      have hp : port = p := by
        rw [Dict.get?_set] at hafter
        exact Option.some.inj hafter
      subst hp
      exact ⟨config, rest, answer, hcall, rfl, rfl, hok⟩
    · rw [Dict.get?_set_ne hn] at hafter
      exact absurd hafter hbefore
  | surveys ports reserved pinned t hfree hwaiting ht =>
    rw [ht.frame.1] at hafter
    exact absurd hafter hbefore
  | surveyed reserved pinned port rest found seen answer t hcall ht =>
    rw [ht.frame.1] at hafter
    exact absurd hafter hbefore
  | releases name port hport =>
    by_cases hn : n = name
    · subst hn
      rw [Dict.get?_erase] at hafter
      cases hafter
    · rw [Dict.get?_erase_ne hn] at hafter
      exact absurd hafter hbefore
  | _ => exact absurd hafter hbefore

/-- A call of `acquire` that returns no port changes no claim. -/
theorem failed_of_moves {a : Action} (h : Moves A s a t) (ha : OfAcquire s a)
    (hports : t.ports = s.ports) (hi : Inv A s) : t.claimed = s.claimed := by
  cases h with
  | claims config port rest answer hcall hok =>
    have hnone := (hi.acquiring _ _ hcall).2.2.1
    rw [← hports, Dict.get?_set] at hnone
    cases hnone
  | surveys => exact ha.elim
  | surveyed reserved pinned port rest found seen answer t hcall ht => exact ht.frame.2
  | releases => exact ha.elim
  | _ => rfl

/-- **The claims of the registry are exclusive and rightful**, in every run in which no survey of an
    Agent with exactly one block hears of an unknown module with an ICCID and no IMEI. -/
theorem claims_lawful (h : (machine A).ReachableBy (AnswersImei A) s) : Lawful A s := by
  have hi := inv_reachable h
  have hn := named_reachable h
  refine ⟨fun p n n' hp hp' => ?_, hi.held, fun a t hs n p hbefore hafter => ?_,
    fun a t hs ha hports => failed_of_moves (step_moves hs) ha hports hi⟩
  · rw [← hi.held] at hp hp'
    exact Option.some.inj (hp.symm.trans hp')
  · obtain ⟨config, rest, answer, hcall, hname, ha, hok⟩ :=
      returned_of_moves (step_moves hs) hbefore hafter
    obtain ⟨hmem, hpinned, -, hunclaimed⟩ := hi.acquiring _ _ hcall
    rw [← hi.configs] at hmem
    obtain ⟨w, hw, rfl⟩ := List.mem_map.mp hmem
    exact ⟨hunclaimed p List.mem_cons_self, w, hw, hname, rest, answer, hcall, ha,
      rightful_of_accepts hi hn hcall hpinned hok⟩

/-- The site of one block. -/
def oneBlock : Site where
  lower      := fun s => String.ofList (s.toList.map Char.toLower)
  lowerEmpty := lower_empty
  devices    := [⟨"modem-a", "", "863304089655700", "", ""⟩]
  names      := by decide
  realpath   := fun p => p
  behind     := fun _ => none

/-- The configured module is found on its port. -/
theorem claims_lawful_configured : ∃ s, s.ports.get? "modem-a" = some "/dev/ttyACM1" ∧
    Lawful oneBlock s := by
  have hrun : (((machine oneBlock).runBy (answersImei oneBlock) (oneBlock.start ∅)
      [.acquire "modem-a" ["/dev/ttyACM1", "/dev/ttyACM0"], .probe none,
       .probe (some ⟨"Air780E", "863304089655700", ""⟩)]).map fun s => s.ports.get? "modem-a") =
      some (some "/dev/ttyACM1") := by decide
  obtain ⟨s, hs, hport⟩ := Option.map_eq_some_iff.mp hrun
  exact ⟨s, hport, claims_lawful ⟨_, ⟨∅, rfl⟩, Machine.runBy_path hs⟩⟩

/-- A module without IMEI is adopted beside the configured one, and its worker looks for a port. -/
def strangerRun : List Action :=
  [.autodetect, .survey ["/dev/ttyACM1"], .probe (some ⟨"Air780E", "", "89860000000000000001"⟩),
   .acquire "auto-000001" ["/dev/ttyACM0"]]

/-- It takes the port of the configured module: it has no identifier, and is one of two devices. -/
theorem claims_unlawful_stranger : ∃ s, (machine oneBlock).Reachable s ∧ ¬ Lawful oneBlock s := by
  have hrun : ((machine oneBlock).run (oneBlock.start ∅) strangerRun).map (fun s =>
      (s.workers.map fun w => (w.name, w.config.imei, w.config.iccid), s.ports.get? "auto-000001",
       (step oneBlock s (.probe (some ⟨"Air780E", "863304089655700", ""⟩))).map fun t =>
        t.ports.get? "auto-000001")) =
      some ([("modem-a", "863304089655700", ""), ("auto-000001", "", "")], none,
        some (some "/dev/ttyACM0")) := by decide
  obtain ⟨s, hs, hview⟩ := Option.map_eq_some_iff.mp hrun
  simp only [Prod.mk.injEq, Option.map_eq_some_iff] at hview
  obtain ⟨hworkers, hbefore, t, ht, hafter⟩ := hview
  refine ⟨s, Machine.run_reachable ⟨∅, rfl⟩ hs, fun h => ?_⟩
  obtain ⟨-, w, hw, hname, rest, answer, -, ha, hright⟩ := h.returned _ t ht "auto-000001"
    "/dev/ttyACM0" (by rw [hbefore]; exact (Option.some_ne_none _).symm) hafter
  rcases hright with ⟨hid, -⟩ | ⟨-, hsole⟩
  · -- the worker of that name has no identifier
    have hmem := List.mem_map_of_mem (f := fun w : Worker =>
      (w.name, w.config.imei, w.config.iccid)) hw
    rw [hworkers, hname] at hmem
    simp only [List.mem_cons, Prod.mk.injEq, List.not_mem_nil, or_false] at hmem
    rcases hmem with ⟨hne, -⟩ | ⟨-, himei, hiccid⟩
    · exact absurd hne (by decide)
    · rw [DeviceConfig.identified, himei, hiccid] at hid
      exact absurd hid (by decide)
  · have hlength := congrArg List.length hworkers
    rw [List.length_map, ← List.length_map (f := Worker.config), hsole] at hlength
    exact absurd hlength (by simp)

end Air780eHub.Discovery
