/-
  Adopting modules that nobody configured, once each.

  A survey reports a module that no block matches, `_adopt` refuses it when a block has its
  identity, and the block it stores for a new one has the IMEI of the probe and nothing else.  The
  three agree for a module with an IMEI.  A module that is adopted by its ICCID leaves a block that
  matches nothing and has no identity, so the next survey reports it again and it is adopted again;
  and the block of a pinned device may name nothing but the port, so that a second AT port of its
  module is a module nobody configured.

  1. **`HearsKnown`**: surveys hear of no module whose worker has a block without its identity.
  2. **`Once`**: no identity has two workers; adopted blocks come from probes.
  3. **`adopted_once`**, and the module that is adopted at every survey.
-/
import Air780eHub.Discovery.Moves

namespace Air780eHub.Discovery

variable {A : Site} {s t u : State}

/-! ## What is said of the workers -/

/-- Some worker was created for the identity. -/
def State.serves (s : State) (k : Identity) : Bool :=
  s.workers.any fun w => decide (w.identity = some k)

/-- The block of some worker has the identity. -/
def State.hasBlock (s : State) (A : Site) (k : Identity) : Bool :=
  s.workers.any fun w => decide (A.deviceIdentity w.config = some k)

/-- A module that a survey hears of and no block matches is new, or some block has its identity. -/
def hearsKnown (A : Site) (s : State) (a : Action) : Bool :=
  match a, s.call with
  | .probe (some a), some (.survey reserved _ (port :: _) _ _) =>
    (reserved.any fun d => A.isModuleOf d { a with port }) ||
      (A.identityKey { a with port }).all fun k => !s.serves k || s.hasBlock A k
  | _, _ => true

/-- The runs in which every survey does so. -/
def HearsKnown (A : Site) : State → Action → Prop := fun s a => hearsKnown A s a = true

/-- The workers that were adopted. -/
def State.adoptedWorkers (s : State) (A : Site) : List Worker := s.workers.drop A.devices.length

/-- A survey that hears of a module with an adopted identity does not report it. -/
def SpokenFor (A : Site) (s : State) (a : Answer) : Prop :=
  ∀ reserved pinned port rest found seen,
    s.call = some (.survey reserved pinned (port :: rest) found seen) →
      ∀ w ∈ s.adoptedWorkers A, ∀ k, w.identity = some k →
        A.identityKey { a with port } = some k →
          (A.report reserved { a with port } found seen).1 = found

/-! ## Blocks and identities -/

/-- A worker whose block is what `_adopt` stores for a probe of its identity. -/
def FromProbe (A : Site) (w : Worker) : Prop :=
  ∃ name found, w.config = adoptedConfig name found ∧ w.identity = A.probeIdentity found

theorem identity_imei {imei iccid x : String} (h : A.identity imei iccid = some (.imei x)) :
    A.norm imei = x ∧ A.norm imei ≠ "" := by
  unfold Site.identity at h
  split at h
  · rename_i hne
    exact ⟨by simpa using h, hne⟩
  · split at h
    · simp at h
    · cases h

theorem identity_iccid {imei iccid y : String} (h : A.identity imei iccid = some (.iccid y)) :
    A.norm imei = "" ∧ A.norm iccid = y ∧ A.norm iccid ≠ "" := by
  unfold Site.identity at h
  split at h
  · simp at h
  · rename_i himei
    split at h
    · rename_i hne
      exact ⟨not_not.mp himei, by simpa using h, hne⟩
    · cases h

/-- An adopted block with an IMEI matches every probe that reports the IMEI. -/
theorem isModuleOf_adopted {name x : String} {found r : ProbeResult}
    (hfound : A.probeIdentity found = some (.imei x)) (hr : A.identityKey r = some (.imei x)) :
    A.isModuleOf (adoptedConfig name found) r = true := by
  obtain ⟨hf, hne⟩ := identity_imei hfound
  obtain ⟨hr', -⟩ := identity_imei hr
  have himei : A.norm (adoptedConfig name found).imei = A.norm r.imei := hf.trans hr'.symm
  have hiccid : A.norm (adoptedConfig name found).iccid = "" := norm_empty A
  have hne' : A.norm (adoptedConfig name found).imei ≠ "" := hne
  unfold Site.isModuleOf
  rw [if_neg fun h => h.2 himei, if_neg fun h => h.1 hiccid]
  exact decide_eq_true (.inl hne')

/-- A block with no IMEI matches every probe that reports its ICCID. -/
theorem isModuleOf_iccid {d : DeviceConfig} {r : ProbeResult} {y : String}
    (hd : A.deviceIdentity d = some (.iccid y)) (hr : A.identityKey r = some (.iccid y)) :
    A.isModuleOf d r = true := by
  obtain ⟨hempty, hdy, hne⟩ := identity_iccid hd
  obtain ⟨-, hry, -⟩ := identity_iccid hr
  unfold Site.isModuleOf
  rw [if_neg fun h => h.1 hempty, if_neg fun h => h.2 (hdy.trans hry.symm)]
  exact decide_eq_true (.inr hne)

/-! ## What a run keeps -/

/-- No identity has two workers, and the workers are those of the configuration and adopted ones. -/
structure Once (A : Site) (s : State) : Prop where
  once    : (s.workers.filterMap Worker.identity).Nodup
  configs : s.workers.map Worker.config = s.reserved A
  adopted : ∀ w ∈ s.adoptedWorkers A, FromProbe A w

/-- The module may be adopted: it is new, or `_adopt` refuses it. -/
def Known (A : Site) (s : State) (k : Identity) : Prop := s.serves k = true → s.hasBlock A k = true

theorem serves_iff {k : Identity} : s.serves k = true ↔ some k ∈ s.workers.map Worker.identity := by
  simp [State.serves, List.mem_map]

/-- An adoption of a known module keeps the workers apart, and the others known. -/
theorem Once.adopt {r : ProbeResult} {k : Identity} (h : Once A s)
    (hid : A.probeIdentity r = some k) (hk : Known A s k) :
    Once A (s.adopt A r) ∧ ∀ k', k' ≠ k → Known A s k' → Known A (s.adopt A r) k' := by
  have hadopts := adopts A s r
  generalize s.adopt A r = v at hadopts
  cases hadopts with
  | stays => exact ⟨h, fun _ _ hk' => hk'⟩
  | adds identity name kv hid' hname hnew =>
    obtain rfl : identity = k := Option.some.inj (hid'.symm.trans hid)
    have hblock : s.hasBlock A identity = false := by
      rw [Bool.eq_false_iff]
      intro hb
      obtain ⟨w, hw, hwk⟩ := List.any_eq_true.mp hb
      have hmem : w.config ∈ A.devices ++ s.adopted := by
        have hmem := List.mem_map_of_mem (f := Worker.config) hw
        rw [h.configs] at hmem
        exact hmem
      exact hnew w.config hmem (of_decide_eq_true hwk)
    have hserves : s.serves identity = false := by
      rw [Bool.eq_false_iff]
      intro hs
      rw [hk hs] at hblock
      cases hblock
    refine ⟨⟨?_, ?_, ?_⟩, fun k' hne hk' hs => ?_⟩
    · show ((s.workers ++ [_]).filterMap Worker.identity).Nodup
      rw [List.filterMap_append]
      refine List.nodup_append.mpr ⟨h.once, List.nodup_singleton _, fun x hx y hy hxy => ?_⟩
      obtain rfl : y = identity := List.mem_singleton.mp hy
      obtain ⟨w, hw, hwx⟩ := List.mem_filterMap.mp hx
      rw [Bool.eq_false_iff] at hserves
      exact hserves (serves_iff.mpr (List.mem_map.mpr ⟨w, hw, by rw [hwx, hxy]⟩))
    · show (s.workers ++ [_]).map Worker.config = A.devices ++ (s.adopted ++ [_])
      rw [List.map_append, h.configs, State.reserved, List.append_assoc]
      rfl
    · have hlen : A.devices.length ≤ s.workers.length := by
        have hlen := congrArg List.length h.configs
        rw [List.length_map, State.reserved, List.length_append] at hlen
        omega
      intro w hw
      have hdrop : w ∈ s.adoptedWorkers A ∨ w = (⟨adoptedConfig name r, some identity⟩ : Worker) := by
        have hw' : w ∈ (s.workers ++ [(⟨adoptedConfig name r, some identity⟩ : Worker)]).drop
            A.devices.length := hw
        rw [List.drop_append_of_le_length hlen] at hw'
        exact (List.mem_append.mp hw').imp id List.mem_singleton.mp
      rcases hdrop with hw | rfl
      · exact h.adopted w hw
      · exact ⟨name, r, rfl, hid.symm⟩
    · have hold : s.serves k' = true := by
        obtain ⟨w, hw, hwk⟩ := List.any_eq_true.mp hs
        rcases List.mem_append.mp hw with hw | hw
        · exact List.any_eq_true.mpr ⟨w, hw, hwk⟩
        · rw [List.mem_singleton.mp hw] at hwk
          exact absurd (Option.some.inj (of_decide_eq_true hwk)).symm hne
      obtain ⟨w, hw, hwk⟩ := List.any_eq_true.mp (hk' hold)
      exact List.any_eq_true.mpr ⟨w, List.mem_append_left _ hw, hwk⟩

/-- The loop of adoptions keeps the workers apart. -/
theorem Once.adoptAll {found : List ProbeResult} {seen : List Identity} (h : Once A s)
    (hfound : ∀ r ∈ found, ∀ k, A.probeIdentity r = some k → k ∈ seen ∨ Known A s k) :
    Once A (s.adoptAll A found seen) := by
  induction found generalizing s seen with
  | nil => exact h
  | cons r more ih =>
    have hmore := fun r' (hr' : r' ∈ more) => hfound r' (List.mem_cons_of_mem _ hr')
    unfold State.adoptAll
    split
    · exact ih h hmore
    · rename_i k hid
      split
      · exact ih h hmore
      · rename_i hunseen
        have hk := (hfound r List.mem_cons_self k hid).resolve_left hunseen
        obtain ⟨hadopt, hothers⟩ := h.adopt hid hk
        refine ih hadopt fun r' hr' k' hid' => ?_
        by_cases hne : k' = k
        · exact .inl (hne ▸ List.mem_cons_self)
        · rcases hmore r' hr' k' hid' with hseen | hknown
          · exact .inl (List.mem_cons_of_mem _ hseen)
          · exact .inr (hothers k' hne hknown)

/-- What holds in every state of a run that hears of known modules only. -/
structure Adoptions (A : Site) (s : State) : Prop where
  workers : Once A s
  found   : ∀ reserved pinned ports found seen,
    s.call = some (.survey reserved pinned ports found seen) →
      ∀ r ∈ found, ∀ k, A.probeIdentity r = some k → Known A s k

/-- What a survey reports after an answer is known. -/
theorem known_heard {reserved : List DeviceConfig} {pinned rest : List String} {port : String}
    {found : List ProbeResult} {seen : List Identity} {answer : Option Answer}
    (hcall : s.call = some (.survey reserved pinned (port :: rest) found seen))
    (hfound : ∀ r ∈ found, ∀ k, A.probeIdentity r = some k → Known A s k)
    (hg : HearsKnown A s (.probe answer)) :
    ∀ r ∈ (A.heard reserved port found seen answer).1, ∀ k, A.probeIdentity r = some k →
      Known A s k := by
  cases answer with
  | none => exact hfound
  | some a =>
    show ∀ r ∈ (A.report reserved { a with port } found seen).1, ∀ k, A.probeIdentity r = some k →
      Known A s k
    unfold Site.report
    split
    · exact hfound
    · rename_i hmatch
      have happend : ∀ r ∈ found ++ [({ a with port } : ProbeResult)], ∀ k,
          A.probeIdentity r = some k → Known A s k := by
        intro r hr k hid
        rcases List.mem_append.mp hr with hr | hr
        · exact hfound r hr k hid
        · obtain rfl := List.mem_singleton.mp hr
          have hkey : A.identityKey { a with port } = some k := hid
          simp only [HearsKnown, hearsKnown, hcall, Bool.or_eq_true] at hg
          have hall := hg.resolve_left hmatch
          rw [hkey] at hall
          intro hs
          simpa [hs] using hall
      split
      · exact happend
      · split
        · exact hfound
        · exact happend

/-- A survey keeps the adoptions apart. -/
theorem Adoptions.scans {reserved : List DeviceConfig} {pinned rest : List String}
    {found : List ProbeResult} {seen : List Identity} (hw : Once A s)
    (hfound : ∀ r ∈ found, ∀ k, A.probeIdentity r = some k → Known A s k)
    (h : Scans A s reserved pinned rest found seen t) : Adoptions A t := by
  cases h with
  | goes port ports hsuffix hclaimed hpinned =>
    refine ⟨⟨hw.once, hw.configs, hw.adopted⟩, fun r p ports' f sn hc => ?_⟩
    cases hc
    exact hfound
  | ends =>
    have hcall : ({ s with call := none }.adoptAll A found []).call = none :=
      (adoptAll_frame A { s with call := none } found []).2.2.1
    have hw' : Once A { s with call := none } := ⟨hw.once, hw.configs, hw.adopted⟩
    exact ⟨hw'.adoptAll fun r hr k hid => .inr (hfound r hr k hid), by rw [hcall]; exact nofun⟩

theorem adoptions_step {a : Action} (h : Adoptions A s) (hg : HearsKnown A s a)
    (hs : step A s a = some t) : Adoptions A t := by
  have hw := h.workers
  cases step_moves hs with
  | stays => exact h
  | waits hblank hidle => exact ⟨⟨hw.once, hw.configs, hw.adopted⟩, h.found⟩
  | surveys ports reserved pinned t hfree hwaiting ht =>
    exact .scans (s := { s with waiting := none }) ⟨hw.once, hw.configs, hw.adopted⟩
      (fun r hr => absurd hr List.not_mem_nil) ht
  | surveyed reserved pinned port rest found seen answer t hcall ht =>
    exact .scans hw (known_heard hcall (h.found _ _ _ _ _ hcall) hg) ht
  | releases => exact ⟨⟨hw.once, hw.configs, hw.adopted⟩, h.found⟩
  | _ => exact ⟨⟨hw.once, hw.configs, hw.adopted⟩, nofun⟩

/-! ## The result -/

/-- An adopted module is spoken for, where the survey hears of a known module. -/
theorem spokenFor (hi : Inv A s) (h : Once A s) {a : Answer} (hg : HearsKnown A s (.probe (some a))) :
    SpokenFor A s a := by
  intro reserved pinned port rest found seen hcall w hw k hwk hkey
  have hworker : w ∈ s.workers := List.mem_of_mem_drop hw
  have hreserved : ∀ w ∈ s.workers, w.config ∈ reserved := by
    intro w hw
    rw [(hi.surveying _ _ _ _ _ hcall).1, ← h.configs]
    exact List.mem_map_of_mem hw
  have hmatch : (reserved.any fun d => A.isModuleOf d { a with port }) = true := by
    cases k with
    | imei x =>
      -- the adopted block has the IMEI
      obtain ⟨name, r, hconfig, hid⟩ := h.adopted w hw
      refine List.any_eq_true.mpr ⟨w.config, hreserved w hworker, ?_⟩
      rw [hconfig]
      exact isModuleOf_adopted (hid.symm.trans hwk) hkey
    | iccid y =>
      -- it has no ICCID, so the module is known only by another block
      by_contra hno
      simp only [HearsKnown, hearsKnown, hcall, Bool.or_eq_true] at hg
      have hall := hg.resolve_left hno
      have hserves : s.serves (.iccid y) = true :=
        List.any_eq_true.mpr ⟨w, hworker, decide_eq_true hwk⟩
      rw [hkey] at hall
      have hblock : s.hasBlock A (.iccid y) = true := by simpa [hserves] using hall
      obtain ⟨w', hw', hid'⟩ := List.any_eq_true.mp hblock
      exact hno (List.any_eq_true.mpr ⟨w'.config, hreserved w' hw',
        isModuleOf_iccid (of_decide_eq_true hid') hkey⟩)
  show (A.report reserved { a with port } found seen).1 = found
  rw [Site.report, if_pos hmatch]

/-- **Every identity gets at most one worker, and every later survey treats an adopted module as
    spoken for**, in every run whose surveys hear of known modules only, from a configuration that
    has no identity twice. -/
theorem adopted_once (hdistinct : ((A.devices.map A.worker).filterMap Worker.identity).Nodup)
    (h : (machine A).ReachableBy (HearsKnown A) s) :
    (s.workers.filterMap Worker.identity).Nodup ∧
      ∀ a, HearsKnown A s (.probe (some a)) → SpokenFor A s a := by
  have hadoptions : Adoptions A s := by
    refine h.invariant (I := Adoptions A) ?_ fun s a t hi hg hs => adoptions_step hi hg hs
    rintro s ⟨kv, rfl⟩
    refine ⟨⟨hdistinct, (inv_start kv).configs, fun w hw => ?_⟩, nofun⟩
    have hnil : (A.start kv).adoptedWorkers A = [] :=
      List.drop_eq_nil_of_le (by show (A.devices.map A.worker).length ≤ _; rw [List.length_map])
    rw [hnil] at hw
    exact absurd hw List.not_mem_nil
  exact ⟨hadoptions.workers.once, fun a hg => spokenFor (inv_reachable h) hadoptions.workers hg⟩

/-- A site without blocks. -/
def noBlocks : Site where
  lower      := fun s => String.ofList (s.toList.map Char.toLower)
  lowerEmpty := lower_empty
  devices    := []
  names      := by decide
  realpath   := fun p => p
  behind     := fun _ => none

/-- A module with an IMEI answers on two ports, and on a third when it comes back: it is adopted
    once. -/
theorem adopted_once_replug : ∃ s, s.names = ["auto-655700"] ∧
    (s.workers.filterMap Worker.identity).Nodup ∧
      SpokenFor noBlocks s ⟨"Air780E", "863304089655700", ""⟩ := by
  have hrun : (((machine noBlocks).runBy (hearsKnown noBlocks) (noBlocks.start ∅)
      [.autodetect, .survey ["/dev/ttyACM0", "/dev/ttyACM1"],
       .probe (some ⟨"Air780E", "863304089655700", ""⟩),
       .probe (some ⟨"Air780E", "863304089655700", "89860000000000000001"⟩),
       .autodetect, .survey ["/dev/ttyACM2"]]).map fun s =>
      (s.names, hearsKnown noBlocks s (.probe (some ⟨"Air780E", "863304089655700", ""⟩)))) =
      some (["auto-655700"], true) := by decide
  obtain ⟨s, hs, hview⟩ := Option.map_eq_some_iff.mp hrun
  obtain ⟨hnodup, hspoken⟩ :=
    adopted_once (A := noBlocks) (by decide) ⟨_, ⟨∅, rfl⟩, Machine.runBy_path hs⟩
  exact ⟨s, (Prod.mk.inj hview).1, hnodup, hspoken _ (Prod.mk.inj hview).2⟩

/-- A module without IMEI is adopted at every survey. -/
theorem adopted_twice : ∃ s, (machine noBlocks).Reachable s ∧
    ¬ (s.workers.filterMap Worker.identity).Nodup := by
  have hrun : (((machine noBlocks).run (noBlocks.start ∅)
      [.autodetect, .survey ["/dev/ttyACM0"], .probe (some ⟨"Air780E", "", "89860000000000000001"⟩),
       .autodetect, .survey ["/dev/ttyACM0"],
       .probe (some ⟨"Air780E", "", "89860000000000000001"⟩)]).map fun s =>
      s.workers.filterMap Worker.identity) =
      some [.iccid "89860000000000000001", .iccid "89860000000000000001"] := by decide
  obtain ⟨s, hs, hids⟩ := Option.map_eq_some_iff.mp hrun
  refine ⟨s, Machine.run_reachable ⟨∅, rfl⟩ hs, ?_⟩
  rw [hids]
  decide

end Air780eHub.Discovery
