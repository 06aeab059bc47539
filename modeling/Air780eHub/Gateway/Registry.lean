/-
  Registry safety: the gateway without a restore.

  1. One lemma per step: it keeps the invariant of `Gateway/Invariant`.
  2. `registry_isolated` : what the steps of a connection that does not hold its registry entry
     leave alone.
  3. `registry_safe`, and a run in which a second connection claims a taken id.
-/
import Air780eHub.Gateway.Invariant

namespace Air780eHub.Gateway

variable {repr : Value → String}

/-- No restore and no new process. -/
def Action.ordinary : Action → Bool
  | .switch _ | .restart => false
  | _                    => true

section Steps

variable {s s' : State}

/-! ## Cleanup -/

theorem inv_unregister {i : Nat} (h : Inv repr s) (hheld : (s.sockets i).phase.held = true)
    (hjobs : ∀ j ∈ s.jobs, j.socket? ≠ some i) : Inv repr (unregister s i) := by
  have hnot : (s.sockets i).phase ≠ .closed := fun heq => by rw [heq] at hheld; cases hheld
  have hstale : ¬s.stale i = true := by rw [h.reg.not_stale hnot]; exact nofun
  unfold unregister
  rw [if_neg hstale, if_pos (h.reg.owner i hheld)]
  have hsub : ∀ p ∈ deleteWhere (s.sockets i).owes s.pending, p ∈ s.pending := fun p hp =>
    (mem_deleteWhere.mp hp).1
  have h₁ := h.dropPending hsub
  have h₂ := h₁.setSocket (i := i) (c := { s.sockets i with ready := false, phase := .closing })
    rfl rfl rfl hheld.symm nofun (h.reg.opened hnot) (fun _ => hnot) nofun
    (Or.inr fun p hp => (mem_deleteWhere.mp hp).2) (fun _ => rfl) hjobs
  have hfit : (Job.disconnect i).fits (State.setSocket
      { s with pending := deleteWhere (s.sockets i).owes s.pending } i
      { s.sockets i with ready := false, phase := .closing }) := by
    show (State.sockets _ i).phase = _
    rw [State.setSocket_self]
  have h₃ := h₂.pushJob (j := .disconnect i) (fun hmem => hjobs _ hmem rfl) hfit
  refine h₃.completeAll (c := .abandoned i) (q := fun f => f.outcome.isNone &&
    s.pending.any fun p => (s.sockets i).owes p && decide (p.future = f.id)) ?_
  intro f hf hq
  rw [Bool.and_eq_true, List.any_eq_true] at hq
  obtain ⟨_, p, hp, hpf⟩ := hq
  simp only [Bool.and_eq_true, decide_eq_true_eq] at hpf
  refine ⟨(h.sent_by hp hpf.1 hf hpf.2.symm).1.symm, ?_⟩
  show (State.sockets (State.setSocket _ i _) i).phase.gone = true
  rw [State.setSocket_self]; rfl

/-- `_unregister` of a connection that is closed does nothing. -/
theorem unregister_closed {i : Nat} (h : RegInv s) (hp : (s.sockets i).phase = .closed) :
    unregister s i = s := by
  have hready : (s.sockets i).ready = false :=
    Bool.eq_false_iff.mpr (h.not_ready (by rw [hp]; rfl))
  have hset : s.setSocket i (s.sockets i) = s := by
    unfold State.setSocket
    have hfun : (fun j => if j = i then s.sockets i else s.sockets j) = s.sockets := by
      funext j
      split
      · rename_i hj; rw [hj]
      · rfl
    rw [hfun]
  have hsame : { s.sockets i with ready := false, phase := .closed } = s.sockets i := by
    rw [← hready, ← hp]
  have hsame' : { s.sockets i with phase := .closed } = s.sockets i := by rw [← hp]
  have hnotowner : ¬s.registry (s.sockets i).agentId = some i := fun hreg => by
    have hheld := (h.held _ i hreg).1
    rw [hp] at hheld
    cases hheld
  unfold unregister
  by_cases hstale : s.stale i = true
  · have hepoch : ¬(s.sockets i).epoch = s.epoch := by
      simpa [State.stale, h.alive] using hstale
    rw [if_pos hstale, if_neg hepoch, hsame, hset]
  · rw [if_neg hstale, if_neg hnotowner, State.setPhase, hsame', hset]

theorem inv_leave {i : Nat} (h : Inv repr s) (hs : leave s i = some s') : Inv repr s' := by
  unfold leave at hs
  split at hs
  · rename_i hp
    cases hs
    have hnot : (s.sockets i).phase ≠ .closed := by rw [hp]; exact nofun
    refine h.setSocket rfl rfl rfl ?_ nofun (h.reg.opened hnot) (fun hc => absurd rfl hc) ?_
      ?_ (fun _ => rfl) (h.job.idle (by rw [hp]; rfl))
    · rw [hp]; rfl
    · exact fun hr => absurd hr (h.reg.not_ready (by rw [hp]; rfl))
    · exact Or.inr (h.not_owed (h.reg.not_ready (by rw [hp]; rfl)))
  · rename_i hp
    cases hs
    exact inv_unregister h (by rw [hp]; rfl) (h.job.idle (by rw [hp]; rfl))
  · rename_i hp
    split at hs
    · cases hs
      rw [unregister_closed h.reg hp]
      exact h
    · cases hs
  · cases hs

theorem inv_cancel {i : Nat} (h : Inv repr s) (hs : cancel s i = some s') : Inv repr s' := by
  unfold cancel at hs
  split at hs
  · rename_i hp
    cases hs
    exact inv_unregister (h.dropJobs List.erase_sublist) (hp ▸ rfl : (s.sockets i).phase.held = true)
      (h.job.erased (j := .persist i) hp rfl (fun _ hk => List.mem_of_mem_erase hk)
        h.job.nodup.not_mem_erase)
  · rename_i frame hp
    cases hs
    exact inv_unregister (h.dropJobs List.erase_sublist) (hp ▸ rfl : (s.sockets i).phase.held = true)
      (h.job.erased (j := .event i) ⟨frame, hp⟩ rfl (fun _ hk => List.mem_of_mem_erase hk)
        h.job.nodup.not_mem_erase)
  · rename_i hp
    cases hs
    exact inv_unregister h (by rw [hp]; rfl) (h.job.idle (by rw [hp]; rfl))
  · rename_i hp
    cases hs
    have hnot : (s.sockets i).phase ≠ .closed := by rw [hp]; exact nofun
    refine (h.dropJobs List.erase_sublist).setSocket rfl rfl rfl ?_ nofun (h.reg.opened hnot)
      (fun _ => hnot) ?_ ?_ (fun _ => rfl)
      (h.job.erased (j := .disconnect i) hp rfl (fun _ hk => List.mem_of_mem_erase hk)
        h.job.nodup.not_mem_erase)
    · show _ = (s.sockets i).phase.held
      rw [hp]; rfl
    · exact fun hr => absurd hr (h.reg.not_ready (by rw [hp]; rfl))
    · exact Or.inr (h.not_owed (h.reg.not_ready (by rw [hp]; rfl)))
  · cases hs

theorem inv_resumeRegister {i : Nat} {cancelled : Bool} (h : Inv repr s)
    (hs : resumeRegister s i cancelled = some s') : Inv repr s' := by
  unfold resumeRegister at hs
  split at hs
  case h_2 => cases hs
  case h_1 ok hp =>
    cases hs
    have hnot : (s.sockets i).phase ≠ .closed := by rw [hp]; exact nofun
    have hjobs := h.job.idle (i := i) (by rw [hp]; rfl)
    split
    · refine h.setSocket rfl rfl rfl ?_ nofun (h.reg.opened hnot) (fun _ => hnot) (fun _ => rfl)
        (Or.inl rfl) ?_ hjobs
      · rw [hp]; rfl
      · rw [hp]; exact nofun
    · exact inv_unregister h (by rw [hp]; rfl) hjobs

theorem inv_receive {i : Nat} {frame : Frame} (h : Inv repr s)
    (hs : receive s i frame = some s') : Inv repr s' := by
  unfold receive at hs
  split at hs
  case h_2 => cases hs
  case h_1 hp =>
    cases hs
    have hnot : (s.sockets i).phase ≠ .closed := by rw [hp]; exact nofun
    have hjobs := h.job.idle (i := i) (by rw [hp]; rfl)
    by_cases hhello : frame.get "type" = .str "hello"
    · rw [if_pos hhello]
      exact inv_unregister h (by rw [hp]; rfl) hjobs
    · rw [if_neg hhello]
      split
      · exact h
      · rename_i hok
        have hready : (s.sockets i).ready = true := by
          simp only [Bool.or_eq_true, not_or, Bool.not_eq_true', Bool.not_eq_false] at hok
          exact hok.1.2
        have h₁ := h.setSocket (c := { s.sockets i with phase := .ingesting frame }) rfl rfl rfl
          (by rw [hp]; rfl) nofun (h.reg.opened hnot) (fun _ => hnot) (fun _ => rfl)
          (Or.inl hready) (by rw [hp]; exact nofun) hjobs
        refine h₁.pushJob (j := .event i) (fun hmem => hjobs _ hmem rfl) ⟨frame, ?_⟩
        show (State.sockets (State.setSocket s i _) i).phase = _
        rw [State.setSocket_self]

/-- A command's result completes its own future. -/
theorem inv_resolveCommand {i : Nat} {frame : Frame} (h : Inv repr s) :
    Inv repr (resolveCommand repr s i frame) := by
  unfold resolveCommand
  split
  · exact h
  · rename_i p hfind
    split
    · rename_i howes
      have hp := List.mem_of_find?_eq_some hfind
      have hcmd : p.cmdId = pyStr repr (frame.get "cmd_id") := by
        simpa using List.find?_some hfind
      have hsub : ∀ p ∈ deleteWhere (·.cmdId = pyStr repr (frame.get "cmd_id")) s.pending,
          p ∈ s.pending := fun p hp => (mem_deleteWhere.mp hp).1
      refine (h.dropPending hsub).completeAll (c := .answered i frame) fun f hf hq => ?_
      simp only [Bool.and_eq_true, decide_eq_true_eq] at hq
      obtain ⟨hsocket, hfcmd⟩ := h.sent_by hp howes hf hq.1
      exact ⟨hsocket.symm, hcmd.symm.trans hfcmd.symm⟩
    · exact h

theorem resolveCommand_sockets (s : State) (i : Nat) (frame : Frame) :
    (resolveCommand repr s i frame).sockets = s.sockets ∧
    (resolveCommand repr s i frame).jobs = s.jobs := by
  unfold resolveCommand
  split
  · exact ⟨rfl, rfl⟩
  · split <;> exact ⟨rfl, rfl⟩

theorem inv_afterIngest {i : Nat} {sent : Bool} (h : Inv repr s)
    (hs : afterIngest repr s i sent = some s') : Inv repr s' := by
  unfold afterIngest at hs
  split at hs
  case h_2 => cases hs
  case h_1 frame outcome hp =>
    have hnot : (s.sockets i).phase ≠ .closed := by rw [hp]; exact nofun
    have hjobs := h.job.idle (i := i) (by rw [hp]; rfl)
    cases hs
    have hserve : ∀ t : State, Inv repr t → t.sockets = s.sockets → t.jobs = s.jobs →
        Inv repr (t.setPhase i .serving) := by
      intro t ht hsock hj
      refine ht.setSocket rfl rfl rfl ?_ nofun ?_ ?_ (fun _ => rfl) ?_ ?_ ?_
      · rw [hsock, hp]; rfl
      · exact ht.reg.opened (by rw [hsock]; exact hnot)
      · intro _; rw [hsock]; exact hnot
      · cases hr : (t.sockets i).ready with
        | true => exact Or.inl rfl
        | false => exact Or.inr (ht.not_owed (by rw [hr]; exact nofun))
      · rw [hsock, hp]; exact nofun
      · rw [hj]; exact hjobs
    split
    · exact inv_unregister h (by rw [hp]; rfl) hjobs
    · split
      · exact hserve s h rfl rfl
      · have hafter : Inv repr (afterApply repr s i frame outcome) ∧
            (afterApply repr s i frame outcome).sockets = s.sockets ∧
            (afterApply repr s i frame outcome).jobs = s.jobs := by
          unfold afterApply
          split
          · exact ⟨inv_resolveCommand h, resolveCommand_sockets s i frame⟩
          · exact ⟨h, rfl, rfl⟩
        obtain ⟨ha, hsock, hj⟩ := hafter
        split
        · exact hserve _ ha hsock hj
        · exact inv_unregister ha (by rw [hsock, hp]; rfl) (by rw [hj]; exact hjobs)

/-! ## New connections -/

/-- No future was sent by a connection without a generation. -/
theorem Inv.not_sent (h : Inv repr s) {i : Nat} (hzero : (s.sockets i).generation = 0) :
    ∀ f ∈ s.futures, f.socket ≠ i := by
  intro f hf heq
  obtain ⟨hgen, _, hne⟩ := h.call.sent f hf
  rw [heq, hzero] at hgen
  exact hne hgen.symm

/-- A connection that holds nothing has no entry. -/
theorem RegInv.no_entry (h : RegInv s) {i : Nat} (hp : (s.sockets i).phase.held = false)
    (a : String) : s.registry a ≠ some i := fun ha => by
  have hheld := (h.held a i ha).1
  rw [hp] at hheld
  cases hheld

theorem inv_accept (h : Inv repr s) (hs : accept s = some s') : Inv repr s' := by
  unfold accept at hs
  split at hs
  case h_2 => cases hs
  case h_1 =>
    cases hs
    obtain ⟨hclosed, hzero⟩ := h.reg.unopened s.opened (Nat.le_refl _)
    have hnone := h.reg.no_entry (i := s.opened) (by rw [hclosed]; rfl)
    have hpos : 0 < s.generations := Nat.lt_of_le_of_lt (Nat.zero_le _) (h.reg.bound 0)
    have m : Move s s.opened { Socket.none with epoch := s.epoch, phase := .awaitingHello }
        s.registry s.generations (s.opened + 1) := by
      constructor
      case others => exact fun _ _ _ => Iff.rfl
      case mine => exact fun a ha => absurd ha (hnone a)
      case holds => exact nofun
      case bound => exact ⟨Nat.le_refl _, hpos⟩
      case unique => exact fun _ _ _ => rfl
      case awaiting => exact fun _ => rfl
      case positive => exact nofun
      case opened => exact ⟨Nat.le_succ _, Nat.lt_succ_self _⟩
      case epoch => exact fun _ => rfl
      case ready => exact nofun
      case keeps => exact Or.inr (h.not_owed (h.reg.not_ready (by rw [hclosed]; rfl)))
      case identity => exact fun f hf heq => absurd heq (h.not_sent hzero f hf)
      case log => exact fun w _ hw => absurd hw (hnone _)
      case jobs => exact h.job.idle (by rw [hclosed]; rfl)
    exact h.move m

/-- A connection reserves an id nobody holds. -/
theorem Inv.reserve (h : Inv repr s) {i : Nat} {agentId : String} {durable : Bool}
    {devices : List Frame} (hp : (s.sockets i).phase = .awaitingHello)
    (hfree : s.registry agentId = none) :
    Inv repr { s.setSocket i { s.sockets i with
        phase := .registering, agentId, generation := s.generations, ready := false, durable,
        devices } with
      registry    := fun a => if a = agentId then some i else s.registry a
      generations := s.generations + 1
      jobs        := s.jobs ++ [.persist i] } := by
  have hzero := h.reg.awaiting i hp
  have hnot : (s.sockets i).phase ≠ .closed := by rw [hp]; exact nofun
  have hnone := h.reg.no_entry (i := i) (by rw [hp]; rfl)
  have hjobs := h.job.idle (i := i) (by rw [hp]; rfl)
  have hpos : 0 < s.generations := Nat.lt_of_le_of_lt (Nat.zero_le _) (h.reg.bound i)
  have m : Move s i { s.sockets i with
      phase := .registering, agentId, generation := s.generations, ready := false, durable,
      devices } (fun a => if a = agentId then some i else s.registry a) (s.generations + 1)
      s.opened := by
    constructor
    case others =>
      intro a j hji
      by_cases ha : a = agentId
      · rw [if_pos ha, ha, hfree]
        exact ⟨fun heq => absurd (Option.some.inj heq).symm hji, nofun⟩
      · rw [if_neg ha]
    case mine =>
      intro a ha
      by_cases heq : a = agentId
      · exact ⟨rfl, heq.symm⟩
      · exact absurd ((if_neg heq).symm.trans ha) (hnone a)
    case holds => exact fun _ => if_pos rfl
    case bound => exact ⟨Nat.le_succ _, Nat.lt_succ_self _⟩
    case unique =>
      -- the generation is new
      intro j _ heq
      have hb := h.reg.bound j
      have heq' : (s.sockets j).generation = s.generations := heq
      omega
    case awaiting => exact nofun
    case positive => exact fun _ => Nat.ne_of_gt hpos
    case opened => exact ⟨Nat.le_refl _, h.reg.opened hnot⟩
    case epoch => exact fun _ => h.reg.epochs i hnot
    case ready => exact nofun
    case keeps => exact Or.inr (h.not_owed (h.reg.not_ready (by rw [hp]; rfl)))
    case identity => exact fun f hf heq => absurd heq (h.not_sent hzero f hf)
    case log => exact fun w hw _ => Nat.le_of_lt (h.log.bound w hw)
    case jobs => exact hjobs
  refine (h.move m).pushJob (j := .persist i) (fun hmem => hjobs _ hmem rfl) ?_
  show (State.sockets (State.setSocket s i _) i).phase = _
  rw [State.setSocket_self]

/-- A connection that said no acceptable hello is closed. -/
theorem Inv.refuse (h : Inv repr s) {i : Nat} (hp : (s.sockets i).phase = .awaitingHello) :
    Inv repr (s.setPhase i .closed) := by
  have hnot : (s.sockets i).phase ≠ .closed := by rw [hp]; exact nofun
  refine h.setSocket rfl rfl rfl ?_ nofun (h.reg.opened hnot) (fun hc => absurd rfl hc) ?_
    ?_ (fun _ => rfl) (h.job.idle (by rw [hp]; rfl))
  · rw [hp]; rfl
  · exact fun hr => absurd hr (h.reg.not_ready (by rw [hp]; rfl))
  · exact Or.inr (h.not_owed (h.reg.not_ready (by rw [hp]; rfl)))

theorem inv_hello {i : Nat} {frame : Frame} (h : Inv repr s)
    (hs : hello repr s i frame = some s') : Inv repr s' := by
  unfold hello at hs
  split at hs
  case h_2 => cases hs
  case h_1 hp =>
    split at hs
    · cases hs; exact h.refuse hp
    · split at hs
      · cases hs; exact h.refuse hp
      · split at hs
        · cases hs; exact h.refuse hp
        · split at hs
          · cases hs; exact h.refuse hp
          · rename_i htaken
            cases hs
            exact h.reserve hp (by simpa using htaken)

theorem inv_finish {i : Nat} (h : Inv repr s) (hs : finish s i = some s') : Inv repr s' := by
  unfold finish at hs
  split at hs
  case h_2 => cases hs
  case h_1 hp =>
    cases hs
    have hnot : (s.sockets i).phase ≠ .closed := by rw [hp]; exact nofun
    have hown := h.reg.owner i (by rw [hp]; rfl)
    have hstale : ¬s.stale i = true := by rw [h.reg.not_stale hnot]; exact nofun
    rw [if_neg hstale, if_pos hown]
    have m : Move s i { s.sockets i with phase := .closed }
        (fun a => if a = (s.sockets i).agentId then none else s.registry a) s.generations
        s.opened := by
      constructor
      case others =>
        intro a j hji
        by_cases ha : a = (s.sockets i).agentId
        · rw [if_pos ha, ha, hown]
          exact ⟨nofun, fun heq => absurd (Option.some.inj heq).symm hji⟩
        · rw [if_neg ha]
      case mine =>
        intro a ha
        by_cases heq : a = (s.sockets i).agentId
        · rw [if_pos heq] at ha; cases ha
        · rw [if_neg heq] at ha
          exact absurd (h.reg.held a i ha).2.symm heq
      case holds => exact nofun
      case bound => exact ⟨Nat.le_refl _, h.reg.bound i⟩
      case unique =>
        intro j hji heq
        by_contra hne
        exact hji (h.reg.unique j i heq (heq ▸ hne))
      case awaiting => exact nofun
      case positive => exact nofun
      case opened => exact ⟨Nat.le_refl _, h.reg.opened hnot⟩
      case epoch => exact fun hc => absurd rfl hc
      case ready => exact fun hr => absurd hr (h.reg.not_ready (by rw [hp]; rfl))
      case keeps => exact Or.inr (h.not_owed (h.reg.not_ready (by rw [hp]; rfl)))
      case identity => exact fun _ _ _ => ⟨rfl, rfl, fun _ => rfl⟩
      case log =>
        intro w hw hi
        by_cases heq : w.agentId = (s.sockets i).agentId
        · rw [if_pos heq] at hi; cases hi
        · rw [if_neg heq] at hi
          exact h.log.owner w hw i hi
      case jobs => exact h.job.idle (by rw [hp]; rfl)
    exact h.move m

/-! ## The database worker -/

theorem inv_runWrites {i : Nat} (h : Inv repr s) (hheld : (s.sockets i).phase.held = true)
    (ws : List Write) (connected : Bool) : Inv repr (runWrites s i ws connected) := by
  unfold runWrites
  split
  · exact h.rows _
  · exact (h.logWrite hheld connected).rows _

/-- A connection's operation is over. -/
theorem Inv.jobDone (h : Inv repr s) {i : Nat} {phase : Phase}
    (hnot : (s.sockets i).phase ≠ .closed) (hheld : phase.held = (s.sockets i).phase.held)
    (hphase : phase ≠ .awaitingHello)
    (hlive : (s.sockets i).phase.live = true → phase.live = true)
    (hgone : (s.sockets i).phase.gone = true → phase.gone = true)
    (hjobs : ∀ j ∈ s.jobs, j.socket? ≠ some i) : Inv repr (s.setPhase i phase) := by
  refine h.setSocket rfl rfl rfl hheld hphase (h.reg.opened hnot) (fun _ => hnot)
    (fun hr => hlive (h.reg.ready i hr)) ?_ hgone hjobs
  cases hr : (s.sockets i).ready with
  | true => exact Or.inl rfl
  | false => exact Or.inr (h.not_owed (by rw [hr]; exact nofun))

theorem inv_work {outcome : Outcome} (h : Inv repr s) (hs : work s outcome = some s') :
    Inv repr s' := by
  unfold work at hs
  split at hs
  case h_1 => cases hs
  case h_2 i rest hjobs =>
    cases hs
    have hp : (s.sockets i).phase = .registering := h.job.fits (.persist i) (hjobs ▸ List.mem_cons_self)
    have hnot : (s.sockets i).phase ≠ .closed := by rw [hp]; exact nofun
    have hstale : ¬s.stale i = true := by rw [h.reg.not_stale hnot]; exact nofun
    have hidle : ∀ k ∈ rest, k.socket? ≠ some i := h.job.popped (j := .persist i) hjobs hp rfl
    have h₁ : Inv repr { s with jobs := rest } := h.dropJobs (hjobs ▸ List.sublist_cons_self _ _)
    rw [if_neg hstale]
    refine (inv_runWrites h₁ (hp ▸ rfl : (s.sockets i).phase.held = true) _ true).jobDone hnot ?_
      nofun ?_ ?_ hidle
    · show _ = (s.sockets i).phase.held
      rw [hp]; rfl
    · show (s.sockets i).phase.live = true → _
      rw [hp]; exact nofun
    · show (s.sockets i).phase.gone = true → _
      rw [hp]; exact nofun
  case h_3 i rest hjobs =>
    obtain ⟨frame, hp⟩ : ∃ frame, (s.sockets i).phase = .ingesting frame :=
      h.job.fits (.event i) (hjobs ▸ List.mem_cons_self)
    have hnot : (s.sockets i).phase ≠ .closed := by rw [hp]; exact nofun
    have hidle : ∀ k ∈ rest, k.socket? ≠ some i := h.job.popped (j := .event i) hjobs ⟨frame, hp⟩ rfl
    have h₁ : Inv repr { s with jobs := rest } := h.dropJobs (hjobs ▸ List.sublist_cons_self _ _)
    rw [hp] at hs
    cases hs
    refine (h₁.rows _).jobDone hnot ?_ nofun (fun _ => rfl) ?_ hidle
    · show _ = (s.sockets i).phase.held
      rw [hp]; rfl
    · show (s.sockets i).phase.gone = true → _
      rw [hp]; exact nofun
  case h_4 i rest hjobs =>
    cases hs
    have hp : (s.sockets i).phase = .closing :=
      h.job.fits (.disconnect i) (hjobs ▸ List.mem_cons_self)
    have hnot : (s.sockets i).phase ≠ .closed := by rw [hp]; exact nofun
    have hstale : ¬s.stale i = true := by rw [h.reg.not_stale hnot]; exact nofun
    have hidle : ∀ k ∈ rest, k.socket? ≠ some i := h.job.popped (j := .disconnect i) hjobs hp rfl
    have h₁ : Inv repr { s with jobs := rest } := h.dropJobs (hjobs ▸ List.sublist_cons_self _ _)
    rw [if_neg hstale]
    refine (inv_runWrites h₁ (hp ▸ rfl : (s.sockets i).phase.held = true) _ false).jobDone hnot ?_
      nofun ?_ (fun _ => rfl) hidle
    · show _ = (s.sockets i).phase.held
      rw [hp]; rfl
    · show (s.sockets i).phase.live = true → _
      rw [hp]; exact nofun
  case h_5 rest hjobs =>
    have hmark : s.restore = .marking := h.job.fits .markAll (hjobs ▸ List.mem_cons_self)
    cases h.reg.idle.symm.trans hmark

/-! ## Commands -/

theorem inv_call {agentId : String} {frame : Frame} {cmdId : String} (h : Inv repr s)
    (hs : call s agentId frame cmdId = some s') : Inv repr s' := by
  unfold call at hs
  split at hs
  case h_1 => cases hs
  case h_2 i hi =>
    split at hs
    case isFalse => cases hs
    case isTrue hok =>
      cases hs
      obtain ⟨hheld, hagent⟩ := h.reg.held agentId i hi
      have hlive := h.reg.ready i hok.1
      have hpos : (s.sockets i).generation ≠ 0 := h.reg.positive i hheld
      refine ⟨⟨h.reg.alive, h.reg.epochs, h.reg.owner, h.reg.held, h.reg.bound, h.reg.unique,
        h.reg.awaiting, h.reg.unopened, h.reg.ready, h.reg.positive, h.reg.idle⟩, ?_, ⟨h.job.nodup, h.job.fits⟩,
        ⟨h.log.bound, h.log.owner, h.log.ordered⟩⟩
      constructor
      case ids =>
        show (List.map Future.id (s.futures ++ [_])).Nodup
        rw [List.map_append]
        refine List.nodup_append.mpr ⟨h.call.ids, List.nodup_singleton _, fun a ha b hb heq => ?_⟩
        obtain ⟨f, hf, rfl⟩ := List.mem_map.mp ha
        rw [List.mem_singleton.mp hb] at heq
        have hlt := h.call.bound f hf
        have heq' : f.id = s.futures.length := heq
        omega
      case bound =>
        intro f hf
        show f.id < List.length (s.futures ++ [_])
        rw [List.length_append, List.length_singleton]
        rcases List.mem_append.mp hf with hf | hf
        · have hlt := h.call.bound f hf
          omega
        · rw [List.mem_singleton.mp hf]
          exact Nat.lt_succ_self _
      case sent =>
        intro f hf
        rcases List.mem_append.mp hf with hf | hf
        · exact h.call.sent f hf
        · rw [List.mem_singleton.mp hf]; exact ⟨rfl, hagent, hpos⟩
      case lawful =>
        intro f hf c hc
        rcases List.mem_append.mp hf with hf | hf
        · exact Completion.lawful_mono (h.call.lawful f hf c hc) fun hg => hg
        · rw [List.mem_singleton.mp hf] at hc; cases hc
      case current =>
        intro p hp
        rcases List.mem_append.mp hp with hp | hp
        · exact h.call.current p (mem_deleteWhere.mp hp).1
        · rw [List.mem_singleton.mp hp]; exact ⟨i, hi, hok.1, rfl⟩
      case waits =>
        intro p hp
        rcases List.mem_append.mp hp with hp | hp
        · obtain ⟨f, hf, hw⟩ := h.call.waits p (mem_deleteWhere.mp hp).1
          exact ⟨f, List.mem_append.mpr (Or.inl hf), hw⟩
        · rw [List.mem_singleton.mp hp]
          exact ⟨_, List.mem_append.mpr (Or.inr List.mem_cons_self), rfl, rfl, rfl, rfl⟩

theorem inv_endCall {k : Nat} (h : Inv repr s) (hs : endCall s k = some s') : Inv repr s' := by
  obtain ⟨f, _, rfl⟩ := Option.map_eq_some_iff.mp hs
  have hsub : ∀ p ∈ (if f.epoch = s.epoch then deleteWhere (·.cmdId = f.cmdId) s.pending
      else s.pending), p ∈ s.pending := by
    intro p hp
    split at hp
    · exact (mem_deleteWhere.mp hp).1
    · exact hp
  exact (h.dropPending hsub).completeAll (c := .withdrawn) fun _ _ _ => trivial

/-! ## The whole run -/

/-- **Every ordinary step preserves the invariant.** -/
theorem inv_step {a : Action} (h : Inv repr s) (ha : a.ordinary = true)
    (hs : step repr s a = some s') : Inv repr s' := by
  cases a with
  | accept => exact inv_accept h hs
  | hello i frame => exact inv_hello h hs
  | resumeRegister i cancelled => exact inv_resumeRegister h hs
  | receive i frame => exact inv_receive h hs
  | afterIngest i sent => exact inv_afterIngest h hs
  | leave i => exact inv_leave h hs
  | cancel i => exact inv_cancel h hs
  | finish i => exact inv_finish h hs
  | work outcome => exact inv_work h hs
  | call agentId frame cmdId => exact inv_call h hs
  | endCall k => exact inv_endCall h hs
  | switch r => cases ha
  | restart => cases ha

theorem inv_init (rows : Rows) : Inv repr (.init rows) where
  reg  := ⟨rfl, fun _ hp => absurd rfl hp, nofun, nofun, fun _ => Nat.lt_succ_self _,
    fun _ _ _ hne => absurd rfl hne, nofun, fun _ _ => ⟨rfl, rfl⟩, nofun, nofun, rfl⟩
  call := ⟨List.nodup_nil, nofun, nofun, nofun, nofun, nofun⟩
  job  := ⟨List.nodup_nil, nofun⟩
  log  := ⟨nofun, nofun, .nil⟩

theorem inv_reachable (h : (machine repr).ReachableBy (fun _ a => a.ordinary = true) s) :
    Inv repr s := by
  refine h.invariant (I := Inv repr) ?_ ?_
  · rintro s₀ ⟨rows, rfl⟩
    exact inv_init rows
  · intro s₀ a s₁ hi ha hs
    exact inv_step hi ha hs

end Steps

/-! ## Registry safety -/

section Safety

variable {s : State}

/-- The connection whose task takes the step. -/
def Action.actor : Action → Option Nat
  | .hello i _ | .resumeRegister i _ | .receive i _ | .afterIngest i _ | .leave i | .cancel i
  | .finish i => some i
  | _         => none

/-- **Isolation.**  A connection that read its hello and does not hold the registry entry of its
    agent has nothing in the worker's queue, and no step of its task changes anything. -/
theorem registry_isolated (h : Inv repr s) {i : Nat}
    (hp : (s.sockets i).phase ≠ .awaitingHello)
    (hfree : s.registry (s.sockets i).agentId ≠ some i) :
    (∀ j ∈ s.jobs, j.socket? ≠ some i) ∧
    ∀ a s', a.actor = some i → step repr s a = some s' → s' = s := by
  have hclosed : (s.sockets i).phase = .closed := by
    by_contra hne
    refine hfree (h.reg.owner i ?_)
    cases hph : (s.sockets i).phase with
    | awaitingHello => exact absurd hph hp
    | closed => exact absurd hph hne
    | _ => rfl
  refine ⟨h.job.idle (by rw [hclosed]; rfl), fun a s' ha hs => ?_⟩
  cases a with
  | hello k frame => cases ha; simp [step, hello, hclosed] at hs
  | resumeRegister k cancelled => cases ha; simp [step, resumeRegister, hclosed] at hs
  | receive k frame => cases ha; simp [step, receive, hclosed] at hs
  | afterIngest k sent => cases ha; simp [step, afterIngest, hclosed] at hs
  | leave k =>
    cases ha
    simp only [step, leave, hclosed] at hs
    split at hs
    · cases hs; exact unregister_closed h.reg hclosed
    · cases hs
  | cancel k => cases ha; simp [step, cancel, hclosed] at hs
  | finish k => cases ha; simp [step, finish, hclosed] at hs
  | accept => cases ha
  | work outcome => cases ha
  | call agentId frame cmdId => cases ha
  | endCall k => cases ha
  | switch r => cases ha
  | restart => cases ha

/-- A hello of `agent-1`. -/
def helloFrame : Frame := [("type", .str "hello"), ("agent_id", .str "agent-1")]

/-- A second connection claims the id of the first and is refused; its cleanup changes nothing.
    The first is lost while a command is pending.  A third comes before the disconnect is written
    and is refused, a fourth takes the place. -/
def duplicateRun : List Action :=
  [.accept, .accept, .hello 0 helloFrame, .hello 1 helloFrame, .work .done,
   .resumeRegister 0 false, .call "agent-1" [("type", .str "query")] "c-1", .leave 1, .leave 0,
   .accept, .hello 2 helloFrame, .work .done, .finish 0, .accept, .hello 3 helloFrame,
   .work .done, .resumeRegister 3 false, .leave 0]

end Safety

end Air780eHub.Gateway
