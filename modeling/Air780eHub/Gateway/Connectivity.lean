/-
  Connectivity rows against live sockets, with process restarts and online restores.

  `Agrees` : outside a restore, an agent that is shown as connected or has a device online holds a
  registry entry of the current gateway.

  A restore retires the registry first and writes the rows later, in
  `mark_all_agents_disconnected`.  An attempt that ends between the two leaves the rows up with
  nobody to lower them, since the cleanup of a retired connection writes nothing
  (`abort_agrees_iff`).  Every other way through the machine keeps the rows in step:

  1. `Live` : the registry of the current gateway and its connections.
  2. `RowsInv` : for each point of a restore, who may be up and what the worker's queue may hold.
     Nothing is handed to the worker once the registry is retired, so behind
     `mark_all_agents_disconnected` no event can raise a flag again.
  3. One lemma per step, `connectivity_agrees`, and the run that breaks the rule.
-/
import Air780eHub.Gateway.Registry

namespace Air780eHub.Gateway

variable {repr : Value → String} {s s' : State}

/-! ## The property and the condition -/

/-- Outside a restore, an agent that is up has a connection that is registered, or whose
    registration or cleanup is in progress. -/
def Agrees (s : State) : Prop :=
  s.restore = .idle → ∀ a, s.rows.up a = true →
    ∃ i, s.registry a = some i ∧ (s.sockets i).epoch = s.epoch ∧
      (s.sockets i).agentId = a ∧ (s.sockets i).phase.held = true

/-- The frame reports a device online. -/
def raises (frame : Frame) : Bool :=
  decide (frame.get "type" = .str "status") && frame.has "online" && (frame.get "online").truthy

/-- No row is up, and no event that would raise one is in the worker's queue. -/
def Settled (s : State) : Prop :=
  (∀ a, s.rows.up a = false) ∧
  ∀ i frame, Job.event i ∈ s.jobs → (s.sockets i).phase = .ingesting frame → raises frame = false

/-- The steps of hello, disconnect, process restart and restore: no task is cancelled, and a
    disconnect that is written is written whole. -/
def Listed (s : State) : Action → Prop
  | .cancel _     => False
  | .work outcome => ∀ i rest, s.jobs = .disconnect i :: rest → outcome = .done
  | _             => True

/-- **The condition.**  A restore attempt that ends before `mark_all_agents_disconnected` ends with
    nobody up. -/
def Orderly (s : State) (a : Action) : Prop :=
  Listed s a ∧ (a = .switch .abort → Settled s)

/-! ## The invariant -/

/-- The registry of the current gateway and its connections. -/
structure Live (s : State) : Prop where
  owner    : ∀ i, s.stale i = false → (s.sockets i).phase.held = true →
    s.registry (s.sockets i).agentId = some i
  held     : ∀ a i, s.registry a = some i →
    s.stale i = false ∧ (s.sockets i).phase.held = true ∧ (s.sockets i).agentId = a
  epochs   : ∀ i, (s.sockets i).epoch ≤ s.epoch
  unopened : ∀ i, s.opened ≤ i → (s.sockets i).phase = .closed
  retired  : s.retired = false ↔ s.restore = .idle

/-- Nobody is up. -/
def Down (rows : Rows) : Prop := ∀ a, rows.up a = false

/-- No event is in the queue. -/
def NoEvents (jobs : List Job) : Prop := ∀ i, Job.event i ∉ jobs

/-- Who may be up and what may be queued, at each point of a restore. -/
def RowsInv (s : State) : Prop :=
  match s.restore with
  | .idle => (∀ a, s.rows.up a = true →
        ∃ i, s.registry a = some i ∧ (s.sockets i).phase ≠ .disconnected) ∧
      ∀ i frame, Job.event i ∈ s.jobs → (s.sockets i).phase = .ingesting frame →
        raises frame = true → s.stale i = false
  | .draining | .manual => True
  | .marking            => ∃ pre post, s.jobs = pre ++ .markAll :: post ∧ NoEvents post
  | .marked             => Down s.rows ∧ NoEvents s.jobs
  | .replaced snapshot  => Down snapshot ∧ NoEvents s.jobs
  | .reset snapshot     => Down s.rows ∧ Down snapshot ∧ NoEvents s.jobs

/-- **The invariant.** -/
structure Conn (s : State) : Prop where
  live : Live s
  job  : JobInv s
  rows : RowsInv s

/-- Where `RowsInv` speaks of no restore. -/
theorem RowsInv.of_idle (hr : s.restore = .idle)
    (hup : ∀ a, s.rows.up a = true →
      ∃ i, s.registry a = some i ∧ (s.sockets i).phase ≠ .disconnected)
    (hev : ∀ i frame, Job.event i ∈ s.jobs → (s.sockets i).phase = .ingesting frame →
      raises frame = true → s.stale i = false) : RowsInv s := by
  unfold RowsInv
  rw [hr]
  exact ⟨hup, hev⟩

theorem RowsInv.idle (h : RowsInv s) (hr : s.restore = .idle) :
    (∀ a, s.rows.up a = true →
      ∃ i, s.registry a = some i ∧ (s.sockets i).phase ≠ .disconnected) ∧
    ∀ i frame, Job.event i ∈ s.jobs → (s.sockets i).phase = .ingesting frame →
      raises frame = true → s.stale i = false := by
  unfold RowsInv at h
  rw [hr] at h
  exact h

/-- During a restore only the rows, the queue and the point reached count. -/
theorem RowsInv.of_busy (h : RowsInv s) (hr : s.restore ≠ .idle) (hrestore : s'.restore = s.restore)
    (hrows : s'.rows = s.rows) (hjobs : s'.jobs = s.jobs) : RowsInv s' := by
  unfold RowsInv at h ⊢
  rw [hrestore, hrows, hjobs]
  split
  · rename_i hidle; exact absurd hidle hr
  all_goals first | trivial | (rename_i hp; rw [hp] at h; exact h)

theorem Live.not_retired (h : Live s) {i : Nat} (hst : s.stale i = false) : s.restore = .idle := by
  unfold State.stale at hst
  rw [Bool.or_eq_false_iff] at hst
  exact h.retired.mp hst.2

/-- During a restore every connection is stale. -/
theorem Live.busy (h : Live s) (hr : s.restore ≠ .idle) (i : Nat) : s.stale i = true := by
  cases hst : s.stale i with
  | true => rfl
  | false => exact absurd (h.not_retired hst) hr

theorem Live.opened (h : Live s) {i : Nat} (hp : (s.sockets i).phase ≠ .closed) : i < s.opened :=
  Nat.lt_of_not_le fun hle => hp (h.unopened i hle)

/-- A stale connection has no entry. -/
theorem Live.no_entry (h : Live s) {i : Nat} (hst : s.stale i = true) (a : String) :
    s.registry a ≠ some i := fun ha => by
  rw [(h.held a i ha).1] at hst
  cases hst

/-! ## Moving one connection -/

/-- **The rule for a step that moves one connection** to `c` and leaves the rows alone. -/
theorem Conn.move (h : Conn s) {i : Nat} {c : Socket}
    (hsock : s'.sockets = (s.setSocket i c).sockets) (hepoch : s'.epoch = s.epoch)
    (hret : s'.retired = s.retired) (hrestore : s'.restore = s.restore) (hrows : s'.rows = s.rows)
    (hopen : s.opened ≤ s'.opened ∧ i < s'.opened) (hc : c.epoch ≤ s.epoch)
    (hothers : ∀ a j, j ≠ i → (s'.registry a = some j ↔ s.registry a = some j))
    (hmine : ∀ a, s'.registry a = some i →
      s'.stale i = false ∧ c.phase.held = true ∧ c.agentId = a)
    (hholds : s'.stale i = false → c.phase.held = true → s'.registry c.agentId = some i)
    (hjob : JobInv s') (hjobs : s.restore ≠ .idle → s'.jobs = s.jobs)
    (hevents : ∀ k, Job.event k ∈ s'.jobs → (Job.event k ∈ s.jobs ∧ k ≠ i) ∨ s'.stale k = false)
    (howner : ∀ a, s.registry a = some i → s.rows.up a = true →
      (s.sockets i).phase ≠ .disconnected →
      s'.registry a = some i ∧ c.phase ≠ .disconnected) : Conn s' := by
  have hnew : s'.sockets i = c := by rw [hsock, State.setSocket_self]
  have hold : ∀ j, j ≠ i → s'.sockets j = s.sockets j := fun j hj => by
    rw [hsock, State.setSocket_other s c hj]
  have hstale : ∀ j, j ≠ i → s'.stale j = s.stale j := fun j hj => by
    unfold State.stale
    rw [hold j hj, hepoch, hret]
  refine ⟨⟨?_, ?_, ?_, ?_, ?_⟩, hjob, ?_⟩
  · intro j hst hp
    by_cases hji : j = i
    · rw [hji] at hst hp ⊢
      rw [hnew] at hp ⊢
      exact hholds hst hp
    · rw [hstale j hji] at hst
      rw [hold j hji] at hp ⊢
      exact (hothers _ j hji).mpr (h.live.owner j hst hp)
  · intro a j hj
    by_cases hji : j = i
    · rw [hji] at hj ⊢
      rw [hnew]; exact hmine a hj
    · rw [hold j hji, hstale j hji]
      exact h.live.held a j ((hothers a j hji).mp hj)
  · intro j
    rw [hepoch]
    by_cases hji : j = i
    · rw [hji, hnew]; exact hc
    · rw [hold j hji]; exact h.live.epochs j
  · intro j hj
    have hji : j ≠ i := Nat.ne_of_gt (Nat.lt_of_lt_of_le hopen.2 hj)
    rw [hold j hji]
    exact h.live.unopened j (Nat.le_trans hopen.1 hj)
  · rw [hret, hrestore]; exact h.live.retired
  · by_cases hidle : s.restore = .idle
    · obtain ⟨hup, hev⟩ := h.rows.idle hidle
      refine RowsInv.of_idle (hrestore.trans hidle) (fun a ha => ?_) fun k frame hk hp hr => ?_
      · rw [hrows] at ha
        obtain ⟨j, hj, hne⟩ := hup a ha
        by_cases hji : j = i
        · rw [hji] at hj hne
          obtain ⟨hreg, hph⟩ := howner a hj ha hne
          exact ⟨i, hreg, by rw [hnew]; exact hph⟩
        · exact ⟨j, (hothers a j hji).mpr hj, by rw [hold j hji]; exact hne⟩
      · rcases hevents k hk with ⟨hk', hki⟩ | hst
        · rw [hold k hki] at hp
          rw [hstale k hki]
          exact hev k frame hk' hp hr
        · exact hst
    · exact h.rows.of_busy hidle hrestore hrows (hjobs hidle)

/-- The rule for a step that leaves the registry and the queue alone. -/
theorem Conn.setSocket (h : Conn s) {i : Nat} {c : Socket}
    (hid : c.agentId = (s.sockets i).agentId) (hepoch : c.epoch = (s.sockets i).epoch)
    (hheld : c.phase.held = (s.sockets i).phase.held) (hopen : i < s.opened)
    (hne : c.phase ≠ .disconnected) (hjobs : ∀ j ∈ s.jobs, j.socket? ≠ some i) :
    Conn (s.setSocket i c) := by
  have hstale : (s.setSocket i c).stale i = s.stale i := by
    unfold State.stale
    rw [State.setSocket_self, hepoch]
    rfl
  refine h.move rfl rfl rfl rfl rfl ⟨Nat.le_refl _, hopen⟩ (hepoch ▸ h.live.epochs i)
    (fun _ _ _ => Iff.rfl) ?_ ?_ (h.job.setSocket hjobs) (fun _ => rfl) ?_ ?_
  · intro a ha
    rw [hstale, hheld, hid]; exact h.live.held a i ha
  · intro hst hp
    rw [hid]
    exact h.live.owner i (hstale ▸ hst) (hheld ▸ hp)
  · exact fun k hk => Or.inl ⟨hk, fun heq => hjobs _ hk (heq ▸ rfl)⟩
  · exact fun a ha _ _ => ⟨ha, hne⟩

/-- A connection without an entry is moved to where it holds none. -/
theorem Conn.setLoose (h : Conn s) {i : Nat} {c : Socket}
    (hentry : ∀ a, s.registry a ≠ some i) (hepoch : c.epoch = (s.sockets i).epoch)
    (hheld : s.stale i = true ∨ c.phase.held = false) (hopen : i < s.opened)
    (hjobs : ∀ j ∈ s.jobs, j.socket? ≠ some i) : Conn (s.setSocket i c) := by
  have hstale : (s.setSocket i c).stale i = s.stale i := by
    unfold State.stale
    rw [State.setSocket_self, hepoch]
    rfl
  refine h.move rfl rfl rfl rfl rfl ⟨Nat.le_refl _, hopen⟩ (hepoch ▸ h.live.epochs i)
    (fun _ _ _ => Iff.rfl) (fun a ha => absurd ha (hentry a)) ?_ (h.job.setSocket hjobs)
    (fun _ => rfl) ?_ fun a ha _ _ => absurd ha (hentry a)
  · intro hst hp
    rw [hstale] at hst
    rcases hheld with hs | hs
    · rw [hst] at hs; cases hs
    · rw [hp] at hs; cases hs
  · exact fun k hk => Or.inl ⟨hk, fun heq => hjobs _ hk (heq ▸ rfl)⟩

/-- What does not count here may change. -/
theorem Conn.same (h : Conn s) (hsock : s'.sockets = s.sockets) (hepoch : s'.epoch = s.epoch)
    (hret : s'.retired = s.retired) (hrestore : s'.restore = s.restore) (hrows : s'.rows = s.rows)
    (hopen : s'.opened = s.opened) (hreg : s'.registry = s.registry) (hjobs : s'.jobs = s.jobs) :
    Conn s' := by
  have hstale : ∀ j, s'.stale j = s.stale j := fun j => by
    unfold State.stale
    rw [hsock, hepoch, hret]
  refine ⟨⟨?_, ?_, ?_, ?_, ?_⟩, ⟨hjobs ▸ h.job.nodup, fun j hj => ?_⟩, ?_⟩
  · intro i hst hp
    rw [hstale] at hst
    rw [hsock] at hp ⊢
    rw [hreg]; exact h.live.owner i hst hp
  · intro a i hi
    rw [hreg] at hi
    rw [hstale, hsock]; exact h.live.held a i hi
  · rw [hsock, hepoch]; exact h.live.epochs
  · rw [hsock, hopen]; exact h.live.unopened
  · rw [hret, hrestore]; exact h.live.retired
  · have hfit := h.job.fits j (hjobs ▸ hj)
    cases j with
    | persist k => show (s'.sockets k).phase = _; rw [hsock]; exact hfit
    | event k => show ∃ f, (s'.sockets k).phase = _; rw [hsock]; exact hfit
    | disconnect k => show (s'.sockets k).phase = _; rw [hsock]; exact hfit
    | markAll => exact hrestore.trans hfit
  · by_cases hidle : s.restore = .idle
    · obtain ⟨hup, hev⟩ := h.rows.idle hidle
      refine RowsInv.of_idle (hrestore.trans hidle) (fun a ha => ?_) fun k frame hk hp hr => ?_
      · rw [hrows] at ha
        rw [hreg, hsock]; exact hup a ha
      · rw [hjobs] at hk
        rw [hsock] at hp
        rw [hstale]; exact hev k frame hk hp hr
    · exact h.rows.of_busy hidle hrestore hrows hjobs

/-! ## Connections -/

theorem conn_unregister {i : Nat} (h : Conn s) (hopen : i < s.opened)
    (hjobs : ∀ j ∈ s.jobs, j.socket? ≠ some i) : Conn (unregister s i) := by
  unfold unregister
  split
  · rename_i hst
    have hloose : Conn (s.setSocket i { s.sockets i with ready := false, phase := .closed }) :=
      h.setLoose (h.live.no_entry hst) rfl (Or.inl hst) hopen hjobs
    split
    · exact hloose.same rfl rfl rfl rfl rfl rfl rfl rfl
    · exact hloose
  · rename_i hst
    have hst' : s.stale i = false := by simpa using hst
    split
    · rename_i hreg
      obtain ⟨_, hheld, _⟩ := h.live.held _ i hreg
      have h₁ : Conn (s.setSocket i { s.sockets i with ready := false, phase := .closing }) :=
        h.setSocket rfl rfl hheld.symm hopen nofun hjobs
      have hfit : (Job.disconnect i).fits
          (s.setSocket i { s.sockets i with ready := false, phase := .closing }) := by
        show (State.sockets (State.setSocket s i _) i).phase = _
        rw [State.setSocket_self]
      have hjob := h₁.job.push (j := .disconnect i) (fun hmem => hjobs _ hmem rfl) hfit
      have hidle : s.restore = .idle := h.live.not_retired hst'
      obtain ⟨hup, hev⟩ := h₁.rows.idle hidle
      refine ⟨⟨h₁.live.owner, h₁.live.held, h₁.live.epochs, h₁.live.unopened, h₁.live.retired⟩,
        ⟨hjob.nodup, hjob.fits⟩, RowsInv.of_idle hidle hup ?_⟩
      intro k frame hk hpk hr
      rcases List.mem_append.mp hk with hk | hk
      · exact hev k frame hk hpk hr
      · cases List.mem_singleton.mp hk
    · rename_i hreg
      refine h.setLoose (fun a ha => ?_) rfl (Or.inr rfl) hopen hjobs
      obtain ⟨_, hheld, rfl⟩ := h.live.held a i ha
      exact hreg ha

theorem conn_accept (h : Conn s) (hs : accept s = some s') : Conn s' := by
  unfold accept at hs
  split at hs
  case h_2 => cases hs
  case h_1 =>
    cases hs
    have hclosed := h.live.unopened s.opened (Nat.le_refl _)
    have hnone : ∀ a, s.registry a ≠ some s.opened := fun a ha => by
      have hheld := (h.live.held a _ ha).2.1
      rw [hclosed] at hheld
      cases hheld
    have hjobs := h.job.idle (i := s.opened) (by rw [hclosed]; rfl)
    have hjob := h.job.setSocket (c := { Socket.none with epoch := s.epoch, phase := .awaitingHello })
      hjobs
    refine h.move (i := s.opened) rfl rfl rfl rfl rfl ⟨Nat.le_succ _, Nat.lt_succ_self _⟩
      (Nat.le_refl _) (fun _ _ _ => Iff.rfl) (fun a ha => absurd ha (hnone a)) (fun _ => nofun)
      ⟨hjob.nodup, hjob.fits⟩ (fun _ => rfl) ?_ fun a ha => absurd ha (hnone a)
    exact fun k hk => Or.inl ⟨hk, fun heq => hjobs _ hk (heq ▸ rfl)⟩

/-- A connection that said no acceptable hello is closed. -/
theorem Conn.refuse (h : Conn s) {i : Nat} (hp : (s.sockets i).phase = .awaitingHello) :
    Conn (s.setPhase i .closed) := by
  refine h.setLoose (fun a ha => ?_) rfl (Or.inr rfl) (h.live.opened (by rw [hp]; exact nofun))
    (h.job.idle (by rw [hp]; rfl))
  have hheld := (h.live.held a i ha).2.1
  rw [hp] at hheld
  cases hheld

/-- A connection reserves an id nobody holds. -/
theorem Conn.reserve (h : Conn s) {i : Nat} {agentId : String} {generations generation : Nat}
    {durable : Bool} {devices : List Frame} (hp : (s.sockets i).phase = .awaitingHello)
    (hst : s.stale i = false) (hfree : s.registry agentId = none) :
    Conn { s.setSocket i { s.sockets i with
        phase := .registering, agentId, generation, ready := false, durable, devices } with
      registry    := fun a => if a = agentId then some i else s.registry a
      generations := generations
      jobs        := s.jobs ++ [.persist i] } := by
  have hidle : s.restore = .idle := h.live.not_retired hst
  have hnone : ∀ a, s.registry a ≠ some i := fun a ha => by
    have hheld := (h.live.held a i ha).2.1
    rw [hp] at hheld
    cases hheld
  have hjobs := h.job.idle (i := i) (by rw [hp]; rfl)
  have hnew := State.setSocket_self s i { s.sockets i with
    phase := .registering, agentId, generation, ready := false, durable, devices }
  have hstale : (s.setSocket i { s.sockets i with
      phase := .registering, agentId, generation, ready := false, durable, devices }).stale i =
      false := by
    unfold State.stale at hst ⊢
    rw [hnew]; exact hst
  have hjob := (h.job.setSocket (c := { s.sockets i with
      phase := .registering, agentId, generation, ready := false, durable, devices }) hjobs).push
    (j := .persist i) (fun hmem => hjobs _ hmem rfl) (congrArg Socket.phase hnew)
  refine h.move (i := i) rfl rfl rfl rfl rfl
    ⟨Nat.le_refl _, h.live.opened (by rw [hp]; exact nofun)⟩ (h.live.epochs i) ?_ ?_
    (fun _ _ => if_pos rfl) ⟨hjob.nodup, hjob.fits⟩ (fun hr => absurd hidle hr) ?_
    fun a ha => absurd ha (hnone a)
  · intro a j hji
    show (if a = agentId then some i else s.registry a) = some j ↔ _
    by_cases ha : a = agentId
    · rw [if_pos ha, ha, hfree]
      exact ⟨fun heq => absurd (Option.some.inj heq).symm hji, nofun⟩
    · rw [if_neg ha]
  · intro a ha
    by_cases heq : a = agentId
    · exact ⟨hstale, rfl, heq.symm⟩
    · exact absurd ((if_neg heq).symm.trans ha) (hnone a)
  · intro k hk
    rcases List.mem_append.mp hk with hk | hk
    · exact Or.inl ⟨hk, fun heq => hjobs _ hk (heq ▸ rfl)⟩
    · cases List.mem_singleton.mp hk

theorem conn_hello {i : Nat} {frame : Frame} (h : Conn s)
    (hs : hello repr s i frame = some s') : Conn s' := by
  unfold hello at hs
  split at hs
  case h_2 => cases hs
  case h_1 hp =>
    split at hs
    · cases hs; exact h.refuse hp
    · split at hs
      · cases hs; exact h.refuse hp
      · split at hs
        · cases hs; exact h.refuse hp
        · rename_i hst
          split at hs
          · cases hs; exact h.refuse hp
          · rename_i htaken
            cases hs
            exact h.reserve hp (by simpa using hst) (by simpa using htaken)

theorem conn_resumeRegister {i : Nat} {cancelled : Bool} (h : Conn s)
    (hs : resumeRegister s i cancelled = some s') : Conn s' := by
  unfold resumeRegister at hs
  split at hs
  case h_2 => cases hs
  case h_1 ok hp =>
    cases hs
    have hopen := h.live.opened (i := i) (by rw [hp]; exact nofun)
    have hjobs := h.job.idle (i := i) (by rw [hp]; rfl)
    split
    · exact h.setSocket rfl rfl (by rw [hp]; rfl) hopen nofun hjobs
    · exact conn_unregister h hopen hjobs

theorem conn_receive {i : Nat} {frame : Frame} (h : Conn s)
    (hs : receive s i frame = some s') : Conn s' := by
  unfold receive at hs
  split at hs
  case h_2 => cases hs
  case h_1 hp =>
    cases hs
    have hopen := h.live.opened (i := i) (by rw [hp]; exact nofun)
    have hjobs := h.job.idle (i := i) (by rw [hp]; rfl)
    by_cases hhello : frame.get "type" = .str "hello"
    · rw [if_pos hhello]
      exact conn_unregister h hopen hjobs
    · rw [if_neg hhello]
      split
      · exact h
      · rename_i hok
        have hst : s.stale i = false := by
          simp only [Bool.or_eq_true, not_or, Bool.not_eq_true] at hok
          exact hok.1.1
        have hidle : s.restore = .idle := h.live.not_retired hst
        have h₁ : Conn (s.setPhase i (.ingesting frame)) :=
          h.setSocket rfl rfl (by rw [hp]; rfl) hopen nofun hjobs
        have hnew : ((s.setPhase i (.ingesting frame)).sockets i).phase = .ingesting frame := by
          rw [State.setPhase, State.setSocket_self]
        have hstale : (s.setPhase i (.ingesting frame)).stale i = false := by
          unfold State.stale at hst ⊢
          rw [State.setPhase, State.setSocket_self]; exact hst
        have hjob := h₁.job.push (j := .event i) (fun hmem => hjobs _ hmem rfl) ⟨frame, hnew⟩
        obtain ⟨hup, hev⟩ := h₁.rows.idle hidle
        refine ⟨⟨h₁.live.owner, h₁.live.held, h₁.live.epochs, h₁.live.unopened, h₁.live.retired⟩,
          ⟨hjob.nodup, hjob.fits⟩, RowsInv.of_idle hidle hup ?_⟩
        intro k f hk hpk hr
        rcases List.mem_append.mp hk with hk | hk
        · exact hev k f hk hpk hr
        · cases List.mem_singleton.mp hk
          exact hstale

theorem conn_afterIngest {i : Nat} {sent : Bool} (h : Conn s)
    (hs : afterIngest repr s i sent = some s') : Conn s' := by
  unfold afterIngest at hs
  split at hs
  case h_2 => cases hs
  case h_1 frame outcome hp =>
    cases hs
    have hopen := h.live.opened (i := i) (by rw [hp]; exact nofun)
    have hjobs := h.job.idle (i := i) (by rw [hp]; rfl)
    split
    · exact conn_unregister h hopen hjobs
    · split
      · exact h.setSocket rfl rfl (by rw [hp]; rfl) hopen nofun hjobs
      · have hafter : Conn (afterApply repr s i frame outcome) ∧
            (afterApply repr s i frame outcome).sockets = s.sockets ∧
            (afterApply repr s i frame outcome).jobs = s.jobs ∧
            (afterApply repr s i frame outcome).opened = s.opened := by
          unfold afterApply resolveCommand
          split
          · split
            · exact ⟨h, rfl, rfl, rfl⟩
            · split
              · exact ⟨h.same rfl rfl rfl rfl rfl rfl rfl rfl, rfl, rfl, rfl⟩
              · exact ⟨h, rfl, rfl, rfl⟩
          · exact ⟨h, rfl, rfl, rfl⟩
        obtain ⟨ha, hsock, hj, ho⟩ := hafter
        split
        · exact ha.setSocket rfl rfl (by rw [hsock, hp]; rfl) (ho ▸ hopen) nofun (hj ▸ hjobs)
        · exact conn_unregister ha (ho ▸ hopen) (hj ▸ hjobs)

theorem conn_leave {i : Nat} (h : Conn s) (hs : leave s i = some s') : Conn s' := by
  unfold leave at hs
  split at hs
  · rename_i hp
    cases hs
    exact h.refuse hp
  · rename_i hp
    cases hs
    exact conn_unregister h (h.live.opened (by rw [hp]; exact nofun))
      (h.job.idle (by rw [hp]; rfl))
  · rename_i hp
    split at hs
    · rename_i hopen
      cases hs
      exact conn_unregister h hopen (h.job.idle (by rw [hp]; rfl))
    · cases hs
  · cases hs

theorem conn_finish {i : Nat} (h : Conn s) (hs : finish s i = some s') : Conn s' := by
  unfold finish at hs
  split at hs
  case h_2 => cases hs
  case h_1 hp =>
    cases hs
    have hopen := h.live.opened (i := i) (by rw [hp]; exact nofun)
    have hjobs := h.job.idle (i := i) (by rw [hp]; rfl)
    by_cases hst : s.stale i = true
    · rw [if_pos hst]
      exact h.setLoose (h.live.no_entry hst) rfl (Or.inl hst) hopen hjobs
    · have hst' : s.stale i = false := by simpa using hst
      have hown := h.live.owner i hst' (by rw [hp]; rfl)
      rw [if_neg hst, if_pos hown]
      have hjob := h.job.setSocket (c := { s.sockets i with phase := .closed }) hjobs
      refine h.move (i := i) rfl rfl rfl rfl rfl ⟨Nat.le_refl _, hopen⟩ (h.live.epochs i) ?_ ?_
        (fun _ => nofun) ⟨hjob.nodup, hjob.fits⟩ (fun _ => rfl) ?_
        fun _ _ _ hne => absurd hp hne
      · intro a j hji
        show (if a = (s.sockets i).agentId then none else s.registry a) = some j ↔ _
        by_cases ha : a = (s.sockets i).agentId
        · rw [if_pos ha, ha, hown]
          exact ⟨nofun, fun heq => absurd (Option.some.inj heq).symm hji⟩
        · rw [if_neg ha]
      · intro a ha
        have ha' : (if a = (s.sockets i).agentId then none else s.registry a) = some i := ha
        by_cases heq : a = (s.sockets i).agentId
        · rw [if_pos heq] at ha'; cases ha'
        · rw [if_neg heq] at ha'
          exact absurd (h.live.held a i ha').2.2.symm heq
      · exact fun k hk => Or.inl ⟨hk, fun heq => hjobs _ hk (heq ▸ rfl)⟩

/-! ## The database worker -/

/-- An event raises no flag but those of its own agent, and only when it reports a device
    online. -/
theorem up_eventWrites {rows : Rows} {agentId a : String} {frame : Frame}
    (h : (rows.writes agentId (eventWrites frame)).up a = true) :
    rows.up a = true ∨ (a = agentId ∧ raises frame = true) := by
  by_cases hother : a = agentId
  · unfold eventWrites at h
    split at h
    · rename_i hstatus
      by_cases hraise : raises frame = true
      · exact Or.inr ⟨hother, hraise⟩
      · left
        have hon : ∀ v : Value, Frame.has (("name", v) :: frame) "online" = frame.has "online" ∧
            Frame.get (("name", v) :: frame) "online" = frame.get "online" :=
          fun _ => ⟨rfl, rfl⟩
        have hoff : frame.has "online" = true → (frame.get "online").truthy = false := by
          intro hhas
          simpa [raises, hstatus, hhas] using hraise
        rw [Rows.up_iff] at h ⊢
        refine h.imp_right ?_
        rintro ⟨d, hd, hid, hond⟩
        simp only [Rows.writes, List.foldl_cons, List.foldl_nil, Rows.write, Rows.upsertDevice,
          (hon _).1, (hon _).2] at hd
        split at hd
        · split at hd
          · rename_i hhas
            rcases of_mem_updateWhere hd with ⟨d₀, _, _, rfl⟩ | ⟨hd, _⟩
            · rw [hoff hhas] at hond; cases hond
            · exact ⟨d, hd, hid, hond⟩
          · exact ⟨d, hd, hid, hond⟩
        · rcases List.mem_append.mp hd with hd | hd
          · exact ⟨d, hd, hid, hond⟩
          · obtain rfl := List.mem_singleton.mp hd
            cases hhas : frame.has "online" with
            | false => rw [hhas] at hond; cases hond
            | true => rw [hhas, hoff hhas] at hond; cases hond
    · exact Or.inl h
  · exact Or.inl (Rows.up_writes hother h)

/-- The worker takes an operation of a connection; the rows it leaves up have an owner. -/
theorem Conn.pop (h : Conn s) {j : Job} {rest : List Job} (hjobs : s.jobs = j :: rest)
    (hj : j ≠ .markAll) {rows : Rows} {writes : List WriteEntry}
    (hup : s.restore = .idle → ∀ a, rows.up a = true → s.rows.up a = true ∨
      ∃ i, s.registry a = some i ∧ (s.sockets i).phase ≠ .disconnected)
    (hbusy : s.restore ≠ .idle → rows = s.rows ∨ ∃ i, j = .event i) :
    Conn { s with jobs := rest, rows := rows, writes := writes } := by
  have hsub : ∀ k ∈ rest, k ∈ s.jobs := fun k hk => hjobs ▸ List.mem_cons_of_mem _ hk
  have hnodup := h.job.nodup
  rw [hjobs] at hnodup
  refine ⟨⟨h.live.owner, h.live.held, h.live.epochs, h.live.unopened, h.live.retired⟩,
    ⟨(List.nodup_cons.mp hnodup).2, fun k hk => h.job.fits k (hsub k hk)⟩, ?_⟩
  have hrows := h.rows
  -- after `mark_all_agents_disconnected` no event is left that could write a row
  have hsame : s.restore ≠ .idle → NoEvents s.jobs → rows = s.rows := fun hne hno => by
    rcases hbusy hne with hb | ⟨i, rfl⟩
    · exact hb
    · exact absurd (hjobs ▸ List.mem_cons_self) (hno i)
  have hrest : NoEvents s.jobs → NoEvents rest := fun hno i hi => hno i (hsub _ hi)
  unfold RowsInv at hrows ⊢
  dsimp only
  cases hr : s.restore with
  | idle =>
    rw [hr] at hrows
    obtain ⟨hown, hev⟩ := hrows
    refine ⟨fun a ha => ?_, fun i frame hi hp hra => hev i frame (hsub _ hi) hp hra⟩
    rcases hup hr a ha with ha | ha
    · exact hown a ha
    · exact ha
  | draining => trivial
  | manual => trivial
  | marking =>
    rw [hr] at hrows
    obtain ⟨pre, post, heq, hno⟩ := hrows
    rw [hjobs] at heq
    cases pre with
    | nil => exact absurd (List.cons.inj heq).1 hj
    | cons k pre =>
      rw [List.cons_append] at heq
      exact ⟨pre, post, (List.cons.inj heq).2, hno⟩
  | marked =>
    rw [hr] at hrows
    exact ⟨hsame (by rw [hr]; exact nofun) hrows.2 ▸ hrows.1, hrest hrows.2⟩
  | replaced snapshot =>
    rw [hr] at hrows
    exact ⟨hrows.1, hrest hrows.2⟩
  | reset snapshot =>
    rw [hr] at hrows
    exact ⟨hsame (by rw [hr]; exact nofun) hrows.2.2 ▸ hrows.1, hrows.2.1,
      hrest hrows.2.2⟩

theorem conn_work {outcome : Outcome} (h : Conn s) (hl : Listed s (.work outcome))
    (hs : work s outcome = some s') : Conn s' := by
  unfold work at hs
  split at hs
  case h_1 => cases hs
  case h_2 i rest hjobs =>
    cases hs
    have hp : (s.sockets i).phase = .registering :=
      h.job.fits (.persist i) (hjobs ▸ List.mem_cons_self)
    have hopen := h.live.opened (i := i) (by rw [hp]; exact nofun)
    have hidle : ∀ k ∈ rest, k.socket? ≠ some i := h.job.popped hjobs hp rfl
    split
    · have h₁ : Conn { s with jobs := rest } := h.pop hjobs nofun (fun _ _ ha => Or.inl ha)
        (fun _ => Or.inl rfl)
      exact h₁.setSocket rfl rfl (hp ▸ rfl : _ = (s.sockets i).phase.held) hopen nofun hidle
    · rename_i hst
      have hst' : s.stale i = false := by simpa using hst
      have hown := h.live.owner i hst' (by rw [hp]; rfl)
      have h₁ : Conn (runWrites { s with jobs := rest } i
          (executed (registrationWrites (s.sockets i).devices) outcome) true) := by
        refine h.pop hjobs nofun (fun _ a ha => ?_) fun hne => absurd (h.live.not_retired hst') hne
        by_cases hai : a = (s.sockets i).agentId
        · exact Or.inr ⟨i, hai ▸ hown, by rw [hp]; exact nofun⟩
        · exact Or.inl (Rows.up_writes hai ha)
      exact h₁.setSocket rfl rfl (hp ▸ rfl : _ = (s.sockets i).phase.held) hopen nofun hidle
  case h_3 i rest hjobs =>
    obtain ⟨frame, hp⟩ : ∃ frame, (s.sockets i).phase = .ingesting frame :=
      h.job.fits (.event i) (hjobs ▸ List.mem_cons_self)
    have hopen := h.live.opened (i := i) (by rw [hp]; exact nofun)
    have hidle : ∀ k ∈ rest, k.socket? ≠ some i :=
      h.job.popped hjobs (j := .event i) ⟨frame, hp⟩ rfl
    rw [hp] at hs
    cases hs
    have h₁ : Conn { s with
        jobs := rest
        rows := if outcome = Outcome.done then
          s.rows.writes (s.sockets i).agentId (eventWrites frame) else s.rows } := by
      refine h.pop hjobs nofun (fun hr a ha => ?_) fun _ => Or.inr ⟨i, rfl⟩
      split at ha
      · rcases up_eventWrites ha with ha | ⟨rfl, hraise⟩
        · exact Or.inl ha
        · have hst := (h.rows.idle hr).2 i frame (hjobs ▸ List.mem_cons_self) hp hraise
          exact Or.inr ⟨i, h.live.owner i hst (by rw [hp]; rfl), by rw [hp]; exact nofun⟩
      · exact Or.inl ha
    exact h₁.setSocket rfl rfl (hp ▸ rfl : _ = (s.sockets i).phase.held) hopen nofun hidle
  case h_4 i rest hjobs =>
    cases hs
    have hdone : outcome = .done := hl i rest hjobs
    have hp : (s.sockets i).phase = .closing :=
      h.job.fits (.disconnect i) (hjobs ▸ List.mem_cons_self)
    have hopen := h.live.opened (i := i) (by rw [hp]; exact nofun)
    have hidle : ∀ k ∈ rest, k.socket? ≠ some i := h.job.popped hjobs hp rfl
    split
    · rename_i hst
      have h₁ : Conn { s with jobs := rest } := h.pop hjobs nofun (fun _ _ ha => Or.inl ha)
        (fun _ => Or.inl rfl)
      exact h₁.setLoose (h.live.no_entry hst) rfl (Or.inl hst) hopen hidle
    · rename_i hst
      have hst' : s.stale i = false := by simpa using hst
      -- the agent is down before its connection leaves the rows without an owner
      have hdown : ((runWrites { s with jobs := rest } i (executed disconnectWrites outcome)
          false).rows).up (s.sockets i).agentId = false := by
        rw [hdone]; exact Rows.up_disconnect _ _
      have h₁ : Conn (runWrites { s with jobs := rest } i (executed disconnectWrites outcome)
          false) := by
        refine h.pop hjobs nofun (fun _ a ha => ?_) fun hne => absurd (h.live.not_retired hst') hne
        by_cases hai : a = (s.sockets i).agentId
        · rw [hai] at ha
          cases hdown.symm.trans ha
        · exact Or.inl (Rows.up_writes hai ha)
      have hjob := h₁.job.setSocket (c := { s.sockets i with phase := .disconnected }) hidle
      have hstale : State.stale ((runWrites { s with jobs := rest } i
          (executed disconnectWrites outcome) false).setPhase i .disconnected) i = s.stale i := by
        unfold State.stale
        rw [State.setPhase, State.setSocket_self]
        rfl
      have hheld : (Phase.disconnected).held = (s.sockets i).phase.held := by rw [hp]; rfl
      refine h₁.move (i := i) rfl rfl rfl rfl rfl ⟨Nat.le_refl _, hopen⟩ (h.live.epochs i)
        (fun _ _ _ => Iff.rfl) ?_ ?_ ⟨hjob.nodup, hjob.fits⟩ (fun _ => rfl) ?_ ?_
      · intro a ha
        rw [hstale]
        obtain ⟨hs₁, _, ha₁⟩ := h.live.held a i ha
        exact ⟨hs₁, rfl, ha₁⟩
      · exact fun _ _ => h.live.owner i hst' (by rw [hp]; rfl)
      · exact fun k hk => Or.inl ⟨hk, fun heq => hidle _ hk (heq ▸ rfl)⟩
      · intro a ha hup _
        have hai : (s.sockets i).agentId = a := (h.live.held a i ha).2.2
        rw [← hai] at hup
        rw [hdown] at hup
        cases hup
  case h_5 rest hjobs =>
    cases hs
    have hmark : s.restore = .marking := h.job.fits .markAll (hjobs ▸ List.mem_cons_self)
    have hnodup := h.job.nodup
    rw [hjobs] at hnodup
    have hnot : Job.markAll ∉ rest := (List.nodup_cons.mp hnodup).1
    have hrows := h.rows
    unfold RowsInv at hrows
    rw [hmark] at hrows
    obtain ⟨pre, post, heq, hno⟩ := hrows
    rw [hjobs] at heq
    have hpost : rest = post := by
      cases pre with
      | nil => exact (List.cons.inj heq).2
      | cons k pre =>
        rw [List.cons_append] at heq
        refine absurd ?_ hnot
        rw [(List.cons.inj heq).2]
        exact List.mem_append.mpr (Or.inr List.mem_cons_self)
    refine ⟨⟨h.live.owner, h.live.held, h.live.epochs, h.live.unopened, ?_⟩,
      ⟨(List.nodup_cons.mp hnodup).2, fun k hk => ?_⟩, ⟨Rows.up_markAll s.rows, hpost ▸ hno⟩⟩
    · have hret := h.live.retired
      rw [hmark] at hret
      exact ⟨fun hr => Restore.noConfusion (hret.mp hr), fun hm => Restore.noConfusion hm⟩
    · have hfit := h.job.fits k (hjobs ▸ List.mem_cons_of_mem _ hk)
      cases k with
      | markAll => exact absurd hk hnot
      | persist k => exact hfit
      | event k => exact hfit
      | disconnect k => exact hfit

/-! ## Commands -/

theorem conn_call {agentId : String} {frame : Frame} {cmdId : String} (h : Conn s)
    (hs : call s agentId frame cmdId = some s') : Conn s' := by
  unfold call at hs
  split at hs
  · cases hs
  · split at hs
    · cases hs; exact h.same rfl rfl rfl rfl rfl rfl rfl rfl
    · cases hs

theorem conn_endCall {k : Nat} (h : Conn s) (hs : endCall s k = some s') : Conn s' := by
  obtain ⟨f, _, rfl⟩ := Option.map_eq_some_iff.mp hs
  exact h.same rfl rfl rfl rfl rfl rfl rfl rfl

/-! ## The restore -/

/-- A new gateway: nobody may be up, and no event that raises a flag may be left. -/
theorem Conn.rebuilt (h : Conn s) (hnot : s.restore ≠ .marking) (hset : Settled s) :
    Conn (rebuild s) := by
  have hold : ∀ i, (rebuild s).stale i = true := by
    intro i
    have hlt := h.live.epochs i
    show (decide ((s.sockets i).epoch ≠ s.epoch + 1) || false) = true
    rw [Bool.or_false, decide_eq_true_eq]
    omega
  refine ⟨⟨fun i hst => ?_, nofun, fun i => Nat.le_succ_of_le (h.live.epochs i), h.live.unopened,
    ⟨fun _ => rfl, fun _ => rfl⟩⟩, ⟨h.job.nodup, fun j hj => ?_⟩, ?_⟩
  · rw [hold i] at hst; cases hst
  · have hfit := h.job.fits j hj
    cases j with
    | markAll => exact absurd hfit hnot
    | persist k => exact hfit
    | event k => exact hfit
    | disconnect k => exact hfit
  · refine ⟨fun a ha => ?_, fun i frame hi hp hr => ?_⟩
    · cases (hset.1 a).symm.trans ha
    · rw [hset.2 i frame hi hp] at hr
      cases hr

/-- The point of the restore and the rows change. -/
theorem Conn.setRestore (h : Conn s) {rows : Rows} {restore : Restore} (hidle : s.restore ≠ .idle)
    (hnext : restore ≠ .idle) (hmark : s.restore = .marking → restore = .marking)
    (hr : RowsInv { s with rows, restore }) : Conn { s with rows, restore } := by
  refine ⟨⟨h.live.owner, h.live.held, h.live.epochs, h.live.unopened, ?_⟩,
    ⟨h.job.nodup, fun j hj => ?_⟩, hr⟩
  · exact ⟨fun hret => absurd (h.live.retired.mp hret) hidle, fun heq => absurd heq hnext⟩
  · have hfit := h.job.fits j hj
    cases j with
    | markAll => exact hmark hfit
    | persist k => exact hfit
    | event k => exact hfit
    | disconnect k => exact hfit

theorem conn_retire (h : Conn s) (hs : retire s = some s') : Conn s' := by
  unfold retire at hs
  split at hs
  case h_2 => cases hs
  case h_1 hidle =>
    cases hs
    refine ⟨⟨fun i hst => ?_, nofun, ?_, ?_, ⟨nofun, nofun⟩⟩, ⟨h.job.nodup, fun j hj => ?_⟩,
      trivial⟩
    · have htrue : (decide _ || true) = false := hst
      rw [Bool.or_true] at htrue
      cases htrue
    · intro i
      show Socket.epoch (if _ then _ else _) ≤ _
      split <;> exact h.live.epochs i
    · intro i hi
      show Socket.phase (if _ then _ else _) = _
      split <;> exact h.live.unopened i hi
    · have hphase : ∀ k, Socket.phase (if s.registry (s.sockets k).agentId = some k ∧
          (s.sockets k).epoch = s.epoch then { s.sockets k with ready := false }
          else s.sockets k) = (s.sockets k).phase := by
        intro k
        split <;> rfl
      have hfit := h.job.fits j hj
      cases j with
      | markAll => cases hidle.symm.trans hfit
      | persist k => exact (hphase k).trans hfit
      | event k =>
        obtain ⟨frame, hf⟩ := hfit
        exact ⟨frame, (hphase k).trans hf⟩
      | disconnect k => exact (hphase k).trans hfit

/-- Without events in the queue and with nobody up, all is settled. -/
theorem Settled.of_down (hdown : Down s.rows) (hno : NoEvents s.jobs) : Settled s :=
  ⟨hdown, fun i _ hi => absurd hi (hno i)⟩

theorem conn_switch {r : RestoreStep} (h : Conn s) (hc : r = .abort → Settled s)
    (hs : switch s r = some s') : Conn s' := by
  have hrows := h.rows
  unfold RowsInv at hrows
  cases r with
  | retire => exact conn_retire h hs
  | abort =>
    simp only [switch] at hs
    split at hs
    · rename_i hr
      cases hs
      exact h.rebuilt (by rw [hr]; exact nofun) (hc rfl)
    · cases hs
  | mark =>
    simp only [switch] at hs
    split at hs
    · rename_i hr
      cases hs
      have hnot : Job.markAll ∉ s.jobs := fun hmem => by
        cases hr.symm.trans (h.job.fits .markAll hmem)
      have h₁ : JobInv { s with restore := .marking } := by
        refine ⟨h.job.nodup, fun j hj => ?_⟩
        have hfit := h.job.fits j hj
        cases j with
        | markAll => exact absurd hj hnot
        | persist k => exact hfit
        | event k => exact hfit
        | disconnect k => exact hfit
      have hjob := h₁.push (j := .markAll) hnot rfl
      refine ⟨⟨h.live.owner, h.live.held, h.live.epochs, h.live.unopened, ?_⟩,
        ⟨hjob.nodup, hjob.fits⟩, s.jobs, [], rfl, nofun⟩
      have hret := h.live.retired
      rw [hr] at hret
      exact ⟨fun heq => (nomatch hret.mp heq), nofun⟩
    · cases hs
  | fail =>
    simp only [switch] at hs
    split at hs
    · rename_i hr
      cases hs
      rw [hr] at hrows
      exact h.rebuilt (by rw [hr]; exact nofun) (.of_down hrows.1 hrows.2)
    · cases hs
  | replace rows =>
    simp only [switch] at hs
    split at hs
    · rename_i hr
      cases hs
      rw [hr] at hrows
      exact h.setRestore (by rw [hr]; exact nofun) nofun (fun hm => (nomatch hr.symm.trans hm))
        hrows
    · cases hs
  | reset =>
    simp only [switch] at hs
    split at hs
    · rename_i snapshot hr
      cases hs
      rw [hr] at hrows
      exact h.setRestore (by rw [hr]; exact nofun) nofun (fun hm => (nomatch hr.symm.trans hm))
        ⟨Rows.up_markAll s.rows, hrows⟩
    · cases hs
  | rollback =>
    simp only [switch] at hs
    split at hs
    · rename_i snapshot hr
      cases hs
      rw [hr] at hrows
      have h₁ : Conn { s with rows := snapshot, restore := .marked } :=
        h.setRestore (by rw [hr]; exact nofun) nofun (fun hm => (nomatch hr.symm.trans hm)) hrows
      exact h₁.rebuilt nofun (.of_down hrows.1 hrows.2)
    · rename_i snapshot hr
      cases hs
      rw [hr] at hrows
      have h₁ : Conn { s with rows := snapshot, restore := .marked } :=
        h.setRestore (by rw [hr]; exact nofun) nofun (fun hm => (nomatch hr.symm.trans hm))
          hrows.2
      exact h₁.rebuilt nofun (.of_down hrows.2.1 hrows.2.2)
    · cases hs
  | succeed =>
    simp only [switch] at hs
    split at hs
    · rename_i snapshot hr
      cases hs
      rw [hr] at hrows
      exact h.rebuilt (by rw [hr]; exact nofun) (.of_down hrows.1 hrows.2.2)
    · cases hs
  | giveUp =>
    simp only [switch] at hs
    split at hs
    · rename_i snapshot hr
      cases hs
      exact h.setRestore (by rw [hr]; exact nofun) nofun (fun hm => (nomatch hr.symm.trans hm))
        trivial
    · rename_i snapshot hr
      cases hs
      exact h.setRestore (by rw [hr]; exact nofun) nofun (fun hm => (nomatch hr.symm.trans hm))
        trivial
    · cases hs

theorem conn_restart (h : Conn s) : Conn (restart s) := by
  refine ⟨⟨fun _ _ => nofun, nofun, fun i => Nat.le_succ_of_le (h.live.epochs i), fun _ _ => rfl,
    ⟨fun _ => rfl, fun _ => rfl⟩⟩, ⟨List.nodup_nil, nofun⟩, ⟨fun a ha => ?_, nofun⟩⟩
  cases (Rows.up_markAll s.rows a).symm.trans ha

/-! ## The whole run -/

/-- **Every orderly step preserves the invariant.** -/
theorem conn_step {a : Action} (h : Conn s) (ho : Orderly s a) (hs : step repr s a = some s') :
    Conn s' := by
  cases a with
  | accept => exact conn_accept h hs
  | hello i frame => exact conn_hello h hs
  | resumeRegister i cancelled => exact conn_resumeRegister h hs
  | receive i frame => exact conn_receive h hs
  | afterIngest i sent => exact conn_afterIngest h hs
  | leave i => exact conn_leave h hs
  | cancel i => exact ho.1.elim
  | finish i => exact conn_finish h hs
  | work outcome => exact conn_work h ho.1 hs
  | call agentId frame cmdId => exact conn_call h hs
  | endCall k => exact conn_endCall h hs
  | switch r => exact conn_switch h (fun hr => ho.2 (hr ▸ rfl)) hs
  | restart => cases hs; exact conn_restart h

theorem conn_init (rows : Rows) : Conn (.init rows) := by
  refine ⟨⟨fun _ _ => nofun, nofun, fun _ => Nat.le_refl _, fun _ _ => rfl,
    ⟨fun _ => rfl, fun _ => rfl⟩⟩, ⟨List.nodup_nil, nofun⟩, ⟨fun a ha => ?_, nofun⟩⟩
  cases (Rows.up_markAll rows a).symm.trans ha

theorem conn_reachable (h : (machine repr).ReachableBy Orderly s) : Conn s := by
  refine h.invariant (I := Conn) ?_ ?_
  · rintro s₀ ⟨rows, rfl⟩
    exact conn_init rows
  · intro s₀ a s₁ hc ho hs
    exact conn_step hc ho hs

/-! ## Agreement -/

/-- An attempt that ends before `mark_all_agents_disconnected` leaves the rows in step exactly when
    nobody was up: the new gateway knows no connection. -/
theorem abort_agrees_iff (hs : switch s .abort = some s') :
    Agrees s' ↔ ∀ a, s.rows.up a = false := by
  simp only [switch] at hs
  split at hs
  · cases hs
    constructor
    · intro hagree a
      rw [Bool.eq_false_iff]
      intro hup
      obtain ⟨i, hi, _⟩ := hagree rfl a hup
      cases hi
    · intro hdown _ a hup
      cases (hdown a).symm.trans hup
  · cases hs

/-- A step of a computed run: nothing is cancelled, every operation of the worker succeeds. -/
def Action.smooth : Action → Bool
  | .cancel _     => false
  | .work outcome => decide (outcome = .done)
  | _             => true

theorem Action.listed {a : Action} (ha : a.smooth = true) : Listed s a := by
  cases a with
  | cancel i => cases ha
  | work outcome => exact fun _ _ _ => by simpa [Action.smooth] using ha
  | _ => trivial

/-- A hello with a device online. -/
def onlineHello : Frame :=
  [("type", .str "hello"), ("agent_id", .str "agent-1"),
   ("devices", .arr [.obj [("name", .str "m1"), ("online", .bool true)]])]

/-- An agent is connected; a restore succeeds; the agent comes back to the new gateway. -/
def restoreRun : List Action :=
  [.accept, .hello 0 onlineHello, .work .done, .resumeRegister 0 false, .switch .retire, .leave 0,
   .switch .mark, .work .done, .switch (.replace ⟨[("agent-1", true)], []⟩), .switch .reset,
   .switch .succeed, .accept, .hello 1 onlineHello, .work .done, .resumeRegister 1 false]

/-- No restore is under way. -/
def Restore.isIdle : Restore → Bool
  | .idle => true
  | _     => false

theorem Restore.eq_idle {r : Restore} (h : r.isIdle = true) : r = .idle := by
  cases r with
  | idle => rfl
  | _    => cases h

/-- An agent is connected; a restore retires the registry and then does not get the requests
    drained; the old connection ends. -/
def drainTimeoutRun : List Action :=
  [.accept, .hello 0 onlineHello, .work .done, .resumeRegister 0 false, .switch .retire,
   .switch .abort, .leave 0]

end Air780eHub.Gateway
