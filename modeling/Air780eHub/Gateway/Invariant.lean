/-
  The invariant of the gateway while no restore is in progress.

  1. `RegInv` : the registry and the connections whose cleanup is not done are the same thing, and
     a generation belongs to one connection.
  2. `CallInv` : a pending command waits for the connection that is ready under its agent and
     generation, and what completed a future was lawful: a result read from the connection that
     sent the command, or the loss of that connection.
  3. `JobInv` : an operation in the worker's queue is of a connection that waits for it, so its
     writes are those of the connection that holds the registry entry.
  4. `LogInv` : what was written for an agent is no younger than the connection that holds its
     entry.  With 3 and the order in which generations are given out this orders the writes.

  `Inv.setSocket` is the rule for a step that only moves one connection.
-/
import Air780eHub.Gateway.Model

namespace Air780eHub.Gateway

variable (repr : Value → String)

/-! ## The four groups -/

/-- The connection's cleanup has begun or is done. -/
def Phase.gone : Phase → Bool
  | .closing | .disconnected | .closed => true
  | _                                  => false

/-- The registry against the connections. -/
structure RegInv (s : State) : Prop where
  alive    : s.retired = false
  epochs   : ∀ i, (s.sockets i).phase ≠ .closed → (s.sockets i).epoch = s.epoch
  owner    : ∀ i, (s.sockets i).phase.held = true → s.registry (s.sockets i).agentId = some i
  held     : ∀ a i, s.registry a = some i →
    (s.sockets i).phase.held = true ∧ (s.sockets i).agentId = a
  bound    : ∀ i, (s.sockets i).generation < s.generations
  unique   : ∀ i j, (s.sockets i).generation = (s.sockets j).generation →
    (s.sockets i).generation ≠ 0 → i = j
  awaiting : ∀ i, (s.sockets i).phase = .awaitingHello → (s.sockets i).generation = 0
  unopened : ∀ i, s.opened ≤ i → (s.sockets i).phase = .closed ∧ (s.sockets i).generation = 0
  ready    : ∀ i, (s.sockets i).ready = true → (s.sockets i).phase.live = true
  positive : ∀ i, (s.sockets i).phase.held = true → (s.sockets i).generation ≠ 0
  idle     : s.restore = .idle

/-- What may complete a future. -/
def Completion.lawful (repr : Value → String) (s : State) (f : Future) : Completion → Prop
  | .answered i frame => i = f.socket ∧ pyStr repr (frame.get "cmd_id") = f.cmdId
  | .abandoned i      => i = f.socket ∧ (s.sockets i).phase.gone = true
  | .withdrawn        => True

/-- The entry is of this future. -/
def Pending.waits (p : Pending) (f : Future) : Prop :=
  f.id = p.future ∧ f.cmdId = p.cmdId ∧ f.agentId = p.agentId ∧ f.generation = p.generation

/-- The pending commands and the futures. -/
structure CallInv (s : State) : Prop where
  ids     : (s.futures.map Future.id).Nodup
  bound   : ∀ f ∈ s.futures, f.id < s.futures.length
  sent    : ∀ f ∈ s.futures, (s.sockets f.socket).generation = f.generation ∧
    (s.sockets f.socket).agentId = f.agentId ∧ f.generation ≠ 0
  lawful  : ∀ f ∈ s.futures, ∀ c, f.outcome = some c → c.lawful repr s f
  current : ∀ p ∈ s.pending, ∃ i, s.registry p.agentId = some i ∧
    (s.sockets i).ready = true ∧ (s.sockets i).generation = p.generation
  waits   : ∀ p ∈ s.pending, ∃ f ∈ s.futures, p.waits f

/-- Who waits for an operation is where it should be. -/
def Job.fits (s : State) : Job → Prop
  | .persist i    => (s.sockets i).phase = .registering
  | .event i      => ∃ frame, (s.sockets i).phase = .ingesting frame
  | .disconnect i => (s.sockets i).phase = .closing
  | .markAll      => s.restore = .marking

/-- The connection that waits for an operation. -/
def Job.socket? : Job → Option Nat
  | .persist i | .event i | .disconnect i => some i
  | .markAll                              => none

/-- The worker's queue. -/
structure JobInv (s : State) : Prop where
  nodup : s.jobs.Nodup
  fits  : ∀ j ∈ s.jobs, j.fits s

/-- Writes of one agent run in the order of the generations. -/
def Ordered (writes : List WriteEntry) : Prop :=
  writes.Pairwise fun w w' => w.agentId = w'.agentId → w.generation ≤ w'.generation

/-- What was written. -/
structure LogInv (s : State) : Prop where
  bound   : ∀ w ∈ s.writes, w.generation < s.generations
  owner   : ∀ w ∈ s.writes, ∀ i, s.registry w.agentId = some i →
    w.generation ≤ (s.sockets i).generation
  ordered : Ordered s.writes

/-- **The invariant of the gateway.** -/
structure Inv (s : State) : Prop where
  reg  : RegInv s
  call : CallInv repr s
  job  : JobInv s
  log  : LogInv s

variable {repr} {s : State}

/-! ## What the invariant says of a connection -/

theorem Phase.held_of_live {p : Phase} (h : p.live = true) : p.held = true := by
  cases p <;> simp_all [Phase.live, Phase.held]

/-- No connection whose cleanup is not done is stale. -/
theorem RegInv.not_stale (h : RegInv s) {i : Nat} (hp : (s.sockets i).phase ≠ .closed) :
    s.stale i = false := by
  unfold State.stale
  rw [h.alive, h.epochs i hp]
  simp

/-- Only a connection in its receive loop is ready. -/
theorem RegInv.not_ready (h : RegInv s) {i : Nat} (hp : (s.sockets i).phase.live = false) :
    ¬(s.sockets i).ready = true := fun hr => by
  have hlive := h.ready i hr
  rw [hp] at hlive
  cases hlive

/-- Two held connections of one agent are the same. -/
theorem RegInv.held_unique (h : RegInv s) {i j : Nat} (hi : (s.sockets i).phase.held = true)
    (hj : (s.sockets j).phase.held = true) (heq : (s.sockets i).agentId = (s.sockets j).agentId) :
    i = j := by
  have hi' := h.owner i hi
  rw [heq, h.owner j hj] at hi'
  exact (Option.some.inj hi').symm

/-- The phases in which a connection does not wait for the worker. -/
def Phase.idle : Phase → Bool
  | .registering | .ingesting _ | .closing => false
  | _                                      => true

/-- A connection that does not wait for the worker has nothing in its queue. -/
theorem JobInv.idle (h : JobInv s) {i : Nat} (hp : (s.sockets i).phase.idle = true) :
    ∀ j ∈ s.jobs, j.socket? ≠ some i := by
  intro j hj heq
  have hfit := h.fits j hj
  cases j with
  | persist k =>
    cases heq
    rw [show (s.sockets i).phase = .registering from hfit] at hp
    cases hp
  | event k =>
    cases heq
    obtain ⟨frame, hf⟩ := hfit
    rw [hf] at hp
    cases hp
  | disconnect k =>
    cases heq
    rw [show (s.sockets i).phase = .closing from hfit] at hp
    cases hp
  | markAll => cases heq

/-- A pending command waits for a connection that owes it, and for no other. -/
theorem Inv.owed (h : Inv repr s) {p : Pending} (hp : p ∈ s.pending) :
    ∃ i, (s.sockets i).ready = true ∧ s.registry p.agentId = some i ∧
      (s.sockets i).agentId = p.agentId ∧ (s.sockets i).generation = p.generation := by
  obtain ⟨i, hreg, hready, hgen⟩ := h.call.current p hp
  exact ⟨i, hready, hreg, (h.reg.held _ i hreg).2, hgen⟩

/-- The future a connection owes a pending command was sent by that connection. -/
theorem Inv.sent_by (h : Inv repr s) {p : Pending} (hp : p ∈ s.pending) {i : Nat}
    (howes : (s.sockets i).owes p = true) {f : Future} (hf : f ∈ s.futures)
    (hid : f.id = p.future) : f.socket = i ∧ f.cmdId = p.cmdId := by
  obtain ⟨g, hg, hgid, hcmd, hagent, hgen⟩ := h.call.waits p hp
  obtain rfl : f = g := eq_of_key_eq h.call.ids hf hg (hid.trans hgid.symm)
  obtain ⟨hsgen, _, hne⟩ := h.call.sent f hf
  simp only [Socket.owes, Bool.and_eq_true, decide_eq_true_eq] at howes
  refine ⟨h.reg.unique f.socket i ?_ ?_, hcmd⟩
  · rw [hsgen, hgen, howes.2]
  · rw [hsgen]; exact hne

/-- Two operations that fit one connection are the same. -/
theorem Job.eq_of_fits {j k : Job} {i : Nat} (hj : j.fits s) (hk : k.fits s)
    (hji : j.socket? = some i) (hki : k.socket? = some i) : j = k := by
  cases j with
  | persist a =>
    cases hji
    have hp : (s.sockets i).phase = .registering := hj
    cases k with
    | persist b => cases hki; rfl
    | event b => cases hki; obtain ⟨f, hf⟩ := hk; cases hp.symm.trans hf
    | disconnect b => cases hki; cases hp.symm.trans hk
    | markAll => cases hki
  | event a =>
    cases hji
    obtain ⟨f, hp⟩ : ∃ f, (s.sockets i).phase = .ingesting f := hj
    cases k with
    | persist b => cases hki; cases hp.symm.trans hk
    | event b => cases hki; rfl
    | disconnect b => cases hki; cases hp.symm.trans hk
    | markAll => cases hki
  | disconnect a =>
    cases hji
    have hp : (s.sockets i).phase = .closing := hj
    cases k with
    | persist b => cases hki; cases hp.symm.trans hk
    | event b => cases hki; obtain ⟨f, hf⟩ := hk; cases hp.symm.trans hf
    | disconnect b => cases hki; rfl
    | markAll => cases hki
  | markAll => cases hji

/-- Once the operation a connection waits for is out of the queue, nothing of it is there. -/
theorem JobInv.erased (h : JobInv s) {j : Job} {i : Nat} (hj : j.fits s)
    (hji : j.socket? = some i) {jobs : List Job} (hsub : ∀ k ∈ jobs, k ∈ s.jobs) (hnot : j ∉ jobs) :
    ∀ k ∈ jobs, k.socket? ≠ some i := by
  intro k hk hki
  have heq : j = k := Job.eq_of_fits hj (h.fits k (hsub k hk)) hji hki
  exact hnot (heq ▸ hk)

/-- The operation at the head of the queue is the only one of its connection. -/
theorem JobInv.popped (h : JobInv s) {j : Job} {rest : List Job} {i : Nat}
    (hjobs : s.jobs = j :: rest) (hj : j.fits s) (hji : j.socket? = some i) :
    ∀ k ∈ rest, k.socket? ≠ some i := by
  have hnodup := h.nodup
  rw [hjobs] at hnodup
  exact h.erased hj hji (fun k hk => hjobs ▸ List.mem_cons_of_mem _ hk)
    (List.nodup_cons.mp hnodup).1

/-- A connection that was opened is one of the first. -/
theorem RegInv.opened (h : RegInv s) {i : Nat} (hp : (s.sockets i).phase ≠ .closed) :
    i < s.opened :=
  Nat.lt_of_not_le fun hle => hp (h.unopened i hle).1

/-- Nobody waits for a connection that is not ready. -/
theorem Inv.not_owed (h : Inv repr s) {i : Nat} (hready : ¬(s.sockets i).ready = true) :
    ∀ p ∈ s.pending, (s.sockets i).owes p = false := by
  intro p hp
  rw [Bool.eq_false_iff]
  intro howes
  obtain ⟨j, hrj, _, _, hgen⟩ := h.owed hp
  obtain ⟨f, hf, _, _, _, hfgen⟩ := h.call.waits p hp
  have hne := (h.call.sent f hf).2.2
  simp only [Socket.owes, Bool.and_eq_true, decide_eq_true_eq] at howes
  have hij : j = i := h.reg.unique j i (hgen.trans howes.2) (by rw [hgen, ← hfgen]; exact hne)
  exact hready (hij ▸ hrj)

/-! ## Steps that change one part -/

@[simp] theorem State.setSocket_self (s : State) (i : Nat) (c : Socket) :
    (s.setSocket i c).sockets i = c := if_pos rfl

theorem State.setSocket_other (s : State) {i j : Nat} (c : Socket) (h : j ≠ i) :
    (s.setSocket i c).sockets j = s.sockets j := if_neg h

/-- A connection that waits for no operation may move freely. -/
theorem JobInv.setSocket (h : JobInv s) {i : Nat} {c : Socket}
    (hjobs : ∀ j ∈ s.jobs, j.socket? ≠ some i) : JobInv (s.setSocket i c) := by
  refine ⟨h.nodup, fun j hj => ?_⟩
  have hfit := h.fits j hj
  have hne := hjobs j hj
  have hold : ∀ k, k ≠ i → (s.setSocket i c).sockets k = s.sockets k := fun k hk =>
    State.setSocket_other s c hk
  cases j with
  | persist k =>
    show ((s.setSocket i c).sockets k).phase = _
    rw [hold k fun heq => hne (heq ▸ rfl)]; exact hfit
  | event k =>
    show ∃ frame, ((s.setSocket i c).sockets k).phase = _
    rw [hold k fun heq => hne (heq ▸ rfl)]; exact hfit
  | disconnect k =>
    show ((s.setSocket i c).sockets k).phase = _
    rw [hold k fun heq => hne (heq ▸ rfl)]; exact hfit
  | markAll => exact hfit

/-- An operation is handed to the worker by who waits for it. -/
theorem JobInv.push (h : JobInv s) {j : Job} (hnew : j ∉ s.jobs) (hfit : j.fits s) :
    JobInv { s with jobs := s.jobs ++ [j] } := by
  refine ⟨?_, fun k hk => ?_⟩
  · refine List.nodup_append.mpr ⟨h.nodup, List.nodup_singleton _, fun a ha b hb heq => ?_⟩
    rw [heq, List.mem_singleton.mp hb] at ha
    exact hnew ha
  · rcases List.mem_append.mp hk with hk | hk
    · exact h.fits k hk
    · rw [List.mem_singleton.mp hk]; exact hfit

/-- The rows are nobody's business here. -/
theorem Inv.rows (h : Inv repr s) (rows : Rows) : Inv repr { s with rows } :=
  ⟨⟨h.reg.alive, h.reg.epochs, h.reg.owner, h.reg.held, h.reg.bound, h.reg.unique, h.reg.awaiting,
    h.reg.unopened, h.reg.ready, h.reg.positive, h.reg.idle⟩,
   ⟨h.call.ids, h.call.bound, h.call.sent, h.call.lawful, h.call.current, h.call.waits⟩,
   ⟨h.job.nodup, h.job.fits⟩, ⟨h.log.bound, h.log.owner, h.log.ordered⟩⟩

/-- Operations are taken from the queue. -/
theorem Inv.dropJobs (h : Inv repr s) {jobs : List Job} (hsub : jobs.Sublist s.jobs) :
    Inv repr { s with jobs } :=
  ⟨⟨h.reg.alive, h.reg.epochs, h.reg.owner, h.reg.held, h.reg.bound, h.reg.unique, h.reg.awaiting,
    h.reg.unopened, h.reg.ready, h.reg.positive, h.reg.idle⟩,
   ⟨h.call.ids, h.call.bound, h.call.sent, h.call.lawful, h.call.current, h.call.waits⟩,
   ⟨h.job.nodup.sublist hsub, fun j hj => h.job.fits j (hsub.subset hj)⟩,
   ⟨h.log.bound, h.log.owner, h.log.ordered⟩⟩

/-- An operation is handed to the worker. -/
theorem Inv.pushJob (h : Inv repr s) {j : Job} (hnew : j ∉ s.jobs) (hfit : j.fits s) :
    Inv repr { s with jobs := s.jobs ++ [j] } := by
  have hjob := h.job.push hnew hfit
  exact ⟨⟨h.reg.alive, h.reg.epochs, h.reg.owner, h.reg.held, h.reg.bound, h.reg.unique,
      h.reg.awaiting, h.reg.unopened, h.reg.ready, h.reg.positive, h.reg.idle⟩,
    ⟨h.call.ids, h.call.bound, h.call.sent, h.call.lawful, h.call.current, h.call.waits⟩,
    ⟨hjob.nodup, hjob.fits⟩, ⟨h.log.bound, h.log.owner, h.log.ordered⟩⟩

/-- A connect or disconnect write of the connection that holds the entry is logged. -/
theorem Inv.logWrite (h : Inv repr s) {i : Nat} (hheld : (s.sockets i).phase.held = true)
    (connected : Bool) : Inv repr { s with
      writes := s.writes ++ [⟨(s.sockets i).agentId, (s.sockets i).generation, connected⟩] } := by
  have howner := h.reg.owner i hheld
  refine ⟨⟨h.reg.alive, h.reg.epochs, h.reg.owner, h.reg.held, h.reg.bound, h.reg.unique,
      h.reg.awaiting, h.reg.unopened, h.reg.ready, h.reg.positive, h.reg.idle⟩,
    ⟨h.call.ids, h.call.bound, h.call.sent, h.call.lawful, h.call.current, h.call.waits⟩,
    ⟨h.job.nodup, h.job.fits⟩, ⟨?_, ?_, ?_⟩⟩
  · intro w hw
    rcases List.mem_append.mp hw with hw | hw
    · exact h.log.bound w hw
    · rw [List.mem_singleton.mp hw]; exact h.reg.bound i
  · intro w hw k hk
    rcases List.mem_append.mp hw with hw | hw
    · exact h.log.owner w hw k hk
    · rw [List.mem_singleton.mp hw] at hk ⊢
      obtain rfl : i = k := Option.some.inj (howner.symm.trans hk)
      exact Nat.le_refl _
  · refine List.pairwise_append.mpr ⟨h.log.ordered, List.pairwise_singleton _ _, ?_⟩
    intro w hw w' hw' heq
    rw [List.mem_singleton.mp hw'] at heq ⊢
    exact h.log.owner w hw i (heq ▸ howner)

/-- Entries go. -/
theorem Inv.dropPending (h : Inv repr s) {pending : List Pending}
    (hsub : ∀ p ∈ pending, p ∈ s.pending) : Inv repr { s with pending } :=
  ⟨⟨h.reg.alive, h.reg.epochs, h.reg.owner, h.reg.held, h.reg.bound, h.reg.unique, h.reg.awaiting,
    h.reg.unopened, h.reg.ready, h.reg.positive, h.reg.idle⟩,
   ⟨h.call.ids, h.call.bound, h.call.sent, h.call.lawful, fun p hp => h.call.current p (hsub p hp),
    fun p hp => h.call.waits p (hsub p hp)⟩,
   ⟨h.job.nodup, h.job.fits⟩, ⟨h.log.bound, h.log.owner, h.log.ordered⟩⟩

/-- Futures are completed lawfully. -/
theorem Inv.completeAll (h : Inv repr s) {q : Future → Bool} {c : Completion}
    (hq : ∀ f ∈ s.futures, q f = true → c.lawful repr s f) :
    Inv repr { s with
      futures := updateWhere q (fun f => { f with outcome := some c }) s.futures } := by
  have hmem : ∀ g ∈ updateWhere q (fun f => { f with outcome := some c }) s.futures,
      ∃ f ∈ s.futures, (q f = true ∧ g = { f with outcome := some c }) ∨ g = f := by
    intro g hg
    rcases of_mem_updateWhere hg with ⟨f, hf, hqf, rfl⟩ | ⟨hg, _⟩
    · exact ⟨f, hf, Or.inl ⟨hqf, rfl⟩⟩
    · exact ⟨g, hg, Or.inr rfl⟩
  refine ⟨⟨h.reg.alive, h.reg.epochs, h.reg.owner, h.reg.held, h.reg.bound, h.reg.unique,
      h.reg.awaiting, h.reg.unopened, h.reg.ready, h.reg.positive, h.reg.idle⟩, ⟨?_, ?_, ?_, ?_, ?_, ?_⟩,
    ⟨h.job.nodup, h.job.fits⟩, ⟨h.log.bound, h.log.owner, h.log.ordered⟩⟩
  · have hids : (updateWhere q (fun f => { f with outcome := some c }) s.futures).map Future.id =
        s.futures.map Future.id := map_updateWhere fun _ _ _ => rfl
    show (List.map Future.id (updateWhere _ _ s.futures)).Nodup
    rw [hids]
    exact h.call.ids
  · intro g hg
    have hlen : (updateWhere q (fun f => { f with outcome := some c }) s.futures).length =
        s.futures.length := List.length_map _
    show g.id < List.length (updateWhere _ _ s.futures)
    rw [hlen]
    obtain ⟨f, hf, ⟨_, rfl⟩ | rfl⟩ := hmem g hg
    · exact h.call.bound f hf
    · exact h.call.bound g hf
  · intro g hg
    obtain ⟨f, hf, ⟨_, rfl⟩ | rfl⟩ := hmem g hg
    · exact h.call.sent f hf
    · exact h.call.sent g hf
  · intro g hg c' hc'
    obtain ⟨f, hf, ⟨hqf, rfl⟩ | rfl⟩ := hmem g hg
    · cases hc'
      have hlaw := hq f hf hqf
      cases c with
      | answered k frame => exact hlaw
      | abandoned k => exact hlaw
      | withdrawn => trivial
    · exact h.call.lawful g hf c' hc'
  · exact h.call.current
  · intro p hp
    obtain ⟨f, hf, hw⟩ := h.call.waits p hp
    refine ⟨_, mem_updateWhere.mpr ⟨f, hf, rfl⟩, ?_⟩
    split <;> exact hw

/-- A future's completion stays lawful when no connection comes back. -/
theorem Completion.lawful_mono {s' : State} {f : Future} {c : Completion}
    (h : c.lawful repr s f)
    (hgone : (s.sockets f.socket).phase.gone = true → (s'.sockets f.socket).phase.gone = true) :
    c.lawful repr s' f := by
  cases c with
  | answered k frame => exact h
  | abandoned k =>
    obtain ⟨rfl, hg⟩ := h
    exact ⟨rfl, hgone hg⟩
  | withdrawn => trivial

/-- What a step must respect that moves one connection to `c`, and with it perhaps its registry
    entry, the counter of generations and the number of connections. -/
structure Move (s : State) (i : Nat) (c : Socket) (registry : String → Option Nat)
    (generations opened : Nat) : Prop where
  /-- The entries of other connections are left alone. -/
  others    : ∀ a j, j ≠ i → (registry a = some j ↔ s.registry a = some j)
  mine      : ∀ a, registry a = some i → c.phase.held = true ∧ c.agentId = a
  holds     : c.phase.held = true → registry c.agentId = some i
  bound     : s.generations ≤ generations ∧ c.generation < generations
  unique    : ∀ j, j ≠ i → (s.sockets j).generation = c.generation → c.generation = 0
  awaiting  : c.phase = .awaitingHello → c.generation = 0
  positive  : c.phase.held = true → c.generation ≠ 0
  opened    : s.opened ≤ opened ∧ i < opened
  epoch     : c.phase ≠ .closed → c.epoch = s.epoch
  ready     : c.ready = true → c.phase.live = true
  /-- The connection stays ready, or nobody waits for it. -/
  keeps     : (c.ready = true ∧ c.generation = (s.sockets i).generation ∧
      c.agentId = (s.sockets i).agentId) ∨ ∀ p ∈ s.pending, (s.sockets i).owes p = false
  /-- It keeps its identity and does not come back from its cleanup, if it ever had a command. -/
  identity  : ∀ f ∈ s.futures, f.socket = i → c.generation = (s.sockets i).generation ∧
      c.agentId = (s.sockets i).agentId ∧
      ((s.sockets i).phase.gone = true → c.phase.gone = true)
  log       : ∀ w ∈ s.writes, registry w.agentId = some i → w.generation ≤ c.generation
  jobs      : ∀ j ∈ s.jobs, j.socket? ≠ some i

/-- **The rule for a step that moves one connection.** -/
theorem Inv.move (h : Inv repr s) {i : Nat} {c : Socket} {registry : String → Option Nat}
    {generations opened : Nat} (m : Move s i c registry generations opened) :
    Inv repr { s.setSocket i c with registry, generations, opened } := by
  have hnew : (s.setSocket i c).sockets i = c := State.setSocket_self s i c
  have hold : ∀ j, j ≠ i → (s.setSocket i c).sockets j = s.sockets j := fun j hj =>
    State.setSocket_other s c hj
  constructor
  case reg =>
    constructor
    case alive => exact h.reg.alive
    case idle => exact h.reg.idle
    case epochs =>
      intro j hj
      by_cases hji : j = i
      · rw [hji] at hj ⊢
        rw [hnew] at hj ⊢
        exact m.epoch hj
      · rw [hold j hji] at hj ⊢; exact h.reg.epochs j hj
    case owner =>
      intro j hj
      by_cases hji : j = i
      · rw [hji] at hj ⊢
        rw [hnew] at hj ⊢
        exact m.holds hj
      · rw [hold j hji] at hj ⊢
        exact (m.others _ j hji).mpr (h.reg.owner j hj)
    case held =>
      intro a j hj
      by_cases hji : j = i
      · rw [hji] at hj ⊢
        rw [hnew]; exact m.mine a hj
      · rw [hold j hji]; exact h.reg.held a j ((m.others a j hji).mp hj)
    case bound =>
      intro j
      by_cases hji : j = i
      · rw [hji, hnew]; exact m.bound.2
      · rw [hold j hji]; exact Nat.lt_of_lt_of_le (h.reg.bound j) m.bound.1
    case unique =>
      intro j k heq hne
      by_cases hji : j = i
      · by_cases hki : k = i
        · rw [hji, hki]
        · rw [hji, hnew, hold k hki] at heq
          rw [hji, hnew] at hne
          exact absurd (m.unique k hki heq.symm) hne
      · by_cases hki : k = i
        · rw [hki, hnew, hold j hji] at heq
          rw [hold j hji, heq] at hne
          exact absurd (m.unique j hji heq) hne
        · rw [hold j hji] at heq hne
          rw [hold k hki] at heq
          exact h.reg.unique j k heq hne
    case awaiting =>
      intro j hj
      by_cases hji : j = i
      · rw [hji] at hj ⊢
        rw [hnew] at hj ⊢
        exact m.awaiting hj
      · rw [hold j hji] at hj ⊢; exact h.reg.awaiting j hj
    case unopened =>
      intro j hj
      have hji : j ≠ i := Nat.ne_of_gt (Nat.lt_of_lt_of_le m.opened.2 hj)
      rw [hold j hji]
      exact h.reg.unopened j (Nat.le_trans m.opened.1 hj)
    case ready =>
      intro j hj
      by_cases hji : j = i
      · rw [hji] at hj ⊢
        rw [hnew] at hj ⊢
        exact m.ready hj
      · rw [hold j hji] at hj ⊢; exact h.reg.ready j hj
    case positive =>
      intro j hj
      by_cases hji : j = i
      · rw [hji] at hj ⊢
        rw [hnew] at hj ⊢
        exact m.positive hj
      · rw [hold j hji] at hj ⊢; exact h.reg.positive j hj
  case call =>
    refine ⟨h.call.ids, h.call.bound, ?_, ?_, ?_, h.call.waits⟩
    · intro f hf
      by_cases hfi : f.socket = i
      · obtain ⟨hg, ha, _⟩ := m.identity f hf hfi
        have hsent := h.call.sent f hf
        rw [hfi] at hsent ⊢
        rw [hnew, hg, ha]; exact hsent
      · rw [hold _ hfi]; exact h.call.sent f hf
    · intro f hf cc hcc
      refine Completion.lawful_mono (h.call.lawful f hf cc hcc) fun hg => ?_
      by_cases hfi : f.socket = i
      · rw [hfi] at hg ⊢
        rw [hnew]; exact (m.identity f hf hfi).2.2 hg
      · rw [hold _ hfi]; exact hg
    · intro p hp
      obtain ⟨j, hreg, hrd, hg⟩ := h.call.current p hp
      by_cases hji : j = i
      · have hagent := (h.reg.held _ j hreg).2
        rw [hji] at hagent hg
        rcases m.keeps with ⟨hk, hkg, hka⟩ | hk
        · refine ⟨i, ?_, ?_, ?_⟩
          · rw [← hagent, ← hka]
            exact m.holds (Phase.held_of_live (m.ready hk))
          · rw [hnew]; exact hk
          · rw [hnew, hkg]; exact hg
        · -- the entry would be owed by this very connection
          have howes : (s.sockets i).owes p = true := by simp [Socket.owes, hagent, hg]
          rw [hk p hp] at howes
          cases howes
      · refine ⟨j, (m.others _ j hji).mpr hreg, ?_⟩
        rw [hold j hji]; exact ⟨hrd, hg⟩
  case job =>
    have hjob := h.job.setSocket (c := c) m.jobs
    exact ⟨hjob.nodup, hjob.fits⟩
  case log =>
    refine ⟨fun w hw => Nat.lt_of_lt_of_le (h.log.bound w hw) m.bound.1, ?_, h.log.ordered⟩
    intro w hw j hj
    by_cases hji : j = i
    · rw [hji] at hj ⊢
      rw [hnew]; exact m.log w hw hj
    · rw [hold j hji]; exact h.log.owner w hw j ((m.others _ j hji).mp hj)

/-- The rule for a step that leaves the registry alone.  The connection keeps its identity and its
    hold on the registry, does not come back from its cleanup, loses its readiness only when
    nobody waits for it, and has nothing in the worker's queue. -/
theorem Inv.setSocket (h : Inv repr s) {i : Nat} {c : Socket}
    (hid : c.agentId = (s.sockets i).agentId) (hgen : c.generation = (s.sockets i).generation)
    (hepoch : c.epoch = (s.sockets i).epoch)
    (hheld : c.phase.held = (s.sockets i).phase.held)
    (hawait : c.phase ≠ .awaitingHello) (hopen : i < s.opened)
    (hclosed : c.phase ≠ .closed → (s.sockets i).phase ≠ .closed)
    (hready : c.ready = true → c.phase.live = true)
    (hkeep : c.ready = true ∨ ∀ p ∈ s.pending, (s.sockets i).owes p = false)
    (hgone : (s.sockets i).phase.gone = true → c.phase.gone = true)
    (hjobs : ∀ j ∈ s.jobs, j.socket? ≠ some i) : Inv repr (s.setSocket i c) := by
  have m : Move s i c s.registry s.generations s.opened := by
    constructor
    case others => exact fun _ _ _ => Iff.rfl
    case mine => intro a ha; rw [hheld, hid]; exact h.reg.held a i ha
    case holds => intro hc; rw [hid]; exact h.reg.owner i (hheld ▸ hc)
    case bound => rw [hgen]; exact ⟨Nat.le_refl _, h.reg.bound i⟩
    case unique =>
      intro j hji heq
      rw [hgen] at heq ⊢
      by_contra hne
      exact hji (h.reg.unique j i heq (heq ▸ hne))
    case awaiting => exact fun hc => absurd hc hawait
    case positive => intro hc; rw [hgen]; exact h.reg.positive i (hheld ▸ hc)
    case opened => exact ⟨Nat.le_refl _, hopen⟩
    case epoch => intro hc; rw [hepoch]; exact h.reg.epochs i (hclosed hc)
    case ready => exact hready
    case keeps => exact hkeep.imp_left fun hk => ⟨hk, hgen, hid⟩
    case identity => exact fun _ _ _ => ⟨hgen, hid, hgone⟩
    case log => intro w hw hi; rw [hgen]; exact h.log.owner w hw i hi
    case jobs => exact hjobs
  exact h.move m

end Air780eHub.Gateway
