/-
  The life of operations along a run: the dispatcher, the statements, the laws.

  `dispatch_operations_once` claims and sends across awaits, so it is a program with a position
  (`Dispatch`): it expires, selects at most 32 queued rows on devices where nothing runs, and for
  each one loads the row, checks the agent's connection, claims the row, sends its frame, and writes
  a failed send down.  Everything else that touches operations (the API, the gateway, startup,
  restore) is one statement a step, and may fall between any two steps of the dispatcher.

  Ghosts: `claimed` lists the id of every successful claim, `sent` the id of every frame handed to
  a socket, whether or not the send completed.

  The laws (`operations_lawful`):
  1. rows only advance: final rows do not change, nothing returns to queued;
  2. no id is claimed twice and no id is sent twice;
  3. a row leaves `unknown` only under a result frame that names it in full;
  4. a result frame changes no row of another agent or stream;
  5. an idempotency key names one operation for good, and refuses another request.
-/
import Air780eHub.Lib.Machine
import Air780eHub.Server.Operations
import Mathlib.Data.List.Sort
import Mathlib.Logic.Equiv.Basic

namespace Air780eHub.Operation

/-- Where `dispatch_operations_once` is. -/
inductive Dispatch
  | idle
  /-- `expire_operations` is done. -/
  | expired
  /-- The ids still to look at, and the devices seen. -/
  | loop (rows : List String) (seen : List Nat)
  /-- The row was read. -/
  | loaded (op : Operation) (rows : List String) (seen : List Nat)
  /-- The claim succeeded; the frame is about to be sent. -/
  | claimed (op : Operation) (rows : List String) (seen : List Nat)
  /-- The send raised or timed out. -/
  | failing (op : Operation) (rows : List String) (seen : List Nat)

structure State where
  ops      : List Operation
  dispatch : Dispatch
  /-- Ghost: the ids claimed. -/
  claimed  : List String
  /-- Ghost: the ids whose frame was handed to a socket. -/
  sent     : List String

/-- Another row of the same device is running. -/
def deviceBusy (ops : List Operation) (q : Operation) : Bool :=
  ops.any fun r => decide (r.deviceId = q.deviceId) && decide (r.status = .running)

/-- The select of `dispatch_operations_once`. -/
def dispatchable (ops : List Operation) : List String :=
  (((ops.filter fun q => decide (q.status = .queued) && !deviceBusy ops q).insertionSort
    fun a b => a.createdAt ≤ b.createdAt).take 32).map id

/-- One step. -/
inductive Action
  | create (req : OpRequest) (id token now : String)
  /-- `claim_operation` called by itself. -/
  | claim (id now : String)
  | cancel (id : String)
  | expire (now : String)
  | disconnect (connectionId : String)
  | rebind (agentId streamId connectionId : String)
  | recover
  | cancelQueued
  | resetRuntime
  | result (identity : Identity) (agentId streamId : String) (frame : Frame)
  | dispatchExpire (now : String)
  | dispatchSelect
  | dispatchLoad
  /-- The dispatcher's check and claim.  `connection` is the registered connection of the agent:
      its id, and whether it is ready. -/
  | dispatchClaim (connection : Option (String × Bool)) (now : String)
  | dispatchSend (ok : Bool)
  | dispatchFail
  /-- The dispatcher raised, was cancelled, or died with the Server. -/
  | dispatchAbort

variable (sha256 : String → String)

/-- The connection check of the dispatcher. -/
def sendable (op : Operation) : Option (String × Bool) → Bool
  | some (connectionId, ready) => ready && decide (connectionId = op.connectionId)
  | none                       => false

/-- `claim_operation`, entering the ghost log. -/
def State.claim (s : State) (id now : String) : Bool × State :=
  match Operation.claim s.ops id now with
  | (true, ops)  => (true, { s with ops, claimed := s.claimed ++ [id] })
  | (false, ops) => (false, { s with ops })

/-- One step. -/
def step (s : State) : Action → Option State
  | .create req id token now =>
    match Operation.create s.ops sha256 req id token now with
    | .ok (_, ops) => some { s with ops }
    | .error _     => some s
  | .claim id now                        => some (s.claim id now).2
  | .cancel id                           => some { s with ops := Operation.cancel s.ops id }
  | .expire now                          => some { s with ops := Operation.expire s.ops now }
  | .disconnect connectionId             =>
    some { s with ops := Operation.disconnect s.ops connectionId }
  | .rebind agentId streamId connectionId =>
    some { s with ops := Operation.rebind s.ops agentId streamId connectionId }
  | .recover                             => some { s with ops := Operation.recover s.ops }
  | .cancelQueued                        => some { s with ops := Operation.cancelQueued s.ops }
  | .resetRuntime                        => some { s with ops := Operation.resetRuntime s.ops }
  | .result identity agentId streamId frame =>
    some { s with ops := Operation.applyResult s.ops identity agentId streamId frame }
  | .dispatchExpire now => match s.dispatch with
    | .idle => some { s with ops := Operation.expire s.ops now, dispatch := .expired }
    | _     => none
  | .dispatchSelect => match s.dispatch with
    | .expired => some { s with dispatch := .loop (dispatchable s.ops) [] }
    | _        => none
  | .dispatchLoad => match s.dispatch with
    | .loop [] _             => some { s with dispatch := .idle }
    | .loop (id :: rows) seen => match find s.ops id with
      | none    => some { s with dispatch := .idle }
      | some op =>
        if op.deviceId ∈ seen then some { s with dispatch := .loop rows seen }
        else some { s with dispatch := .loaded op rows (op.deviceId :: seen) }
    | _ => none
  | .dispatchClaim connection now => match s.dispatch with
    | .loaded op rows seen =>
      if sendable op connection then
        match s.claim op.id now with
        | (true, s')  => some { s' with dispatch := .claimed op rows seen }
        | (false, s') => some { s' with dispatch := .loop rows seen }
      else some { s with dispatch := .loop rows seen }
    | _ => none
  | .dispatchSend ok => match s.dispatch with
    | .claimed op rows seen => some { s with
        sent     := s.sent ++ [op.id]
        dispatch := if ok then .loop rows seen else .failing op rows seen }
    | _ => none
  | .dispatchFail => match s.dispatch with
    | .failing op rows seen => some { s with
        ops      := Operation.sendFailed s.ops op.id
        dispatch := .loop rows seen }
    | _ => none
  | .dispatchAbort => some { s with dispatch := .idle }

/-- No operation yet. -/
def State.init : State := ⟨[], .idle, [], []⟩

/-- The operations of the Server. -/
def machine : Machine State Action where
  Start s := s = .init
  step    := step sha256

variable {sha256}

/-! ## What a step does to the rows -/

/-- The step is a result frame that names the row in full. -/
def IsResultFor (a : Action) (r : Operation) : Prop :=
  ∃ identity agentId streamId frame, a = .result identity agentId streamId frame ∧
    Matches agentId streamId frame r

/-- **Everything a step can do to the rows.**  Rows are never removed. -/
inductive Effect (sha256 : String → String) (a : Action) (s t : State) : Prop
  /-- The rows stay as they are. -/
  | same (hops : t.ops = s.ops) (hclaimed : t.claimed = s.claimed)
  /-- A new operation is queued. -/
  | insert (req : OpRequest) (i token now : String)
      (hkey : ∀ r ∈ s.ops, sameKey req r = false) (hid : ∀ r ∈ s.ops, r.id ≠ i)
      (hops : t.ops = s.ops ++ [fresh sha256 req i token now])
      (hclaimed : t.claimed = s.claimed)
  /-- Rows that are not final move on, none of them to running; leaving unknown takes a frame. -/
  | update (p : Operation → Bool) (f : Operation → Operation)
      (hmove : ∀ r, p r = true → Moves r (f r))
      (hrun : ∀ r, p r = true → (f r).status ≠ .running)
      (hunknown : ∀ r, p r = true → r.status = .unknown → IsResultFor a r)
      (hops : t.ops = updateWhere p f s.ops) (hclaimed : t.claimed = s.claimed)
  /-- The one queued row of an id is claimed. -/
  | claim (i now : String) (r : Operation) (hr : r ∈ s.ops) (hp : claimable i now r = true)
      (hops : t.ops = updateWhere (claimable i now) (fun r => { r with status := .running }) s.ops)
      (hclaimed : t.claimed = s.claimed ++ [i])

variable {s t : State}

theorem Effect.of_quiet {a : Action} (h : QuietUpdate s.ops t.ops)
    (hclaimed : t.claimed = s.claimed) : Effect sha256 a s t := by
  obtain ⟨p, f, hops, hp⟩ := h
  exact .update p f (fun r hr => (hp r hr).1) (fun r hr => (hp r hr).2.1)
    (fun r hr hu => absurd hu (hp r hr).2.2) hops hclaimed

/-- The effect does not look at the dispatcher. -/
theorem Effect.of_dispatch {a : Action} {d : Dispatch} (h : Effect sha256 a s t) :
    Effect sha256 a s { t with dispatch := d } := by
  cases h with
  | same hops hclaimed => exact .same hops hclaimed
  | insert req i token now hkey hid hops hclaimed =>
    exact .insert req i token now hkey hid hops hclaimed
  | update p f hmove hrun hunknown hops hclaimed =>
    exact .update p f hmove hrun hunknown hops hclaimed
  | claim i now r hr hp hops hclaimed => exact .claim i now r hr hp hops hclaimed

/-- A claim that succeeds found a claimable row and is entered in the log. -/
theorem claim_spec {i now : String} {b : Bool} (h : s.claim i now = (b, t)) :
    t.dispatch = s.dispatch ∧ t.sent = s.sent ∧
      (b = true → (∃ r ∈ s.ops, claimable i now r = true) ∧ t.claimed = s.claimed ++ [i]) := by
  unfold State.claim Operation.claim at h
  cases hany : s.ops.any (claimable i now) with
  | true => rw [hany] at h; cases h; exact ⟨rfl, rfl, fun _ => ⟨List.any_eq_true.mp hany, rfl⟩⟩
  | false => rw [hany] at h; cases h; exact ⟨rfl, rfl, by simp⟩

/-- A claim moves the queued row of its id, or changes no row. -/
theorem claim_effect {i now : String} {b : Bool} (h : s.claim i now = (b, t)) (a : Action) :
    Effect sha256 a s t := by
  unfold State.claim Operation.claim at h
  cases hany : s.ops.any (claimable i now) with
  | true =>
    rw [hany] at h
    cases h
    obtain ⟨r, hr, hp⟩ := List.any_eq_true.mp hany
    exact .claim i now r hr hp rfl rfl
  | false =>
    have hnone : ∀ r ∈ s.ops, claimable i now r = false := by simpa using hany
    rw [hany] at h
    cases h
    refine .same ?_ rfl
    have hid : ∀ r ∈ s.ops, (if claimable i now r = true then
        { r with status := OpStatus.running } else r) = r := fun r hr => by
      rw [hnone r hr]; rfl
    exact (List.map_congr_left hid).trans (List.map_id' _)

/-- Every step has one of the effects. -/
theorem step_effect {a : Action} (h : step sha256 s a = some t) : Effect sha256 a s t := by
  cases a with
  | create req i token now =>
    simp only [step] at h
    split at h
    · rename_i newId ops hc
      cases h
      rcases create_spec hc with ⟨hops, _⟩ | ⟨hkey, hid, _, hops⟩
      · exact .same hops rfl
      · exact .insert req i token now hkey hid hops rfl
    · cases h; exact .same rfl rfl
  | claim i now => cases h; exact claim_effect rfl _
  | cancel i => cases h; exact .of_quiet (cancel_quiet i) rfl
  | expire now => cases h; exact .of_quiet (expire_quiet now) rfl
  | disconnect c => cases h; exact .of_quiet (disconnect_quiet c) rfl
  | rebind g m c => cases h; exact .of_quiet (rebind_quiet g m c) rfl
  | recover => cases h; exact .of_quiet recover_quiet rfl
  | cancelQueued => cases h; exact .of_quiet cancelQueued_quiet rfl
  | resetRuntime => cases h; exact .of_quiet resetRuntime_quiet rfl
  | result identity g m frame =>
    cases h
    rcases applyResult_spec s.ops identity g m frame with hops | ⟨f, hops, hf⟩
    · exact .same hops rfl
    · exact .update _ f (fun r hr => (hf r hr).1) (fun r hr => (hf r hr).2)
        (fun r hr _ => ⟨identity, g, m, frame, rfl, (named_matches hr).1⟩) hops rfl
  | dispatchExpire now =>
    simp only [step] at h
    split at h <;> cases h
    exact .of_quiet (expire_quiet now) rfl
  | dispatchSelect =>
    simp only [step] at h
    split at h <;> cases h
    exact .same rfl rfl
  | dispatchLoad =>
    simp only [step] at h
    split at h
    · cases h; exact .same rfl rfl
    · split at h
      · cases h; exact .same rfl rfl
      · split at h <;> cases h <;> exact .same rfl rfl
    · cases h
  | dispatchClaim connection now =>
    simp only [step] at h
    split at h
    · rename_i op rows seen _
      split at h
      · split at h
        · rename_i s' hc
          cases h
          exact (claim_effect hc _).of_dispatch
        · rename_i s' hc
          cases h
          exact (claim_effect hc _).of_dispatch
      · cases h; exact .same rfl rfl
    · cases h
  | dispatchSend ok =>
    simp only [step] at h
    split at h <;> cases h
    exact .same rfl rfl
  | dispatchFail =>
    simp only [step] at h
    split at h <;> cases h
    exact .of_quiet (sendFailed_quiet _) rfl
  | dispatchAbort => cases h; exact .same rfl rfl

/-! ## The invariant -/

/-- The columns of the idempotency key. -/
def keyOf (r : Operation) : String × Nat × String := (r.actor, r.deviceId, r.idempotencyKey)

/-- The part of the invariant that speaks of the rows and the claims. -/
structure OpsInv (sha256 : String → String) (ops : List Operation) (claimed : List String) :
    Prop where
  ids  : (ops.map id).Nodup
  keys : (ops.map keyOf).Nodup
  /-- The stored digest is the digest of the stored request. -/
  hash : ∀ r ∈ ops, r.requestHash = sha256 r.frame.dumps
  /-- A claimed operation has left the queue. -/
  left : ∀ i ∈ claimed, ∃ r ∈ ops, r.id = i ∧ r.status ≠ .queued
  once : claimed.Nodup

theorem SameRequest.keyOf {r r' : Operation} (h : SameRequest r r') :
    Operation.keyOf r' = Operation.keyOf r := by
  simp [Operation.keyOf, h.actor, h.deviceId, h.idempotencyKey]

theorem claim_update_moves {i now : String} (r : Operation) (hp : claimable i now r = true) :
    Moves r { r with status := .running } := (claim_moves hp).1

theorem Effect.later {a : Action} (h : Effect sha256 a s t) : Later s.ops t.ops := by
  cases h with
  | same hops _ => rw [hops]; exact .refl Advance.refl _
  | insert _ _ _ _ _ _ hops _ => rw [hops]; exact .append Advance.refl _ _
  | update _ _ hmove _ _ hops _ => rw [hops]; exact later_update hmove
  | claim _ _ _ _ _ hops _ => rw [hops]; exact later_update claim_update_moves

/-- An update that moves rows on keeps the facts about the rows. -/
theorem OpsInv.update {ops : List Operation} {claimed : List String}
    (h : OpsInv sha256 ops claimed) {p : Operation → Bool} {f : Operation → Operation}
    (hf : ∀ r, p r = true → Moves r (f r)) : OpsInv sha256 (updateWhere p f ops) claimed := by
  constructor
  case ids => rw [map_updateWhere fun r _ hp => (hf r hp).same.id]; exact h.ids
  case keys => rw [map_updateWhere fun r _ hp => (hf r hp).same.keyOf]; exact h.keys
  case hash =>
    intro r hr
    rcases of_mem_updateWhere hr with ⟨r₀, h₀, hp, rfl⟩ | ⟨h₀, _⟩
    · rw [(hf r₀ hp).same.requestHash, (hf r₀ hp).same.frame]; exact h.hash r₀ h₀
    · exact h.hash r h₀
  case left =>
    intro i hi
    obtain ⟨r, hr, rfl, hq⟩ := h.left i hi
    obtain ⟨r', hr', hid, hadv⟩ := later_update hf r hr
    exact ⟨r', hr', hid, hadv.not_queued hq⟩
  case once => exact h.once

theorem OpsInv.insert {ops : List Operation} {claimed : List String}
    (h : OpsInv sha256 ops claimed) {req : OpRequest} {i token now : String}
    (hkey : ∀ r ∈ ops, sameKey req r = false) (hid : ∀ r ∈ ops, r.id ≠ i) :
    OpsInv sha256 (ops ++ [fresh sha256 req i token now]) claimed := by
  constructor
  case ids =>
    rw [List.map_append]
    refine List.nodup_append.mpr ⟨h.ids, by simp, ?_⟩
    intro x hx y hy
    obtain ⟨r, hr, rfl⟩ := List.mem_map.mp hx
    have hy' : y = i := by simpa [fresh] using hy
    rw [hy']; exact hid r hr
  case keys =>
    rw [List.map_append]
    refine List.nodup_append.mpr ⟨h.keys, by simp, ?_⟩
    intro x hx y hy heq
    obtain ⟨r, hr, rfl⟩ := List.mem_map.mp hx
    have hy' : y = keyOf (fresh sha256 req i token now) := by simpa using hy
    have hsame := hkey r hr
    rw [hy'] at heq
    simp only [keyOf, fresh, Prod.mk.injEq] at heq
    simp [sameKey, heq.1, heq.2.1, heq.2.2] at hsame
  case hash =>
    intro r hr
    rcases List.mem_append.mp hr with hr | hr
    · exact h.hash r hr
    · rw [List.mem_singleton] at hr; subst hr; rfl
  case left =>
    intro j hj
    obtain ⟨r, hr, hrest⟩ := h.left j hj
    exact ⟨r, List.mem_append_left _ hr, hrest⟩
  case once => exact h.once

/-- **A claim is the first one of its id**: a claimed row has left the queue. -/
theorem OpsInv.not_claimed {ops : List Operation} {claimed : List String}
    (h : OpsInv sha256 ops claimed) {i now : String} {r : Operation} (hr : r ∈ ops)
    (hp : claimable i now r = true) : i ∉ claimed := by
  intro hi
  obtain ⟨_, hid, hs⟩ := claim_moves hp
  obtain ⟨r', hr', hid', hq⟩ := h.left i hi
  obtain rfl := eq_of_key_eq h.ids hr' hr (hid'.trans hid.symm)
  exact hq hs

theorem OpsInv.claim {ops : List Operation} {claimed : List String}
    (h : OpsInv sha256 ops claimed) {i now : String} {r : Operation} (hr : r ∈ ops)
    (hp : claimable i now r = true) :
    OpsInv sha256 (updateWhere (claimable i now) (fun r => { r with status := .running }) ops)
      (claimed ++ [i]) := by
  have hu := h.update claim_update_moves (p := claimable i now)
  refine { hu with left := ?_, once := ?_ }
  · intro j hj
    rcases List.mem_append.mp hj with hj | hj
    · exact hu.left j hj
    · have hji : j = i := by simpa using hj
      refine ⟨{ r with status := .running }, mem_updateWhere.mpr ⟨r, hr, if_pos hp⟩, ?_, nofun⟩
      rw [hji]; exact (claim_moves hp).2.1
  · refine List.nodup_append.mpr ⟨h.once, by simp, ?_⟩
    intro x hx y hy heq
    have hyi : y = i := by simpa using hy
    exact h.not_claimed hr hp (by rw [← hyi, ← heq]; exact hx)

theorem Effect.opsInv {a : Action} (h : Effect sha256 a s t)
    (hi : OpsInv sha256 s.ops s.claimed) : OpsInv sha256 t.ops t.claimed := by
  cases h with
  | same hops hclaimed => rw [hops, hclaimed]; exact hi
  | insert _ _ _ _ hkey hid hops hclaimed => rw [hops, hclaimed]; exact hi.insert hkey hid
  | update _ _ hmove _ _ hops hclaimed => rw [hops, hclaimed]; exact hi.update hmove
  | claim _ _ _ hr hp hops hclaimed => rw [hops, hclaimed]; exact hi.claim hr hp

/-- What the dispatcher has claimed and not yet sent. -/
def Dispatch.pending : Dispatch → Option String
  | .claimed op _ _ => some op.id
  | _               => none

/-- What holds in every reachable state. -/
structure Inv (sha256 : String → String) (s : State) : Prop where
  ops     : OpsInv sha256 s.ops s.claimed
  sent    : ∀ i ∈ s.sent, i ∈ s.claimed
  once    : s.sent.Nodup
  pending : ∀ i, s.dispatch.pending = some i → i ∈ s.claimed ∧ i ∉ s.sent

/-- Claims are never taken back. -/
theorem Effect.claimed_subset {a : Action} (h : Effect sha256 a s t) : s.claimed ⊆ t.claimed := by
  cases h with
  | same _ hclaimed => rw [hclaimed]; exact fun _ h => h
  | insert _ _ _ _ _ _ _ hclaimed => rw [hclaimed]; exact fun _ h => h
  | update _ _ _ _ _ _ hclaimed => rw [hclaimed]; exact fun _ h => h
  | claim _ _ _ _ _ _ hclaimed => rw [hclaimed]; exact List.subset_append_left _ _

/-- How a step moves the dispatcher and the log of sent frames. -/
inductive Sends (s t : State) : Prop
  /-- Nothing is sent, and nothing newly waits to be sent. -/
  | quiet (hsent : t.sent = s.sent)
      (hpending : t.dispatch.pending = none ∨ t.dispatch = s.dispatch)
  /-- The dispatcher has just claimed the id. -/
  | claimed (i : String) (hsent : t.sent = s.sent) (hpending : t.dispatch.pending = some i)
      (hnew : i ∉ s.claimed) (hin : i ∈ t.claimed)
  /-- The claimed frame is sent. -/
  | sent (i : String) (hwas : s.dispatch.pending = some i) (hsent : t.sent = s.sent ++ [i])
      (hpending : t.dispatch.pending = none)

theorem step_sends {a : Action} (hi : Inv sha256 s) (h : step sha256 s a = some t) :
    Sends s t := by
  cases a with
  | create req i token now =>
    simp only [step] at h
    split at h <;> cases h <;> exact .quiet rfl (Or.inr rfl)
  | claim i now =>
    cases h
    have hc : s.claim i now = ((s.claim i now).1, (s.claim i now).2) := rfl
    exact .quiet (claim_spec hc).2.1 (Or.inr (claim_spec hc).1)
  | cancel i => cases h; exact .quiet rfl (Or.inr rfl)
  | expire now => cases h; exact .quiet rfl (Or.inr rfl)
  | disconnect c => cases h; exact .quiet rfl (Or.inr rfl)
  | rebind g m c => cases h; exact .quiet rfl (Or.inr rfl)
  | recover => cases h; exact .quiet rfl (Or.inr rfl)
  | cancelQueued => cases h; exact .quiet rfl (Or.inr rfl)
  | resetRuntime => cases h; exact .quiet rfl (Or.inr rfl)
  | result identity g m frame => cases h; exact .quiet rfl (Or.inr rfl)
  | dispatchExpire now =>
    simp only [step] at h
    split at h <;> cases h
    exact .quiet rfl (Or.inl rfl)
  | dispatchSelect =>
    simp only [step] at h
    split at h <;> cases h
    exact .quiet rfl (Or.inl rfl)
  | dispatchLoad =>
    simp only [step] at h
    split at h
    · cases h; exact .quiet rfl (Or.inl rfl)
    · split at h
      · cases h; exact .quiet rfl (Or.inl rfl)
      · split at h <;> cases h <;> exact .quiet rfl (Or.inl rfl)
    · cases h
  | dispatchClaim connection now =>
    simp only [step] at h
    split at h
    · rename_i op rows seen _
      split at h
      · split at h
        · -- the claim succeeded, so the row was queued and the id is new among the claims
          rename_i s' hc
          cases h
          obtain ⟨_, hsent, hrow⟩ := claim_spec hc
          obtain ⟨⟨r, hr, hp⟩, hclaimed⟩ := hrow rfl
          refine .claimed op.id hsent rfl (hi.ops.not_claimed hr hp) ?_
          show op.id ∈ s'.claimed
          rw [hclaimed]; simp
        · rename_i s' hc
          cases h
          exact .quiet (claim_spec hc).2.1 (Or.inl rfl)
      · cases h; exact .quiet rfl (Or.inl rfl)
    · cases h
  | dispatchSend ok =>
    simp only [step] at h
    split at h
    · rename_i op rows seen hd
      cases h
      refine .sent op.id (by rw [hd]; rfl) rfl ?_
      cases ok <;> rfl
    · cases h
  | dispatchFail =>
    simp only [step] at h
    split at h <;> cases h
    exact .quiet rfl (Or.inl rfl)
  | dispatchAbort => cases h; exact .quiet rfl (Or.inl rfl)

/-- **Every step preserves the invariant.** -/
theorem inv_step {a : Action} (hi : Inv sha256 s) (h : step sha256 s a = some t) :
    Inv sha256 t := by
  have heff := step_effect h
  have hsub := heff.claimed_subset
  have hops := heff.opsInv hi.ops
  cases step_sends hi h with
  | quiet hsent hpending =>
    refine ⟨hops, ?_, by rw [hsent]; exact hi.once, ?_⟩
    · rw [hsent]; exact fun i hs => hsub (hi.sent i hs)
    · intro i hp
      rw [hsent]
      rcases hpending with hnone | hsame
      · rw [hnone] at hp; cases hp
      · rw [hsame] at hp
        exact ⟨hsub (hi.pending i hp).1, (hi.pending i hp).2⟩
  | claimed j hsent hpending hnew hin =>
    refine ⟨hops, ?_, by rw [hsent]; exact hi.once, ?_⟩
    · rw [hsent]; exact fun i hs => hsub (hi.sent i hs)
    · intro i hp
      obtain rfl : j = i := Option.some.inj (hpending.symm.trans hp)
      exact ⟨hin, by rw [hsent]; exact fun hs => hnew (hi.sent j hs)⟩
  | sent j hwas hsent hpending =>
    obtain ⟨hjc, hjs⟩ := hi.pending j hwas
    refine ⟨hops, ?_, ?_, ?_⟩
    · rw [hsent]
      intro i hs
      rcases List.mem_append.mp hs with hs | hs
      · exact hsub (hi.sent i hs)
      · rw [List.mem_singleton] at hs; rw [hs]; exact hsub hjc
    · rw [hsent]
      refine List.nodup_append.mpr ⟨hi.once, by simp, ?_⟩
      intro x hx y hy heq
      have hyj : y = j := by simpa using hy
      exact hjs (by rw [← hyj, ← heq]; exact hx)
    · intro i hp
      rw [hpending] at hp; cases hp

theorem inv_init : Inv sha256 .init where
  ops     := ⟨List.nodup_nil, List.nodup_nil, by simp [State.init], by simp [State.init],
    List.nodup_nil⟩
  sent    := by simp [State.init]
  once    := List.nodup_nil
  pending := fun _ hp => by cases hp

theorem inv_reachable (h : (machine sha256).Reachable s) : Inv sha256 s := by
  refine h.invariant (I := Inv sha256) ?_ ?_
  · rintro s₀ rfl
    exact inv_init
  · intro s₀ a s₁ hi _ hs
    exact inv_step hi hs

/-- Rows only advance along a run. -/
theorem later_path (h : (machine sha256).Path Machine.Always s t) : Later s.ops t.ops :=
  h.relation (R := fun s t => Later s.ops t.ops) (fun s => Evolves.refl Advance.refl s.ops)
    (fun _ _ _ => Evolves.trans (R := Advance) fun _ _ _ => Advance.trans)
    fun _ _ _ _ hs => (step_effect hs).later

/-! ## The laws -/

/-- The row a step leaves under the id of a row. -/
theorem Effect.row {a : Action} (h : Effect sha256 a s t) (hi : OpsInv sha256 s.ops s.claimed)
    {r r' : Operation} (hr : r ∈ s.ops) (hr' : r' ∈ t.ops) (hid : r'.id = r.id) :
    r' = r ∨ (Moves r r' ∧ r'.status ≠ .running ∧ (r.status = .unknown → IsResultFor a r)) ∨
    (r.status = .queued ∧ r'.status = .running ∧ t.claimed = s.claimed ++ [r.id]) := by
  cases h with
  | same hops _ =>
    rw [hops] at hr'
    exact Or.inl (eq_of_key_eq hi.ids hr' hr hid)
  | insert req i token now hkey hnew hops _ =>
    rw [hops] at hr'
    rcases List.mem_append.mp hr' with hr' | hr'
    · exact Or.inl (eq_of_key_eq hi.ids hr' hr hid)
    · have hfresh : r' = fresh sha256 req i token now := by simpa using hr'
      rw [hfresh] at hid
      exact absurd hid.symm (hnew r hr)
  | update p f hmove hrun hunknown hops _ =>
    rw [hops] at hr'
    have hrow := updateWhere_row hi.ids (fun r _ hp => (hmove r hp).same.id) hr hr' hid
    by_cases hp : p r = true
    · rw [if_pos hp] at hrow
      rw [hrow]; exact Or.inr (Or.inl ⟨hmove r hp, hrun r hp, hunknown r hp⟩)
    · rw [if_neg hp] at hrow; exact Or.inl hrow
  | claim i now _ _ _ hops hclaimed =>
    rw [hops] at hr'
    have hmove := fun r (hp : claimable i now r = true) => claim_update_moves r hp
    have hrow := updateWhere_row hi.ids (fun r _ hp => (hmove r hp).same.id) hr hr' hid
    by_cases hp : claimable i now r = true
    · obtain ⟨_, hri, hs⟩ := claim_moves hp
      rw [if_pos hp] at hrow
      rw [hrow, hri]; exact Or.inr (Or.inr ⟨hs, rfl, hclaimed⟩)
    · rw [if_neg hp] at hrow; exact Or.inl hrow

/-- An idempotency key that is taken answers with its operation, or refuses. -/
theorem create_replay {ops : List Operation} {claimed : List String}
    (hi : OpsInv sha256 ops claimed) (hsha : Function.Injective sha256) {req : OpRequest}
    {r : Operation} (hr : r ∈ ops) (hk : sameKey req r = true) (i token now : String) :
    (req.frame.dumps = r.frame.dumps → create ops sha256 req i token now = .ok (r.id, ops)) ∧
    (req.frame.dumps ≠ r.frame.dumps →
      create ops sha256 req i token now = .error .conflict) := by
  have hfind : ops.find? (sameKey req) = some r := by
    cases hf : ops.find? (sameKey req) with
    | none => exact absurd hk (List.find?_eq_none.mp hf r hr)
    | some x =>
      have hx : sameKey req x = true := List.find?_some hf
      simp only [sameKey, Bool.and_eq_true, decide_eq_true_eq] at hx hk
      have hkey : keyOf x = keyOf r := by
        rw [keyOf, keyOf, hx.1.1, hx.1.2, hx.2, hk.1.1, hk.1.2, hk.2]
      rw [eq_of_key_eq hi.keys (List.mem_of_find?_eq_some hf) hr hkey]
  unfold create
  rw [hfind]
  dsimp only
  rw [hi.hash r hr]
  constructor
  · intro heq
    rw [heq, if_neg (fun h => h rfl)]
  · intro hne
    rw [if_pos fun h => hne (hsha h).symm]

/-- **The laws of the Server's operations**, in every reachable state:

    1. final rows stay as they are for ever, and a row that left the queue never returns to it;
    2. a row goes from queued to running only when its id is claimed, and no id is claimed twice;
    3. no id's frame is handed to a socket twice;
    4. a row leaves `unknown` only under a result frame naming it in full;
    5. a result frame leaves the rows of other agents and streams alone;
    6. an idempotency key that is taken returns its operation to the same request and refuses
       another one, and neither changes a row. -/
theorem operations_lawful (hsha : Function.Injective sha256) (h : (machine sha256).Reachable s) :
    (∀ t, (machine sha256).Path Machine.Always s t → ∀ r ∈ s.ops, ∃ r' ∈ t.ops, r'.id = r.id ∧
      (r.status.final = true → r' = r) ∧ (r.status ≠ .queued → r'.status ≠ .queued)) ∧
    ((s.ops.map id).Nodup ∧ s.claimed.Nodup ∧ ∀ a t, step sha256 s a = some t →
      ∀ r ∈ s.ops, ∀ r' ∈ t.ops, r'.id = r.id → r.status = .queued → r'.status = .running →
      t.claimed = s.claimed ++ [r.id]) ∧
    s.sent.Nodup ∧
    (∀ a t, step sha256 s a = some t → ∀ r ∈ s.ops, ∀ r' ∈ t.ops, r'.id = r.id →
      r.status = .unknown → r'.status ≠ .unknown → IsResultFor a r) ∧
    (∀ identity agentId streamId frame t,
      step sha256 s (.result identity agentId streamId frame) = some t →
      ∀ r ∈ s.ops, r.agentId ≠ agentId ∨ r.streamId ≠ streamId → r ∈ t.ops) ∧
    (∀ req i token now, ∀ r ∈ s.ops, sameKey req r = true →
      (req.frame.dumps = r.frame.dumps →
        create s.ops sha256 req i token now = .ok (r.id, s.ops)) ∧
      (req.frame.dumps ≠ r.frame.dumps →
        create s.ops sha256 req i token now = .error .conflict)) := by
  have hi := inv_reachable h
  refine ⟨fun t hp r hr => ?_, ⟨hi.ops.ids, hi.ops.once, fun a t hs r hr r' hr' hid hq hrun => ?_⟩,
    hi.once, fun a t hs r hr r' hr' hid hu hne => ?_, fun identity g m frame t hs r hr hother => ?_,
    fun req i token now r hr hk => create_replay hi.ops hsha hr hk i token now⟩
  · obtain ⟨r', hr', hid, hadv⟩ := later_path hp r hr
    exact ⟨r', hr', hid, hadv.final, hadv.not_queued⟩
  · rcases (step_effect hs).row hi.ops hr hr' hid with rfl | ⟨_, hnr, _⟩ | ⟨_, _, hc⟩
    · rw [hq] at hrun; cases hrun
    · exact absurd hrun hnr
    · exact hc
  · rcases (step_effect hs).row hi.ops hr hr' hid with rfl | ⟨_, _, hres⟩ | ⟨hq, _, _⟩
    · exact absurd hu hne
    · exact hres hu
    · rw [hu] at hq; cases hq
  · cases hs
    rcases applyResult_cases identity g m frame hr with hin | hm
    · exact hin
    · rcases hother with hg | hst
      · exact absurd hm.agentId hg
      · exact absurd hm.streamId hst

/-- The canonical text of the frame of `queryRequest`, and its digest. -/
def queryText : String := "\x7b\"type\":\"query\"\x7d"

/-- SHA-256 of `queryText`. -/
def queryDigest : String :=
  "dfad90b3edf1b5c15ee1dea51ea2a0f4b61a07e07a8ab27efbb771415fb9695d"

/-- A query of one device. -/
def queryRequest : OpRequest :=
  ⟨"admin", ⟨7, "a1", "modem", "", ""⟩, [("type", .str "query")], "k1", "2026-01-01T00:00:30", "s1",
    "c1"⟩

/-- The result frame of the operation `op-1`. -/
def queryResult : Frame :=
  [("cmd_id", .str "op-1"), ("device", .str "modem"), ("result_token", .str "t1"),
   ("status", .str "succeeded"), ("ok", .bool true), ("data", .obj [])]

/-- The query is claimed and sent, the agent disconnects, and the result arrives afterwards; then
    the same request is made again. -/
def lateResultRun : List Action :=
  [.create queryRequest "op-1" "t1" "2026-01-01T00:00:00", .dispatchExpire "2026-01-01T00:00:01",
   .dispatchSelect, .dispatchLoad, .dispatchClaim (some ("c1", true)) "2026-01-01T00:00:01",
   .dispatchSend true, .disconnect "c1", .result (fun _ => (none, none)) "a1" "s1" queryResult,
   .create queryRequest "op-2" "t2" "2026-01-01T00:00:09"]

theorem operations_lawful_lateResult :
    ∃ s, (machine (Equiv.swap queryText queryDigest)).run .init lateResultRun = some s ∧
      s.ops.map (fun r => (r.id, r.status)) = [("op-1", .succeeded)] ∧ s.sent = ["op-1"] ∧
      s.sent.Nodup := by
  have hrun : ((machine (Equiv.swap queryText queryDigest)).run .init lateResultRun).map
      (fun s => (s.ops.map (fun r => (r.id, r.status)), s.sent)) =
      some ([("op-1", .succeeded)], ["op-1"]) := by decide +kernel
  obtain ⟨s, hs, hsum⟩ := Option.map_eq_some_iff.mp hrun
  simp only [Prod.mk.injEq] at hsum
  exact ⟨s, hs, hsum.1, hsum.2, (operations_lawful (Equiv.injective _)
    (Machine.run_reachable rfl hs)).2.2.1⟩

end Air780eHub.Operation
