/-
  One pass of `dispatch_operations_once`, by itself: whom it serves.

  The pass expires, takes the 32 oldest of the queued operations on devices where nothing runs, and
  goes through them once, the first of each device only.  An operation it skips, because the agent
  is not connected or the device had an older one, has used up a place on the page all the same.

  1. **`Pass`**: the steps of a pass, its clock and the connections it finds.
  2. **`exists_pass`**: a pass comes to its end.
  3. **`OnTheWay`**: an operation on the page that is the first of its device is reached, claimed
     and sent.
  4. **`sent_of_pass`**: nothing outside the page is sent.
  5. **`pass_serves_iff`**: when a pass serves every device that could be served.
-/
import Air780eHub.Server.OperationRuns
import Mathlib.Data.String.Basic

namespace Air780eHub.Operation

/-! ## A pass -/

/-- The registered connection of an agent: its id, and whether it is ready. -/
abbrev Connections := String → Option (String × Bool)

variable (sha256 : String → String) (connections : Connections)

/-- The steps between the select of a pass and its end.  The connections do not change meanwhile and
    the clock has not passed `latest`. -/
def OfPass (latest : String) (s : State) : Action → Prop
  | .dispatchLoad => True
  | .dispatchClaim connection now =>
    now ≤ latest ∧ ∀ op rows seen, s.dispatch = .loaded op rows seen →
      connection = connections op.agentId
  | .dispatchSend _ => True
  | .dispatchFail => True
  | _ => False

/-- A pass from `s` to `t` that begins at `start` and is over by `latest`. -/
def Pass (start latest : String) (s t : State) : Prop :=
  ∃ s₁ s₂, step sha256 s (.dispatchExpire start) = some s₁ ∧
    step sha256 s₁ .dispatchSelect = some s₂ ∧
    (machine sha256).Path (OfPass connections latest) s₂ t ∧ t.dispatch = .idle

/-- The queued operations of devices where nothing runs, the oldest first. -/
def queue (ops : List Operation) : List Operation :=
  (ops.filter fun q => decide (q.status = .queued) && !deviceBusy ops q).insertionSort
    fun a b => a.createdAt ≤ b.createdAt

/-- The oldest queued operation of a device where nothing runs.  It has not expired, and its agent
    has a ready connection that is the operation's. -/
structure Due (latest : String) (ops : List Operation) (q : Operation) : Prop where
  oldest    : ((queue ops).find? fun r => decide (r.deviceId = q.deviceId)) = some q
  ready     : sendable q (connections q.agentId) = true
  unexpired : latest < q.deadline

/-- A pass claims and sends every operation that is due when it has expired the old ones. -/
def Served (start latest : String) (s t : State) : Prop :=
  ∀ q, Due connections latest (expire s.ops start) q →
    q.id ∈ t.claimed ∧ q.id ∈ t.sent ∧ q.id ∉ s.sent

variable {sha256} {connections} {start latest : String} {s t : State} {q : Operation}

/-- The state in which a pass has selected its page. -/
def State.selected (s : State) (start : String) : State :=
  { s with ops := expire s.ops start, dispatch := .loop (dispatchable (expire s.ops start)) [] }

theorem pass_iff (hidle : s.dispatch = .idle) : Pass sha256 connections start latest s t ↔
    (machine sha256).Path (OfPass connections latest) (s.selected start) t ∧
      t.dispatch = .idle := by
  have hexpire : step sha256 s (.dispatchExpire start) =
      some { s with ops := expire s.ops start, dispatch := .expired } := by
    simp only [step, hidle]
  constructor
  · rintro ⟨s₁, s₂, h₁, h₂, hpath, hend⟩
    rw [hexpire] at h₁
    cases h₁
    cases h₂
    exact ⟨hpath, hend⟩
  · rintro ⟨hpath, hend⟩
    exact ⟨_, _, hexpire, rfl, hpath, hend⟩

/-! ## A pass comes to its end -/

theorem find_id {ops : List Operation} {i : String} {op : Operation} (h : find ops i = some op) :
    op.id = i := by
  have hid := List.find?_some h
  simpa using hid

theorem ofPass_load : OfPass connections latest s .dispatchLoad := trivial

theorem ofPass_send {ok : Bool} : OfPass connections latest s (.dispatchSend ok) := trivial

/-- The next row of the page is not there, is of a device seen before, or is loaded. -/
theorem step_load (sha256 : String → String) {i : String} {rows : List String} {seen : List Nat}
    (hd : s.dispatch = .loop (i :: rows) seen) :
    (find s.ops i = none ∧
      step sha256 s .dispatchLoad = some { s with dispatch := .idle }) ∨
    ∃ op, find s.ops i = some op ∧
      ((op.deviceId ∈ seen ∧
        step sha256 s .dispatchLoad = some { s with dispatch := .loop rows seen }) ∨
      (op.deviceId ∉ seen ∧ step sha256 s .dispatchLoad =
        some { s with dispatch := .loaded op rows (op.deviceId :: seen) })) := by
  cases hf : find s.ops i with
  | none => exact .inl ⟨rfl, by simp only [step, hd, hf]⟩
  | some op =>
    refine .inr ⟨op, rfl, ?_⟩
    by_cases hseen : op.deviceId ∈ seen
    · exact .inl ⟨hseen, by simp only [step, hd, hf, if_pos hseen]⟩
    · exact .inr ⟨hseen, by simp only [step, hd, hf, if_neg hseen]⟩

/-- A loaded row is claimed and sent, or left alone. -/
theorem exists_path_loaded (sha256 : String → String) (connections : Connections) (latest : String)
    {op : Operation} {rows : List String} {seen : List Nat}
    (hd : s.dispatch = .loaded op rows seen) :
    ∃ t, (machine sha256).Path (OfPass connections latest) s t ∧ t.dispatch = .loop rows seen := by
  have hguard : OfPass connections latest s (.dispatchClaim (connections op.agentId) latest) := by
    refine ⟨le_refl latest, fun op' rows' seen' h => ?_⟩
    rw [hd] at h
    cases h
    rfl
  by_cases hsend : sendable op (connections op.agentId) = true
  · cases hc : s.claim op.id latest with
    | mk ok s' =>
    cases ok with
    | true =>
      have hclaim : step sha256 s (.dispatchClaim (connections op.agentId) latest) =
          some { s' with dispatch := .claimed op rows seen } := by
        simp only [step, hd, hsend, if_true, hc]
      have hclaimed : (machine sha256).Path (OfPass connections latest) s
          { s' with dispatch := .claimed op rows seen } := .single hguard hclaim
      have hsent : (machine sha256).step { s' with dispatch := .claimed op rows seen }
          (.dispatchSend true) =
          some { s' with sent := s'.sent ++ [op.id], dispatch := .loop rows seen } := rfl
      exact ⟨_, hclaimed.snoc ofPass_send hsent, rfl⟩
    | false =>
      have hclaim : step sha256 s (.dispatchClaim (connections op.agentId) latest) =
          some { s' with dispatch := .loop rows seen } := by
        simp only [step, hd, hsend, if_true, hc]
      exact ⟨_, Machine.Path.single hguard hclaim, rfl⟩
  · have hclaim : step sha256 s (.dispatchClaim (connections op.agentId) latest) =
        some { s with dispatch := .loop rows seen } := by
      simp only [step, hd, if_neg hsend]
    exact ⟨_, Machine.Path.single hguard hclaim, rfl⟩

/-- From the loop on, whatever the rows are, there is a way to the end. -/
theorem exists_path (sha256 : String → String) (connections : Connections) (latest : String)
    (rows : List String) (seen : List Nat) (s : State)
    (hd : s.dispatch = .loop rows seen) :
    ∃ t, (machine sha256).Path (OfPass connections latest) s t ∧ t.dispatch = .idle := by
  induction rows generalizing s seen with
  | nil =>
    have hload : step sha256 s .dispatchLoad = some { s with dispatch := .idle } := by
      simp only [step, hd]
    exact ⟨_, Machine.Path.single ofPass_load hload, rfl⟩
  | cons i rows ih =>
    rcases step_load sha256 hd with ⟨-, hload⟩ | ⟨op, -, ⟨-, hload⟩ | ⟨-, hload⟩⟩
    · exact ⟨_, Machine.Path.single ofPass_load hload, rfl⟩
    · obtain ⟨t, hpath, hend⟩ := ih seen { s with dispatch := .loop rows seen } rfl
      exact ⟨t, (Machine.Path.single ofPass_load hload).trans hpath, hend⟩
    · obtain ⟨t₁, hpath₁, hloop⟩ := exists_path_loaded sha256 connections latest
        (s := { s with dispatch := .loaded op rows (op.deviceId :: seen) }) rfl
      obtain ⟨t, hpath, hend⟩ := ih _ t₁ hloop
      exact ⟨t, ((Machine.Path.single ofPass_load hload).trans hpath₁).trans hpath, hend⟩

/-- **A pass comes to its end.** -/
theorem exists_pass (sha256 : String → String) (connections : Connections)
    (hidle : s.dispatch = .idle) (start latest : String) :
    ∃ t, Pass sha256 connections start latest s t := by
  obtain ⟨t, hpath, hend⟩ := exists_path sha256 connections latest _ [] (s.selected start) rfl
  exact ⟨t, (pass_iff hidle).mpr ⟨hpath, hend⟩⟩

/-! ## On the way -/

/-- The operation waits in the loop: it is the first row of its device there, and unchanged. -/
structure Ahead (ops : List Operation) (q : Operation) (rows : List String) (seen : List Nat) :
    Prop where
  unseen : q.deviceId ∉ seen
  stored : q ∈ ops
  first  : ∃ older newer, rows = older ++ q.id :: newer ∧
    ∀ i ∈ older, ∃ r ∈ ops, r.id = i ∧ r.deviceId ≠ q.deviceId

/-- How far a pass has come with an operation it will serve. -/
inductive OnTheWay (q : Operation) (s : State) : Prop
  | ahead (rows : List String) (seen : List Nat) (hd : s.dispatch = .loop rows seen)
      (h : Ahead s.ops q rows seen)
  /-- Another operation is in hand. -/
  | behind (op : Operation) (rows : List String) (seen : List Nat) (hne : op.id ≠ q.id)
      (hd : s.dispatch = .loaded op rows seen ∨ s.dispatch = .claimed op rows seen ∨
        s.dispatch = .failing op rows seen)
      (h : Ahead s.ops q rows seen)
  | loaded (rows : List String) (seen : List Nat) (hd : s.dispatch = .loaded q rows seen)
      (hq : q ∈ s.ops)
  | claimed (rows : List String) (seen : List Nat) (hd : s.dispatch = .claimed q rows seen)
  | sent (h : q.id ∈ s.sent)

/-- A change to other rows leaves the operation where it is. -/
theorem Ahead.update {ops : List Operation} {rows : List String} {seen : List Nat}
    (h : Ahead ops q rows seen) {p : Operation → Bool} {f : Operation → Operation}
    (hf : ∀ r, SameRequest r (f r)) (hp : ∀ r, p r = true → r.id ≠ q.id) :
    Ahead (updateWhere p f ops) q rows seen := by
  obtain ⟨older, newer, hrows, holder⟩ := h.first
  refine ⟨h.unseen, ?_, older, newer, hrows, fun i hi => ?_⟩
  · exact mem_updateWhere.mpr ⟨q, h.stored, if_neg fun hpq => hp q hpq rfl⟩
  · obtain ⟨r, hr, hid, hdevice⟩ := holder i hi
    by_cases hpr : p r = true
    · refine ⟨f r, mem_updateWhere.mpr ⟨r, hr, if_pos hpr⟩, (hf r).id.trans hid, ?_⟩
      rw [(hf r).deviceId]
      exact hdevice
    · exact ⟨r, mem_updateWhere.mpr ⟨r, hr, if_neg hpr⟩, hid, hdevice⟩

/-- The rows after a claim, whether or not it succeeded. -/
theorem claim_ops {i now : String} {ok : Bool} (h : s.claim i now = (ok, t)) :
    t.ops = updateWhere (claimable i now) (fun r => { r with status := .running }) s.ops := by
  unfold State.claim Operation.claim at h
  cases hany : s.ops.any (claimable i now) <;> rw [hany] at h <;> cases h <;> rfl

/-- A claim of another row leaves the operation where it is. -/
theorem Ahead.claim {i now : String} {ok : Bool} {rows : List String} {seen : List Nat}
    (h : Ahead s.ops q rows seen) (hne : i ≠ q.id) (hc : s.claim i now = (ok, t)) :
    Ahead t.ops q rows seen := by
  rw [claim_ops hc]
  refine h.update (fun r => by constructor <;> rfl) fun r hp hid => hne ?_
  rw [← (claim_moves hp).2.1, hid]

/-- The next row: the operation itself is loaded; another is skipped or loaded before it. -/
theorem Ahead.load {rows : List String} {seen : List Nat} (hids : (s.ops.map id).Nodup)
    (hd : s.dispatch = .loop rows seen) (h : Ahead s.ops q rows seen)
    (hs : step sha256 s .dispatchLoad = some t) : OnTheWay q t := by
  obtain ⟨older, newer, rfl, holder⟩ := h.first
  have hfind : ∀ r ∈ s.ops, ∀ op, find s.ops r.id = some op → op = r := by
    intro r hr op hf
    exact eq_of_key_eq hids (List.mem_of_find?_eq_some hf) hr (find_id hf)
  have hnone : ∀ r ∈ s.ops, find s.ops r.id ≠ none := by
    intro r hr hf
    exact absurd (decide_eq_true rfl) (List.find?_eq_none.mp hf r hr)
  cases older with
  | nil =>
    rcases step_load sha256 hd with ⟨hf, -⟩ | ⟨op, hf, ⟨hseen, -⟩ | ⟨-, hload⟩⟩
    · exact absurd hf (hnone q h.stored)
    · obtain rfl := hfind q h.stored op hf
      exact absurd hseen h.unseen
    · obtain rfl := hfind q h.stored op hf
      rw [hload] at hs
      cases hs
      exact .loaded newer _ rfl h.stored
  | cons i older =>
    obtain ⟨r, hr, rfl, hdevice⟩ := holder i List.mem_cons_self
    have hrest : ∀ j ∈ older, ∃ r ∈ s.ops, r.id = j ∧ r.deviceId ≠ q.deviceId :=
      fun j hj => holder j (List.mem_cons_of_mem _ hj)
    rcases step_load sha256 hd with ⟨hf, -⟩ | ⟨op, hf, ⟨hseen, hload⟩ | ⟨-, hload⟩⟩
    · exact absurd hf (hnone r hr)
    · rw [hload] at hs
      cases hs
      exact .ahead _ seen rfl ⟨h.unseen, h.stored, older, newer, rfl, hrest⟩
    · obtain rfl := hfind r hr op hf
      rw [hload] at hs
      cases hs
      refine .behind op _ _ (fun hid => hdevice ?_) (.inl rfl) ⟨?_, h.stored, older, newer, rfl, hrest⟩
      · rw [eq_of_key_eq hids hr h.stored hid]
      · intro hmem
        rcases List.mem_cons.mp hmem with heq | hmem
        · exact hdevice heq.symm
        · exact h.unseen hmem

/-- The claim: the operation is claimed when it is its turn, and waits on where it is not. -/
theorem OnTheWay.claim (hq : q.status = .queued)
    (hready : sendable q (connections q.agentId) = true) (hdeadline : latest < q.deadline)
    (h : OnTheWay q s) (hsent : q.id ∉ s.sent) {connection : Option (String × Bool)} {now : String}
    (hg : OfPass connections latest s (.dispatchClaim connection now))
    (hs : Operation.step sha256 s (.dispatchClaim connection now) = some t) : OnTheWay q t := by
  cases h with
  | ahead rows seen hd h => simp only [Operation.step, hd] at hs; cases hs
  | claimed rows seen hd => simp only [Operation.step, hd] at hs; cases hs
  | sent h => exact absurd h hsent
  | behind op rows seen hne hd h =>
    rcases hd with hd | hd | hd
    · simp only [Operation.step, hd] at hs
      split at hs
      · split at hs
        · rename_i s' hc
          cases hs
          have h' : Ahead s'.ops q rows seen := h.claim hne hc
          exact .behind op rows seen hne (.inr (.inl rfl)) h'
        · rename_i s' hc
          cases hs
          have h' : Ahead s'.ops q rows seen := h.claim hne hc
          exact .ahead rows seen rfl h'
      · cases hs
        exact .ahead rows seen rfl h
    · simp only [Operation.step, hd] at hs; cases hs
    · simp only [Operation.step, hd] at hs; cases hs
  | loaded rows seen hd hstored =>
    obtain rfl := hg.2 q rows seen hd
    have hclaimable : claimable q.id now q = true := by
      simp only [claimable, Bool.and_eq_true, decide_eq_true_eq]
      exact ⟨⟨trivial, hq⟩, lt_of_le_of_lt hg.1 hdeadline⟩
    have hany : s.ops.any (claimable q.id now) = true :=
      List.any_eq_true.mpr ⟨q, hstored, hclaimable⟩
    simp only [Operation.step, hd, hready, if_true, State.claim, Operation.claim, hany] at hs
    cases hs
    exact .claimed rows seen rfl

/-- **A step of the pass keeps an operation that can be sent on its way.** -/
theorem OnTheWay.step (hinv : Inv sha256 s) (hq : q.status = .queued)
    (hready : sendable q (connections q.agentId) = true) (hdeadline : latest < q.deadline)
    (h : OnTheWay q s) {a : Action} (hg : OfPass connections latest s a)
    (hs : Operation.step sha256 s a = some t) : OnTheWay q t := by
  have hids := hinv.ops.ids
  by_cases hsent : q.id ∈ s.sent
  · refine .sent ?_
    cases step_sends hinv hs with
    | quiet hlog _ => rw [hlog]; exact hsent
    | claimed _ hlog _ _ _ => rw [hlog]; exact hsent
    | sent _ _ hlog _ => rw [hlog]; exact List.mem_append_left _ hsent
  cases a with
  | dispatchLoad =>
    cases h with
    | ahead rows seen hd h => exact h.load hids hd hs
    | behind op rows seen hne hd h =>
      rcases hd with hd | hd | hd <;> simp only [Operation.step, hd] at hs <;> cases hs
    | loaded rows seen hd hq => simp only [Operation.step, hd] at hs; cases hs
    | claimed rows seen hd => simp only [Operation.step, hd] at hs; cases hs
    | sent h => exact absurd h hsent
  | dispatchClaim connection now => exact h.claim hq hready hdeadline hsent hg hs
  | dispatchSend ok =>
    cases h with
    | ahead rows seen hd h => simp only [Operation.step, hd] at hs; cases hs
    | behind op rows seen hne hd h =>
      rcases hd with hd | hd | hd <;> simp only [Operation.step, hd] at hs <;> cases hs
      cases ok with
      | true => exact .ahead rows seen rfl h
      | false => exact .behind op rows seen hne (.inr (.inr rfl)) h
    | loaded rows seen hd hq => simp only [Operation.step, hd] at hs; cases hs
    | claimed rows seen hd =>
      simp only [Operation.step, hd] at hs
      cases hs
      exact .sent (List.mem_append_right _ (List.mem_singleton_self _))
    | sent h => exact absurd h hsent
  | dispatchFail =>
    cases h with
    | ahead rows seen hd h => simp only [Operation.step, hd] at hs; cases hs
    | behind op rows seen hne hd h =>
      rcases hd with hd | hd | hd <;> simp only [Operation.step, hd] at hs <;> cases hs
      refine .ahead rows seen rfl (h.update (setStatus_same _ _) fun r hp hid => hne ?_)
      simp only [Bool.and_eq_true, decide_eq_true_eq] at hp
      rw [← hp.1, hid]
    | loaded rows seen hd hq => simp only [Operation.step, hd] at hs; cases hs
    | claimed rows seen hd => simp only [Operation.step, hd] at hs; cases hs
    | sent h => exact absurd h hsent
  | _ => exact hg.elim

/-- **Where a pass ends an operation that was on its way is sent.** -/
theorem sent_of_path (hinv : Inv sha256 s) (hq : q.status = .queued)
    (hready : sendable q (connections q.agentId) = true) (hdeadline : latest < q.deadline)
    (h : OnTheWay q s) (hpath : (machine sha256).Path (OfPass connections latest) s t)
    (hend : t.dispatch = .idle) : Inv sha256 t ∧ q.id ∈ t.sent := by
  obtain ⟨hinv', h'⟩ := hpath.invariant (I := fun u => Inv sha256 u ∧ OnTheWay q u)
    (fun u a u' hi hg hs => ⟨inv_step hi.1 hs, hi.2.step hi.1 hq hready hdeadline hg hs⟩) ⟨hinv, h⟩
  refine ⟨hinv', ?_⟩
  cases h' with
  | ahead rows seen hd _ => rw [hend] at hd; cases hd
  | behind op rows seen _ hd _ => rw [hend] at hd; rcases hd with hd | hd | hd <;> cases hd
  | loaded rows seen hd _ => rw [hend] at hd; cases hd
  | claimed rows seen hd => rw [hend] at hd; cases hd
  | sent h => exact h

/-! ## The page -/

/-- The ids a pass may still send. -/
def Dispatch.todo : Dispatch → List String
  | .loop rows _       => rows
  | .loaded op rows _  => op.id :: rows
  | .claimed op rows _ => op.id :: rows
  | .failing op rows _ => op.id :: rows
  | _                  => []

/-- A step of the pass takes from what is to do, and sends only from it. -/
theorem todo_step {a : Action} (hg : OfPass connections latest s a)
    (hs : step sha256 s a = some t) :
    t.dispatch.todo ⊆ s.dispatch.todo ∧ (∀ i ∈ t.sent, i ∈ s.sent ∨ i ∈ s.dispatch.todo) := by
  cases a with
  | dispatchLoad =>
    cases hd : s.dispatch with
    | loop rows seen =>
      cases rows with
      | nil =>
        simp only [step, hd] at hs
        cases hs
        exact ⟨List.nil_subset _, fun i hi => .inl hi⟩
      | cons i rows =>
        rcases step_load sha256 hd with ⟨-, hload⟩ | ⟨op, hf, ⟨-, hload⟩ | ⟨-, hload⟩⟩
        · rw [hload] at hs
          cases hs
          exact ⟨List.nil_subset _, fun i hi => .inl hi⟩
        · rw [hload] at hs
          cases hs
          exact ⟨List.subset_cons_self _ _, fun i hi => .inl hi⟩
        · rw [hload] at hs
          cases hs
          rw [← find_id hf]
          exact ⟨fun _ h => h, fun i hi => .inl hi⟩
    | _ => simp only [step, hd] at hs; cases hs
  | dispatchClaim connection now =>
    cases hd : s.dispatch with
    | loaded op rows seen =>
      simp only [step, hd] at hs
      split at hs
      · split at hs
        · rename_i s' hc
          cases hs
          refine ⟨fun _ h => h, fun i hi => .inl ?_⟩
          rw [← (claim_spec hc).2.1]
          exact hi
        · rename_i s' hc
          cases hs
          refine ⟨List.subset_cons_self _ _, fun i hi => .inl ?_⟩
          rw [← (claim_spec hc).2.1]
          exact hi
      · cases hs
        exact ⟨List.subset_cons_self _ _, fun i hi => .inl hi⟩
    | _ => simp only [step, hd] at hs; cases hs
  | dispatchSend ok =>
    cases hd : s.dispatch with
    | claimed op rows seen =>
      simp only [step, hd] at hs
      cases hs
      refine ⟨?_, fun i hi => ?_⟩
      · cases ok with
        | true => exact List.subset_cons_self _ _
        | false => exact fun _ h => h
      · rcases List.mem_append.mp hi with hi | hi
        · exact .inl hi
        · rw [List.mem_singleton.mp hi]
          exact .inr List.mem_cons_self
    | _ => simp only [step, hd] at hs; cases hs
  | dispatchFail =>
    cases hd : s.dispatch with
    | failing op rows seen =>
      simp only [step, hd] at hs
      cases hs
      exact ⟨List.subset_cons_self _ _, fun i hi => .inl hi⟩
    | _ => simp only [step, hd] at hs; cases hs
  | _ => exact hg.elim

/-- **A pass sends nothing that is not on its page.** -/
theorem sent_of_pass (hidle : s.dispatch = .idle) (h : Pass sha256 connections start latest s t)
    {i : String} (hi : i ∈ t.sent) : i ∈ s.sent ∨ i ∈ dispatchable (expire s.ops start) := by
  obtain ⟨hpath, -⟩ := (pass_iff hidle).mp h
  obtain ⟨-, hsent⟩ := hpath.relation
    (R := fun u v => v.dispatch.todo ⊆ u.dispatch.todo ∧
      ∀ i ∈ v.sent, i ∈ u.sent ∨ i ∈ u.dispatch.todo)
    (fun u => ⟨fun _ h => h, fun i hi => .inl hi⟩)
    (fun u v w huv hvw => by
      refine ⟨fun i hi => huv.1 (hvw.1 hi), fun i hi => ?_⟩
      rcases hvw.2 i hi with hi | hi
      · exact huv.2 i hi
      · exact .inr (huv.1 hi))
    fun u a v hg hs => todo_step hg hs
  exact hsent i hi

/-- The first operation of its device that is on the page is on its way when the pass begins. -/
theorem onTheWay_of_page {ops : List Operation} (hops : s.ops = ops)
    (hd : s.dispatch = .loop (dispatchable ops) [])
    (holdest : ((queue ops).find? fun r => decide (r.deviceId = q.deviceId)) = some q)
    (hpage : q ∈ (queue ops).take 32) : OnTheWay q s := by
  have hmem : ∀ r ∈ queue ops, r ∈ ops := fun r hr =>
    (List.mem_filter.mp ((List.mem_insertionSort _).mp hr)).1
  obtain ⟨-, older, newer, hqueue, holder⟩ := List.find?_eq_some_iff_append.mp holdest
  have hdevice : ∀ r ∈ older, r.deviceId ≠ q.deviceId := fun r hr => by simpa using holder r hr
  have hlt : older.length < 32 := by
    by_contra hle
    rw [hqueue, List.take_append_of_le_length (by omega)] at hpage
    exact hdevice q (List.mem_of_mem_take hpage) rfl
  have htake : (queue ops).take 32 = older ++ q :: newer.take (31 - older.length) := by
    have hsucc : 32 - older.length = (31 - older.length) + 1 := by omega
    rw [hqueue, List.take_append, List.take_of_length_le (by omega), hsucc, List.take_succ_cons]
  have hrows : dispatchable ops =
      older.map Operation.id ++ q.id :: (newer.take (31 - older.length)).map Operation.id := by
    show ((queue ops).take 32).map Operation.id = _
    rw [htake, List.map_append, List.map_cons]
  refine .ahead _ [] hd ⟨List.not_mem_nil, ?_, _, _, hrows, fun i hi => ?_⟩
  · rw [hops]
    exact hmem q (List.mem_of_mem_take hpage)
  · obtain ⟨r, hr, rfl⟩ := List.mem_map.mp hi
    refine ⟨r, ?_, rfl, hdevice r hr⟩
    rw [hops]
    exact hmem r (by rw [hqueue]; exact List.mem_append_left _ hr)

/-- **A pass serves every operation that is due exactly when each of them is among the 32 oldest
    queued operations of the devices where nothing runs.** -/
theorem pass_serves_iff (h : (machine sha256).Reachable s) (hidle : s.dispatch = .idle) :
    (∀ t, Pass sha256 connections start latest s t → Served connections start latest s t) ↔
      ∀ q, Due connections latest (expire s.ops start) q →
        q ∈ (queue (expire s.ops start)).take 32 := by
  have hinv : Inv sha256 (s.selected start) :=
    inv_step (inv_step (inv_reachable h) (a := .dispatchExpire start) (by
      show Operation.step sha256 s (.dispatchExpire start) =
        some { s with ops := expire s.ops start, dispatch := .expired }
      simp only [step, hidle])) (a := .dispatchSelect) rfl
  -- what is due is queued, and nothing queued was claimed or sent before
  have hqueued : ∀ q, Due connections latest (expire s.ops start) q →
      q ∈ expire s.ops start ∧ q.status = .queued ∧ q.id ∉ s.sent := by
    intro q hq
    have hmem := List.mem_filter.mp
      ((List.mem_insertionSort _).mp (List.mem_of_find?_eq_some hq.oldest))
    have hstatus : q.status = .queued := by
      have hcond := hmem.2
      simp only [Bool.and_eq_true, decide_eq_true_eq] at hcond
      exact hcond.1
    refine ⟨hmem.1, hstatus, fun hsent => ?_⟩
    obtain ⟨r, hr, hid, hleft⟩ := hinv.ops.left q.id (hinv.sent q.id hsent)
    obtain rfl := eq_of_key_eq hinv.ops.ids hr hmem.1 hid
    exact hleft hstatus
  constructor
  · intro hserved q hq
    obtain ⟨t, hpass⟩ := exists_pass sha256 connections hidle start latest
    obtain ⟨-, hsent, hnew⟩ := hserved t hpass q hq
    have hpage := (sent_of_pass hidle hpass hsent).resolve_left hnew
    obtain ⟨r, hr, hid⟩ := List.mem_map.mp hpage
    have hmem : r ∈ expire s.ops start :=
      (List.mem_filter.mp ((List.mem_insertionSort _).mp (List.mem_of_mem_take hr))).1
    obtain rfl := eq_of_key_eq hinv.ops.ids hmem (hqueued q hq).1 hid
    exact hr
  · intro hpage t hpass q hq
    obtain ⟨hpath, hend⟩ := (pass_iff hidle).mp hpass
    obtain ⟨-, hstatus, hnew⟩ := hqueued q hq
    have hway : OnTheWay q (s.selected start) :=
      onTheWay_of_page rfl rfl hq.oldest (hpage q hq)
    obtain ⟨hinv', hsent⟩ := sent_of_path hinv hstatus hq.ready hq.unexpired hway hpath hend
    exact ⟨hinv'.sent q.id hsent, hsent, hnew⟩

/-- With one operation queued it is on the page. -/
theorem pass_serves_iff_query : ∃ s, (machine (fun text => text)).Reachable s ∧ ∀ t,
    Pass (fun text => text) (fun _ => some ("c1", true)) "2026-01-01T00:00:01"
      "2026-01-01T00:00:01" s t →
    Served (fun _ => some ("c1", true)) "2026-01-01T00:00:01" "2026-01-01T00:00:01" s t := by
  have hreach : (machine (fun text => text)).Reachable
      ⟨[fresh (fun text => text) queryRequest "op-1" "t1" "2026-01-01T00:00:00"], .idle, [], []⟩ :=
    .path (.start rfl) (.single (a := .create queryRequest "op-1" "t1" "2026-01-01T00:00:00") trivial
      rfl)
  refine ⟨_, hreach, (pass_serves_iff hreach rfl).mpr fun q hq => ?_⟩
  have hmem := List.mem_of_find?_eq_some hq.oldest
  rw [List.take_of_length_le]
  · exact hmem
  · decide +kernel

/-- The `i`-th command of a crowd: 16 for each of two devices whose agent is not connected, and one
    for a device of the connected agent. -/
def crowdRequest (i : Nat) : OpRequest :=
  ⟨"admin", ⟨i / 16, if i < 32 then "a1" else "a2", "modem", "", ""⟩, [("type", .str "query")],
    "k" ++ toString i, "2026-01-01T00:03:00", "s1", if i < 32 then "c1" else "c2"⟩

/-- The crowd is queued. -/
def crowdRun : List Action := (List.range 33).map fun i =>
  .create (crowdRequest i) ("op-" ++ toString i) "t" "2026-01-01T00:00:00"

/-- The second agent is connected. -/
def crowdConnections : Connections := fun agentId =>
  if agentId = "a2" then some ("c2", true) else none

/-- What the next pass finds: the oldest operation of the connected device, whether it can be sent
    and whether it is on the page. -/
def crowdView (s : State) : Bool × Option (String × Bool × Bool × Bool) :=
  let ops := expire s.ops "2026-01-01T00:00:01"
  (match s.dispatch with | .idle => true | _ => false,
   ((queue ops).find? fun r => decide (r.deviceId = 2)).map fun q =>
    (q.id, decide (q.deviceId = 2) && sendable q (crowdConnections q.agentId),
      decide ("2026-01-01T00:00:01" < q.deadline), decide (q.id ∈ dispatchable ops)))

/-- The crowd is admitted, and the pass does not serve the device that is connected. -/
theorem pass_starves : ∃ s, (machine (fun text => text)).run .init crowdRun = some s ∧
    s.dispatch = .idle ∧
    ¬ ∀ t, Pass (fun text => text) crowdConnections "2026-01-01T00:00:01" "2026-01-01T00:00:01" s t →
      Served crowdConnections "2026-01-01T00:00:01" "2026-01-01T00:00:01" s t := by
  have hrun : ((machine (fun text => text)).run .init crowdRun).map crowdView =
      some (true, some ("op-32", true, true, false)) := by decide +kernel
  obtain ⟨s, hs, hview⟩ := Option.map_eq_some_iff.mp hrun
  simp only [crowdView, Prod.mk.injEq, Option.map_eq_some_iff, Bool.and_eq_true,
    decide_eq_true_eq, decide_eq_false_iff_not] at hview
  obtain ⟨hidle', q, holdest, hid, ⟨hdevice, hready⟩, hdeadline, hpage⟩ := hview
  have hidle : s.dispatch = .idle := by
    split at hidle'
    · assumption
    · cases hidle'
  refine ⟨s, hs, hidle, fun h => ?_⟩
  obtain ⟨t, hpass⟩ := exists_pass (fun text => text) crowdConnections hidle
    "2026-01-01T00:00:01" "2026-01-01T00:00:01"
  rw [← hdevice] at holdest
  obtain ⟨-, hsent, hnew⟩ := h t hpass q ⟨holdest, hready, hdeadline⟩
  exact hpage ((sent_of_pass hidle hpass hsent).resolve_left hnew)

end Air780eHub.Operation
