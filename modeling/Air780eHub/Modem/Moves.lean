/-
  A session's steps are moves of the mailbox ledger.

  1. **Where a task is with the slots it read** (`listed`, `pushed`, `waiting` of a task, and their
     sums over all tasks), and the session's ledger.
  2. **What can go wrong in a step**, said of the state before it: `collides`, `takes` and
     `displacedBy`, `wasted` and `spentAfter`.
  3. **Moves** of one task, the other tasks being any `View`, and `step_moves`: a step that does not
     collide, and loses only what the policy allows, is a sequence of moves.
-/
import Air780eHub.Lib.Mailbox
import Air780eHub.Lib.Table
import Air780eHub.Modem.Model
import Mathlib.Algebra.BigOperators.Group.List.Basic
import Mathlib.Algebra.Group.Prod
import Mathlib.Tactic.Abel

namespace Air780eHub.Modem

open Mailbox

/-! ## Tasks and the ledger -/

/-- The slots a fetch read and did not take up yet. -/
def Fetch.listed : Fetch → List Slot
  | .rereading index first => [(index, first)]
  | .dumping index m       => [(index, m)]
  | _                      => []

/-- The slot a fetch is about to delete. -/
def Fetch.pushed : Fetch → List Slot
  | .deleting index m _ => [(index, m)]
  | _                   => []

/-- The message in a fetch's local variable `complete`. -/
def Fetch.waiting : Fetch → List DecodedSms
  | .deleting _ _ complete => complete.toList
  | _                      => []

/-- The slots a drain listed and did not take up yet. -/
def Drain.listed : Drain → List Slot
  | .sweeping rest _   => rest
  | .deleting _ rest _ => rest
  | _                  => []

/-- The slot a drain is about to delete. -/
def Drain.pushed : Drain → List Slot
  | .deleting x _ _ => [x]
  | _               => []

/-- The messages in a drain's local variable `collected`. -/
def Drain.waiting : Drain → List DecodedSms
  | .sweeping _ collected   => collected
  | .deleting _ _ collected => collected
  | _                       => []

/-- What tasks have read, taken up and keep in local variables. -/
abbrev View := Multiset Slot × Multiset Slot × Multiset Stored

def Fetch.view (f : Fetch) : View := (↑f.listed, ↑f.pushed, ↑(readsOf f.waiting))

def Drain.view (d : Drain) : View := (↑d.listed, ↑d.pushed, ↑(readsOf d.waiting))

namespace State

/-- The slots some task has read and not deleted. -/
def claims (s : State) : List Slot :=
  s.fetch.pushed ++ s.fetch.listed
    ++ s.drains.flatMap fun d => d.pushed ++ d.listed

/-- What all tasks together have read, taken up and keep in local variables. -/
def view (s : State) : View := s.fetch.view + (s.drains.map Drain.view).sum

/-- The ledger of a session whose tasks have `v`. -/
def ledgerOf (s : State) (v : View) : Ledger Nat Stored where
  slots := ↑s.slots
  listed := v.1
  pushed := v.2.1
  held := ↑s.reassembler.held
  waiting := v.2.2
  emitted := ↑(readsOf s.emitted)
  freed := ↑s.freed
  log := ↑s.log

/-- The ledger of a session. -/
def ledger (s : State) : Ledger Nat Stored := s.ledgerOf s.view

theorem claims_eq (s : State) : (↑s.claims : Multiset Slot) = s.view.2.1 + s.view.1 := by
  have hdrains : ∀ l : List Drain,
      (↑(l.flatMap fun d => d.pushed ++ d.listed) : Multiset Slot)
        = (l.map Drain.view).sum.2.1 + (l.map Drain.view).sum.1 := by
    intro l
    induction l with
    | nil => rfl
    | cons d l ih =>
      rw [List.flatMap_cons, ← Multiset.coe_add, ← Multiset.coe_add, ih]
      show (_ : Multiset Slot)
        = (↑d.pushed + (l.map Drain.view).sum.2.1) + (↑d.listed + (l.map Drain.view).sum.1)
      ac_rfl
  rw [claims, ← Multiset.coe_add, ← Multiset.coe_add, hdrains]
  show (_ : Multiset Slot) = (↑s.fetch.pushed + (s.drains.map Drain.view).sum.2.1)
    + (↑s.fetch.listed + (s.drains.map Drain.view).sum.1)
  ac_rfl

theorem pushed_sum (l : List Drain) :
    (l.map Drain.view).sum.2.1 = ↑(l.flatMap Drain.pushed) := by
  induction l with
  | nil => rfl
  | cons d l ih =>
    rw [List.flatMap_cons, ← Multiset.coe_add, ← ih]
    rfl

/-- The tasks but one call of `drain_inbox`, which may go anywhere while they stay. -/
theorem view_split {s : State} {k : Nat} {d : Drain} (hd : s.drains[k]? = some d) :
    ∃ others : View, s.view = d.view + others
      ∧ (∀ d', (s.setDrain k d').view = d'.view + others)
      ∧ others.2.1 = ↑(s.fetch.pushed ++ (s.drains.eraseIdx k).flatMap Drain.pushed) := by
  obtain ⟨hk, rfl⟩ := List.getElem?_eq_some_iff.mp hd
  refine ⟨s.fetch.view + (((s.drains.take k).map Drain.view).sum
    + ((s.drains.drop (k + 1)).map Drain.view).sum), ?_, fun d' => ?_, ?_⟩
  · have hsplit : s.drains = s.drains.take k ++ s.drains[k] :: s.drains.drop (k + 1) := by
      rw [← List.drop_eq_getElem_cons hk, List.take_append_drop]
    have hsum : (s.drains.map Drain.view).sum
        = ((s.drains.take k).map Drain.view).sum
          + (s.drains[k].view + ((s.drains.drop (k + 1)).map Drain.view).sum) := by
      conv_lhs => rw [hsplit]
      rw [List.map_append, List.sum_append, List.map_cons, List.sum_cons]
    rw [view, hsum]
    abel
  · rw [view, setDrain, List.set_eq_take_append_cons_drop, if_pos hk, List.map_append,
      List.sum_append, List.map_cons, List.sum_cons]
    abel
  · rw [List.eraseIdx_eq_take_drop_succ, List.flatMap_append, ← Multiset.coe_add,
      ← Multiset.coe_add, ← pushed_sum, ← pushed_sum]
    rfl

@[simp] theorem cmgd_fetch (s : State) (i : Nat) (m : Stored) (e : Bool) :
    (s.cmgd i m e).fetch = s.fetch := by cases e <;> rfl

@[simp] theorem cmgd_drains (s : State) (i : Nat) (m : Stored) (e : Bool) :
    (s.cmgd i m e).drains = s.drains := by cases e <;> rfl

@[simp] theorem cmgd_reassembler (s : State) (i : Nat) (m : Stored) (e : Bool) :
    (s.cmgd i m e).reassembler = s.reassembler := by cases e <;> rfl

/-! ## What can go wrong in a step -/

/-- The step reads a slot that another task has read and not deleted yet. -/
def collides (s : State) : Act → Bool
  | .drain k .ok => match s.drains[k]? with
    | some .listing => !s.claims.isEmpty
    | _             => false
  | .fetch .ok => match s.fetch with
    | .reading index => s.claims.any fun x => x.1 == index
    | _              => false
  | _ => false

/-- The message the step takes up. -/
def takes (s : State) : Act → Option Stored
  | .direct pdu => some ⟨s.log.length, pdu, none⟩
  | .fetch _ => match s.fetch with
    | .dumping _ m => some m
    | _            => none
  | .drain k outcome => match s.drains[k]? with
    | some .listing => match outcome with
      | .ok         => s.slots.head?.map Prod.snd
      | .raised _ _ => none
    | some (.deleting _ rest _) => if outcome.returns then rest.head?.map Prod.snd else none
    | _ => none
  | _ => none

/-- What taking up a message displaces from the reassembler. -/
def displacedBy (cfg : Config) (s : State) (m : Stored) : List Stored :=
  match cfg.read m with
  | none     => []
  | some sms => s.reassembler.displaced sms

/-- When the step is a delete that raises: the messages in the local variable of its task. -/
def wasted (s : State) : Act → Option (List Stored)
  | .fetch outcome => match s.fetch with
    | .deleting _ _ complete => if outcome.returns then none else some (readsOf complete.toList)
    | _ => none
  | .drain k outcome => match s.drains[k]? with
    | some (.deleting _ _ collected) =>
      if outcome.returns then none else some (readsOf collected)
    | _ => none
  | _ => none

/-- For a delete: the messages whose slot is free after it, or that another task is about to
    delete. -/
def spentAfter (s : State) : Act → List Stored
  | .fetch outcome => match s.fetch with
    | .deleting index m _ =>
      (s.cmgd index m outcome.effect).freed.map Prod.fst
        ++ (s.drains.flatMap Drain.pushed).map Prod.snd
    | _ => []
  | .drain k outcome => match s.drains[k]? with
    | some (.deleting x _ _) =>
      (s.cmgd x.1 x.2 outcome.effect).freed.map Prod.fst
        ++ (s.fetch.pushed ++ (s.drains.eraseIdx k).flatMap Drain.pushed).map Prod.snd
    | _ => []
  | _ => []

end State

/-- The AT command of the step did not succeed. -/
def Act.raises : Act → Bool
  | .fetch (.raised _ _)   => true
  | .drain _ (.raised _ _) => true
  | _                      => false

/-- A stored message that can be decoded. -/
abbrev Config.visible (cfg : Config) (m : Stored) : Bool := cfg.decodable m.pdu

/-! ## Moves of one task -/

namespace State

variable {cfg : Config} {P : Policy Nat Stored} {s : State}

/-- `receive` changes the reassembler only, and accounts for every segment. -/
theorem receive_spec (cfg : Config) (s : State) (m : Stored) :
    ∃ r, (s.receive cfg m).1 = { s with reassembler := r }
      ∧ (↑r.held + ↑(readsOf (s.receive cfg m).2.toList) + ↑(s.displacedBy cfg m) : Multiset Stored)
          = ↑s.reassembler.held + seen cfg.visible m
      ∧ (cfg.visible m = true →
          m ∈ (↑r.held + ↑(readsOf (s.receive cfg m).2.toList) : Multiset Stored)) := by
  cases hdec : cfg.decode m.pdu with
  | none =>
    have hread : cfg.read m = none := by rw [Config.read, hdec, Option.map_none]
    have hvis : cfg.visible m = false := by rw [Config.visible, Config.decodable, hdec]; rfl
    refine ⟨s.reassembler, ?_, ?_, fun h => absurd (hvis.symm.trans h) Bool.false_ne_true⟩
    · rw [receive, hread]
    · simp [receive, hread, displacedBy, seen, hvis]
  | some sms =>
    have hread : cfg.read m = some { sms with reads := [m] } := by
      rw [Config.read, hdec, Option.map_some]
    have hvis : cfg.visible m = true := by rw [Config.visible, Config.decodable, hdec]; rfl
    have hperm := s.reassembler.push_perm s.clock { sms with reads := [m] }
    have hkeep := s.reassembler.push_keeps s.clock { sms with reads := [m] } (m := m)
      List.mem_cons_self
    simp only [receive, hread, displacedBy, seen, hvis, if_true, Multiset.coe_add]
    refine ⟨_, rfl, ?_, fun _ => Multiset.mem_coe.mpr hkeep⟩
    rw [← Multiset.coe_singleton, Multiset.coe_add]
    exact Multiset.coe_eq_coe.mpr hperm

/-- A task takes up the message of a slot it read. -/
theorem takeUp_moves (x : Slot) (R : Multiset Slot) (W : Multiset Stored) (o : View)
    (hd : P.displace x.2 ↑(s.displacedBy cfg x.2)) :
    Moves cfg.visible P (s.ledgerOf ((x ::ₘ R, 0, W) + o))
      ((s.receive cfg x.2).1.ledgerOf
        ((R, {x}, W + ↑(readsOf (s.receive cfg x.2).2.toList)) + o)) := by
  obtain ⟨r, hr, hh, hm⟩ := receive_spec cfg s x.2
  rw [hr]
  refine Moves.one (.push x (R + o.1) _ _ _ (Multiset.cons_add _ _ _) hh hm hd) ?_
  refine Ledger.ext rfl rfl ?_ rfl ?_ rfl rfl rfl
  · show x ::ₘ (0 + o.2.1) = {x} + o.2.1
    rw [zero_add, Multiset.singleton_add]
  · show _ + (W + o.2.2) = W + _ + o.2.2
    rw [add_left_comm, add_assoc]

/-- With distinct numbers, filtering the number of an occupied slot out removes that slot. -/
theorem slots_split {l : List Slot} (hn : (l.map Prod.fst).Nodup) {x : Slot} (hx : x ∈ l) :
    l.Perm (x :: l.filter fun y => y.1 != x.1) := by
  have hone : (l.filter fun y => y.1 = x.1) = [x] := filter_key_eq hn hx
  have hsplit := (List.filter_append_perm (fun y : Slot => decide (y.1 = x.1)) l).symm
  rw [hone] at hsplit
  refine hsplit.trans ?_
  have hne : (l.filter fun y => !decide (y.1 = x.1)) = l.filter fun y => y.1 != x.1 :=
    List.filter_congr fun y _ => by rw [bne, beq_eq_decide]
  rw [hne]
  exact List.Perm.refl _

theorem slotAt_eq {x : Slot} (hn : (s.slots.map Prod.fst).Nodup) (hx : x ∈ s.slots) :
    s.slotAt x.1 = some x.2 := by
  cases hf : s.slots.find? (fun y => y.1 == x.1) with
  | none =>
    have := List.find?_eq_none.mp hf x hx
    simp at this
  | some y =>
    have hy : y.1 = x.1 := by simpa using List.find?_some hf
    obtain rfl := eq_of_key_eq hn (List.mem_of_find?_eq_some hf) hx hy
    rw [slotAt, hf, Option.map_some]

/-- A task's AT+CMGD: the slot is freed, and it held what the task had read; or the command had no
    effect. -/
theorem cmgd_moves (x : Slot) (R : Multiset Slot) (W : Multiset Stored) (o : View) (effect : Bool)
    (ho : (s.ledgerOf ((R, {x}, W) + o)).Owned) (hf : effect = false → P.fail) :
    Moves cfg.visible P (s.ledgerOf ((R, {x}, W) + o))
      ((s.cmgd x.1 x.2 effect).ledgerOf ((R, 0, W) + o)) := by
  have hpushed : (s.ledgerOf ((R, {x}, W) + o)).pushed = x ::ₘ o.2.1 :=
    Multiset.singleton_add _ _
  cases effect with
  | false =>
    refine Moves.one (.miss x o.2.1 hpushed (hf rfl)) ?_
    exact Ledger.ext rfl rfl (zero_add _).symm rfl rfl rfl rfl rfl
  | true =>
    have hn : (s.slots.map Prod.fst).Nodup := ho.numbers
    have hx : x ∈ s.slots := by
      refine Multiset.mem_of_le ho.claimed (Multiset.mem_add.mpr (Or.inl ?_))
      rw [hpushed]
      exact Multiset.mem_cons_self _ _
    refine Moves.one (.free x o.2.1 ↑(s.slots.filter fun y => y.1 != x.1) hpushed ?_) ?_
    · exact Multiset.coe_eq_coe.mpr (slots_split hn hx)
    · refine Ledger.ext rfl rfl (zero_add _).symm rfl rfl rfl ?_ rfl
      show (x.2, x.2) ::ₘ (↑s.freed : Multiset _) = ↑(s.freed ++ _)
      rw [slotAt_eq hn hx, ← Multiset.coe_add, add_comm, ← Multiset.singleton_add]
      rfl

/-- A task hands its local variable over. -/
theorem handOver_moves (p : Multiset Slot) (R : Multiset Slot) (l : List DecodedSms) (o : View) :
    Moves cfg.visible P (s.ledgerOf ((R, p, (↑(readsOf l) : Multiset Stored)) + o))
      ((s.handOver l).ledgerOf ((R, p, 0) + o)) := by
  refine Moves.one (.emit ↑(readsOf l) o.2.2 rfl) ?_
  refine Ledger.ext rfl rfl rfl rfl (zero_add _).symm ?_ rfl rfl
  show (↑(readsOf l) + ↑(readsOf s.emitted) : Multiset Stored) = ↑(readsOf (s.emitted ++ l))
  rw [readsOf_append, ← Multiset.coe_add, add_comm]

/-- The reassembler gives up on what waited too long. -/
theorem flush_moves (v : View) :
    Moves cfg.visible P (s.ledgerOf v) ((s.flush cfg []).ledgerOf v) := by
  have hperm := s.reassembler.flushExpired_perm s.clock cfg.timeout
  refine Moves.one (.flush ↑(readsOf (s.reassembler.flushExpired s.clock cfg.timeout).2)
    ↑(s.reassembler.flushExpired s.clock cfg.timeout).1.held ?_) ?_
  · rw [add_comm]
    exact Multiset.coe_eq_coe.mpr hperm.symm
  · refine Ledger.ext rfl rfl rfl rfl rfl ?_ rfl rfl
    show (↑(readsOf (s.reassembler.flushExpired s.clock cfg.timeout).2) + ↑(readsOf s.emitted)
        : Multiset Stored)
      = ↑(readsOf (s.emitted ++ [] ++ (s.reassembler.flushExpired s.clock cfg.timeout).2))
    rw [List.append_nil, readsOf_append, ← Multiset.coe_add, add_comm]

/-- A task gives up on slots it only read. -/
theorem release_moves (C p : Multiset Slot) (W : Multiset Stored) (o : View) :
    Moves cfg.visible P (s.ledgerOf ((C, p, W) + o)) (s.ledgerOf ((0, p, W) + o)) := by
  refine Moves.one (.release C o.1 rfl) ?_
  exact Ledger.ext rfl (zero_add _).symm rfl rfl rfl rfl rfl rfl

/-- A task ends with an error. -/
theorem drop_moves (R : Multiset Slot) (W : Multiset Stored) (o : View)
    (hd : P.drop (s.ledgerOf ((R, 0, W) + o)) W) :
    Moves cfg.visible P (s.ledgerOf ((R, 0, W) + o)) (s.ledgerOf ((R, 0, 0) + o)) := by
  refine Moves.one (.drop W o.2.2 rfl hd) ?_
  exact Ledger.ext rfl rfl rfl rfl (zero_add _).symm rfl rfl rfl

/-- A task reads slots nobody else claims. -/
theorem claim_moves (C : Multiset Slot) (o : View) (hC : C + (o.2.1 + o.1) ≤ ↑s.slots) :
    Moves cfg.visible P (s.ledgerOf o) (s.ledgerOf ((C, 0, 0) + o)) := by
  refine Moves.one (.claim C hC) ?_
  exact Ledger.ext rfl rfl (zero_add _).symm rfl (zero_add _).symm rfl rfl rfl

/-! ## Steps are moves -/

/-- The step does not collide, and loses only what the policy allows. -/
structure Allowed (cfg : Config) (P : Policy Nat Stored) (s : State) (a : Act) : Prop where
  collides : s.collides a = false
  takes    : ∀ m, s.takes a = some m → P.displace m ↑(s.displacedBy cfg m)
  wasted   : ∀ W, s.wasted a = some W →
    ∀ L : Ledger Nat Stored, L.spent = ↑(s.spentAfter a) → P.drop L ↑W
  raises   : a.raises = true → P.fail

/-- What a list of slots makes of the other tasks' view, when nothing was read under a number. -/
theorem claim_le {s : State} (ho : s.ledger.Owned) {index : Nat} {m : Stored}
    (hm : s.slotAt index = some m) (hc : s.claims.any (fun x => x.1 == index) = false) :
    {(index, m)} + s.ledger.claims ≤ s.ledger.slots := by
  obtain ⟨x, hx, rfl⟩ := Option.map_eq_some_iff.mp hm
  have hi : x.1 = index := by simpa using List.find?_some hx
  have hmem : x ∈ s.slots := List.mem_of_find?_eq_some hx
  have hclaims : s.ledger.claims = ↑s.claims := s.claims_eq.symm
  have hnot : x ∉ (↑s.claims : Multiset Slot) := by
    intro hin
    have := List.any_eq_false.mp hc x (Multiset.mem_coe.mp hin)
    simp [hi] at this
  have hle := ho.claimed
  rw [hclaims] at hle
  rw [← hi, hclaims, Multiset.singleton_add]
  exact (Multiset.cons_le_of_notMem hnot).mpr ⟨Multiset.mem_coe.mpr hmem, hle⟩

/-- A claimed slot holds what was read from it, so reading it again changes nothing. -/
theorem reread_eq {s : State} (ho : s.ledger.Owned) {index : Nat} {first : Stored}
    (hf : s.fetch = .rereading index first) : s.reread index first = first := by
  have hmem : (index, first) ∈ s.slots := by
    refine Multiset.mem_of_le ho.claimed (?_ : (index, first) ∈ s.view.2.1 + s.view.1)
    refine Multiset.mem_add.mpr (Or.inr (Multiset.mem_add.mpr (Or.inl ?_)))
    rw [hf]
    exact Multiset.mem_singleton_self _
  rw [reread, slotAt_eq ho.numbers hmem]
  exact ite_self _

theorem ledger_fetch (s : State) (f : Fetch) :
    { s with fetch := f }.ledger = s.ledgerOf (f.view + (s.drains.map Drain.view).sum) := rfl

/-- A command of `_fetch_index`. -/
theorem fetchStep_moves (hdel : cfg.deleteAfterRead = true) {s s' : State} {o : Outcome}
    (hs : s.fetchStep cfg o = some s') (ha : s.Allowed cfg P (.fetch o)) (ho : s.ledger.Owned) :
    Moves cfg.visible P s.ledger s'.ledger := by
  have hview : s.ledger = s.ledgerOf (s.fetch.view + (s.drains.map Drain.view).sum) := rfl
  cases fetchStep_cases hs with
  | vanished hf hm => rw [hview, hf]; exact Relation.ReflTransGen.refl
  | @read index m hf hm =>
    have hc := ha.collides
    rw [collides, hf] at hc
    have hle := claim_le ho hm hc
    have hv : s.view = (s.drains.map Drain.view).sum := by
      rw [view, hf]; exact zero_add _
    rw [ledger, hv] at hle ⊢
    rw [ledger_fetch]
    -- read in agreement or not, the slot is claimed
    cases m.agrees with
    | true => exact claim_moves {(index, m)} _ hle
    | false => exact claim_moves {(index, m)} _ hle
  | again hf =>
    rw [s.reread_eq ho hf, hview, hf]
    exact Relation.ReflTransGen.refl
  | gone hf => rw [hview, hf]; exact Relation.ReflTransGen.refl
  | failed hf => rw [hview, hf]; exact release_moves _ _ _ _
  | @taken index m _ hf =>
    have hd := ha.takes m (by rw [takes, hf])
    obtain ⟨r, hr, -, -⟩ := receive_spec cfg s m
    have hmove := @takeUp_moves cfg _ _ (index, m) 0 0 (s.drains.map Drain.view).sum hd
    rw [zero_add] at hmove
    have hend : (s.takeUp cfg index m).ledger
        = (s.receive cfg m).1.ledgerOf
            ((0, {(index, m)}, (↑(readsOf (s.receive cfg m).2.toList) : Multiset Stored))
              + (s.drains.map Drain.view).sum) := by
      rw [takeUp, if_pos hdel, ledger_fetch, hr]
      rfl
    rw [hview, hf, hend]
    exact hmove
  | @deleted index m complete _ hf hret =>
    have hv : s.ledger = s.ledgerOf ((0, {(index, m)}, (↑(readsOf complete.toList) : Multiset _))
        + (s.drains.map Drain.view).sum) := by
      rw [hview, hf]; rfl
    have hfail : o.effect = false → P.fail := by
      intro he
      cases o with
      | ok => cases he
      | raised error effect => exact ha.raises rfl
    have hend : { (s.cmgd index m o.effect).handOver complete.toList with fetch := .idle }.ledger
        = ((s.cmgd index m o.effect).handOver complete.toList).ledgerOf
            ((0, 0, 0) + (s.drains.map Drain.view).sum) := by
      rw [ledger_fetch, handOver, cmgd_drains]
      rfl
    rw [hend]
    rw [hv] at ho ⊢
    exact (cmgd_moves (index, m) 0 _ _ o.effect ho hfail).trans (handOver_moves 0 0 _ _)
  | @lost index m complete _ hf hret =>
    have hv : s.ledger = s.ledgerOf ((0, {(index, m)}, (↑(readsOf complete.toList) : Multiset _))
        + (s.drains.map Drain.view).sum) := by
      rw [hview, hf]; rfl
    have hfail : o.effect = false → P.fail := by
      intro he
      cases o with
      | ok => cases he
      | raised error effect => exact ha.raises rfl
    have hend : { s.cmgd index m o.effect with fetch := .idle }.ledger
        = (s.cmgd index m o.effect).ledgerOf ((0, 0, 0) + (s.drains.map Drain.view).sum) := by
      rw [ledger_fetch, cmgd_drains]
      rfl
    rw [hend]
    rw [hv] at ho ⊢
    refine (cmgd_moves (index, m) 0 _ _ o.effect ho hfail).trans (drop_moves 0 _ _ ?_)
    refine ha.wasted _ (by simp [wasted, hf, hret]) _ ?_
    rw [spentAfter, hf, ← Multiset.coe_add]
    show _ + Multiset.map Prod.snd (0 + (s.drains.map Drain.view).sum.2.1) = _
    rw [zero_add, pushed_sum]
    rfl

/-- The loop of `drain_inbox` up to its next command. -/
theorem sweep_moves (hdel : cfg.deleteAfterRead = true) (k : Nat) (rest : List Slot)
    (collected : List DecodedSms) {o : View}
    (hview : ∀ d, (s.setDrain k d).view = d.view + o)
    (hd : ∀ x, rest.head? = some x → P.displace x.2 ↑(s.displacedBy cfg x.2)) :
    Moves cfg.visible P (s.ledgerOf ((Drain.sweeping rest collected).view + o))
      (sweep cfg k rest collected s).ledger := by
  cases rest with
  | nil =>
    have hflush : s.flush cfg collected = (s.handOver collected).flush cfg [] := by
      simp [flush, handOver]
    have hend : (sweep cfg k [] collected s).ledger
        = ((s.handOver collected).flush cfg []).ledgerOf ((0, 0, 0) + o) := by
      rw [← hflush]
      show ledgerOf _ (s.setDrain k .done).view = _
      rw [hview]
      rfl
    rw [hend]
    exact (handOver_moves 0 0 collected o).trans (flush_moves _)
  | cons x rest =>
    obtain ⟨r, hr, -, -⟩ := receive_spec cfg s x.2
    have hend : (sweep cfg k (x :: rest) collected s).ledger
        = (s.receive cfg x.2).1.ledgerOf
            (((↑rest : Multiset Slot), {x}, (↑(readsOf collected) : Multiset Stored)
              + ↑(readsOf (s.receive cfg x.2).2.toList)) + o) := by
      rw [sweep, if_pos hdel, hr]
      show ledgerOf _ (s.setDrain k _).view = _
      rw [hview, Drain.view, Drain.waiting, readsOf_append, ← Multiset.coe_add]
      rfl
    rw [hend]
    exact takeUp_moves x ↑rest _ o (hd x rfl)

theorem setDrain_setDrain (s : State) (k : Nat) (d d' : Drain) :
    (s.setDrain k d).setDrain k d' = s.setDrain k d' := by
  rw [setDrain, setDrain, setDrain, List.set_set]

/-- The view of the tasks after a delete of the `k`-th call. -/
theorem cmgd_setDrain_view (s : State) (i : Nat) (m : Stored) (e : Bool) (k : Nat) (d : Drain) :
    ((s.cmgd i m e).setDrain k d).view = (s.setDrain k d).view := by
  cases e <;> rfl

/-- A command of a call of `drain_inbox`. -/
theorem drainStep_moves (hdel : cfg.deleteAfterRead = true) {s s' : State} {k : Nat} {o : Outcome}
    (hs : s.drainStep cfg k o = some s') (ha : s.Allowed cfg P (.drain k o))
    (ho : s.ledger.Owned) : Moves cfg.visible P s.ledger s'.ledger := by
  have hfail : o.effect = false → P.fail := by
    intro he
    cases o with
    | ok => cases he
    | raised error effect => exact ha.raises rfl
  cases drainStep_cases hs with
  | listed hd =>
    obtain ⟨others, hv, hset, -⟩ := view_split hd
    have hc := ha.collides
    rw [collides, hd] at hc
    have hnone : s.claims = [] := by simpa using hc
    -- nobody claims anything, so the call may claim every slot
    have hzero : others.2.1 + others.1 = 0 := by
      have heq := s.claims_eq
      rw [hnone, hv] at heq
      have h0 : ((Drain.listing.view + others).2.1 + (Drain.listing.view + others).1)
          = others.2.1 + others.1 := by
        show (0 + others.2.1) + (0 + others.1) = _
        rw [zero_add, zero_add]
      exact h0.symm.trans heq.symm
    have hclaim : (↑s.slots : Multiset Slot) + (others.2.1 + others.1) ≤ ↑s.slots := by
      rw [hzero, add_zero]
    have hfirst := @claim_moves cfg P s ↑s.slots others hclaim
    have hlisting : s.view = others := by rw [hv]; exact zero_add _
    rw [ledger, hlisting]
    refine hfirst.trans (sweep_moves (s := s.setDrain k (.sweeping s.slots [])) hdel k s.slots []
      (fun d => ?_) fun x hx => ?_)
    · rw [setDrain_setDrain]; exact hset d
    · exact ha.takes x.2 (by simp [takes, hd, hx])
  | refused hd =>
    obtain ⟨others, hv, hset, -⟩ := view_split hd
    have hsame : (s.setDrain k .done).view = s.view := by rw [hset, hv]; rfl
    rw [ledger, ledger, hsame]
    exact Relation.ReflTransGen.refl
  | @deleted x rest collected _ hd hret =>
    obtain ⟨others, hv, hset, -⟩ := view_split hd
    rw [ledger, hv] at ho ⊢
    refine (cmgd_moves x ↑rest _ others o.effect ho hfail).trans
      (sweep_moves (s := (s.cmgd x.1 x.2 o.effect).setDrain k (.sweeping rest collected))
        hdel k rest collected (fun d => ?_) fun y hy => ?_)
    · rw [setDrain_setDrain, cmgd_setDrain_view]; exact hset d
    · have hdisp := ha.takes y.2 (by simp [takes, hd, hret, hy])
      have hsame : ((s.cmgd x.1 x.2 o.effect).setDrain k (.sweeping rest collected)).displacedBy
          cfg y.2 = s.displacedBy cfg y.2 := by
        rw [displacedBy, displacedBy, setDrain, cmgd_reassembler]
      rw [hsame]
      exact hdisp
  | @lost x rest collected _ hd hret =>
    obtain ⟨others, hv, hset, hpushed⟩ := view_split hd
    have hend : ((s.cmgd x.1 x.2 o.effect).setDrain k .done).ledger
        = (s.cmgd x.1 x.2 o.effect).ledgerOf ((0, 0, 0) + others) := by
      rw [ledger, cmgd_setDrain_view, hset]
      rfl
    rw [hend, ledger, hv]
    rw [ledger, hv] at ho
    refine (cmgd_moves x ↑rest _ others o.effect ho hfail).trans
      ((drop_moves ↑rest _ others ?_).trans (release_moves ↑rest 0 0 others))
    refine ha.wasted (readsOf collected) (by simp [wasted, hd, hret]) _ ?_
    rw [spentAfter, hd, ← Multiset.coe_add]
    show _ + Multiset.map Prod.snd (0 + others.2.1) = _
    rw [zero_add, hpushed]
    rfl

/-- **A session's steps are moves.**  A step that does not collide and loses only what the policy
    allows is a sequence of moves of the ledger. -/
theorem step_moves (hdel : cfg.deleteAfterRead = true) {s s' : State} {a : Act}
    (hs : s.step cfg a = some s') (ha : s.Allowed cfg P a) (ho : s.ledger.Owned) :
    Moves cfg.visible P s.ledger s'.ledger := by
  cases a with
  | arrive index pdu declared =>
    obtain ⟨t, ht, rfl⟩ := Option.map_eq_some_iff.mp hs
    rw [land] at ht
    split at ht
    · cases ht
    · rename_i hfree
      obtain rfl := Option.some.inj ht
      refine Moves.one (.arrive index ⟨s.log.length, pdu, declared⟩ ?_) ?_
      · exact fun h => hfree (Multiset.mem_coe.mp h)
      · refine Ledger.ext ?_ rfl rfl rfl rfl rfl rfl ?_
        · exact Multiset.coe_eq_coe.mpr (List.perm_orderedInsert _ _ _).symm
        · exact Multiset.coe_eq_coe.mpr (List.perm_append_singleton _ _).symm
  | direct pdu =>
    obtain rfl := Option.some.inj hs
    obtain ⟨r, hr, hh, hm⟩ := receive_spec cfg
      { s with log := s.log ++ [⟨s.log.length, pdu, none⟩] } ⟨s.log.length, pdu, none⟩
    refine Moves.one (.direct ⟨s.log.length, pdu, none⟩ _ _ _ hh hm (ha.takes _ rfl)) ?_
    rw [onCmt, hr]
    refine Ledger.ext rfl rfl rfl rfl rfl ?_ rfl ?_
    · show (_ : Multiset Stored) = ↑(readsOf (s.emitted ++ _))
      rw [readsOf_append, ← Multiset.coe_add, add_comm]
      rfl
    · exact Multiset.coe_eq_coe.mpr (List.perm_append_singleton _ _).symm
  | notify index => obtain rfl := Option.some.inj hs; exact Relation.ReflTransGen.refl
  | tick d => obtain rfl := Option.some.inj hs; exact Relation.ReflTransGen.refl
  | flush => obtain rfl := Option.some.inj hs; exact flush_moves _
  | take =>
    have hview : s.ledger = s.ledgerOf (s.fetch.view + (s.drains.map Drain.view).sum) := rfl
    simp only [step] at hs
    split at hs
    · rename_i index rest hf hq
      obtain rfl := Option.some.inj hs
      rw [hview, hf]
      exact Relation.ReflTransGen.refl
    · cases hs
  | fetch o => exact fetchStep_moves hdel hs ha ho
  | call =>
    obtain rfl := Option.some.inj hs
    have hsame : { s with drains := s.drains ++ [Drain.listing] }.ledger = s.ledger := by
      show s.ledgerOf (s.fetch.view + ((s.drains ++ [Drain.listing]).map Drain.view).sum) = _
      rw [List.map_append, List.sum_append]
      show s.ledgerOf (s.fetch.view + ((s.drains.map Drain.view).sum + (0 + 0))) = _
      rw [add_zero, add_zero]
      rfl
    rw [hsame]
  | drain k o => exact drainStep_moves hdel hs ha ho

end State

end Air780eHub.Modem
