/-
  The books of the command queues: in how many places the number of a submission is.

  1. **Counting**: how often a submission is in a list (`holds`), in the queues, among what was
     executed, among what was handed back.
  2. **`Books`**: the limits, and that these counts add up.
  3. **Moves**: a submission, the two ends of a worker's round, a disconnect and a stop keep them.
-/
import Air780eHub.Agent.Workers

namespace Air780eHub.Workers

open Dispatcher (key)

/-! ## Counting -/

/-- How often a submission is in a list. -/
def holds (n : Nat) (l : List Ticket) : Nat := l.countP fun t => t.number == n

@[simp] theorem holds_nil (n : Nat) : holds n [] = 0 := rfl

theorem holds_append (n : Nat) (l l' : List Ticket) :
    holds n (l ++ l') = holds n l + holds n l' := List.countP_append

theorem holds_cons (n : Nat) (t : Ticket) (l : List Ticket) :
    holds n (t :: l) = holds n l + holds n [t] := by
  unfold holds
  rw [List.countP_cons, List.countP_singleton]

theorem holds_self (t : Ticket) : holds t.number [t] = 1 := by simp [holds]

theorem holds_other {n : Nat} {t : Ticket} (h : t.number ≠ n) : holds n [t] = 0 := by
  simp [holds, h]

theorem holds_pos {n : Nat} {l : List Ticket} : 0 < holds n l ↔ ∃ t ∈ l, t.number = n := by
  unfold holds
  rw [List.countP_pos_iff]
  simp

namespace Pool

variable (s : Pool) (n : Nat)

/-- How often a submission waits, is being executed, has been, has been without returning, has been
handed back. -/
def waitingOf : Nat := s.queues.sumOf fun q => holds n q.waiting

def executingOf : Nat := s.queues.sumOf fun q => holds n q.executing

def overOf : Nat := holds n (s.ended.map Prod.fst)

def failedOf : Nat := holds n ((s.ended.filter fun e => e.2 != .returned).map Prod.fst)

def rejectedOf : Nat := holds n (s.rejected.map Prod.fst)

end Pool

/-! ## The books -/

/-- The numbers of a pool. -/
structure Books (L : Limits) (s : Pool) : Prop where
  pending    : s.pending = s.total
  maxPending : s.total ≤ L.maxPending
  maxWorkers : s.queues.entries.length ≤ L.maxWorkers
  /-- A submission is in one place; what was handed back after an execution is in two. -/
  ledger     : ∀ n, s.waitingOf n + s.executingOf n + s.overOf n + s.rejectedOf n =
    s.failedOf n + if n < s.arrived.length then 1 else 0
  failed     : ∀ n, s.failedOf n ≤ s.rejectedOf n
  began      : ∀ n, holds n s.started = s.executingOf n + s.overOf n

theorem length_set_new {d : Dict (Option String) CommandQueue} {k : Option String}
    {q : CommandQueue} (h : d.get? k = none) :
    (d.set k q).entries.length = d.entries.length + 1 :=
  (Dict.set_perm_new h).length_eq

theorem length_set_old {d : Dict (Option String) CommandQueue} {k : Option String}
    {q w : CommandQueue} (h : d.get? k = some w) :
    (d.set k q).entries.length = d.entries.length :=
  Nat.succ.inj (Dict.set_perm_old h).length_eq

theorem length_erase {d : Dict (Option String) CommandQueue} {k : Option String}
    {w : CommandQueue} (h : d.get? k = some w) :
    (d.erase k).entries.length + 1 = d.entries.length :=
  (Dict.erase_perm h).length_eq

/-- The number of the next submission is new. -/
theorem next_number (n : Nat) (t : Ticket) {arrived : List Ticket} (ht : t.number = arrived.length) :
    (if n < (arrived ++ [t]).length then 1 else 0) =
      (if n < arrived.length then 1 else 0) + holds n [t] := by
  rw [List.length_append, List.length_singleton]
  by_cases hn : t.number = n
  · subst hn
    rw [holds_self, if_pos (by omega), if_neg (by omega)]
  · rw [holds_other hn]
    by_cases hlt : n < arrived.length
    · rw [if_pos hlt, if_pos (by omega)]
    · rw [if_neg hlt, if_neg (by omega)]

/-! ## Moves -/

namespace Books

variable {L : Limits} {s : Pool} {t : Ticket} {k : Option String} {q : CommandQueue}

/-- A submission is turned away. -/
theorem turnAway (h : Books L s) (ht : t.number = s.arrived.length) (reason : String) :
    Books L ({ s with arrived := s.arrived ++ [t] }.reject t reason) := by
  have hrejected : ∀ n, ({ s with arrived := s.arrived ++ [t] }.reject t reason).rejectedOf n =
      s.rejectedOf n + holds n [t] := by
    intro n
    show holds n ((s.rejected ++ [(t, reason)]).map Prod.fst) = _
    rw [List.map_append, holds_append]
    rfl
  refine ⟨h.pending, h.maxPending, h.maxWorkers, ?_, ?_, h.began⟩
  · intro n
    have hledger := h.ledger n
    show s.waitingOf n + s.executingOf n + s.overOf n + _ =
      s.failedOf n + if n < (s.arrived ++ [t]).length then 1 else 0
    rw [hrejected, next_number n t ht]
    omega
  · intro n
    have hfailed := h.failed n
    rw [hrejected]
    show s.failedOf n ≤ _
    omega

/-- A submission joins a queue, which may be a new one. -/
theorem enqueue (h : Books L s) (ht : t.number = s.arrived.length)
    (hq : s.queues.get? (key t.frame) = some q ∨ s.queues.get? (key t.frame) = none ∧
      q = ⟨[], false, false⟩ ∧ s.queues.entries.length < L.maxWorkers)
    (hkept : q.kept ≤ q.frames.length) (hroom : s.total < L.maxPending) :
    Books L ({ s with arrived := s.arrived ++ [t] }.enqueue t q) := by
  have hset : ∀ f : CommandQueue → Nat, f ⟨[], false, false⟩ = 0 →
      (s.queues.set (key t.frame) { q with frames := q.frames ++ [t] }).sumOf f + f q =
        s.queues.sumOf f + f { q with frames := q.frames ++ [t] } := by
    intro f hzero
    rcases hq with hold | ⟨hnew, rfl, -⟩
    · exact Dict.sumOf_set_old hold
    · rw [Dict.sumOf_set_new hnew, hzero, Nat.add_zero]
  have htotal : ({ s with arrived := s.arrived ++ [t] }.enqueue t q).total = s.total + 1 := by
    have hsum := hset (fun q => q.frames.length) rfl
    rw [List.length_append, List.length_singleton] at hsum
    show (s.queues.set _ _).sumOf _ = s.queues.sumOf _ + 1
    omega
  have hwaiting : ∀ n, ({ s with arrived := s.arrived ++ [t] }.enqueue t q).waitingOf n =
      s.waitingOf n + holds n [t] := by
    intro n
    have hsum := hset (fun q => holds n q.waiting) rfl
    have hdrop : ({ q with frames := q.frames ++ [t] } : CommandQueue).waiting = q.waiting ++ [t] :=
      List.drop_append_of_le_length hkept
    rw [hdrop, holds_append] at hsum
    show (s.queues.set _ _).sumOf _ = s.queues.sumOf _ + _
    omega
  have hexecuting : ∀ n, ({ s with arrived := s.arrived ++ [t] }.enqueue t q).executingOf n =
      s.executingOf n := by
    intro n
    have hsum := hset (fun q => holds n q.executing) rfl
    have htake : ({ q with frames := q.frames ++ [t] } : CommandQueue).executing = q.executing :=
      List.take_append_of_le_length hkept
    rw [htake] at hsum
    show (s.queues.set _ _).sumOf _ = s.queues.sumOf _
    omega
  refine ⟨?_, ?_, ?_, ?_, h.failed, ?_⟩
  · rw [htotal]
    show s.pending + 1 = _
    rw [h.pending]
    rfl
  · rw [htotal]
    omega
  · show (s.queues.set _ _).entries.length ≤ _
    have hworkers := h.maxWorkers
    rcases hq with hold | ⟨hnew, -, hfree⟩
    · rw [length_set_old hold]
      exact hworkers
    · rw [length_set_new hnew]
      exact hfree
  · intro n
    have hledger := h.ledger n
    rw [hwaiting, hexecuting]
    show _ + _ + s.overOf n + s.rejectedOf n =
      s.failedOf n + if n < (s.arrived ++ [t]).length then 1 else 0
    rw [next_number n t ht]
    omega
  · intro n
    rw [hexecuting]
    exact h.began n

/-- A worker finds its queue empty and ends. -/
theorem goOn_nil {c : Bool} (h : Books L s) (hq : s.queues.get? k = some ⟨[], false, c⟩) :
    Books L { s with queues := s.queues.erase k } := by
  have hsame : ∀ f : CommandQueue → Nat, f ⟨[], false, c⟩ = 0 →
      (s.queues.erase k).sumOf f = s.queues.sumOf f := by
    intro f hzero
    have hsum := Dict.sumOf_erase (f := f) hq
    omega
  have htotal : ({ s with queues := s.queues.erase k } : Pool).total = s.total := hsame _ rfl
  have hwaiting : ∀ n, ({ s with queues := s.queues.erase k } : Pool).waitingOf n = s.waitingOf n :=
    fun n => hsame _ rfl
  have hexecuting : ∀ n,
      ({ s with queues := s.queues.erase k } : Pool).executingOf n = s.executingOf n :=
    fun n => hsame _ rfl
  refine ⟨?_, ?_, ?_, ?_, h.failed, ?_⟩
  · rw [htotal]
    exact h.pending
  · rw [htotal]
    exact h.maxPending
  · have hlen := length_erase hq
    have hworkers := h.maxWorkers
    show (s.queues.erase k).entries.length ≤ _
    omega
  · intro n
    rw [hwaiting, hexecuting]
    exact h.ledger n
  · intro n
    rw [hexecuting]
    exact h.began n

/-- A worker begins to execute the head of its queue. -/
theorem goOn_cons {rest : List Ticket} {c : Bool} (h : Books L s)
    (hq : s.queues.get? k = some ⟨t :: rest, false, c⟩) :
    Books L { s with queues := s.queues.set k ⟨t :: rest, true, c⟩, started := s.started ++ [t] } := by
  have hset := fun f : CommandQueue → Nat =>
    Dict.sumOf_set_old (f := f) (v := ⟨t :: rest, true, c⟩) hq
  have htotal : (s.queues.set k ⟨t :: rest, true, c⟩).sumOf (fun q => q.frames.length) = s.total :=
    Nat.add_right_cancel (hset fun q => q.frames.length)
  have hwaiting : ∀ n, (s.queues.set k ⟨t :: rest, true, c⟩).sumOf (fun q => holds n q.waiting) +
      holds n [t] = s.waitingOf n := by
    intro n
    have hsum : _ + holds n (t :: rest) = s.waitingOf n + holds n rest := hset fun q => holds n q.waiting
    rw [holds_cons] at hsum
    omega
  have hexecuting : ∀ n, (s.queues.set k ⟨t :: rest, true, c⟩).sumOf (fun q => holds n q.executing) =
      s.executingOf n + holds n [t] := fun n => hset fun q => holds n q.executing
  refine ⟨?_, ?_, ?_, ?_, h.failed, ?_⟩
  · show s.pending = ((s.queues.set k ⟨t :: rest, true, c⟩).sumOf (fun q => q.frames.length) : Nat)
    rw [htotal]
    exact h.pending
  · show (s.queues.set k ⟨t :: rest, true, c⟩).sumOf (fun q => q.frames.length) ≤ _
    rw [htotal]
    exact h.maxPending
  · show (s.queues.set k ⟨t :: rest, true, c⟩).entries.length ≤ _
    rw [length_set_old hq]
    exact h.maxWorkers
  · intro n
    have hledger := h.ledger n
    have hw := hwaiting n
    show (s.queues.set k ⟨t :: rest, true, c⟩).sumOf (fun q => holds n q.waiting) +
      (s.queues.set k ⟨t :: rest, true, c⟩).sumOf (fun q => holds n q.executing) + s.overOf n +
        s.rejectedOf n = s.failedOf n + if n < s.arrived.length then 1 else 0
    rw [hexecuting]
    omega
  · intro n
    have hbegan := h.began n
    show holds n (s.started ++ [t]) =
      (s.queues.set k ⟨t :: rest, true, c⟩).sumOf (fun q => holds n q.executing) + s.overOf n
    rw [hexecuting, holds_append]
    omega

/-- An execution ends; unless it returned, its frame is handed back. -/
theorem popHead {rest : List Ticket} {c : Bool} {ending : Ending} {back : List (Ticket × String)}
    (h : Books L s) (hq : s.queues.get? k = some ⟨t :: rest, true, c⟩)
    (hback : back.map Prod.fst = if ending = .returned then [] else [t]) :
    Books L ({ s with rejected := s.rejected ++ back }.popHead k t rest ending) := by
  have hset := fun f : CommandQueue → Nat =>
    Dict.sumOf_set_old (f := f) (v := ⟨rest, false, false⟩) hq
  have htotal : (s.queues.set k ⟨rest, false, false⟩).sumOf (fun q => q.frames.length) + 1 =
      s.total := by
    have hsum : _ + (rest.length + 1) = s.total + rest.length := hset fun q => q.frames.length
    omega
  have hwaiting : ∀ n, (s.queues.set k ⟨rest, false, false⟩).sumOf (fun q => holds n q.waiting) =
      s.waitingOf n := fun n => Nat.add_right_cancel (hset fun q => holds n q.waiting)
  have hexecuting : ∀ n, (s.queues.set k ⟨rest, false, false⟩).sumOf
      (fun q => holds n q.executing) + holds n [t] = s.executingOf n := fun n =>
    hset fun q => holds n q.executing
  have hrejected : ∀ n, holds n ((s.rejected ++ back).map Prod.fst) =
      s.rejectedOf n + if ending = .returned then 0 else holds n [t] := by
    intro n
    rw [List.map_append, holds_append, hback]
    split <;> rfl
  have hfailed : ∀ n, holds n (((s.ended ++ [(t, ending)]).filter fun e => e.2 != .returned).map
      Prod.fst) = s.failedOf n + if ending = .returned then 0 else holds n [t] := by
    intro n
    rw [List.filter_append, List.map_append, holds_append]
    cases ending <;> rfl
  have hover : ∀ n, holds n ((s.ended ++ [(t, ending)]).map Prod.fst) = s.overOf n + holds n [t] := by
    intro n
    rw [List.map_append, holds_append]
    rfl
  refine ⟨?_, ?_, ?_, ?_, ?_, ?_⟩
  · have hpending := h.pending
    show s.pending - 1 =
      ((s.queues.set k ⟨rest, false, false⟩).sumOf (fun q => q.frames.length) : Nat)
    omega
  · have hmax := h.maxPending
    show (s.queues.set k ⟨rest, false, false⟩).sumOf (fun q => q.frames.length) ≤ _
    omega
  · show (s.queues.set k ⟨rest, false, false⟩).entries.length ≤ _
    rw [length_set_old hq]
    exact h.maxWorkers
  · intro n
    have hledger := h.ledger n
    have hexec := hexecuting n
    show (s.queues.set k ⟨rest, false, false⟩).sumOf (fun q => holds n q.waiting) +
      (s.queues.set k ⟨rest, false, false⟩).sumOf (fun q => holds n q.executing) +
        holds n ((s.ended ++ [(t, ending)]).map Prod.fst) +
          holds n ((s.rejected ++ back).map Prod.fst) =
        holds n (((s.ended ++ [(t, ending)]).filter fun e => e.2 != .returned).map Prod.fst) +
          if n < s.arrived.length then 1 else 0
    rw [hwaiting, hover, hrejected, hfailed]
    omega
  · intro n
    have hle := h.failed n
    show holds n (((s.ended ++ [(t, ending)]).filter fun e => e.2 != .returned).map Prod.fst) ≤
      holds n ((s.rejected ++ back).map Prod.fst)
    rw [hfailed, hrejected]
    omega
  · intro n
    have hbegan := h.began n
    have hexec := hexecuting n
    show holds n s.started =
      (s.queues.set k ⟨rest, false, false⟩).sumOf (fun q => holds n q.executing) +
        holds n ((s.ended ++ [(t, ending)]).map Prod.fst)
    rw [hover]
    omega

/-- What a disconnect hands back, of every queue. -/
theorem holds_dropped (n : Nat) (d : Dict (Option String) CommandQueue) :
    holds n (d.entries.flatMap fun e => e.2.waiting.reverse) = d.sumOf fun q => holds n q.waiting := by
  unfold Dict.sumOf
  induction d.entries with
  | nil => rfl
  | cons e l ih =>
    rw [List.flatMap_cons, holds_append, List.map_cons, List.sum_cons, ih]
    refine congrArg (· + _) ?_
    exact (List.reverse_perm _).countP_eq _

theorem length_dropped (d : Dict (Option String) CommandQueue) :
    (d.entries.flatMap fun e => e.2.waiting.reverse).length = d.sumOf fun q => q.waiting.length := by
  unfold Dict.sumOf
  induction d.entries with
  | nil => rfl
  | cons e l ih =>
    rw [List.flatMap_cons, List.length_append, List.length_reverse, List.map_cons, List.sum_cons, ih]

theorem sumOf_add (f g : CommandQueue → Nat) (d : Dict (Option String) CommandQueue) :
    (d.sumOf fun q => f q + g q) = d.sumOf f + d.sumOf g := by
  unfold Dict.sumOf
  induction d.entries with
  | nil => rfl
  | cons e l ih =>
    rw [List.map_cons, List.sum_cons, List.map_cons, List.sum_cons, List.map_cons, List.sum_cons, ih]
    exact Nat.add_add_add_comm _ _ _ _

theorem sumOf_zero {f : CommandQueue → Nat} {d : Dict (Option String) CommandQueue}
    (h : ∀ e ∈ d.entries, f e.2 = 0) : d.sumOf f = 0 := by
  by_contra hne
  obtain ⟨e, he, hpos⟩ := Dict.exists_of_sumOf_pos (Nat.pos_of_ne_zero hne)
  have hzero := h e he
  omega

/-- What is left in a queue is its running frame. -/
theorem executing_left (q : CommandQueue) :
    ({ q with frames := q.executing } : CommandQueue).executing = q.executing ∧
      ({ q with frames := q.executing } : CommandQueue).waiting = [] := by
  have hle : q.executing.length ≤ q.kept := by
    rw [CommandQueue.executing, List.length_take]
    omega
  exact ⟨List.take_of_length_le hle, List.drop_of_length_le hle⟩

/-- Everything that waits is handed back. -/
theorem discardQueued (h : Books L s) (reason : String) : Books L (s.discardQueued reason) := by
  have hqueues : (s.discardQueued reason).queues =
      s.queues.mapValues fun q => { q with frames := q.executing } := rfl
  have hexecuting : ∀ n, (s.discardQueued reason).executingOf n = s.executingOf n := by
    intro n
    unfold Pool.executingOf
    rw [hqueues, Dict.sumOf_mapValues]
    exact congrArg (s.queues.sumOf ·) (funext fun q => by rw [(executing_left q).1])
  have hwaiting : ∀ n, (s.discardQueued reason).waitingOf n = 0 := by
    intro n
    unfold Pool.waitingOf
    rw [hqueues, Dict.sumOf_mapValues]
    exact sumOf_zero fun e _ => by rw [(executing_left e.2).2]; rfl
  have hrejected : ∀ n, (s.discardQueued reason).rejectedOf n = s.rejectedOf n + s.waitingOf n := by
    intro n
    show holds n ((s.rejected ++ (s.queues.entries.flatMap fun e => e.2.waiting.reverse).map
      fun t => (t, reason)).map Prod.fst) = s.rejectedOf n + s.waitingOf n
    have hfst : (Prod.fst ∘ fun t : Ticket => (t, reason)) = id := rfl
    rw [List.map_append, holds_append, List.map_map, hfst, List.map_id, holds_dropped]
    rfl
  have htotal : (s.discardQueued reason).total + (s.queues.sumOf fun q => q.waiting.length) =
      s.total := by
    unfold Pool.total
    rw [hqueues, Dict.sumOf_mapValues, ← sumOf_add]
    refine congrArg (s.queues.sumOf ·) (funext fun q => ?_)
    show (q.frames.take q.kept).length + (q.frames.drop q.kept).length = q.frames.length
    rw [← List.length_append, List.take_append_drop]
  refine ⟨?_, ?_, ?_, ?_, ?_, ?_⟩
  · have hpending := h.pending
    show s.pending - ((s.queues.entries.flatMap fun e => e.2.waiting.reverse).length : Int) = _
    rw [length_dropped]
    omega
  · have hmax := h.maxPending
    omega
  · show (s.queues.entries.map _).length ≤ _
    rw [List.length_map]
    exact h.maxWorkers
  · intro n
    have hledger := h.ledger n
    rw [hwaiting, hexecuting, hrejected]
    show 0 + s.executingOf n + s.overOf n + _ = s.failedOf n + if n < s.arrived.length then 1 else 0
    omega
  · intro n
    have hle := h.failed n
    rw [hrejected]
    show s.failedOf n ≤ _
    omega
  · intro n
    rw [hexecuting]
    exact h.began n

/-- Tasks that are cancelled before their first turn change no number. -/
theorem mark (h : Books L s) (f : CommandQueue → CommandQueue)
    (hframes : ∀ q, (f q).frames = q.frames) (hrunning : ∀ q, (f q).running = q.running) :
    Books L { s with queues := s.queues.mapValues f } := by
  have hsame : ∀ g : CommandQueue → Nat, (∀ q, g (f q) = g q) →
      (s.queues.mapValues f).sumOf g = s.queues.sumOf g := by
    intro g hg
    rw [Dict.sumOf_mapValues]
    exact congrArg (s.queues.sumOf ·) (funext hg)
  have hkept : ∀ q, (f q).kept = q.kept := fun q => by
    rw [CommandQueue.kept, CommandQueue.kept, hrunning]
  have htotal : ({ s with queues := s.queues.mapValues f } : Pool).total = s.total :=
    hsame _ fun q => by rw [hframes]
  have hwaiting : ∀ n, ({ s with queues := s.queues.mapValues f } : Pool).waitingOf n =
      s.waitingOf n :=
    fun n => hsame _ fun q => by
      rw [CommandQueue.waiting, CommandQueue.waiting, hframes, hkept]
  have hexecuting : ∀ n, ({ s with queues := s.queues.mapValues f } : Pool).executingOf n =
      s.executingOf n :=
    fun n => hsame _ fun q => by
      rw [CommandQueue.executing, CommandQueue.executing, hframes, hkept]
  refine ⟨?_, ?_, ?_, ?_, h.failed, ?_⟩
  · rw [htotal]
    exact h.pending
  · rw [htotal]
    exact h.maxPending
  · show (s.queues.entries.map _).length ≤ _
    rw [List.length_map]
    exact h.maxWorkers
  · intro n
    rw [hwaiting, hexecuting]
    exact h.ledger n
  · intro n
    rw [hexecuting]
    exact h.began n

/-- Queues that are empty may go. -/
theorem stopDone (h : Books L s) (hempty : ∀ e ∈ s.queues.entries, e.2.frames = []) :
    Books L s.stopDone := by
  have hzero : ∀ f : CommandQueue → Nat, (∀ q : CommandQueue, q.frames = [] → f q = 0) →
      s.queues.sumOf f = 0 := fun f hf => sumOf_zero fun e he => hf e.2 (hempty e he)
  have hwaiting : ∀ n, s.waitingOf n = 0 := fun n => hzero _ fun q hq => by
    rw [CommandQueue.waiting, hq, List.drop_nil, holds_nil]
  have hexecuting : ∀ n, s.executingOf n = 0 := fun n => hzero _ fun q hq => by
    rw [CommandQueue.executing, hq, List.take_nil, holds_nil]
  refine ⟨rfl, Nat.zero_le _, Nat.zero_le _, ?_, h.failed, ?_⟩
  · intro n
    have hledger := h.ledger n
    rw [hwaiting, hexecuting] at hledger
    exact hledger
  · intro n
    have hbegan := h.began n
    rw [hexecuting] at hbegan
    exact hbegan

end Books

end Air780eHub.Workers
