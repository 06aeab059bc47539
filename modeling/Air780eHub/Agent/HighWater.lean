/-
  `last_seq` beside the numbers that `append_event` handed out (`store.py`).

  1. **The mark.**  `last_seq` reads the largest number in the table, and the generator only where
     the table is empty.  It is the generator's number exactly when the table is empty or still has
     the newest row (`lastSeq_eq_iff`).
  2. **Deletions.**  An ack deletes from the bottom, so that the newest row goes last
     (`atMark_ackThrough`).  A trim deletes status rows, and where the newest row is one it can go
     before older rows of other kinds (`atMark_trimEvents`).
  3. **Runs** of appends, acks, trims and openings, beside a list of the numbers handed out.
-/
import Air780eHub.Agent.EventTable
import Air780eHub.Lib.Machine

namespace Air780eHub

namespace EventTable

variable {t : EventTable} {r : EventRow}

/-! ## The mark -/

/-- The table is empty or has the newest row. -/
def AtMark (t : EventTable) : Prop := t.rows = [] ∨ ∃ r ∈ t.rows, r.seq = t.sequence

theorem le_getLast {newest : EventRow} (hlast : t.rows.getLast? = some newest) (hr : r ∈ t.rows) :
    r.seq ≤ newest.seq := by
  obtain ⟨front, hrows⟩ := List.getLast?_eq_some_iff.mp hlast
  have hs := t.sorted
  rw [hrows] at hs hr
  rcases List.mem_append.mp hr with hr | hr
  · exact Nat.le_of_lt ((List.pairwise_append.mp hs).2.2 r hr newest List.mem_cons_self)
  · exact Nat.le_of_eq (congrArg EventRow.seq (List.mem_singleton.mp hr))

theorem lastSeq_eq_iff : t.lastSeq = t.sequence ↔ t.AtMark := by
  unfold lastSeq AtMark
  cases hlast : t.rows.getLast? with
  | none =>
    have hnil := List.getLast?_eq_none_iff.mp hlast
    exact ⟨fun _ => Or.inl hnil, fun _ => rfl⟩
  | some newest =>
    have hmem := List.mem_of_getLast? hlast
    constructor
    · intro heq
      exact Or.inr ⟨newest, hmem, heq⟩
    · rintro (hnil | ⟨r, hr, heq⟩)
      · rw [hnil] at hmem
        exact absurd hmem List.not_mem_nil
      · have hle := le_getLast hlast hr
        have hbound := (t.bounded newest hmem).2
        show newest.seq = t.sequence
        omega

theorem lastSeq_le : t.lastSeq ≤ t.sequence := by
  unfold lastSeq
  cases hlast : t.rows.getLast? with
  | none        => exact Nat.le_refl _
  | some newest => exact (t.bounded newest (List.mem_of_getLast? hlast)).2

theorem atMark_appendEvent (kind : String) (payload : Payload) :
    (t.appendEvent kind payload).AtMark :=
  Or.inr ⟨_, mem_appendEvent.mpr (Or.inr rfl), rfl⟩

/-! ## Acks -/

/-- The numbers above an ack are what it leaves. -/
theorem mem_ackThrough {seq : Int} : r ∈ (t.ackThrough seq).rows ↔ r ∈ t.rows ∧ seq < r.seq := by
  unfold ackThrough deleteAcked
  rw [mem_delete, Bool.and_eq_false_iff, decide_eq_false_iff_not]
  constructor
  · rintro ⟨hr, hleft⟩
    rcases of_mem_updateWhere (mem_markAcked_iff.mp hr) with ⟨r₀, hr₀, hcov, rfl⟩ | ⟨hr₀, hcov⟩
    · -- it was marked, and is deleted
      unfold covered at hcov
      rw [Bool.and_eq_true, decide_eq_true_eq] at hcov
      rcases hleft with hacked | hgt
      · cases hacked
      · exact absurd hcov.2 hgt
    · refine ⟨hr₀, ?_⟩
      unfold covered at hcov
      rw [Bool.and_eq_false_iff, decide_eq_false_iff_not, Bool.not_eq_false'] at hcov
      rcases hleft with hacked | hgt
      · rw [hacked] at hcov
        rcases hcov with hback | hgt
        · cases hback
        · omega
      · omega
  · rintro ⟨hr, hgt⟩
    have hcov : covered seq r = false := by
      unfold covered
      rw [Bool.and_eq_false_iff, decide_eq_false_iff_not]
      exact Or.inr (by omega)
    refine ⟨mem_markAcked_iff.mpr (mem_updateWhere.mpr ⟨r, hr, ?_⟩), Or.inr (by omega)⟩
    rw [hcov]
    rfl

theorem eq_nil_of_forall_not_mem {rows : List EventRow} (h : ∀ r, r ∉ rows) : rows = [] :=
  List.eq_nil_iff_forall_not_mem.mpr h

/-- **An ack takes the newest row only with all others.** -/
theorem atMark_ackThrough (h : t.AtMark) (seq : Int) : (t.ackThrough seq).AtMark := by
  rcases h with hnil | ⟨newest, hmem, heq⟩
  · refine Or.inl (eq_nil_of_forall_not_mem fun r hr => ?_)
    have hr := (mem_ackThrough.mp hr).1
    rw [hnil] at hr
    exact List.not_mem_nil hr
  · by_cases hleft : seq < newest.seq
    · exact Or.inr ⟨newest, mem_ackThrough.mpr ⟨hmem, hleft⟩, heq⟩
    · refine Or.inl (eq_nil_of_forall_not_mem fun r hr => ?_)
      obtain ⟨hr, hgt⟩ := mem_ackThrough.mp hr
      have hbound := (t.bounded r hr).2
      omega

/-- The first statement of an ack deletes nothing. -/
theorem atMark_markAcked (h : t.AtMark) (seq : Int) : (t.markAcked seq).AtMark := by
  rcases h with hnil | ⟨newest, hmem, heq⟩
  · refine Or.inl ?_
    show updateWhere (covered seq) setAcked t.rows = []
    rw [hnil]
    rfl
  · obtain ⟨r, hr, hevent⟩ : ∃ r ∈ (t.markAcked seq).rows, r.event = newest.event :=
      mem_markAcked hmem
    refine Or.inr ⟨r, hr, ?_⟩
    have hseq := congrArg Event.seq hevent
    exact hseq.trans heq

/-! ## Trims -/

/-- A row that `trim_events` may take. -/
def trimmable (r : EventRow) : Bool := !r.acked && r.kind == "status"

/-- How many unacked rows are of another kind. -/
def keptCount (t : EventTable) : Nat :=
  (t.rows.filter fun r => !r.acked && !(r.kind == "status")).length

/-- A trim takes the newest row and leaves another: the newest is an unacked status row, another
row is none, and those of other kinds alone are as many as are to be kept. -/
def NewestGoes (t : EventTable) (keep : Int) : Prop :=
  (∃ newest, t.rows.getLast? = some newest ∧ trimmable newest = true) ∧ keep ≤ t.keptCount ∧
    ∃ r ∈ t.rows, trimmable r = false

theorem unackedCount_eq : t.unackedCount = (t.rows.filter trimmable).length + t.keptCount := by
  unfold unackedCount keptCount
  induction t.rows with
  | nil => rfl
  | cons r rows ih =>
    rw [List.filter_cons, List.filter_cons, List.filter_cons]
    unfold trimmable at ih ⊢
    by_cases hacked : r.acked = true
    · simp only [hacked, Bool.not_true, Bool.false_and, Bool.false_eq_true, if_false]
      exact ih
    · by_cases hkind : (r.kind == "status") = true
      · simp [hacked, hkind] at ih ⊢
        omega
      · simp [hacked, hkind] at ih ⊢
        omega

theorem trimmed_eq (keep : Int) :
    t.trimmed keep =
      ((t.rows.filter trimmable).take (t.unackedCount - keep).toNat).map EventRow.seq := by
  unfold trimmed
  split
  · rename_i hle
    rw [Int.toNat_of_nonpos hle, List.take_zero, List.map_nil]
  · rfl

theorem mem_trimEvents_iff {keep : Int} : r ∈ (t.trimEvents keep).rows ↔
    r ∈ t.rows ∧ r ∉ (t.rows.filter trimmable).take (t.unackedCount - keep).toNat := by
  unfold trimEvents
  rw [mem_delete, decide_eq_false_iff_not, trimmed_eq]
  refine and_congr_right fun hr => not_congr ⟨fun hmem => ?_, fun hmem => List.mem_map_of_mem hmem⟩
  obtain ⟨r', hr', hseq⟩ := List.mem_map.mp hmem
  have hrow := (List.mem_filter.mp (List.mem_of_mem_take hr')).1
  rwa [← row_unique hrow hr hseq]

/-- What is last of so many is taken with all of them only. -/
theorem last_mem_take {rows : List EventRow} {newest : EventRow} {n : Nat}
    (hnodup : (rows ++ [newest]).Nodup) :
    newest ∈ (rows ++ [newest]).take n ↔ rows.length < n := by
  rw [List.take_append, List.mem_append]
  constructor
  · rintro (hmem | hmem)
    · exact absurd (List.mem_of_mem_take hmem)
        fun hback => (List.nodup_append.mp hnodup).2.2 newest hback newest List.mem_cons_self rfl
    · by_contra hge
      rw [show n - rows.length = 0 by omega] at hmem
      exact List.not_mem_nil hmem
  · intro hlt
    obtain ⟨m, hm⟩ : ∃ m, n - rows.length = m + 1 := ⟨n - rows.length - 1, by omega⟩
    rw [hm]
    exact Or.inr List.mem_cons_self

/-- **The newest row goes** where it may and the rows of other kinds fill the queue. -/
theorem newest_goes_iff {newest : EventRow} (hlast : t.rows.getLast? = some newest) {keep : Int} :
    newest ∉ (t.trimEvents keep).rows ↔ trimmable newest = true ∧ keep ≤ t.keptCount := by
  have hmem := List.mem_of_getLast? hlast
  rw [mem_trimEvents_iff, not_and, not_not]
  by_cases htrim : trimmable newest = true
  · obtain ⟨front, hrows⟩ := List.getLast?_eq_some_iff.mp hlast
    have hfilter : t.rows.filter trimmable = front.filter trimmable ++ [newest] := by
      rw [hrows, List.filter_append, List.filter_cons_of_pos htrim, List.filter_nil]
    have hnodup : (t.rows.filter trimmable).Nodup := by
      refine List.Nodup.filter _ (t.sorted.imp fun hlt heq => ?_)
      rw [heq] at hlt
      exact Nat.lt_irrefl _ hlt
    have hcount := t.unackedCount_eq
    rw [hfilter] at hnodup hcount ⊢
    rw [last_mem_take hnodup]
    rw [List.length_append, List.length_singleton] at hcount
    constructor
    · intro h
      have hlt := h hmem
      exact ⟨htrim, by omega⟩
    · rintro ⟨-, hkeep⟩ -
      omega
  · constructor
    · intro h
      exact absurd (List.mem_filter.mp (List.mem_of_mem_take (h hmem))).2 htrim
    · rintro ⟨hback, -⟩
      exact absurd hback htrim

/-- Where the newest row goes, every row goes that may. -/
theorem all_go {keep : Int} (hkeep : keep ≤ t.keptCount) :
    r ∈ (t.trimEvents keep).rows ↔ r ∈ t.rows ∧ trimmable r = false := by
  have hcount := t.unackedCount_eq
  rw [mem_trimEvents_iff, List.take_of_length_le (by omega)]
  refine and_congr_right fun hr => ?_
  rw [List.mem_filter, not_and, Bool.not_eq_true]
  exact ⟨fun h => h hr, fun h _ => h⟩

/-- **A trim leaves the mark** unless it takes the newest row and leaves another. -/
theorem atMark_trimEvents (h : t.AtMark) {keep : Int} :
    (t.trimEvents keep).AtMark ↔ ¬ t.NewestGoes keep := by
  cases hlast : t.rows.getLast? with
  | none =>
    have hnil := List.getLast?_eq_none_iff.mp hlast
    constructor
    · rintro - ⟨⟨newest, hlast', -⟩, -, -⟩
      exact nomatch hlast.symm.trans hlast'
    · refine fun _ => Or.inl (eq_nil_of_forall_not_mem fun r hr => ?_)
      have hr := (mem_trimEvents_iff.mp hr).1
      rw [hnil] at hr
      exact List.not_mem_nil hr
  | some newest =>
    have hmem := List.mem_of_getLast? hlast
    have hseq : newest.seq = t.sequence := by
      rw [← lastSeq_eq_iff.mpr h]
      unfold lastSeq
      rw [hlast]
    by_cases hgoes : trimmable newest = true ∧ keep ≤ t.keptCount
    · constructor
      · rintro hmark ⟨-, -, r, hr, hstays⟩
        have hleft := (all_go hgoes.2).mpr ⟨hr, hstays⟩
        rcases hmark with hnil | ⟨r', hr', heq⟩
        · rw [hnil] at hleft
          exact List.not_mem_nil hleft
        · -- the row with the last number is the newest, which is gone
          obtain ⟨hr', hstays'⟩ := (all_go hgoes.2).mp hr'
          rw [row_unique hr' hmem (heq.trans hseq.symm), hgoes.1] at hstays'
          cases hstays'
      · refine fun hnot => Or.inl (eq_nil_of_forall_not_mem fun r hr => hnot ?_)
        obtain ⟨hr, hstays⟩ := (all_go hgoes.2).mp hr
        exact ⟨⟨newest, hlast, hgoes.1⟩, hgoes.2, r, hr, hstays⟩
    · constructor
      · rintro - ⟨⟨newest', hlast', htrim⟩, hkeep, -⟩
        obtain rfl := Option.some.inj (hlast.symm.trans hlast')
        exact hgoes ⟨htrim, hkeep⟩
      · refine fun _ => Or.inr ⟨newest, ?_, hseq⟩
        by_contra hgone
        exact hgoes ((newest_goes_iff hlast).mp hgone)

end EventTable

/-! ## Runs -/

/-- The greatest of some numbers, 0 if there is none. -/
def greatest (numbers : List Nat) : Nat := numbers.foldr max 0

/-- The table, and the numbers that `append_event` handed out, the last one first. -/
structure Numbered where
  table  : EventTable
  handed : List Nat

namespace Numbered

inductive Op
  | append (kind : String) (payload : Payload)
  | ack (seq : Int)
  /-- The process ends between the two statements of an ack. -/
  | cutAck (seq : Int)
  | trim (keep : Int)
  /-- The store is opened: each command that was running is given a result. -/
  | reopen (results : List Payload)

def append (s : Numbered) (kind : String) (payload : Payload) : Numbered :=
  ⟨s.table.appendEvent kind payload, (s.table.appended kind payload).seq :: s.handed⟩

/-- `_recover_commands`, as far as the queue goes. -/
def recover (s : Numbered) (results : List Payload) : Numbered :=
  results.foldl (fun s result => s.append "cmd_result" result) s

def step (s : Numbered) : Op → Numbered
  | .append kind payload => s.append kind payload
  | .ack seq             => { s with table := s.table.ackThrough seq }
  | .cutAck seq          => { s with table := s.table.markAcked seq }
  | .trim keep           => { s with table := s.table.trimEvents keep }
  | .reopen results      => s.recover results

/-- The store of a new file. -/
def new : Numbered := ⟨EventTable.empty, []⟩

def machine : Machine Numbered Op where
  Start s  := s = new
  step s o := some (s.step o)

/-- A trim does not take the newest row and leave another. -/
def KeepsNewest (s : Numbered) : Op → Prop
  | .trim keep => ¬ s.table.NewestGoes keep
  | _          => True

/-- The generator has the greatest number that was handed out. -/
def Handed (s : Numbered) : Prop := greatest s.handed = s.table.sequence

theorem handed_append {s : Numbered} (h : s.Handed) (kind : String) (payload : Payload) :
    (s.append kind payload).Handed := by
  show max (s.table.sequence + 1) (greatest s.handed) = s.table.sequence + 1
  rw [h]
  omega

theorem handed_recover {s : Numbered} (h : s.Handed) (results : List Payload) :
    (s.recover results).Handed := by
  induction results generalizing s with
  | nil => exact h
  | cons result results ih => exact ih (handed_append h "cmd_result" result)

theorem handed_step {s : Numbered} (h : s.Handed) (o : Op) : (s.step o).Handed := by
  match o with
  | .append kind payload => exact handed_append h kind payload
  | .ack _               => exact h
  | .cutAck _            => exact h
  | .trim _              => exact h
  | .reopen results      => exact handed_recover h results

theorem recover_atMark {s : Numbered} (h : s.table.AtMark) (results : List Payload) :
    (s.recover results).table.AtMark ∧
      s.table.sequence ≤ (s.recover results).table.sequence := by
  induction results generalizing s with
  | nil => exact ⟨h, Nat.le_refl _⟩
  | cons result results ih =>
    have hrest := ih (s := s.append "cmd_result" result) (EventTable.atMark_appendEvent _ _)
    exact ⟨hrest.1, Nat.le_trans (Nat.le_succ _) hrest.2⟩

/-- **A step leaves the mark** exactly when it is no trim that takes the newest row and leaves
another. -/
theorem atMark_step {s : Numbered} (h : s.table.AtMark) (o : Op) :
    (s.step o).table.AtMark ↔ s.KeepsNewest o := by
  match o with
  | .append kind payload => exact ⟨fun _ => trivial, fun _ => EventTable.atMark_appendEvent _ _⟩
  | .ack seq             => exact ⟨fun _ => trivial, fun _ => EventTable.atMark_ackThrough h seq⟩
  | .cutAck seq          => exact ⟨fun _ => trivial, fun _ => EventTable.atMark_markAcked h seq⟩
  | .trim keep           => exact EventTable.atMark_trimEvents h
  | .reopen results      => exact ⟨fun _ => trivial, fun _ => (recover_atMark h results).1⟩

/-- No step takes a number back. -/
theorem sequence_step (s : Numbered) (o : Op) : s.table.sequence ≤ (s.step o).table.sequence := by
  match o with
  | .append _ _     => exact Nat.le_succ _
  | .ack _          => exact Nat.le_refl _
  | .cutAck _       => exact Nat.le_refl _
  | .trim _         => exact Nat.le_refl _
  | .reopen results =>
    show s.table.sequence ≤ (s.recover results).table.sequence
    induction results generalizing s with
    | nil => exact Nat.le_refl _
    | cons result results ih =>
      exact Nat.le_trans (Nat.le_succ _) (ih (s.append "cmd_result" result))

theorem reachableBy_spec {s : Numbered} (h : machine.ReachableBy KeepsNewest s) :
    s.Handed ∧ s.table.AtMark := by
  refine h.invariant (I := fun s => s.Handed ∧ s.table.AtMark) ?_ ?_
  · rintro s rfl
    exact ⟨rfl, Or.inl rfl⟩
  · rintro s o s' ⟨hhanded, hmark⟩ hkeeps hs
    obtain rfl := Option.some.inj hs
    exact ⟨handed_step hhanded o, (atMark_step hmark o).mpr hkeeps⟩

/-- **`last_seq` is the greatest number handed out, and never falls**, in every run without a trim
that takes the newest row and leaves another; the first such trim breaks it. -/
theorem lastSeq_high_water {s : Numbered} (h : machine.ReachableBy KeepsNewest s) :
    s.table.lastSeq = greatest s.handed ∧
      ∀ o, ((s.step o).table.lastSeq = greatest (s.step o).handed ∧
        s.table.lastSeq ≤ (s.step o).table.lastSeq) ↔ s.KeepsNewest o := by
  obtain ⟨hhanded, hmark⟩ := reachableBy_spec h
  have hlast := EventTable.lastSeq_eq_iff.mpr hmark
  refine ⟨hlast.trans hhanded.symm, fun o => ?_⟩
  rw [handed_step hhanded o, EventTable.lastSeq_eq_iff, atMark_step hmark o, hlast]
  constructor
  · exact And.left
  · intro hkeeps
    refine ⟨hkeeps, ?_⟩
    rw [EventTable.lastSeq_eq_iff.mpr ((atMark_step hmark o).mpr hkeeps)]
    exact sequence_step s o

def blank : Payload := ⟨[], noReserved_nil⟩

/-- A message, then a status sample. -/
def smsThenStatus : Numbered := (new.append "sms" blank).append "status" blank

theorem smsThenStatus_reachable : machine.ReachableBy KeepsNewest smsThenStatus :=
  (Machine.ReachableBy.start rfl).path
    ((Machine.Path.single (M := machine) (a := .append "sms" blank) trivial rfl).snoc
      (a := .append "status" blank) trivial rfl)

/-- After a message and a status sample. -/
theorem lastSeq_high_water_status :
    smsThenStatus.table.lastSeq = greatest smsThenStatus.handed :=
  (lastSeq_high_water smsThenStatus_reachable).1

/-- With room for one, the status sample goes, and its number with it. -/
theorem lastSeq_falls :
    machine.Reachable (smsThenStatus.step (.trim 1)) ∧ smsThenStatus.table.lastSeq = 2 ∧
      (smsThenStatus.step (.trim 1)).table.lastSeq = 1 ∧
      greatest (smsThenStatus.step (.trim 1)).handed = 2 :=
  ⟨smsThenStatus_reachable.reachable.path (.single (a := .trim 1) trivial rfl),
    by decide, by decide, by decide⟩

end Numbered

end Air780eHub
