/-
  What the incidents are for: a ledger of faults, one page for each.

  A fault is reported as often as it is noticed, and settled when it is over.  The operator may mark
  a page, and pages of faults that are long over are taken out.

  1. **Pages**: `Report`, `Phase`, `Incident`; a page always has been reported at least once, and has
     the times its phase needs and no others.
  2. **The ledger** and its entries.
  3. **What is lit**: a page is lit until the fault is settled.  `lit_after`: after any notes, what
     was said last counts.
  4. **`acknowledged_after`**: a page the operator has seen stays seen for as long as nobody says the
     fault is over.
-/
import Mathlib.Logic.Function.Basic
import Air780eHub.Lib.Machine

namespace Air780eHub.Incidents

/-! ## Pages -/

/-- What is reported of a fault. -/
structure Report where
  kind     : String
  severity : String
  source   : String
  title    : String
  detail   : String
deriving DecidableEq

/-- Where an incident stands.  One that is over may have been seen before. -/
inductive Phase
  | active
  | acknowledged (since : String)
  | resolved (since : String) (acknowledged : Option String)
deriving DecidableEq

/-- What an operator may set. -/
inductive Status
  | active | acknowledged | resolved
deriving DecidableEq

/-- A page: what was reported last, and how often it was reported after the first time. -/
structure Incident where
  report    : Report
  phase     : Phase
  repeats   : Nat
  firstSeen : String
  lastSeen  : String
deriving DecidableEq

namespace Phase

def status : Phase → Status
  | active         => .active
  | acknowledged _ => .acknowledged
  | resolved _ _   => .resolved

def acknowledgedAt : Phase → Option String
  | active               => none
  | acknowledged since   => some since
  | resolved _ seen      => seen

def resolvedAt : Phase → Option String
  | resolved since _ => some since
  | _                => none

/-- The phase an operator sets. -/
def of (now : String) : Status → Phase
  | .active       => .active
  | .acknowledged => .acknowledged now
  | .resolved     => .resolved now none

@[simp] theorem status_of (now : String) (s : Status) : (Phase.of now s).status = s := by
  cases s <;> rfl

end Phase

namespace Incident

/-- The fault is not over. -/
def lit (i : Incident) : Bool := decide (i.phase.status ≠ .resolved)

/-- Reported for the first time. -/
def opened (now : String) (report : Report) : Incident := ⟨report, .active, 0, now, now⟩

/-- Reported again.  A fault that was over begins anew. -/
def again (now : String) (report : Report) (i : Incident) : Incident :=
  if i.lit then ⟨report, i.phase, i.repeats + 1, i.firstSeen, now⟩
  else ⟨report, .active, i.repeats + 1, now, now⟩

/-- What a report makes of a page, or of none. -/
def reported (now : String) (report : Report) : Option Incident → Option Incident
  | none   => some (opened now report)
  | some i => some (again now report i)

/-- The fault is over; what is known of that takes the place of the detail. -/
def settle (now detail : String) (i : Incident) : Incident :=
  if i.lit then
    { i with
      report   := { i.report with detail := if detail = "" then i.report.detail else detail }
      phase    := .resolved now i.phase.acknowledgedAt
      lastSeen := now }
  else i

/-- The operator sets the status. -/
def mark (now : String) (status : Status) (i : Incident) : Incident :=
  { i with phase := .of now status }

end Incident

/-! ## The ledger -/

/-- The pages, by the name of their fault. -/
abbrev Book := String → Option Incident

/-- What the program notes by itself. -/
inductive Note
  | fault (now name : String) (report : Report)
  | cleared (now name detail : String)

/-- What happens to the ledger. -/
inductive Entry
  | note (n : Note)
  | mark (now name : String) (status : Status)
  /-- Pages of faults that are over are taken out. -/
  | expire (gone : String → Bool)

namespace Book

/-- The page of a fault is written. -/
def write (b : Book) (name : String) (f : Option Incident → Option Incident) : Book :=
  fun n => if n = name then f (b n) else b n

def note (b : Book) : Note → Book
  | .fault now name report => b.write name (Incident.reported now report)
  | .cleared now name detail  => b.write name (Option.map (Incident.settle now detail))

def enter (b : Book) : Entry → Book
  | .note n               => b.note n
  | .mark now name status => b.write name (Option.map (Incident.mark now status))
  | .expire gone          => fun n => (b n).filter fun i => i.lit || !gone n

/-- The fault has a page and is not over. -/
def lit (b : Book) (name : String) : Bool := (b name).any Incident.lit

theorem write_self (b : Book) (name : String) (f : Option Incident → Option Incident) :
    b.write name f name = f (b name) := if_pos rfl

theorem write_ne (b : Book) {name n : String} (f : Option Incident → Option Incident)
    (h : n ≠ name) : b.write name f n = b n := if_neg h

end Book

/-- An empty ledger, and its entries. -/
def ledger : Machine Book Entry where
  Start := fun b => b = fun _ => none
  step  := fun b e => some (b.enter e)

/-- Notes, one after the other. -/
abbrev Book.after (b : Book) (notes : List Note) : Book := notes.foldl Book.note b

theorem path_after (b : Book) (notes : List Note) : ledger.Path Machine.Always b (b.after notes) := by
  induction notes generalizing b with
  | nil => exact .refl
  | cons n notes ih => exact (Machine.Path.single (a := Entry.note n) trivial rfl).trans (ih (b.note n))

/-! ## What is said of a fault -/

/-- A fault, and whether it is there. -/
abbrev Word := String × Bool

def Note.word : Note → Word
  | .fault _ name _ => (name, true)
  | .cleared _ name _  => (name, false)

/-- What was said last of a fault, when anything was. -/
def lastWord (words : List Word) (name : String) : Option Bool :=
  ((words.filter fun w => w.1 = name).getLast?).map Prod.snd

@[simp] theorem lastWord_nil (name : String) : lastWord [] name = none := rfl

/-- Of what is said first and later, the later counts. -/
theorem lastWord_cons (w : Word) (words : List Word) (name : String) :
    lastWord (w :: words) name =
      (lastWord words name).or (if name = w.1 then some w.2 else none) := by
  unfold lastWord
  by_cases h : name = w.1
  · rw [if_pos h, List.filter_cons_of_pos (by simpa using h.symm), List.getLast?_cons]
    cases (words.filter fun w => w.1 = name).getLast? with
    | none => rfl
    | some w' => rfl
  · rw [if_neg h, List.filter_cons_of_neg (by simpa using Ne.symm h), Option.or_none]

namespace Incident

@[simp] theorem lit_opened (now : String) (report : Report) : (opened now report).lit = true := rfl

@[simp] theorem lit_again (now : String) (report : Report) (i : Incident) :
    (i.again now report).lit = true := by
  unfold again
  split
  · rename_i h
    exact h
  · rfl

@[simp] theorem lit_settle (now detail : String) (i : Incident) :
    (i.settle now detail).lit = false := by
  unfold settle
  split
  · rfl
  · rename_i h
    exact (Bool.not_eq_true _).mp h

@[simp] theorem lit_mark (now : String) (status : Status) (i : Incident) :
    (i.mark now status).lit = decide (status ≠ .resolved) := by
  unfold lit mark
  rw [Phase.status_of]

end Incident

/-! ## What is lit -/

theorem lit_write (b : Book) (fault : String) (f : Option Incident → Option Incident)
    (name : String) :
    (b.write fault f).lit name = if name = fault then (f (b name)).any Incident.lit else b.lit name := by
  unfold Book.lit Book.write
  split
  · rfl
  · rfl

/-- A note turns its page on or off. -/
theorem lit_note (b : Book) (n : Note) (name : String) :
    (b.note n).lit name = if name = n.word.1 then n.word.2 else b.lit name := by
  cases n with
  | fault now fault report =>
    show (b.write fault _).lit name = if name = fault then true else b.lit name
    rw [lit_write]
    by_cases h : name = fault
    · rw [if_pos h, if_pos h]
      cases b name with
      | none => rfl
      | some i => exact Incident.lit_again now report i
    · rw [if_neg h, if_neg h]
  | cleared now fault detail =>
    show (b.write fault _).lit name = if name = fault then false else b.lit name
    rw [lit_write]
    by_cases h : name = fault
    · rw [if_pos h, if_pos h]
      cases b name with
      | none => rfl
      | some i => exact Incident.lit_settle now detail i
    · rw [if_neg h, if_neg h]

/-- **What was said last counts.** -/
theorem lit_after (b : Book) (notes : List Note) (name : String) :
    (b.after notes).lit name = (lastWord (notes.map Note.word) name).getD (b.lit name) := by
  induction notes generalizing b with
  | nil => rfl
  | cons n notes ih =>
    show ((b.note n).after notes).lit name = _
    rw [ih, lit_note, List.map_cons, lastWord_cons]
    cases lastWord (notes.map Note.word) name with
    | some w => rfl
    | none =>
      show _ = (if name = n.word.1 then some n.word.2 else none).getD (b.lit name)
      split
      · rfl
      · rfl

/-- The operator's mark decides whether a page that is there is lit. -/
theorem lit_mark (b : Book) (now fault : String) (status : Status) (name : String) :
    (b.enter (.mark now fault status)).lit name =
      if name = fault ∧ (b name).isSome then decide (status ≠ .resolved) else b.lit name := by
  show (b.write fault _).lit name = _
  rw [lit_write]
  by_cases h : name = fault
  · rw [if_pos h]
    unfold Book.lit
    cases b name with
    | none => rw [if_neg fun hand => Bool.false_ne_true hand.2]; rfl
    | some i => rw [if_pos ⟨h, rfl⟩]; exact Incident.lit_mark now status i
  · rw [if_neg h, if_neg fun hand => h hand.1]

/-- Taking out what is over changes nothing of what is lit. -/
theorem lit_expire (b : Book) (gone : String → Bool) (name : String) :
    (b.enter (.expire gone)).lit name = b.lit name := by
  show ((b name).filter fun i => i.lit || !gone name).any Incident.lit = (b name).any Incident.lit
  cases b name with
  | none => rfl
  | some i =>
    cases hi : i.lit with
    | true => rw [Option.filter_some_pos (by rw [hi]; rfl)]
    | false =>
      cases hg : gone name with
      | true =>
        rw [Option.filter_some_neg (by rw [hi]; rfl)]
        exact hi.symm
      | false => rw [Option.filter_some_pos (by rw [hi]; rfl)]

/-! ## What the operator has seen -/

/-- The page was acknowledged at this time and begun at this one, after so many reports. -/
structure Seen (b : Book) (name since firstSeen : String) (repeats : Nat) : Prop where
  page : ∃ i, b name = some i ∧ i.phase = .acknowledged since ∧ i.firstSeen = firstSeen ∧
    repeats ≤ i.repeats

variable {b : Book} {name since firstSeen : String} {repeats : Nat}

theorem Seen.of_eq {b' : Book} (h : Seen b name since firstSeen repeats) (he : b' name = b name) :
    Seen b' name since firstSeen repeats := by
  obtain ⟨i, hi, hrest⟩ := h.page
  exact ⟨i, he.trans hi, hrest⟩

theorem Seen.note (h : Seen b name since firstSeen repeats) {n : Note} (hn : n.word ≠ (name, false)) :
    Seen (b.note n) name since firstSeen repeats := by
  obtain ⟨i, hi, hphase, hfirst, hle⟩ := h.page
  have hlit : i.lit = true := by
    unfold Incident.lit
    rw [hphase]
    rfl
  cases n with
  | fault now fault report =>
    by_cases hf : name = fault
    · subst hf
      refine ⟨i.again now report, ?_, ?_, ?_, ?_⟩
      · show (b.write name _) name = _
        rw [Book.write_self, hi]
        rfl
      · rw [Incident.again, if_pos hlit]
        exact hphase
      · rw [Incident.again, if_pos hlit]
        exact hfirst
      · rw [Incident.again, if_pos hlit]
        exact Nat.le_succ_of_le hle
    · exact h.of_eq (Book.write_ne b _ hf)
  | cleared now fault detail =>
    refine h.of_eq (Book.write_ne b _ fun hf => hn ?_)
    rw [hf]
    rfl

/-- **Reports do not undo an acknowledgement**: it stands until somebody says the fault is over. -/
theorem acknowledged_after (h : Seen b name since firstSeen repeats) (notes : List Note)
    (hn : (name, false) ∉ notes.map Note.word) :
    Seen (b.after notes) name since firstSeen repeats := by
  induction notes generalizing b with
  | nil => exact h
  | cons n notes ih =>
    rw [List.map_cons, List.mem_cons, not_or] at hn
    exact ih (h.note (Ne.symm hn.1)) hn.2

theorem Seen.enter (h : Seen b name since firstSeen repeats) {e : Entry}
    (hnote : ∀ n, e = .note n → n.word ≠ (name, false))
    (hmark : ∀ now status, e ≠ .mark now name status) :
    Seen (b.enter e) name since firstSeen repeats := by
  cases e with
  | note n => exact h.note (hnote n rfl)
  | mark now fault status =>
    exact h.of_eq (Book.write_ne b _ fun hf => hmark now status (by rw [hf]))
  | expire gone =>
    obtain ⟨i, hi, hphase, hrest⟩ := h.page
    refine ⟨i, ?_, hphase, hrest⟩
    have hlit : i.lit = true := by
      unfold Incident.lit
      rw [hphase]
      rfl
    show (b name).filter _ = _
    rw [hi, Option.filter_some_pos (by rw [hlit]; rfl)]

end Air780eHub.Incidents
