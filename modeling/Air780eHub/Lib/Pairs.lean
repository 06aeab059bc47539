/-
  Streams in which some units come in pairs.

  A lead says that the unit after it is read with it; any other unit is read by itself.  A reader
  that meets the end of its input after a lead puts a mark in place of the pair.

  1. **Reading**, from the start or after a lead, and what a reader still waits for.
  2. **Complete streams**: every lead has its trail.  A piece of one is coherent: where it goes on
     after a lead, it goes on with a trail.
  3. **Pieces** (`read_pieces_iff`): the pieces of a complete stream, each read by itself, give what
     the stream gives exactly when none of them ends in a lead.  Each one that does makes the text
     longer by one.
-/
import Mathlib.Data.List.Basic
import Mathlib.Tactic.Common

namespace Air780eHub

/-- What leads and trails are, and what units are read as. -/
structure Pairing (U C : Type) where
  lead   : U → Bool
  trail  : U → Bool
  single : U → C
  pair   : U → U → C
  alone  : C
  apart  : ∀ u, trail u = true → lead u = false

namespace Pairing

variable {U C : Type} (R : Pairing U C)

/-! ## Reading -/

def readFrom : Option U → List U → List C
  | none, []           => []
  | some _, []         => [R.alone]
  | some l, u :: us    => R.pair l u :: readFrom none us
  | none, u :: us      => if R.lead u then readFrom (some u) us else R.single u :: readFrom none us

/-- What a stream reads as. -/
def read (us : List U) : List C := R.readFrom none us

/-- The lead that waits for its trail after some units. -/
def after : Option U → List U → Option U
  | o, []           => o
  | some _, _ :: us => after none us
  | none, u :: us   => if R.lead u then after (some u) us else after none us

/-- What has been read by then. -/
def out : Option U → List U → List C
  | _, []           => []
  | some l, u :: us => R.pair l u :: out none us
  | none, u :: us   => if R.lead u then out (some u) us else R.single u :: out none us

/-- Reading goes on from where it stands. -/
theorem readFrom_append (o : Option U) (a b : List U) :
    R.readFrom o (a ++ b) = R.out o a ++ R.readFrom (R.after o a) b := by
  induction a generalizing o with
  | nil => cases o <;> rfl
  | cons u a ih =>
    cases o with
    | some l =>
      show R.pair l u :: R.readFrom none (a ++ b) = R.pair l u :: R.out none a ++ _
      rw [ih none]
      rfl
    | none =>
      show R.readFrom none (u :: (a ++ b)) = _
      rw [readFrom, out, after]
      split
      · exact ih (some u)
      · rw [ih none]
        rfl

theorem readFrom_eq (o : Option U) (a : List U) :
    R.readFrom o a = R.out o a ++ R.readFrom (R.after o a) [] := by
  have h := R.readFrom_append o a []
  rwa [List.append_nil] at h

/-! ## Complete streams -/

/-- Every lead has its trail; `waiting` says that the first unit has to be one. -/
def Complete : (waiting : Bool) → List U → Prop
  | false, []     => True
  | true, []      => False
  | true, u :: us => R.trail u = true ∧ Complete false us
  | false, u :: us => Complete (R.lead u) us

/-- Where a lead is followed by something, it is followed by a trail. -/
def Coherent : (waiting : Bool) → List U → Prop
  | _, []         => True
  | true, u :: us => R.trail u = true ∧ Coherent false us
  | false, u :: us => Coherent (R.lead u) us

variable {R}

theorem complete_cons {u : U} {us : List U} :
    R.Complete false (u :: us) ↔ R.Complete (R.lead u) us := Iff.rfl

theorem complete_trail {u : U} {us : List U} :
    R.Complete true (u :: us) ↔ R.trail u = true ∧ R.Complete false us := Iff.rfl

theorem coherent_cons {u : U} {us : List U} :
    R.Coherent false (u :: us) ↔ R.Coherent (R.lead u) us := Iff.rfl

theorem coherent_trail {u : U} {us : List U} :
    R.Coherent true (u :: us) ↔ R.trail u = true ∧ R.Coherent false us := Iff.rfl

theorem readFrom_trail {l u : U} {us : List U} :
    R.readFrom (some l) (u :: us) = R.pair l u :: R.readFrom none us := rfl

/-- A trail at the start reads as well without its lead. -/
theorem Complete.start {us : List U} {waiting : Bool} (h : R.Complete waiting us) :
    R.Complete false us := by
  cases waiting with
  | false => exact h
  | true =>
    cases us with
    | nil => exact h.elim
    | cons u us =>
      show R.Complete (R.lead u) us
      rw [R.apart u h.1]
      exact h.2

/-- What comes after some units is complete from there. -/
theorem Complete.drop {o : Option U} {a b : List U} (h : R.Complete o.isSome (a ++ b)) :
    R.Complete (R.after o a).isSome b := by
  induction a generalizing o with
  | nil =>
    rw [after]
    exact h
  | cons u a ih =>
    cases o with
    | some l => exact ih (o := none) h.2
    | none =>
      have h' : R.Complete (R.lead u) (a ++ b) := h
      rw [after]
      split
      · rename_i hl
        rw [hl] at h'
        exact ih (o := some u) h'
      · rename_i hl
        rw [Bool.eq_false_iff.mpr hl] at h'
        exact ih (o := none) h'

/-- A piece of a complete stream is coherent. -/
theorem Complete.coherent {waiting : Bool} {a b : List U} (h : R.Complete waiting (a ++ b)) :
    R.Coherent waiting a := by
  induction a generalizing waiting with
  | nil => cases waiting <;> trivial
  | cons u a ih =>
    cases waiting with
    | true  => exact ⟨h.1, ih h.2⟩
    | false =>
      show R.Coherent (R.lead u) a
      exact ih (show R.Complete (R.lead u) (a ++ b) from h)

/-- After a lead, a complete stream gives as much as without it. -/
theorem Complete.length_readFrom {l : U} {us : List U} (h : R.Complete true us) :
    (R.readFrom (some l) us).length = (R.read us).length := by
  cases us with
  | nil => exact h.elim
  | cons u us =>
    show (R.pair l u :: R.readFrom none us).length = (R.readFrom none (u :: us)).length
    rw [readFrom, R.apart u h.1]
    rfl

variable (R) in
/-- A piece ends in a lead. -/
def endsOpen (a : List U) : Bool := a.getLast?.any R.lead

/-- What waits after a piece of a complete stream is its last unit, where that is a lead. -/
theorem Complete.after_isSome {o : Option U} {a b : List U} (h : R.Complete o.isSome (a ++ b))
    (hne : a ≠ []) : (R.after o a).isSome = R.endsOpen a := by
  induction a generalizing o with
  | nil => exact absurd rfl hne
  | cons u a ih =>
    have hstep : R.after o (u :: a) = R.after (if R.lead u then some u else none) a
        ∧ R.Complete (if R.lead u then some u else none : Option U).isSome (a ++ b) := by
      cases o with
      | some l =>
        rw [R.apart u h.1]
        exact ⟨rfl, h.2⟩
      | none =>
        have h' : R.Complete (R.lead u) (a ++ b) := h
        rw [after]
        cases hl : R.lead u with
        | true =>
          rw [hl] at h'
          exact ⟨rfl, h'⟩
        | false =>
          rw [hl] at h'
          exact ⟨rfl, h'⟩
    rw [hstep.1]
    cases a with
    | nil =>
      rw [after]
      show _ = R.lead u
      cases R.lead u <;> rfl
    | cons v a => exact ih hstep.2 (List.cons_ne_nil _ _)

/-! ## Pieces -/

/-- **A cut that is not after a lead** does not show. -/
theorem read_append_closed {a b : List U} (h : R.Complete false (a ++ b)) (hne : a ≠ [])
    (hclosed : R.endsOpen a = false) :
    R.read (a ++ b) = R.read a ++ R.read b ∧ R.Complete false b := by
  have hafter : R.after none a = none := by
    rw [← Option.isNone_iff_eq_none, ← Option.not_isSome,
      Complete.after_isSome (o := none) h hne, hclosed]
    rfl
  have hrest := Complete.drop (o := none) h
  rw [hafter] at hrest
  refine ⟨?_, hrest⟩
  rw [read, R.readFrom_append, hafter, read, R.readFrom_eq none a, hafter]
  show _ = (R.out none a ++ []) ++ _
  rw [List.append_nil]
  rfl

/-- **A cut after a lead** makes the text longer by one. -/
theorem length_read_append_open {a b : List U} (h : R.Complete false (a ++ b)) (hne : a ≠ [])
    (hopen : R.endsOpen a = true) :
    (R.read a).length + (R.read b).length = (R.read (a ++ b)).length + 1
      ∧ R.Complete false b := by
  obtain ⟨l, hafter⟩ : ∃ l, R.after none a = some l := by
    rw [← Option.isSome_iff_exists, Complete.after_isSome (o := none) h hne, hopen]
  have hrest := Complete.drop (o := none) h
  rw [hafter] at hrest
  refine ⟨?_, hrest.start⟩
  have hlen := Complete.length_readFrom (l := l) hrest
  have ha : (R.read a).length = (R.out none a).length + 1 := by
    rw [read, R.readFrom_eq none a, hafter, List.length_append]
    rfl
  have hab : (R.read (a ++ b)).length = (R.out none a).length + (R.readFrom (some l) b).length := by
    rw [read, R.readFrom_append, hafter, List.length_append]
  omega

/-- Every piece that ends in a lead counts one. -/
theorem length_read_pieces {pieces : List (List U)} (h : R.Complete false pieces.flatten)
    (hne : ∀ a ∈ pieces, a ≠ []) :
    (pieces.flatMap R.read).length
      = (R.read pieces.flatten).length + pieces.countP R.endsOpen := by
  induction pieces with
  | nil => rfl
  | cons a pieces ih =>
    rw [List.forall_mem_cons] at hne
    rw [List.flatten_cons] at h ⊢
    rw [List.flatMap_cons, List.length_append, List.countP_cons]
    cases hopen : R.endsOpen a with
    | false =>
      obtain ⟨hread, hrest⟩ := read_append_closed h hne.1 hopen
      rw [ih hrest hne.2, hread, List.length_append, if_neg Bool.false_ne_true]
      omega
    | true =>
      obtain ⟨hlen, hrest⟩ := length_read_append_open h hne.1 hopen
      rw [ih hrest hne.2, if_pos rfl]
      omega

/-- **When cutting does not show.** -/
theorem read_pieces_iff {pieces : List (List U)} (h : R.Complete false pieces.flatten)
    (hne : ∀ a ∈ pieces, a ≠ []) :
    pieces.flatMap R.read = R.read pieces.flatten ↔ ∀ a ∈ pieces, R.endsOpen a = false := by
  constructor
  · intro heq a ha
    have hlen := length_read_pieces h hne
    rw [heq] at hlen
    have hzero : pieces.countP R.endsOpen = 0 := by omega
    exact Bool.eq_false_iff.mpr (List.countP_eq_zero.mp hzero a ha)
  · intro hclosed
    induction pieces with
    | nil => rfl
    | cons a pieces ih =>
      rw [List.forall_mem_cons] at hne hclosed
      rw [List.flatten_cons] at h ⊢
      obtain ⟨hread, hrest⟩ := read_append_closed h hne.1 hclosed.1
      rw [List.flatMap_cons, ih hrest hne.2 hclosed.2, hread]

/-- The pieces of a complete stream are coherent, each from its start. -/
theorem coherent_pieces {pieces : List (List U)} (h : R.Complete false pieces.flatten) :
    ∀ a ∈ pieces, R.Coherent false a := by
  induction pieces with
  | nil => exact fun a ha => absurd ha List.not_mem_nil
  | cons a pieces ih =>
    rw [List.flatten_cons] at h
    exact List.forall_mem_cons.mpr ⟨h.coherent, ih (Complete.drop (o := none) h).start⟩

end Pairing

end Air780eHub
