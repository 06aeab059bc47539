/-
  UTF-8 in octets, read with replacements.

  `decode` reads octets one after the other and remembers what the character it is in still waits
  for.  A sequence that breaks off is one replacement character, and the octet that breaks it is
  read again as the first of another.

  An octet below 0x80 is a character wherever it stands, so a text may be cut after it:
  `decode_cut`.
-/
import Mathlib.Tactic.Common

namespace Air780eHub.Utf8

/-- What is put in place of octets that are no character. -/
def replacement : Char := '\uFFFD'

/-- A character that is not whole: its value so far, how many octets are owed, and the bounds of
    the next one. -/
structure Begun where
  value : Nat
  owed  : Nat
  lo    : Nat
  hi    : Nat
  tail  : 0x80 ≤ lo

/-- A first octet: what it is by itself, and the character it begins. -/
def first (b : Nat) : List Char × Option Begun :=
  if b < 0x80 then ([Char.ofNat b], none)
  else if 0xc2 ≤ b ∧ b ≤ 0xdf then ([], some ⟨b - 0xc0, 1, 0x80, 0xbf, by omega⟩)
  else if b = 0xe0 then ([], some ⟨0, 2, 0xa0, 0xbf, by omega⟩)
  else if b = 0xed then ([], some ⟨0x0d, 2, 0x80, 0x9f, by omega⟩)
  else if 0xe1 ≤ b ∧ b ≤ 0xef then ([], some ⟨b - 0xe0, 2, 0x80, 0xbf, by omega⟩)
  else if b = 0xf0 then ([], some ⟨0, 3, 0x90, 0xbf, by omega⟩)
  else if 0xf1 ≤ b ∧ b ≤ 0xf3 then ([], some ⟨b - 0xf0, 3, 0x80, 0xbf, by omega⟩)
  else if b = 0xf4 then ([], some ⟨4, 3, 0x80, 0x8f, by omega⟩)
  else ([replacement], none)

/-- An octet, after a character that is not whole or not. -/
def next : Option Begun → Nat → List Char × Option Begun
  | none, b       => first b
  | some begun, b =>
    if begun.lo ≤ b ∧ b ≤ begun.hi then
      if begun.owed = 1 then ([Char.ofNat (begun.value * 64 + (b - 0x80))], none)
      else ([], some ⟨begun.value * 64 + (b - 0x80), begun.owed - 1, 0x80, 0xbf, by omega⟩)
    else (replacement :: (first b).1, (first b).2)

def decodeFrom : Option Begun → List Nat → List Char
  | none, []           => []
  | some _, []         => [replacement]
  | begun, b :: octets => (next begun b).1 ++ decodeFrom (next begun b).2 octets

/-- Octets as text, with replacements. -/
def decode (octets : List Nat) : List Char := decodeFrom none octets

theorem decodeFrom_cons (begun : Option Begun) (b : Nat) (octets : List Nat) :
    decodeFrom begun (b :: octets) = (next begun b).1 ++ decodeFrom (next begun b).2 octets := by
  cases begun <;> rfl

theorem first_ascii {c : Nat} (hc : c < 0x80) : first c = ([Char.ofNat c], none) := if_pos hc

/-- An octet below 0x80 ends what was begun and is a character. -/
theorem next_ascii (begun : Option Begun) {c : Nat} (hc : c < 0x80) :
    ∃ pre, next begun c = (pre ++ [Char.ofNat c], none) := by
  cases begun with
  | none => exact ⟨[], first_ascii hc⟩
  | some begun =>
    have hno : ¬ (begun.lo ≤ c ∧ c ≤ begun.hi) := by
      have htail := begun.tail
      omega
    refine ⟨[replacement], ?_⟩
    show (if _ then _ else _) = _
    rw [if_neg hno, first_ascii hc]
    rfl

theorem decodeFrom_cut (begun : Option Begun) (xs ys : List Nat) {c : Nat} (hc : c < 0x80) :
    decodeFrom begun (xs ++ c :: ys) = decodeFrom begun (xs ++ [c]) ++ decode ys := by
  induction xs generalizing begun with
  | nil =>
    obtain ⟨pre, hnext⟩ := next_ascii begun hc
    rw [List.nil_append, List.nil_append, decodeFrom_cons, decodeFrom_cons, hnext]
    show _ = (pre ++ [Char.ofNat c]) ++ [] ++ decode ys
    rw [List.append_nil]
    rfl
  | cons x xs ih =>
    rw [List.cons_append, List.cons_append, decodeFrom_cons, decodeFrom_cons, ih,
      List.append_assoc]

/-- **A text may be cut after an octet below 0x80.** -/
theorem decode_cut (xs ys : List Nat) {c : Nat} (hc : c < 0x80) :
    decode ((xs ++ [c]) ++ ys) = decode (xs ++ [c]) ++ decode ys := by
  rw [List.append_assoc]
  exact decodeFrom_cut none xs ys hc

/-- The last octet is the last character, if it is below 0x80. -/
theorem decode_last (xs : List Nat) {c : Nat} (hc : c < 0x80) :
    ∃ pre, decode (xs ++ [c]) = pre ++ [Char.ofNat c] := by
  suffices h : ∀ begun, ∃ pre, decodeFrom begun (xs ++ [c]) = pre ++ [Char.ofNat c] from h none
  intro begun
  induction xs generalizing begun with
  | nil =>
    obtain ⟨pre, hnext⟩ := next_ascii begun hc
    refine ⟨pre, ?_⟩
    rw [List.nil_append, decodeFrom_cons, hnext]
    exact List.append_nil _
  | cons x xs ih =>
    obtain ⟨pre, hpre⟩ := ih (next begun x).2
    refine ⟨(next begun x).1 ++ pre, ?_⟩
    rw [List.cons_append, decodeFrom_cons, hpre, List.append_assoc]

end Air780eHub.Utf8
