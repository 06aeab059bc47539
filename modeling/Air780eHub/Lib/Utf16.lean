/-
  UTF-16 in octets.

  `encode` writes a text big-endian.  `decode` reads octets in either byte order and puts a
  replacement character where they are no text: one for an odd octet at the end, one for a low
  surrogate alone, one for a high surrogate without a low one, and one for everything from a high
  surrogate on that is cut short by the end.  `decode_encode` : a text is read back as it was.

  The code units of a text are a stream of pairs: a high surrogate is the lead of a low one
  (`decode_bytes`).
-/
import Air780eHub.Lib.Pairs
import Mathlib.Data.Char
import Mathlib.Tactic.Common

namespace Air780eHub.Utf16

/-- U+FFFD. -/
def replacement : Char := '\uFFFD'

/-- A code unit, the first octet first. -/
def bigEndian (a b : Nat) : Nat := 256 * a + b

/-- A code unit, the second octet first. -/
def littleEndian (a b : Nat) : Nat := 256 * b + a

/-- A character, big-endian. -/
def octetsOf (c : Char) : List Nat :=
  if c.toNat < 0x10000 then [c.toNat / 256, c.toNat % 256]
  else
    let high := 0xd800 + (c.toNat - 0x10000) / 1024
    let low := 0xdc00 + (c.toNat - 0x10000) % 1024
    [high / 256, high % 256, low / 256, low % 256]

/-- A text, big-endian. -/
def encode (text : List Char) : List Nat := text.flatMap octetsOf

/-- A code unit that is a character. -/
def isScalar (u : Nat) : Bool := decide (u < 0xd800) || decide (0xe000 ≤ u)

/-- Octets as text, after a high surrogate or not. -/
def decodeFrom (unit : Nat → Nat → Nat) : Option Nat → List Nat → List Char
  | none, []             => []
  | none, [_]            => [replacement]
  | none, a :: b :: rest =>
    if isScalar (unit a b) then Char.ofNat (unit a b) :: decodeFrom unit none rest
    else if unit a b < 0xdc00 then decodeFrom unit (some (unit a b)) rest
    else replacement :: decodeFrom unit none rest
  | some _, []           => [replacement]
  | some _, [_]          => [replacement]
  | some high, a :: b :: rest =>
    if 0xdc00 ≤ unit a b ∧ unit a b < 0xe000 then
      Char.ofNat (0x10000 + (high - 0xd800) * 1024 + (unit a b - 0xdc00)) ::
        decodeFrom unit none rest
    -- the unit is read again, without the surrogate
    else if isScalar (unit a b) then
      replacement :: Char.ofNat (unit a b) :: decodeFrom unit none rest
    else replacement :: decodeFrom unit (some (unit a b)) rest

/-- Octets as text, with replacements. -/
def decode (unit : Nat → Nat → Nat) (octets : List Nat) : List Char := decodeFrom unit none octets

theorem toNat_lt (c : Char) : c.toNat < 0x110000 := by
  rcases c.valid with h | h
  · exact Nat.lt_trans h (by decide)
  · exact h.2

theorem isScalar_toNat (c : Char) : isScalar c.toNat = true := by
  unfold isScalar
  rw [Bool.or_eq_true, decide_eq_true_iff, decide_eq_true_iff]
  rcases c.valid with h | h
  · exact Or.inl h
  · exact Or.inr h.1

/-- A character at the front is read, and the rest after it. -/
theorem decode_octetsOf (c : Char) (rest : List Nat) :
    decode bigEndian (octetsOf c ++ rest) = c :: decode bigEndian rest := by
  unfold octetsOf
  have hlt := toNat_lt c
  split
  · have hunit : bigEndian (c.toNat / 256) (c.toNat % 256) = c.toNat := by
      unfold bigEndian
      omega
    show decodeFrom bigEndian none (c.toNat / 256 :: c.toNat % 256 :: rest) = _
    rw [decodeFrom, hunit, if_pos (isScalar_toNat c), Char.ofNat_toNat]
    rfl
  · rename_i hbig
    have hhigh : bigEndian ((0xd800 + (c.toNat - 0x10000) / 1024) / 256)
        ((0xd800 + (c.toNat - 0x10000) / 1024) % 256) = 0xd800 + (c.toNat - 0x10000) / 1024 := by
      unfold bigEndian
      omega
    have hlow : bigEndian ((0xdc00 + (c.toNat - 0x10000) % 1024) / 256)
        ((0xdc00 + (c.toNat - 0x10000) % 1024) % 256) = 0xdc00 + (c.toNat - 0x10000) % 1024 := by
      unfold bigEndian
      omega
    have hno : ¬ isScalar (0xd800 + (c.toNat - 0x10000) / 1024) = true := by
      unfold isScalar
      rw [Bool.or_eq_true, decide_eq_true_iff, decide_eq_true_iff]
      omega
    show decodeFrom bigEndian none (_ :: _ :: _ :: _ :: rest) = _
    rw [decodeFrom, hhigh, if_neg hno, if_pos (by omega), decodeFrom, hlow, if_pos (by omega),
      show 0x10000 + (0xd800 + (c.toNat - 0x10000) / 1024 - 0xd800) * 1024 +
        (0xdc00 + (c.toNat - 0x10000) % 1024 - 0xdc00) = c.toNat by omega, Char.ofNat_toNat]
    rfl

/-- **A text is read back.** -/
theorem decode_encode (text : List Char) : decode bigEndian (encode text) = text := by
  induction text with
  | nil => rfl
  | cons c text ih =>
    show decode bigEndian (octetsOf c ++ encode text) = c :: text
    rw [decode_octetsOf, ih]

theorem length_octetsOf (c : Char) : (octetsOf c).length = if c.toNat < 0x10000 then 2 else 4 := by
  unfold octetsOf
  split <;> rfl

theorem octetsOf_lt (c : Char) : ∀ x ∈ octetsOf c, x < 256 := by
  have hlt := toNat_lt c
  unfold octetsOf
  split
  · simp only [List.forall_mem_cons, List.not_mem_nil, false_imp_iff, implies_true, and_true]
    omega
  · simp only [List.forall_mem_cons, List.not_mem_nil, false_imp_iff, implies_true, and_true]
    omega

theorem encode_lt (text : List Char) : ∀ x ∈ encode text, x < 256 := by
  intro x hx
  obtain ⟨c, -, hc⟩ := List.mem_flatMap.mp hx
  exact octetsOf_lt c x hc

/-! ## Code units -/

/-- The code units of a character. -/
def unitsOf (c : Char) : List Nat :=
  if c.toNat < 0x10000 then [c.toNat]
  else [0xd800 + (c.toNat - 0x10000) / 1024, 0xdc00 + (c.toNat - 0x10000) % 1024]

/-- The code units of a text. -/
def units (text : List Char) : List Nat := text.flatMap unitsOf

/-- Code units, big-endian. -/
def bytes (us : List Nat) : List Nat := us.flatMap fun u => [u / 256, u % 256]

/-- Surrogates, and what units are read as. -/
def surrogates : Pairing Nat Char where
  lead u := decide (0xd800 ≤ u) && decide (u < 0xdc00)
  trail u := decide (0xdc00 ≤ u) && decide (u < 0xe000)
  single u := if isScalar u then Char.ofNat u else replacement
  pair high low := Char.ofNat (0x10000 + (high - 0xd800) * 1024 + (low - 0xdc00))
  alone := replacement
  apart u h := by
    rw [Bool.and_eq_true, decide_eq_true_iff, decide_eq_true_iff] at h
    rw [Bool.and_eq_false_iff, decide_eq_false_iff_not, decide_eq_false_iff_not]
    omega

theorem bytes_units (text : List Char) : bytes (units text) = encode text := by
  induction text with
  | nil => rfl
  | cons c text ih =>
    have hc : bytes (unitsOf c) = octetsOf c := by
      rw [unitsOf, octetsOf]
      split <;> rfl
    show (unitsOf c ++ units text).flatMap _ = octetsOf c ++ encode text
    rw [List.flatMap_append, ← hc, ← ih]
    rfl

theorem unitsOf_lt (c : Char) : ∀ u ∈ unitsOf c, u < 65536 := by
  have hlt := toNat_lt c
  rw [unitsOf]
  split
  · simp only [List.forall_mem_cons, List.not_mem_nil, false_imp_iff, implies_true, and_true]
    omega
  · simp only [List.forall_mem_cons, List.not_mem_nil, false_imp_iff, implies_true, and_true]
    omega

theorem units_lt (text : List Char) : ∀ u ∈ units text, u < 65536 := by
  intro u hu
  obtain ⟨c, -, hc⟩ := List.mem_flatMap.mp hu
  exact unitsOf_lt c u hc

theorem lead_iff {u : Nat} : surrogates.lead u = true ↔ 0xd800 ≤ u ∧ u < 0xdc00 := by
  rw [surrogates, Bool.and_eq_true, decide_eq_true_iff, decide_eq_true_iff]

theorem trail_iff {u : Nat} : surrogates.trail u = true ↔ 0xdc00 ≤ u ∧ u < 0xe000 := by
  rw [surrogates, Bool.and_eq_true, decide_eq_true_iff, decide_eq_true_iff]

theorem isScalar_iff {u : Nat} : isScalar u = true ↔ u < 0xd800 ∨ 0xe000 ≤ u := by
  rw [isScalar, Bool.or_eq_true, decide_eq_true_iff, decide_eq_true_iff]

/-- **The units of a text are complete.** -/
theorem complete_units (text : List Char) : surrogates.Complete false (units text) := by
  induction text with
  | nil => trivial
  | cons c text ih =>
    have hlt := toNat_lt c
    have hunits : units (c :: text) = unitsOf c ++ units text := rfl
    rw [hunits, unitsOf]
    split
    · have hscalar := isScalar_iff.mp (isScalar_toNat c)
      have hlead : surrogates.lead c.toNat = false := by
        rw [Bool.eq_false_iff, Ne, lead_iff]
        omega
      rw [List.singleton_append, Pairing.complete_cons, hlead]
      exact ih
    · generalize hhigh : 0xd800 + (c.toNat - 0x10000) / 1024 = high
      generalize hlow : 0xdc00 + (c.toNat - 0x10000) % 1024 = low
      have hlead : surrogates.lead high = true := lead_iff.mpr (by omega)
      have htrail : surrogates.trail low = true := trail_iff.mpr (by omega)
      rw [List.cons_append, List.singleton_append, Pairing.complete_cons, hlead,
        Pairing.complete_trail]
      exact ⟨htrail, ih⟩

/-- **Coherent units are decoded as pairs.** -/
theorem decodeFrom_bytes {o : Option Nat} {us : List Nat} (hlt : ∀ u ∈ us, u < 65536)
    (hc : surrogates.Coherent o.isSome us) :
    decodeFrom bigEndian o (bytes us) = surrogates.readFrom o us := by
  induction us generalizing o with
  | nil => cases o <;> rfl
  | cons u us ih =>
    rw [List.forall_mem_cons] at hlt
    have hunit : bigEndian (u / 256) (u % 256) = u := by
      rw [bigEndian]
      omega
    have hbytes : bytes (u :: us) = u / 256 :: u % 256 :: bytes us := rfl
    rw [hbytes]
    cases o with
    | some high =>
      rw [Option.isSome_some, Pairing.coherent_trail] at hc
      have hpair : surrogates.pair high u
          = Char.ofNat (0x10000 + (high - 0xd800) * 1024 + (u - 0xdc00)) := by
        simp only [surrogates]
      rw [decodeFrom, hunit, if_pos (trail_iff.mp hc.1), ih (o := none) hlt.2 hc.2,
        Pairing.readFrom_trail, hpair]
    | none =>
      have hc' := hc
      rw [Option.isSome_none, Pairing.coherent_cons] at hc'
      rw [decodeFrom, hunit, Pairing.readFrom]
      cases hl : surrogates.lead u with
      | true =>
        rw [hl] at hc'
        have hrange := lead_iff.mp hl
        have hno : ¬ isScalar u = true := by
          rw [isScalar_iff]
          omega
        rw [if_neg hno, if_pos hrange.2, if_pos rfl]
        exact ih (o := some u) hlt.2 hc'
      | false =>
        rw [hl] at hc'
        have hrange := Bool.eq_false_iff.mp hl
        rw [Ne, lead_iff] at hrange
        have hrest := ih (o := none) hlt.2 hc'
        have hsingle : surrogates.single u = if isScalar u then Char.ofNat u else replacement := rfl
        rw [if_neg Bool.false_ne_true, hsingle, ← hrest]
        by_cases hs : isScalar u = true
        · rw [if_pos hs, if_pos hs]
        · have hscalar := hs
          rw [isScalar_iff] at hscalar
          rw [if_neg hs, if_neg hs, if_neg (by omega)]

theorem decode_bytes {us : List Nat} (hlt : ∀ u ∈ us, u < 65536)
    (hc : surrogates.Coherent false us) : decode bigEndian (bytes us) = surrogates.read us :=
  decodeFrom_bytes (o := none) hlt hc

/-- The units of a text read as the text. -/
theorem read_units (text : List Char) : surrogates.read (units text) = text := by
  have hcoherent : surrogates.Coherent false (units text) := by
    have h := complete_units text
    rw [← List.append_nil (units text)] at h
    exact h.coherent
  rw [← decode_bytes (units_lt text) hcoherent, bytes_units, decode_encode]

end Air780eHub.Utf16
