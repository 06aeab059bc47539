/-
  Words and octets as digits of one number.

  Words of `w` bits written one after the other, least significant bit first, are the digits of a
  number in base `2 ^ w`; the octets that hold the bits are its digits in base 256.  So packing is
  correct when the number is right, and reading word `j` back is a division and a remainder.

  1. **Digits.**  A digit of a digit list (`ofDigits_div_mod`), and what `List.set` does to the
     number (`ofDigits_set`).
  2. **Bits.**  The octets at and after a number's top bit (`getD_lt_of_lt`, `getD_eq_zero_of_lt`).
  3. **Words across octets.**  Any word of at most eight bits lies in two octets (`window`).
-/
import Mathlib.Data.Nat.Digits.Lemmas
import Mathlib.Tactic.Ring

namespace Air780eHub.BitPack

open Nat (ofDigits)

variable {b w : Nat} {l : List Nat}

/-! ## Digits -/

theorem ofDigits_div_pow (hl : ∀ x ∈ l, x < b) (j : Nat) :
    ofDigits b l / b ^ j = ofDigits b (l.drop j) := by
  induction j generalizing l with
  | zero => rw [Nat.pow_zero, Nat.div_one, List.drop_zero]
  | succ j ih =>
    cases l with
    | nil => rw [List.drop_nil, Nat.ofDigits_nil, Nat.zero_div]
    | cons x l =>
      have hx : x < b := hl x List.mem_cons_self
      have hrest := ih fun y hy => hl y (List.mem_cons_of_mem x hy)
      rw [Nat.ofDigits_cons, List.drop_succ_cons, ← hrest, Nat.pow_succ', ← Nat.div_div_eq_div_mul,
        Nat.add_mul_div_left _ _ (by omega), Nat.div_eq_of_lt hx, Nat.zero_add]

theorem ofDigits_mod (hl : ∀ x ∈ l, x < b) : ofDigits b l % b = l.getD 0 0 := by
  cases l with
  | nil => exact Nat.zero_mod b
  | cons x l =>
    rw [Nat.ofDigits_cons, Nat.add_mul_mod_self_left, Nat.mod_eq_of_lt (hl x List.mem_cons_self)]
    rfl

/-- A digit of the number. -/
theorem ofDigits_div_mod (hl : ∀ x ∈ l, x < b) (j : Nat) : ofDigits b l / b ^ j % b = l.getD j 0 := by
  rw [ofDigits_div_pow hl, ofDigits_mod fun x hx => hl x (List.mem_of_mem_drop hx)]
  simp only [List.getD_eq_getElem?_getD, List.getElem?_drop, Nat.add_zero]

theorem getD_lt (hb : 0 < b) (hl : ∀ x ∈ l, x < b) (j : Nat) : l.getD j 0 < b := by
  rw [← ofDigits_div_mod hl]
  exact Nat.mod_lt _ hb

/-- Another digit in one place. -/
theorem ofDigits_set {j : Nat} (hj : j < l.length) (x : Nat) :
    ofDigits b (l.set j x) + l.getD j 0 * b ^ j = ofDigits b l + x * b ^ j := by
  induction j generalizing l with
  | zero =>
    cases l with
    | nil => cases hj
    | cons y l =>
      show ofDigits b (x :: l) + y * b ^ 0 = ofDigits b (y :: l) + x * b ^ 0
      rw [Nat.ofDigits_cons, Nat.ofDigits_cons]
      ring
  | succ j ih =>
    cases l with
    | nil => cases hj
    | cons y l =>
      have hrest := ih (l := l) (Nat.lt_of_succ_lt_succ hj)
      show ofDigits b (y :: l.set j x) + l.getD j 0 * b ^ (j + 1) = _
      rw [Nat.ofDigits_cons, Nat.ofDigits_cons]
      calc y + b * ofDigits b (l.set j x) + l.getD j 0 * b ^ (j + 1)
          = y + b * (ofDigits b (l.set j x) + l.getD j 0 * b ^ j) := by ring
        _ = y + b * (ofDigits b l + x * b ^ j) := by rw [hrest]
        _ = y + b * ofDigits b l + x * b ^ (j + 1) := by ring

/-! ## Bits -/

theorem pow_split (p : Nat) : 2 ^ p = 2 ^ (p % 8) * 256 ^ (p / 8) := by
  rw [show (256 : Nat) = 2 ^ 8 from rfl, ← Nat.pow_mul, ← Nat.pow_add]
  congr 1
  omega

/-- The octet with the top bit. -/
theorem getD_lt_of_lt (hl : ∀ x ∈ l, x < 256) {p : Nat} (h : ofDigits 256 l < 2 ^ p) :
    l.getD (p / 8) 0 < 2 ^ (p % 8) := by
  rw [← ofDigits_div_mod hl]
  refine Nat.lt_of_le_of_lt (Nat.mod_le _ _) ?_
  rw [Nat.div_lt_iff_lt_mul (Nat.pow_pos (by omega)), ← pow_split]
  exact h

/-- The octets above it. -/
theorem getD_eq_zero_of_lt (hl : ∀ x ∈ l, x < 256) {p k : Nat} (h : ofDigits 256 l < 2 ^ p)
    (hk : p / 8 < k) : l.getD k 0 = 0 := by
  rw [← ofDigits_div_mod hl, Nat.div_eq_of_lt, Nat.zero_mod]
  refine Nat.lt_of_lt_of_le h ?_
  rw [show (256 : Nat) = 2 ^ 8 from rfl, ← Nat.pow_mul]
  exact Nat.pow_le_pow_right (by omega) (by omega)

/-! ## Words across octets -/

/-- A word of at most eight bits that begins at bit `p` lies in octets `p / 8` and `p / 8 + 1`. -/
theorem window (hl : ∀ x ∈ l, x < 256) (hw : w ≤ 8) (p : Nat) :
    ofDigits 256 l / 2 ^ p % 2 ^ w =
      (l.getD (p / 8) 0 / 2 ^ (p % 8) + l.getD (p / 8 + 1) 0 * 2 ^ (8 - p % 8)) % 2 ^ w := by
  have ht : p % 8 < 8 := Nat.mod_lt _ (by omega)
  generalize hi : p / 8 = i
  have hsplit := pow_split p
  rw [hi] at hsplit
  generalize p % 8 = t at hsplit ht ⊢
  -- the number from octet `i` on: two octets and the rest
  obtain ⟨r, hr⟩ : ∃ r, ofDigits 256 l / 256 ^ i =
      l.getD i 0 + 2 ^ t * (2 ^ (8 - t) * (l.getD (i + 1) 0 + 2 ^ w * r)) := by
    refine ⟨2 ^ (8 - w) * (ofDigits 256 l / 256 ^ (i + 2)), ?_⟩
    have hnext : ∀ j, 256 * (ofDigits 256 l / 256 ^ (j + 1)) + l.getD j 0 =
        ofDigits 256 l / 256 ^ j := by
      intro j
      rw [← ofDigits_div_mod hl j, Nat.pow_succ, ← Nat.div_div_eq_div_mul]
      exact Nat.div_add_mod _ _
    have h0 := hnext i
    have h1 := hnext (i + 1)
    have e8 : 2 ^ t * 2 ^ (8 - t) = 256 := by
      rw [← Nat.pow_add, show t + (8 - t) = 8 by omega]
    have ew : 2 ^ w * 2 ^ (8 - w) = 256 := by
      rw [← Nat.pow_add, show w + (8 - w) = 8 by omega]
    calc ofDigits 256 l / 256 ^ i
        = l.getD i 0 + 256 * (ofDigits 256 l / 256 ^ (i + 1)) := by omega
      _ = l.getD i 0 + 256 * (l.getD (i + 1) 0 + 256 * (ofDigits 256 l / 256 ^ (i + 2))) := by
          rw [← h1, Nat.add_comm (256 * _)]
      _ = l.getD i 0 + 2 ^ t * 2 ^ (8 - t) *
            (l.getD (i + 1) 0 + 2 ^ w * 2 ^ (8 - w) * (ofDigits 256 l / 256 ^ (i + 2))) := by
          rw [e8, ew]
      _ = _ := by ring
  rw [hsplit, Nat.mul_comm, ← Nat.div_div_eq_div_mul, hr, Nat.add_mul_div_left _ _ (by positivity)]
  calc (l.getD i 0 / 2 ^ t + 2 ^ (8 - t) * (l.getD (i + 1) 0 + 2 ^ w * r)) % 2 ^ w
      = (l.getD i 0 / 2 ^ t + l.getD (i + 1) 0 * 2 ^ (8 - t) + 2 ^ w * (2 ^ (8 - t) * r)) % 2 ^ w := by
        congr 1
        ring
    _ = _ := Nat.add_mul_mod_self_left _ _ _

end Air780eHub.BitPack
