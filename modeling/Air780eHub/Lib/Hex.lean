/-
  Octets in hexadecimal.

  `fromHex` reads pairs of digits of either case, `toHex` writes them in upper case, and
  `fromHex_toHex` reads back what was written.
-/
import Mathlib.Tactic.Common

namespace Air780eHub

/-- The value of a hexadecimal digit. -/
def hexDigit (c : Char) : Option Nat :=
  if '0' ≤ c ∧ c ≤ '9' then some (c.toNat - 48)
  else if 'a' ≤ c ∧ c ≤ 'f' then some (c.toNat - 87)
  else if 'A' ≤ c ∧ c ≤ 'F' then some (c.toNat - 55)
  else none

/-- `bytes.fromhex`, of a text without white space. -/
def fromHex : List Char → Option (List Nat)
  | []           => some []
  | [_]          => none
  | a :: b :: cs =>
    match hexDigit a, hexDigit b, fromHex cs with
    | some x, some y, some rest => some ((16 * x + y) :: rest)
    | _, _, _                   => none

/-- A digit below sixteen, in upper case. -/
def hexChar (n : Nat) : Char := Char.ofNat (if n < 10 then 48 + n else 55 + n)

/-- Octets as pairs of digits. -/
def toHex (octets : List Nat) : List Char :=
  octets.flatMap fun x => [hexChar (x / 16), hexChar (x % 16)]

theorem hexDigit_hexChar {n : Nat} (h : n < 16) : hexDigit (hexChar n) = some n := by
  revert h
  revert n
  decide

/-- **Octets are read back.** -/
theorem fromHex_toHex {octets : List Nat} (h : ∀ x ∈ octets, x < 256) :
    fromHex (toHex octets) = some octets := by
  induction octets with
  | nil => rfl
  | cons x octets ih =>
    have hx : x < 256 := h x List.mem_cons_self
    show fromHex (hexChar (x / 16) :: hexChar (x % 16) :: toHex octets) = _
    rw [fromHex, hexDigit_hexChar (by omega), hexDigit_hexChar (by omega),
      ih fun y hy => h y (List.mem_cons_of_mem x hy)]
    show some ((16 * (x / 16) + x % 16) :: octets) = _
    rw [Nat.div_add_mod]

theorem hexDigit_lt {c : Char} {n : Nat} (h : hexDigit c = some n) : n < 16 := by
  have hle : ∀ d : Char, c ≤ d → c.toNat ≤ d.toNat := fun d hd => UInt32.le_iff_toNat_le.mp hd
  have h9 : '9'.toNat = 57 := rfl
  have hf : 'f'.toNat = 102 := rfl
  have hF : 'F'.toNat = 70 := rfl
  unfold hexDigit at h
  split at h
  · rename_i hd
    have := hle _ hd.2
    injection h
    omega
  · split at h
    · rename_i hd
      have := hle _ hd.2
      injection h
      omega
    · split at h
      · rename_i hd
        have := hle _ hd.2
        injection h
        omega
      · cases h

/-- What is read are octets. -/
theorem fromHex_lt : ∀ {cs : List Char} {octets : List Nat}, fromHex cs = some octets →
    ∀ x ∈ octets, x < 256
  | [], _, h => by
    obtain rfl := Option.some.inj h
    exact nofun
  | [_], _, h => by cases h
  | a :: b :: cs, octets, h => by
    rw [fromHex] at h
    split at h
    · rename_i x y rest hx hy hrest
      obtain rfl := Option.some.inj h
      have hx16 := hexDigit_lt hx
      have hy16 := hexDigit_lt hy
      intro z hz
      rcases List.mem_cons.mp hz with rfl | hz
      · omega
      · exact fromHex_lt hrest z hz
    · cases h

/-- The digits that are written. -/
theorem mem_toHex {octets : List Nat} (h : ∀ x ∈ octets, x < 256) {c : Char}
    (hc : c ∈ toHex octets) : ∃ n < 16, c = hexChar n := by
  obtain ⟨x, hx, hm⟩ := List.mem_flatMap.mp hc
  have hlt := h x hx
  rcases List.mem_cons.mp hm with rfl | hm
  · exact ⟨x / 16, by omega, rfl⟩
  · obtain rfl := List.mem_singleton.mp hm
    exact ⟨x % 16, by omega, rfl⟩

end Air780eHub
