/-
  Octets in base 64, with the alphabet that is safe in a URL.

  1. `encode`: three octets are four characters, and what is left over is padded with `=`.
  2. `decode`: characters outside the alphabet are skipped, padding ends the text where it
     completes a group, and a group that breaks off is an error.
  3. `decode_encode`, also where the padding was taken off and put back (`decode_padded`).
-/
import Mathlib.Tactic.Common
import Mathlib.Data.List.Basic
import Mathlib.Data.List.DropRight

namespace Air780eHub.Base64

/-- The position is the value. -/
def ALPHABET : List Char :=
  ['A', 'B', 'C', 'D', 'E', 'F', 'G', 'H', 'I', 'J', 'K', 'L', 'M', 'N', 'O', 'P',
   'Q', 'R', 'S', 'T', 'U', 'V', 'W', 'X', 'Y', 'Z', 'a', 'b', 'c', 'd', 'e', 'f',
   'g', 'h', 'i', 'j', 'k', 'l', 'm', 'n', 'o', 'p', 'q', 'r', 's', 't', 'u', 'v',
   'w', 'x', 'y', 'z', '0', '1', '2', '3', '4', '5', '6', '7', '8', '9', '-', '_']

/-- The character of a value. -/
def char (n : Nat) : Char := ALPHABET.getD n '='

/-- The value of a character; the two of the plain alphabet are read as well. -/
def value (c : Char) : Option Nat :=
  if c = '+' then some 62
  else if c = '/' then some 63
  else ALPHABET.findIdx? fun d => d == c

/-- The characters without padding. -/
def body : List Nat → List Char
  | []               => []
  | [a]              => [char (a / 4), char (a % 4 * 16)]
  | [a, b]           => [char (a / 4), char (a % 4 * 16 + b / 16), char (b % 16 * 4)]
  | a :: b :: c :: l => char (a / 4) :: char (a % 4 * 16 + b / 16) :: char (b % 16 * 4 + c / 64) ::
    char (c % 64) :: body l

/-- The padding of a text of some length. -/
def padding (length : Nat) : List Char := List.replicate ((4 - length % 4) % 4) '='

/-- Octets in base 64. -/
def encode (octets : List Nat) : List Char := body octets ++ padding (body octets).length

/-- What is left of a text: `group` characters of a group of four are read, of which `left` is not
    yet in an octet, and so many padding characters came since. -/
def decodeFrom (group left pads : Nat) : List Char → Option (List Nat)
  | []      => if group = 0 then some [] else none
  | c :: cs =>
    if c = '=' then
      if 2 ≤ group ∧ 4 ≤ group + (pads + 1) then some []
      else decodeFrom group left (if 2 ≤ group then pads + 1 else pads) cs
    else match value c with
      | none   => decodeFrom group left pads cs
      | some v => match group with
        | 0 => decodeFrom 1 v 0 cs
        | 1 => (decodeFrom 2 (v % 16) 0 cs).map ((left * 4 + v / 16) :: ·)
        | 2 => (decodeFrom 3 (v % 4) 0 cs).map ((left * 16 + v / 4) :: ·)
        | _ => (decodeFrom 0 0 0 cs).map ((left * 64 + v) :: ·)

/-- The octets of a text in base 64. -/
def decode (text : List Char) : Option (List Nat) := decodeFrom 0 0 0 text

/-! ## Reading back -/

theorem value_char {n : Nat} (h : n < 64) : char n ≠ '=' ∧ value (char n) = some n := by
  revert h n
  decide

theorem char_ne_pad (n : Nat) (h : n < 64) : char n ≠ '=' := (value_char h).1

theorem char_lt (n : Nat) : (char n).toNat < 128 := by
  have hall : ∀ c ∈ ALPHABET, c.toNat < 128 := List.forall_iff_forall_mem.mp (by decide)
  unfold char
  rw [List.getD_eq_getElem?_getD]
  cases h : ALPHABET[n]? with
  | none   => decide
  | some c => exact hall c (List.mem_of_getElem? h)

section Steps

variable {left pads v : Nat} (hv : v < 64) (cs : List Char)

include hv

theorem decodeFrom_zero : decodeFrom 0 left pads (char v :: cs) = decodeFrom 1 v 0 cs := by
  rw [decodeFrom, if_neg (value_char hv).1, (value_char hv).2]
  rfl

theorem decodeFrom_one : decodeFrom 1 left pads (char v :: cs) =
    (decodeFrom 2 (v % 16) 0 cs).map ((left * 4 + v / 16) :: ·) := by
  rw [decodeFrom, if_neg (value_char hv).1, (value_char hv).2]
  rfl

theorem decodeFrom_two : decodeFrom 2 left pads (char v :: cs) =
    (decodeFrom 3 (v % 4) 0 cs).map ((left * 16 + v / 4) :: ·) := by
  rw [decodeFrom, if_neg (value_char hv).1, (value_char hv).2]
  rfl

theorem decodeFrom_three : decodeFrom 3 left pads (char v :: cs) =
    (decodeFrom 0 0 0 cs).map ((left * 64 + v) :: ·) := by
  rw [decodeFrom, if_neg (value_char hv).1, (value_char hv).2]
  rfl

end Steps

/-- Three octets at the front are read, and the rest after them. -/
theorem decodeFrom_three_octets {a b c : Nat} (ha : a < 256) (hb : b < 256) (hc : c < 256)
    (cs : List Char) {left pads : Nat} :
    decodeFrom 0 left pads (char (a / 4) :: char (a % 4 * 16 + b / 16) ::
      char (b % 16 * 4 + c / 64) :: char (c % 64) :: cs) =
      (decodeFrom 0 0 0 cs).map fun l => a :: b :: c :: l := by
  rw [decodeFrom_zero (by omega), decodeFrom_one (by omega), decodeFrom_two (by omega),
    decodeFrom_three (by omega), Option.map_map, Option.map_map]
  refine congrFun (congrArg Option.map (funext fun l => ?_)) _
  show _ :: _ :: _ :: l = a :: b :: c :: l
  rw [show a / 4 * 4 + (a % 4 * 16 + b / 16) / 16 = a by omega,
    show (a % 4 * 16 + b / 16) % 16 * 16 + (b % 16 * 4 + c / 64) / 4 = b by omega,
    show (b % 16 * 4 + c / 64) % 4 * 64 + c % 64 = c by omega]

/-- How long a text is. -/
theorem length_body (octets : List Nat) : 3 * (body octets).length ≤ 4 * octets.length + 2 := by
  induction octets using body.induct with
  | case1 => decide
  | case2 a =>
    show 3 * 2 ≤ 4 * 1 + 2
    omega
  | case3 a b =>
    show 3 * 3 ≤ 4 * 2 + 2
    omega
  | case4 a b c l ih =>
    show 3 * ((body l).length + 4) ≤ 4 * (l.length + 3) + 2
    omega

theorem le_length_body (octets : List Nat) : octets.length ≤ (body octets).length := by
  induction octets using body.induct with
  | case1 => decide
  | case2 a =>
    show 1 ≤ 2
    omega
  | case3 a b =>
    show 2 ≤ 3
    omega
  | case4 a b c l ih =>
    show l.length + 3 ≤ (body l).length + 4
    omega

/-- No character of a text is padding. -/
theorem not_pad_body {octets : List Nat} (h : ∀ x ∈ octets, x < 256) :
    ∀ c ∈ body octets, c ≠ '=' := by
  induction octets using body.induct with
  | case1 => exact fun c hc => absurd hc List.not_mem_nil
  | case2 a =>
    have ha := h a List.mem_cons_self
    unfold body
    simp only [List.forall_mem_cons]
    exact ⟨char_ne_pad _ (by omega), char_ne_pad _ (by omega), fun c hc => absurd hc List.not_mem_nil⟩
  | case3 a b =>
    have ha := h a List.mem_cons_self
    have hb := h b (List.mem_cons_of_mem a List.mem_cons_self)
    unfold body
    simp only [List.forall_mem_cons]
    exact ⟨char_ne_pad _ (by omega), char_ne_pad _ (by omega), char_ne_pad _ (by omega),
      fun c hc => absurd hc List.not_mem_nil⟩
  | case4 a b c l ih =>
    have ha := h a (by simp)
    have hb := h b (by simp)
    have hc := h c (by simp)
    unfold body
    simp only [List.forall_mem_cons]
    exact ⟨char_ne_pad _ (by omega), char_ne_pad _ (by omega), char_ne_pad _ (by omega),
      char_ne_pad _ (by omega), ih fun x hx => h x (by simp [hx])⟩

theorem body_lt (octets : List Nat) : ∀ c ∈ body octets, c.toNat < 128 := by
  induction octets using body.induct with
  | case1 => exact fun c hc => absurd hc List.not_mem_nil
  | case2 a =>
    unfold body
    simp only [List.forall_mem_cons]
    exact ⟨char_lt _, char_lt _, fun c hc => absurd hc List.not_mem_nil⟩
  | case3 a b =>
    unfold body
    simp only [List.forall_mem_cons]
    exact ⟨char_lt _, char_lt _, char_lt _, fun c hc => absurd hc List.not_mem_nil⟩
  | case4 a b c l ih =>
    unfold body
    simp only [List.forall_mem_cons]
    exact ⟨char_lt _, char_lt _, char_lt _, char_lt _, ih⟩

/-- **Octets are read back.** -/
theorem decode_encode {octets : List Nat} (h : ∀ x ∈ octets, x < 256) :
    decode (encode octets) = some octets := by
  unfold decode encode
  induction octets using body.induct with
  | case1 => rfl
  | case2 a =>
    have ha := h a List.mem_cons_self
    show decodeFrom 0 0 0 (char (a / 4) :: char (a % 4 * 16) :: '=' :: '=' :: []) = some [a]
    rw [decodeFrom_zero (by omega), decodeFrom_one (by omega)]
    show some [a / 4 * 4 + a % 4 * 16 / 16] = some [a]
    rw [show a / 4 * 4 + a % 4 * 16 / 16 = a by omega]
  | case3 a b =>
    have ha := h a List.mem_cons_self
    have hb := h b (List.mem_cons_of_mem a List.mem_cons_self)
    show decodeFrom 0 0 0 (char (a / 4) :: char (a % 4 * 16 + b / 16) :: char (b % 16 * 4) ::
      '=' :: []) = some [a, b]
    rw [decodeFrom_zero (by omega), decodeFrom_one (by omega), decodeFrom_two (by omega)]
    show some [a / 4 * 4 + (a % 4 * 16 + b / 16) / 16,
      (a % 4 * 16 + b / 16) % 16 * 16 + b % 16 * 4 / 4] = some [a, b]
    rw [show a / 4 * 4 + (a % 4 * 16 + b / 16) / 16 = a by omega,
      show (a % 4 * 16 + b / 16) % 16 * 16 + b % 16 * 4 / 4 = b by omega]
  | case4 a b c l ih =>
    have ha := h a (by simp)
    have hb := h b (by simp)
    have hc := h c (by simp)
    have hlen : padding (body (a :: b :: c :: l)).length = padding (body l).length := by
      show List.replicate ((4 - ((body l).length + 4) % 4) % 4) '=' = _
      rw [Nat.add_mod_right]
      rfl
    rw [hlen]
    show decodeFrom 0 0 0 (char (a / 4) :: char (a % 4 * 16 + b / 16) ::
      char (b % 16 * 4 + c / 64) :: char (c % 64) :: (body l ++ padding (body l).length)) = _
    rw [decodeFrom_three_octets ha hb hc, ih fun x hx => h x (by simp [hx])]
    rfl

/-- `text.rstrip("=")`. -/
def unpadded (text : List Char) : List Char := text.rdropWhile (· == '=')

/-- `text + "=" * (-len(text) % 4)`. -/
def padded (text : List Char) : List Char := text ++ padding text.length

theorem rdropWhile_replicate (l : List Char) (n : Nat) :
    (l ++ List.replicate n '=').rdropWhile (· == '=') = l.rdropWhile (· == '=') := by
  induction n with
  | zero => rw [List.replicate_zero, List.append_nil]
  | succ n ih =>
    rw [List.replicate_succ', ← List.append_assoc, List.rdropWhile_concat_pos _ _ _ (by decide), ih]

/-- Without its padding a text is its body. -/
theorem unpadded_encode {octets : List Nat} (h : ∀ x ∈ octets, x < 256) :
    unpadded (encode octets) = body octets := by
  unfold unpadded encode padding
  rw [rdropWhile_replicate, List.rdropWhile_eq_self_iff]
  intro hne
  have hlast := not_pad_body h _ (List.getLast_mem hne)
  simpa using hlast

/-- **Octets are read back** where the padding was taken off and is put back. -/
theorem decode_padded {octets : List Nat} (h : ∀ x ∈ octets, x < 256) :
    decode (padded (unpadded (encode octets))) = some octets := by
  rw [unpadded_encode h]
  exact decode_encode h

end Air780eHub.Base64
