/-
  The GSM 7-bit default alphabet and its packing (`pdu/gsm7.py`).

  1. **The alphabet.**  128 characters, and ten more behind an escape.  `decode_encode`: a text in
     the alphabet is read back as it was.
  2. **Packing.**  Septets are written into octets least significant bit first, from a fill of some
     bits on.  The octets are the digits of one number, to which each septet adds its own value
     (`packStep_spec`), and `unpack` takes digits of the same number (`unpack_pack`).
-/
import Air780eHub.Lib.BitPack

namespace Air780eHub.Pdu

open Nat (ofDigits)

/-! ## The alphabet -/

def ESC : Nat := 0x1b

/-- The position is the septet. -/
def BASIC_TABLE : List Char :=
  ['@', '£', '$', '¥', 'è', 'é', 'ù', 'ì', 'ò', 'Ç', '\n', 'Ø', 'ø', '\r', 'Å', 'å',
   'Δ', '_', 'Φ', 'Γ', 'Λ', 'Ω', 'Π', 'Ψ', 'Σ', 'Θ', 'Ξ', '\x1b', 'Æ', 'æ', 'ß', 'É',
   ' ', '!', '"', '#', '¤', '%', '&', '\'', '(', ')', '*', '+', ',', '-', '.', '/',
   '0', '1', '2', '3', '4', '5', '6', '7', '8', '9', ':', ';', '<', '=', '>', '?',
   '¡', 'A', 'B', 'C', 'D', 'E', 'F', 'G', 'H', 'I', 'J', 'K', 'L', 'M', 'N', 'O',
   'P', 'Q', 'R', 'S', 'T', 'U', 'V', 'W', 'X', 'Y', 'Z', 'Ä', 'Ö', 'Ñ', 'Ü', '§',
   '¿', 'a', 'b', 'c', 'd', 'e', 'f', 'g', 'h', 'i', 'j', 'k', 'l', 'm', 'n', 'o',
   'p', 'q', 'r', 's', 't', 'u', 'v', 'w', 'x', 'y', 'z', 'ä', 'ö', 'ñ', 'ü', 'à']

/-- Reached as `ESC` and the septet. -/
def EXT_TABLE : List (Nat × Char) :=
  [(0x0a, '\x0c'), (0x14, '^'), (0x28, '\x7b'), (0x29, '\x7d'), (0x2f, '\\'), (0x3c, '['),
   (0x3d, '~'), (0x3e, ']'), (0x40, '|'), (0x65, '€')]

/-- `_BASIC_REVERSE`.  `ESC` itself is not a writable character. -/
def basicSeptet (c : Char) : Option Nat :=
  if c = '\x1b' then none else BASIC_TABLE.findIdx? fun d => d == c

/-- `_EXT_REVERSE`. -/
def extSeptet (c : Char) : Option Nat := (EXT_TABLE.find? fun e => e.2 == c).map Prod.fst

/-- `can_encode`. -/
def canEncode (text : List Char) : Bool :=
  text.all fun c => (basicSeptet c).isSome || (extSeptet c).isSome

/-- The septets of a character; `none` where `encode` raises. -/
def septetsOf (c : Char) : Option (List Nat) :=
  match basicSeptet c with
  | some s => some [s]
  | none   => (extSeptet c).map fun s => [ESC, s]

/-- `encode`. -/
def encode : List Char → Option (List Nat)
  | []        => some []
  | c :: text => match septetsOf c, encode text with
    | some s, some ss => some (s ++ ss)
    | _, _            => none

/-- The character of a septet after an escape.  Unknown extension escapes fall back. -/
def escaped (s : Nat) : Char :=
  ((EXT_TABLE.find? fun e => e.1 == s).map Prod.snd).getD (BASIC_TABLE.getD s ' ')

/-- The loop of `decode`, with `pending_escape`. -/
def decodeFrom : Bool → List Nat → List Char
  | false, []      => []
  | true, []       => [' ']
  | true, s :: ss  => escaped s :: decodeFrom false ss
  | false, s :: ss =>
    if s = ESC then decodeFrom true ss
    else if s < 128 then BASIC_TABLE.getD s ' ' :: decodeFrom false ss
    else decodeFrom false ss

/-- `decode`. -/
def decode (septets : List Nat) : List Char := decodeFrom false septets

theorem basicSeptet_spec {c : Char} {s : Nat} (h : basicSeptet c = some s) :
    s < 128 ∧ s ≠ ESC ∧ BASIC_TABLE.getD s ' ' = c := by
  unfold basicSeptet at h
  split at h
  · cases h
  · rename_i hne
    obtain ⟨hlt, hget, -⟩ := List.findIdx?_eq_some_iff_getElem.mp h
    have hc : BASIC_TABLE.getD s ' ' = c := by
      rw [List.getD_eq_getElem?_getD, List.getElem?_eq_getElem hlt]
      exact beq_iff_eq.mp hget
    refine ⟨hlt, ?_, hc⟩
    rintro rfl
    exact hne hc.symm

theorem extSeptet_spec {c : Char} {s : Nat} (h : extSeptet c = some s) :
    s < 128 ∧ s ≠ ESC ∧ escaped s = c := by
  obtain ⟨e, he, rfl⟩ := Option.map_eq_some_iff.mp h
  have hmem := List.mem_of_find?_eq_some he
  have hc : e.2 = c := beq_iff_eq.mp (List.find?_some (p := fun e : Nat × Char => e.2 == c) he)
  have htable : ∀ e ∈ EXT_TABLE, e.1 < 128 ∧ e.1 ≠ ESC ∧ escaped e.1 = e.2 := by decide
  obtain ⟨hlt, hne, hesc⟩ := htable e hmem
  exact ⟨hlt, hne, hesc.trans hc⟩

/-- What a character is written as: one septet, or an escape and one. -/
theorem septetsOf_cases {c : Char} {ss : List Nat} (h : septetsOf c = some ss) :
    (∃ s, ss = [s] ∧ s < 128 ∧ s ≠ ESC ∧ BASIC_TABLE.getD s ' ' = c) ∨
      ∃ s, ss = [ESC, s] ∧ s < 128 ∧ s ≠ ESC ∧ escaped s = c := by
  unfold septetsOf at h
  split at h
  · rename_i s hs
    exact Or.inl ⟨s, (Option.some.inj h).symm, basicSeptet_spec hs⟩
  · obtain ⟨s, hs, rfl⟩ := Option.map_eq_some_iff.mp h
    exact Or.inr ⟨s, rfl, extSeptet_spec hs⟩

/-- A character at the front is read, and the rest after it. -/
theorem decode_septetsOf {c : Char} {ss : List Nat} (h : septetsOf c = some ss) (rest : List Nat) :
    decode (ss ++ rest) = c :: decode rest := by
  rcases septetsOf_cases h with ⟨s, rfl, hlt, hne, hc⟩ | ⟨s, rfl, -, -, hc⟩
  · show decodeFrom false (s :: rest) = c :: decodeFrom false rest
    rw [decodeFrom, if_neg hne, if_pos hlt, hc]
  · show decodeFrom false (ESC :: s :: rest) = c :: decodeFrom false rest
    rw [decodeFrom, if_pos rfl, decodeFrom, hc]

theorem encode_cons {c : Char} {text : List Char} {ss : List Nat}
    (h : encode (c :: text) = some ss) :
    ∃ s rest, septetsOf c = some s ∧ encode text = some rest ∧ ss = s ++ rest := by
  unfold encode at h
  split at h
  · rename_i s rest hs hrest
    exact ⟨s, rest, hs, hrest, (Option.some.inj h).symm⟩
  · cases h

/-- **A text in the alphabet is read back.** -/
theorem decode_encode {text : List Char} {ss : List Nat} (h : encode text = some ss) :
    decode ss = text := by
  induction text generalizing ss with
  | nil =>
    obtain rfl := Option.some.inj h
    rfl
  | cons c text ih =>
    obtain ⟨s, rest, hs, hrest, rfl⟩ := encode_cons h
    rw [decode_septetsOf hs, ih hrest]

theorem encode_lt {text : List Char} {ss : List Nat} (h : encode text = some ss) :
    ∀ s ∈ ss, s < 128 := by
  induction text generalizing ss with
  | nil =>
    obtain rfl := Option.some.inj h
    exact nofun
  | cons c text ih =>
    obtain ⟨s, rest, hs, hrest, rfl⟩ := encode_cons h
    intro x hx
    rcases List.mem_append.mp hx with hx | hx
    · rcases septetsOf_cases hs with ⟨y, rfl, hlt, -, -⟩ | ⟨y, rfl, hlt, -, -⟩
      · obtain rfl := List.mem_singleton.mp hx
        exact hlt
      · rcases List.mem_cons.mp hx with rfl | hx
        · decide
        · obtain rfl := List.mem_singleton.mp hx
          exact hlt
    · exact ih hrest x hx

/-- `encode` raises only where `can_encode` says so. -/
theorem encode_of_canEncode {text : List Char} (h : canEncode text = true) :
    ∃ ss, encode text = some ss := by
  induction text with
  | nil => exact ⟨[], rfl⟩
  | cons c text ih =>
    unfold canEncode at h
    rw [List.all_cons, Bool.and_eq_true] at h
    obtain ⟨rest, hrest⟩ := ih h.2
    obtain ⟨s, hs⟩ : ∃ s, septetsOf c = some s := by
      unfold septetsOf
      cases hb : basicSeptet c with
      | some s => exact ⟨[s], rfl⟩
      | none =>
        have hc := h.1
        rw [hb, Option.isSome_none, Bool.false_or, Option.isSome_iff_exists] at hc
        obtain ⟨s, hs⟩ := hc
        exact ⟨[ESC, s], by rw [hs]; rfl⟩
    exact ⟨s ++ rest, by rw [encode, hs, hrest]⟩

/-! ## Packing -/

/-- The body of the loop of `pack`: a septet is written at bit `bitpos`. -/
def packStep (buf : List Nat) (bitpos s : Nat) : List Nat :=
  let s := s &&& 0x7f
  let index := bitpos / 8
  let shift := bitpos % 8
  let buf := buf.set index (buf.getD index 0 ||| (s <<< shift &&& 0xff))
  if 1 < shift ∧ index + 1 < buf.length then
    buf.set (index + 1) (buf.getD (index + 1) 0 ||| s >>> (8 - shift))
  else buf

/-- The loop of `pack`. -/
def packFrom (buf : List Nat) (bitpos : Nat) : List Nat → List Nat
  | []      => buf
  | s :: ss => packFrom (packStep buf bitpos s) (bitpos + 7) ss

/-- `pack`. -/
def pack (septets : List Nat) (fillBits : Nat) : List Nat :=
  packFrom (List.replicate ((fillBits + 7 * septets.length + 7) / 8) 0) fillBits septets

/-- The loop of `unpack`. -/
def unpackFrom (octets : List Nat) (bitpos : Nat) : Nat → List Nat
  | 0     => []
  | n + 1 =>
    let index := bitpos / 8
    let shift := bitpos % 8
    if octets.length ≤ index then []
    else
      let value := octets.getD index 0 >>> shift
      let value := if 1 < shift ∧ index + 1 < octets.length then
          value ||| octets.getD (index + 1) 0 <<< (8 - shift)
        else value
      (value &&& 0x7f) :: unpackFrom octets (bitpos + 7) n

/-- `unpack`. -/
def unpack (octets : List Nat) (septetCount fillBits : Nat) : List Nat :=
  unpackFrom octets fillBits septetCount

/-- Octets in which nothing is written from bit `p` on. -/
structure Written (buf : List Nat) (p : Nat) : Prop where
  octets : ∀ x ∈ buf, x < 256
  below  : ofDigits 256 buf < 2 ^ p

theorem pow_mul_pow {t : Nat} (ht : t ≤ 8) : 2 ^ t * 2 ^ (8 - t) = 256 := by
  rw [← Nat.pow_add, show t + (8 - t) = 8 by omega]

/-- The low part of a septet fits above what the octet holds. -/
theorem or_low {a s t : Nat} (ht : t ≤ 8) (ha : a < 2 ^ t) :
    a ||| (s <<< t &&& 0xff) = a + 2 ^ t * (s % 2 ^ (8 - t)) := by
  have hlow : s <<< t &&& 0xff = 2 ^ t * (s % 2 ^ (8 - t)) := by
    rw [show (0xff : Nat) = 2 ^ 8 - 1 from rfl, Nat.and_two_pow_sub_one_eq_mod, Nat.shiftLeft_eq,
      Nat.mul_comm, show (2 : Nat) ^ 8 = 2 ^ t * 2 ^ (8 - t) from (pow_mul_pow ht).symm,
      Nat.mul_mod_mul_left]
  rw [hlow, Nat.or_comm, ← Nat.two_pow_add_eq_or_of_lt ha, Nat.add_comm]

/-- **One septet.**  It adds its value at its place, and nothing is written above it. -/
theorem packStep_spec {buf : List Nat} {p s : Nat} (h : Written buf p) (hs : s < 128)
    (hroom : p + 7 ≤ 8 * buf.length) :
    Written (packStep buf p s) (p + 7) ∧ (packStep buf p s).length = buf.length ∧
      ofDigits 256 (packStep buf p s) = ofDigits 256 buf + s * 2 ^ p := by
  have ht : p % 8 < 8 := Nat.mod_lt _ (by omega)
  have hi : p / 8 < buf.length := by omega
  have ha : buf.getD (p / 8) 0 < 2 ^ (p % 8) := BitPack.getD_lt_of_lt h.octets h.below
  have hs7 : s &&& 0x7f = s := by
    rw [show (0x7f : Nat) = 2 ^ 7 - 1 from rfl, Nat.and_two_pow_sub_one_eq_mod]
    exact Nat.mod_eq_of_lt hs
  have hpow := BitPack.pow_split p
  have hlt : ofDigits 256 buf + s * 2 ^ p < 2 ^ (p + 7) := by
    have hbelow := h.below
    have hle : (s + 1) * 2 ^ p ≤ 2 ^ 7 * 2 ^ p := Nat.mul_le_mul_right _ (by omega)
    rw [Nat.pow_add, Nat.mul_comm (2 ^ p)]
    rw [Nat.add_mul] at hle
    omega
  -- the octet that the septet begins in
  have hpow8 := pow_mul_pow (Nat.le_of_lt ht)
  have hlowlt : s % 2 ^ (8 - p % 8) < 2 ^ (8 - p % 8) := Nat.mod_lt _ (by positivity)
  have hoctet : buf.getD (p / 8) 0 + 2 ^ (p % 8) * (s % 2 ^ (8 - p % 8)) < 256 := by
    have hle : 2 ^ (p % 8) * (s % 2 ^ (8 - p % 8) + 1) ≤ 256 := by
      rw [← hpow8]
      exact Nat.mul_le_mul_left _ hlowlt
    rw [Nat.mul_add] at hle
    omega
  have hset := BitPack.ofDigits_set (b := 256) hi
    (buf.getD (p / 8) 0 + 2 ^ (p % 8) * (s % 2 ^ (8 - p % 8)))
  have hmem : ∀ x ∈ buf.set (p / 8) (buf.getD (p / 8) 0 + 2 ^ (p % 8) * (s % 2 ^ (8 - p % 8))),
      x < 256 := by
    intro x hx
    rcases List.mem_or_eq_of_mem_set hx with hx | rfl
    · exact h.octets x hx
    · exact hoctet
  have hval : ofDigits 256 (buf.set (p / 8)
      (buf.getD (p / 8) 0 + 2 ^ (p % 8) * (s % 2 ^ (8 - p % 8)))) =
      ofDigits 256 buf + 2 ^ (p % 8) * (s % 2 ^ (8 - p % 8)) * 256 ^ (p / 8) := by
    rw [Nat.add_mul] at hset
    omega
  -- the septet, as what fits into that octet and what does not
  have hparts : s * 2 ^ p = 2 ^ (p % 8) * (s % 2 ^ (8 - p % 8)) * 256 ^ (p / 8) +
      s / 2 ^ (8 - p % 8) * 256 ^ (p / 8 + 1) := by
    calc s * 2 ^ p
        = (2 ^ (8 - p % 8) * (s / 2 ^ (8 - p % 8)) + s % 2 ^ (8 - p % 8)) *
            (2 ^ (p % 8) * 256 ^ (p / 8)) := by rw [Nat.div_add_mod, ← hpow]
      _ = 2 ^ (p % 8) * (s % 2 ^ (8 - p % 8)) * 256 ^ (p / 8) +
            s / 2 ^ (8 - p % 8) * (2 ^ (p % 8) * 2 ^ (8 - p % 8)) * 256 ^ (p / 8) := by ring
      _ = _ := by rw [hpow8]; ring
  unfold packStep
  simp only [hs7, or_low (Nat.le_of_lt ht) ha, List.length_set]
  by_cases hshift : 1 < p % 8
  · rw [if_pos ⟨hshift, by omega⟩]
    have hzero : (buf.set (p / 8) (buf.getD (p / 8) 0 + 2 ^ (p % 8) * (s % 2 ^ (8 - p % 8)))).getD
        (p / 8 + 1) 0 = 0 := by
      rw [List.getD_eq_getElem?_getD, List.getElem?_set_ne (by omega), ← List.getD_eq_getElem?_getD]
      exact BitPack.getD_eq_zero_of_lt h.octets h.below (Nat.lt_succ_self _)
    have hset' := BitPack.ofDigits_set (b := 256)
      (l := buf.set (p / 8) (buf.getD (p / 8) 0 + 2 ^ (p % 8) * (s % 2 ^ (8 - p % 8))))
      (j := p / 8 + 1) (by rw [List.length_set]; omega) (s / 2 ^ (8 - p % 8))
    rw [hzero] at hset'
    rw [hzero, Nat.zero_or, Nat.shiftRight_eq_div_pow]
    have hsum : ofDigits 256 ((buf.set (p / 8) (buf.getD (p / 8) 0 + 2 ^ (p % 8) *
        (s % 2 ^ (8 - p % 8)))).set (p / 8 + 1) (s / 2 ^ (8 - p % 8))) =
        ofDigits 256 buf + s * 2 ^ p := by omega
    refine ⟨⟨?_, hsum ▸ hlt⟩, by rw [List.length_set, List.length_set], hsum⟩
    intro x hx
    rcases List.mem_or_eq_of_mem_set hx with hx | rfl
    · exact hmem x hx
    · exact Nat.lt_of_le_of_lt (Nat.div_le_self _ _) (by omega)
  · rw [if_neg fun hc => hshift hc.1]
    -- it fits as a whole
    have hfits : s / 2 ^ (8 - p % 8) = 0 := by
      refine Nat.div_eq_of_lt (Nat.lt_of_lt_of_le hs ?_)
      rw [show (128 : Nat) = 2 ^ 7 from rfl]
      exact Nat.pow_le_pow_right (by omega) (by omega)
    rw [hfits] at hparts
    have hsum : ofDigits 256 (buf.set (p / 8) (buf.getD (p / 8) 0 + 2 ^ (p % 8) *
        (s % 2 ^ (8 - p % 8)))) = ofDigits 256 buf + s * 2 ^ p := by omega
    exact ⟨⟨hmem, hsum ▸ hlt⟩, List.length_set, hsum⟩

/-- **All septets.** -/
theorem packFrom_spec {buf : List Nat} {p : Nat} {ss : List Nat} (h : Written buf p)
    (hs : ∀ s ∈ ss, s < 128) (hroom : p + 7 * ss.length ≤ 8 * buf.length) :
    (∀ x ∈ packFrom buf p ss, x < 256) ∧ (packFrom buf p ss).length = buf.length ∧
      ofDigits 256 (packFrom buf p ss) = ofDigits 256 buf + 2 ^ p * ofDigits (2 ^ 7) ss := by
  induction ss generalizing buf p with
  | nil => exact ⟨h.octets, rfl, by rw [Nat.ofDigits_nil]; rfl⟩
  | cons s ss ih =>
    rw [List.length_cons] at hroom
    obtain ⟨hw, hlen, hval⟩ := packStep_spec h (hs s List.mem_cons_self) (by omega)
    obtain ⟨hoct, hlen', hval'⟩ := ih hw (fun x hx => hs x (List.mem_cons_of_mem s hx))
      (by rw [hlen]; omega)
    refine ⟨hoct, hlen'.trans hlen, ?_⟩
    show ofDigits 256 (packFrom (packStep buf p s) (p + 7) ss) = _
    rw [hval', hval, Nat.ofDigits_cons, Nat.pow_add]
    ring

/-- The septet that `unpack` takes at bit `p`. -/
theorem unpack_septet {octets : List Nat} {p : Nat} (ho : ∀ x ∈ octets, x < 256)
    (hroom : p + 7 ≤ 8 * octets.length) :
    (if 1 < p % 8 ∧ p / 8 + 1 < octets.length then
        octets.getD (p / 8) 0 >>> (p % 8) ||| octets.getD (p / 8 + 1) 0 <<< (8 - p % 8)
      else octets.getD (p / 8) 0 >>> (p % 8)) &&& 0x7f = ofDigits 256 octets / 2 ^ p % 2 ^ 7 := by
  have ht : p % 8 < 8 := Nat.mod_lt _ (by omega)
  rw [BitPack.window ho (by omega), show (0x7f : Nat) = 2 ^ 7 - 1 from rfl,
    Nat.and_two_pow_sub_one_eq_mod]
  by_cases hshift : 1 < p % 8
  · have hpart : octets.getD (p / 8) 0 / 2 ^ (p % 8) < 2 ^ (8 - p % 8) := by
      rw [Nat.div_lt_iff_lt_mul (by positivity), Nat.mul_comm, pow_mul_pow (Nat.le_of_lt ht)]
      exact BitPack.getD_lt (by omega) ho _
    rw [if_pos ⟨hshift, by omega⟩, Nat.shiftRight_eq_div_pow, Nat.shiftLeft_eq, Nat.or_comm,
      Nat.mul_comm, ← Nat.two_pow_add_eq_or_of_lt hpart, Nat.add_comm, Nat.mul_comm]
  · rw [if_neg fun hc => hshift hc.1, Nat.shiftRight_eq_div_pow]
    -- what the next octet adds is a multiple of 128
    have hmul : octets.getD (p / 8 + 1) 0 * 2 ^ (8 - p % 8) =
        2 ^ 7 * (octets.getD (p / 8 + 1) 0 * 2 ^ (1 - p % 8)) := by
      rw [show 8 - p % 8 = 7 + (1 - p % 8) by omega, Nat.pow_add]
      ring
    rw [hmul, Nat.add_mul_mod_self_left]

theorem unpackFrom_spec {octets : List Nat} (ho : ∀ x ∈ octets, x < 256) {p n : Nat}
    (hroom : p + 7 * n ≤ 8 * octets.length) :
    unpackFrom octets p n =
      (List.range n).map fun j => ofDigits 256 octets / 2 ^ (p + 7 * j) % 2 ^ 7 := by
  induction n generalizing p with
  | zero => rfl
  | succ n ih =>
    have hindex : ¬ octets.length ≤ p / 8 := by omega
    rw [unpackFrom, if_neg hindex, List.range_succ_eq_map, List.map_cons, List.map_map]
    refine congrArg₂ List.cons ?_ ?_
    · rw [Nat.mul_zero, Nat.add_zero]
      exact unpack_septet ho (by omega)
    · rw [ih (by omega)]
      refine List.map_congr_left fun j _ => ?_
      show _ = ofDigits 256 octets / 2 ^ (p + 7 * (j + 1)) % 2 ^ 7
      rw [show p + 7 * (j + 1) = p + 7 + 7 * j by omega]

/-- The octets of a packed text. -/
theorem pack_spec {ss : List Nat} (hs : ∀ s ∈ ss, s < 128) (fill : Nat) :
    (∀ x ∈ pack ss fill, x < 256) ∧ (pack ss fill).length = (fill + 7 * ss.length + 7) / 8 ∧
      ofDigits 256 (pack ss fill) = 2 ^ fill * ofDigits (2 ^ 7) ss := by
  have hw : Written (List.replicate ((fill + 7 * ss.length + 7) / 8) 0) fill := by
    constructor
    · intro x hx
      rw [(List.mem_replicate.mp hx).2]
      decide
    · rw [Nat.ofDigits_replicate_zero]
      positivity
  obtain ⟨hoct, hlen, hval⟩ := packFrom_spec hw hs (by rw [List.length_replicate]; omega)
  refine ⟨hoct, hlen.trans List.length_replicate, ?_⟩
  rw [Nat.ofDigits_replicate_zero, Nat.zero_add] at hval
  exact hval

/-- **Packed septets are read back**, with any fill. -/
theorem unpack_pack {ss : List Nat} (hs : ∀ s ∈ ss, s < 128) (fill : Nat) :
    unpack (pack ss fill) ss.length fill = ss := by
  obtain ⟨hoct, hlen, hval⟩ := pack_spec hs fill
  unfold unpack
  rw [unpackFrom_spec hoct (by rw [hlen]; omega), hval]
  have hs' : ∀ s ∈ ss, s < 2 ^ 7 := hs
  refine List.ext_getElem (by rw [List.length_map, List.length_range]) fun j hj hj' => ?_
  rw [List.getElem_map, List.getElem_range, Nat.pow_add, ← Nat.div_div_eq_div_mul,
    Nat.mul_div_cancel_left _ (by positivity), Nat.pow_mul, BitPack.ofDigits_div_mod hs',
    List.getD_eq_getElem?_getD, List.getElem?_eq_getElem hj', Option.getD_some]

end Air780eHub.Pdu
