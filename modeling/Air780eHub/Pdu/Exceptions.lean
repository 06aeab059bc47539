/-
  What a PDU decoder could raise, and the 7-bit layer with it.

  `Pdu.Gsm7` and `Pdu.Codec` read a septet, an octet or a slice by functions that are total.  Here
  the same code is written over operations that raise as the language's do: an index out of range,
  a negative shift, a text that is not hexadecimal, a duration, a zone or a date out of range, a
  division by zero, a minimum of nothing.

  1. **The operations**, and when each of them returns.
  2. **`gsm7.decode` and `gsm7.unpack`** never raise, and are the total functions (`decode_ok`,
     `unpack_ok`).  A count below zero is no septet.
-/
import Air780eHub.Lib.Raising
import Air780eHub.Pdu.Codec

namespace Air780eHub.Pdu.Raising

/-! ## The operations -/

/-- What may be raised while a PDU is decoded.  A `PduError` is a `ValueError`. -/
inductive Raised
  | pdu (e : PduError)
  | valueError
  | indexError
  | overflowError
  | zeroDivisionError
deriving DecidableEq, Repr

variable {α : Type}

/-- The computation returns. -/
def Returns (x : Except Raised α) : Prop := ∃ a, x = .ok a

/-- The computation returns or raises a `PduError`. -/
def Safe (x : Except Raised α) : Prop := Returns x ∨ ∃ e, x = .error (.pdu e)

/-- `xs[i]`.  A negative index counts from the end. -/
def item (xs : List α) (i : Int) : Except Raised α :=
  let i := if i < 0 then i + xs.length else i
  if i < 0 then .error .indexError
  else match xs[i.toNat]? with
    | some x => .ok x
    | none   => .error .indexError

/-- Where the bound of a slice lies. -/
def bound (xs : List α) (i : Int) : Nat := (if i < 0 then i + xs.length else i).toNat

/-- `xs[start:stop]`. -/
def slice (xs : List α) (start stop : Int) : List α := (xs.take (bound xs stop)).drop (bound xs start)

/-- `n >> count`. -/
def shiftRight (n : Nat) (count : Int) : Except Raised Nat :=
  if count < 0 then .error .valueError else .ok (n >>> count.toNat)

/-- `n << count`. -/
def shiftLeft (n : Nat) (count : Int) : Except Raised Nat :=
  if count < 0 then .error .valueError else .ok (n <<< count.toNat)

/-- `a / b`. -/
def divide (a b : Nat) : Except Raised Float :=
  if b = 0 then .error .zeroDivisionError else .ok (a.toFloat / b.toFloat)

/-- One more element for `min`, by its key: an equal one is not taken. -/
def lesser (key : α → Except Raised Nat) (best : Nat × α) (x : α) : Except Raised (Nat × α) := do
  let k ← key x
  return if k < best.1 then (k, x) else best

/-- `min(xs, key=key)`. -/
def minBy (key : α → Except Raised Nat) : List α → Except Raised α
  | []      => .error .valueError
  | x :: xs => do
    let k ← key x
    let best ← xs.foldlM (lesser key) (k, x)
    return best.2

/-- A step that returned is done. -/
@[simp] theorem ok_bind {β : Type} (a : α) (f : α → Except Raised β) : (Except.ok a >>= f) = f a :=
  rfl

theorem item_ok {xs : List α} {i : Nat} (h : i < xs.length) (d : α) :
    item xs i = .ok (xs.getD i d) := by
  have hi : ¬ (i : Int) < 0 := by omega
  unfold item
  simp only [if_neg hi, Int.toNat_natCast, List.getElem?_eq_getElem h,
    List.getD_eq_getElem?_getD, Option.getD_some]

theorem slice_eq (xs : List α) (start stop : Nat) :
    slice xs start stop = (xs.take stop).drop start := by
  have hbound : ∀ i : Nat, bound xs i = i := by
    intro i
    have hi : ¬ (i : Int) < 0 := by omega
    rw [bound, if_neg hi, Int.toNat_natCast]
  rw [slice, hbound, hbound]

theorem shiftRight_ok (n count : Nat) : shiftRight n count = .ok (n >>> count) := by
  rw [shiftRight, if_neg (by omega), Int.toNat_natCast]

theorem shiftLeft_ok (n count : Nat) : shiftLeft n count = .ok (n <<< count) := by
  rw [shiftLeft, if_neg (by omega), Int.toNat_natCast]

namespace Returns

theorem pure (a : α) : Returns (Pure.pure a : Except Raised α) := ⟨a, rfl⟩

theorem bind {β : Type} {x : Except Raised α} {f : α → Except Raised β} (hx : Returns x)
    (hf : ∀ a, x = .ok a → Returns (f a)) : Returns (x >>= f) := by
  obtain ⟨a, rfl⟩ := hx
  exact hf a rfl

/-- A loop returns when its body does. -/
theorem foldlM {β : Type} {f : β → α → Except Raised β} (hf : ∀ b a, Returns (f b a)) (b : β)
    (xs : List α) : Returns (xs.foldlM f b) := by
  induction xs generalizing b with
  | nil => exact pure b
  | cons a xs ih =>
    rw [List.foldlM_cons]
    exact bind (hf b a) fun b' _ => ih b'

theorem divide {a b : Nat} (h : b ≠ 0) : Returns (Raising.divide a b) :=
  ⟨a.toFloat / b.toFloat, if_neg h⟩

/-- A minimum of something returns. -/
theorem minBy {key : α → Except Raised Nat} {xs : List α} (hne : xs ≠ [])
    (hkey : ∀ x, Returns (key x)) : Returns (Raising.minBy key xs) := by
  cases xs with
  | nil => exact absurd rfl hne
  | cons x xs =>
    have hlesser : ∀ best y, Returns (lesser key best y) := fun _ y =>
      bind (hkey y) fun _ _ => pure _
    refine bind (hkey x) fun k _ => ?_
    exact bind (foldlM hlesser (k, x) xs) fun best _ => pure best.2

theorem safe {x : Except Raised α} (h : Returns x) : Safe x := Or.inl h

end Returns

/-! ## The 7-bit layer -/

/-- `BASIC_TABLE[s] if s < 128 else " "`: what an unknown extension falls back to.  It is read
    before the extensions are. -/
def fallback (s : Nat) : Except Raised Char := if s < 128 then item BASIC_TABLE s else .ok ' '

/-- The loop of `gsm7.decode`, with `pending_escape`. -/
def decodeFrom : Bool → List Nat → Except Raised (List Char)
  | false, []      => return []
  | true, []       => return [' ']
  | true, s :: ss  => do
    let basic ← fallback s
    let text ← decodeFrom false ss
    return ((EXT_TABLE.find? fun e => e.1 == s).map Prod.snd).getD basic :: text
  | false, s :: ss =>
    if s = ESC then decodeFrom true ss
    else if s < 128 then do
      let c ← item BASIC_TABLE s
      let text ← decodeFrom false ss
      return c :: text
    else decodeFrom false ss

/-- `gsm7.decode`. -/
def decode (septets : List Nat) : Except Raised (List Char) := decodeFrom false septets

/-- The bits of a septet that lie in the next octet, put above those of this one. -/
def withNext (octets : List Nat) (index shift : Int) (value : Nat) : Except Raised Nat :=
  if 1 < shift ∧ index + 1 < octets.length then do
    let next ← item octets (index + 1)
    let high ← shiftLeft next (8 - shift)
    return value ||| high
  else .ok value

/-- The loop of `gsm7.unpack`. -/
def unpackFrom (octets : List Nat) (bitpos : Int) : Nat → Except Raised (List Nat)
  | 0     => return []
  | n + 1 =>
    let index := bitpos / 8
    let shift := bitpos % 8
    if octets.length ≤ index then return []
    else do
      let octet ← item octets index
      let value ← shiftRight octet shift
      let value ← withNext octets index shift value
      let septets ← unpackFrom octets (bitpos + 7) n
      return (value &&& 0x7f) :: septets

/-- `gsm7.unpack`. -/
def unpack (octets : List Nat) (septetCount fillBits : Int) : Except Raised (List Nat) :=
  unpackFrom octets fillBits septetCount.toNat

theorem item_basic {s : Nat} (h : s < 128) : item BASIC_TABLE s = .ok (BASIC_TABLE.getD s ' ') :=
  item_ok h ' '

theorem fallback_ok (s : Nat) : fallback s = .ok (BASIC_TABLE.getD s ' ') := by
  by_cases hs : s < 128
  · rw [fallback, if_pos hs, item_basic hs]
  · have hlen : BASIC_TABLE.length ≤ s := Nat.le_of_not_lt hs
    rw [fallback, if_neg hs, List.getD_eq_getElem?_getD, List.getElem?_eq_none hlen,
      Option.getD_none]

theorem decodeFrom_ok (pending : Bool) (septets : List Nat) :
    decodeFrom pending septets = .ok (Pdu.decodeFrom pending septets) := by
  induction septets generalizing pending with
  | nil => cases pending <;> rfl
  | cons s ss ih =>
    cases pending with
    | true =>
      rw [decodeFrom, fallback_ok, ih]
      rfl
    | false =>
      rw [decodeFrom, Pdu.decodeFrom]
      by_cases hesc : s = ESC
      · rw [if_pos hesc, if_pos hesc, ih]
      · rw [if_neg hesc, if_neg hesc]
        by_cases hs : s < 128
        · rw [if_pos hs, if_pos hs, item_basic hs, ih]
          rfl
        · rw [if_neg hs, if_neg hs, ih]

/-- **`gsm7.decode` never raises.** -/
theorem decode_ok (septets : List Nat) : decode septets = .ok (Pdu.decode septets) :=
  decodeFrom_ok false septets

theorem withNext_ok (octets : List Nat) (index value : Nat) {shift : Nat} (h : shift < 8) :
    withNext octets index shift value =
      .ok (if 1 < shift ∧ index + 1 < octets.length then
          value ||| octets.getD (index + 1) 0 <<< (8 - shift)
        else value) := by
  have hcond : (1 < (shift : Int) ∧ (index : Int) + 1 < octets.length) ↔
      (1 < shift ∧ index + 1 < octets.length) := by omega
  by_cases hc : 1 < shift ∧ index + 1 < octets.length
  · have hnext : (index : Int) + 1 = ((index + 1 : Nat) : Int) := by omega
    have hcount : 8 - (shift : Int) = ((8 - shift : Nat) : Int) := by omega
    rw [withNext, if_pos (hcond.mpr hc), if_pos hc, hnext, hcount, item_ok hc.2 0, ok_bind,
      shiftLeft_ok]
    rfl
  · rw [withNext, if_neg fun h => hc (hcond.mp h), if_neg hc]

theorem unpackFrom_ok (octets : List Nat) (bitpos n : Nat) :
    unpackFrom octets bitpos n = .ok (Pdu.unpackFrom octets bitpos n) := by
  induction n generalizing bitpos with
  | zero => rfl
  | succ n ih =>
    have hindex : (bitpos : Int) / 8 = ((bitpos / 8 : Nat) : Int) := by omega
    have hshift : (bitpos : Int) % 8 = ((bitpos % 8 : Nat) : Int) := by omega
    have hnext : (bitpos : Int) + 7 = ((bitpos + 7 : Nat) : Int) := by omega
    rw [unpackFrom, Pdu.unpackFrom, hindex, hshift, hnext, ih]
    by_cases hend : octets.length ≤ bitpos / 8
    · rw [if_pos hend, if_pos (by omega)]
      rfl
    · have hlt : bitpos / 8 < octets.length := Nat.lt_of_not_le hend
      rw [if_neg (by omega), if_neg hend, item_ok hlt 0, ok_bind, shiftRight_ok, ok_bind,
        withNext_ok octets _ _ (Nat.mod_lt _ (by omega))]
      rfl

/-- **`gsm7.unpack` never raises**, with any count and any fill. -/
theorem unpack_ok (octets : List Nat) (septetCount : Int) (fillBits : Nat) :
    unpack octets septetCount fillBits =
      .ok (Pdu.unpack octets septetCount.toNat fillBits) :=
  unpackFrom_ok octets fillBits septetCount.toNat

end Air780eHub.Pdu.Raising
