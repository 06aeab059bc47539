/-
  Numbers in a schedule expression: `int(text)`, `float(text)` and `timedelta(days=x)`.

  The expression is stripped before it is read, so no text here has white space at its ends and
  white space anywhere else is rejected by both constructors.

  1. **Digits.**  Any Unicode decimal digit counts, and an underscore may stand between two digits.
  2. **`int`**, with its limit of 4300 digits.
  3. **`float`**: the exact decimal value, rounded once to a double.
  4. **`timedelta(days=x)`**: whole days exactly, the fraction through one double product.
-/
import Mathlib.Algebra.Order.Round
import Mathlib.Data.Rat.Floor
import Mathlib.Data.Int.Log
import Air780eHub.Schedule.Time

namespace Air780eHub.Schedule

/-! ## Digits -/

/-- The code points of the decimal zeros; the other nine digits of a script follow its zero. -/
def DIGIT_ZEROS : List Nat :=
  [0x30, 0x660, 0x6f0, 0x7c0, 0x966, 0x9e6, 0xa66, 0xae6, 0xb66, 0xbe6, 0xc66, 0xce6, 0xd66, 0xde6,
   0xe50, 0xed0, 0xf20, 0x1040, 0x1090, 0x17e0, 0x1810, 0x1946, 0x19d0, 0x1a80, 0x1a90, 0x1b50,
   0x1bb0, 0x1c40, 0x1c50, 0xa620, 0xa8d0, 0xa900, 0xa9d0, 0xa9f0, 0xaa50, 0xabf0, 0xff10, 0x104a0,
   0x10d30, 0x11066, 0x110f0, 0x11136, 0x111d0, 0x112f0, 0x11450, 0x114d0, 0x11650, 0x116c0,
   0x11730, 0x118e0, 0x11950, 0x11c50, 0x11d50, 0x11da0, 0x16a60, 0x16ac0, 0x16b50, 0x1d7ce,
   0x1d7d8, 0x1d7e2, 0x1d7ec, 0x1d7f6, 0x1e140, 0x1e2f0, 0x1e950, 0x1fbf0]

/-- The value of a decimal digit. -/
def digit (c : Char) : Option Nat :=
  (DIGIT_ZEROS.find? fun z => z ≤ c.toNat && c.toNat ≤ z + 9).map fun z => c.toNat - z

/-- Drop the underscores of a text; `afterDigit` says that the character before is a digit.  An
    underscore that does not stand between two digits makes the text unreadable. -/
def dropUnderscores (afterDigit : Bool) : List Char → Option (List Char)
  | []      => some []
  | c :: cs =>
    if c = '_' then
      if afterDigit ∧ (cs.head?.bind digit).isSome then dropUnderscores false cs else none
    else (dropUnderscores (digit c).isSome cs).map (c :: ·)

/-- The leading digits of a text and what follows them. -/
def takeDigits : List Char → List Nat × List Char
  | []      => ([], [])
  | c :: cs => match digit c with
    | some d => (d :: (takeDigits cs).1, (takeDigits cs).2)
    | none   => ([], c :: cs)

/-- The number a list of decimal digits writes. -/
def ofDigits (ds : List Nat) : Nat := ds.foldl (fun n d => 10 * n + d) 0

/-- An optional sign: whether the number is negative, and the text after the sign. -/
def takeSign : List Char → Bool × List Char
  | '+' :: cs => (false, cs)
  | '-' :: cs => (true, cs)
  | cs        => (false, cs)

/-! ## int -/

/-- The digits `int` accepts at most. -/
def INT_MAX_STR_DIGITS : Nat := 4300

/-- `int(text)`, `none` where it raises ValueError. -/
def pyInt (text : List Char) : Option Int :=
  match (dropUnderscores false (takeSign text).2).map takeDigits with
  | some (d :: ds, []) =>
    if (d :: ds).length ≤ INT_MAX_STR_DIGITS then
      some (if (takeSign text).1 then -(ofDigits (d :: ds) : Int) else ofDigits (d :: ds))
    else none
  | _ => none

example : pyInt ['-', '1', '_', '٣'] = some (-13) := by decide

/-! ## float -/

/-- A number `float` returns. -/
inductive PyFloat
  | nan
  | infinite (negative : Bool)
  | finite (value : Rat)
deriving DecidableEq

/-- `x <= 0`: false of NaN. -/
def PyFloat.nonpos : PyFloat → Bool
  | .nan               => false
  | .infinite negative => negative
  | .finite value      => value ≤ 0

/-- Round to the nearest integer, ties to even. -/
def roundHalfEven (q : Rat) : Int :=
  if q - q.floor < 1 / 2 then q.floor
  else if 1 / 2 < q - q.floor then q.floor + 1
  else if q.floor % 2 = 0 then q.floor else q.floor + 1

/-- The exponent of the last place of the double nearest to `q`: 53 significant bits, fewer below
    the normal range. -/
def lastPlace (q : Rat) : Int := max (Int.log 2 |q| - 52) (-1074)

/-- The nearest multiple of the last place. -/
def nearest (q : Rat) : Rat := roundHalfEven (q / 2 ^ lastPlace q) * 2 ^ lastPlace q

/-- The double nearest to `q`. -/
def roundDouble (q : Rat) : PyFloat :=
  if 2 ^ 1024 ≤ |nearest q| then .infinite (q < 0) else .finite (nearest q)

/-- An ASCII letter in lower case. -/
def lower (c : Char) : Char := if 'A' ≤ c ∧ c ≤ 'Z' then Char.ofNat (c.toNat + 32) else c

/-- The exponent part of a decimal number. -/
def takeExponent : List Char → Option Int
  | []      => some 0
  | c :: cs =>
    if lower c = 'e' then
      match takeDigits (takeSign cs).2 with
      | (d :: ds, []) =>
        some (if (takeSign cs).1 then -(ofDigits (d :: ds) : Int) else ofDigits (d :: ds))
      | _ => none
    else none

/-- The fraction part of a decimal number. -/
def takeFraction : List Char → List Nat × List Char
  | '.' :: cs => takeDigits cs
  | cs        => ([], cs)

/-- The value of a decimal number without a sign. -/
def decimal (text : List Char) : Option Rat :=
  match (takeDigits text).1, takeFraction (takeDigits text).2 with
  | [], ([], _)        => none
  | whole, (frac, rest) =>
    (takeExponent rest).map fun e => (ofDigits (whole ++ frac) : Rat) * 10 ^ (e - frac.length : Int)

/-- `float(text)`, `none` where it raises ValueError. -/
def pyFloat (text : List Char) : Option PyFloat :=
  if (takeSign text).2.map lower = ['n', 'a', 'n'] then some .nan
  else if (takeSign text).2.map lower = ['i', 'n', 'f']
      ∨ (takeSign text).2.map lower = ['i', 'n', 'f', 'i', 'n', 'i', 't', 'y'] then
    some (.infinite (takeSign text).1)
  else
    ((dropUnderscores false (takeSign text).2).bind decimal).map fun q =>
      roundDouble (if (takeSign text).1 then -q else q)

/-! ## timedelta -/

/-- The bound of a timedelta, in days. -/
def MAX_DELTA_DAYS : Int := 999999999

/-- The integral part, rounded toward zero. -/
def trunc (q : Rat) : Int := if 0 ≤ q then q.floor else q.ceil

/-- The microseconds of a fraction of a day: one product of doubles. -/
def fractionMicroseconds (frac : Rat) : Rat :=
  match roundDouble (frac * DAY) with
  | .finite value => value
  | _             => 0

/-- The microseconds of a finite number of days. -/
def dayMicroseconds (value : Rat) : Int :=
  roundHalfEven (trunc value * DAY + fractionMicroseconds (value - trunc value))

/-- `timedelta(days=x)`, in microseconds. -/
def timedeltaDays : PyFloat → Except Failure Int
  | .nan          => .error .valueError
  | .infinite _   => .error .overflowError
  | .finite value =>
    if -MAX_DELTA_DAYS * DAY ≤ dayMicroseconds value
        ∧ dayMicroseconds value < (MAX_DELTA_DAYS + 1) * DAY then
      .ok (dayMicroseconds value)
    else .error .overflowError

end Air780eHub.Schedule
