/-
  JSON values and frames, as Python holds them after `json.loads`.

  Agent and Server exchange JSON objects over one WebSocket and keep JSON text in their
  databases.  Both sides only ever look at the decoded value, so a frame here IS the decoded
  dictionary: an association list from key to `Value`, looked up by first match.  Text that does
  not decode never becomes a frame (both receivers drop it or close the connection first).

  `float` keeps the number as the text Python prints for it.  Nothing in the modelled code does
  arithmetic on a float, and the text is what distinguishes two of them.

  Besides the data type this file holds the few built-in operations of Python the two programs
  apply to a decoded value: truth value (`bool(x)`), `str.strip`, slicing a string from the left.
-/
import Mathlib.Data.List.Basic

namespace Air780eHub

/-! ## Values -/

/-- A decoded JSON value. -/
inductive Value
  | null
  | bool (b : Bool)
  | int (n : Int)
  /-- A number with a fraction or an exponent, by its printed text. -/
  | float (text : String)
  | str (s : String)
  | arr (items : List Value)
  | obj (fields : List (String × Value))
deriving Inhabited, Repr

mutual

/-- Structural equality of two values. -/
def Value.same : Value → Value → Bool
  | .null, .null         => true
  | .bool a, .bool b     => a == b
  | .int a, .int b       => a == b
  | .float a, .float b   => a == b
  | .str a, .str b       => a == b
  | .arr xs, .arr ys     => Value.sameItems xs ys
  | .obj xs, .obj ys     => Value.sameFields xs ys
  | _, _                 => false

/-- Structural equality of two lists of values. -/
def Value.sameItems : List Value → List Value → Bool
  | [], []           => true
  | x :: xs, y :: ys => Value.same x y && Value.sameItems xs ys
  | _, _             => false

/-- Structural equality of two field lists. -/
def Value.sameFields : List (String × Value) → List (String × Value) → Bool
  | [], []                     => true
  | (k, x) :: xs, (l, y) :: ys => k == l && Value.same x y && Value.sameFields xs ys
  | _, _                       => false

end

mutual

theorem Value.same_iff (x y : Value) : Value.same x y = true ↔ x = y := by
  cases x with
  | null => cases y <;> simp [Value.same]
  | bool a => cases y <;> simp [Value.same]
  | int a => cases y <;> simp [Value.same]
  | float a => cases y <;> simp [Value.same]
  | str a => cases y <;> simp [Value.same]
  | arr xs => cases y <;> simp [Value.same, Value.sameItems_iff xs]
  | obj xs => cases y <;> simp [Value.same, Value.sameFields_iff xs]

theorem Value.sameItems_iff (xs ys : List Value) : Value.sameItems xs ys = true ↔ xs = ys := by
  cases xs with
  | nil => cases ys <;> simp [Value.sameItems]
  | cons x xs =>
    cases ys with
    | nil => simp [Value.sameItems]
    | cons y ys => simp [Value.sameItems, Value.same_iff x y, Value.sameItems_iff xs ys]

theorem Value.sameFields_iff (xs ys : List (String × Value)) :
    Value.sameFields xs ys = true ↔ xs = ys := by
  cases xs with
  | nil => cases ys <;> simp [Value.sameFields]
  | cons x xs =>
    obtain ⟨k, x⟩ := x
    cases ys with
    | nil => simp [Value.sameFields]
    | cons y ys =>
      obtain ⟨l, y⟩ := y
      simp [Value.sameFields, Value.same_iff x y, Value.sameFields_iff xs ys]

end

instance : DecidableEq Value := fun x y => decidable_of_iff _ (Value.same_iff x y)

/-- `bool(x)`: zero, the empty string, the empty containers, `None` and `False` are false. -/
def Value.truthy : Value → Bool
  | .null    => false
  | .bool b  => b
  | .int n   => n != 0
  | .float t => t != "0.0" && t != "-0.0"
  | .str s   => s != ""
  | .arr xs  => !xs.isEmpty
  | .obj fs  => !fs.isEmpty

/-- `isinstance(x, str)`. -/
def Value.isStr : Value → Bool
  | .str _ => true
  | _      => false

/-- `isinstance(x, dict)`. -/
def Value.isDict : Value → Bool
  | .obj _ => true
  | _      => false

/-! ## Frames -/

/-- A decoded JSON object. -/
abbrev Frame := List (String × Value)

/-- `frame.get(key)`: the value under `key`, `None` when there is none. -/
def Frame.get (frame : Frame) (key : String) : Value :=
  match frame with
  | []          => .null
  | (k, v) :: r => if k = key then v else Frame.get r key

/-- `frame.get(key, default)`. -/
def Frame.getD (frame : Frame) (key : String) (default : Value) : Value :=
  match frame with
  | []          => default
  | (k, v) :: r => if k = key then v else Frame.getD r key default

/-- `key in frame`. -/
def Frame.has (frame : Frame) (key : String) : Bool := frame.any (·.1 == key)

@[simp] theorem Frame.get_nil (key : String) : Frame.get [] key = .null := rfl

@[simp] theorem Frame.get_cons (k : String) (v : Value) (r : Frame) (key : String) :
    Frame.get ((k, v) :: r) key = if k = key then v else Frame.get r key := rfl

/-! ## Strings -/

/-- The characters `str.isspace` accepts. -/
def pyIsSpace (c : Char) : Bool :=
  (9 ≤ c.toNat && c.toNat ≤ 13) || (28 ≤ c.toNat && c.toNat ≤ 32) || c.toNat == 0x85 ||
  c.toNat == 0xa0 || c.toNat == 0x1680 || (0x2000 ≤ c.toNat && c.toNat ≤ 0x200a) ||
  c.toNat == 0x2028 || c.toNat == 0x2029 || c.toNat == 0x202f || c.toNat == 0x205f ||
  c.toNat == 0x3000

/-- `s.strip()`. -/
def pyStrip (s : String) : String :=
  String.ofList (((s.toList.dropWhile pyIsSpace).reverse.dropWhile pyIsSpace).reverse)

/-- `str(x)`.  `repr` stands for what Python prints for a list or a dictionary. -/
def pyStr (repr : Value → String) : Value → String
  | .null    => "None"
  | .bool b  => if b then "True" else "False"
  | .int n   => toString n
  | .float t => t
  | .str s   => s
  | .arr xs  => repr (.arr xs)
  | .obj fs  => repr (.obj fs)

/-- `str(x or "")`. -/
def pyText (repr : Value → String) (v : Value) : String := if v.truthy then pyStr repr v else ""

@[simp] theorem pyText_str (repr : Value → String) (s : String) : pyText repr (.str s) = s := by
  by_cases h : s = ""
  · subst h; rfl
  · simp [pyText, Value.truthy, h, pyStr]

/-- `s[:n]`. -/
def pyTake (n : Nat) (s : String) : String := String.ofList (s.toList.take n)

example : pyStrip " 8986 \n" = "8986" := by decide

end Air780eHub
