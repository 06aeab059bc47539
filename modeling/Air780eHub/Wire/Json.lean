/-
  Canonical JSON text: `json.dumps(x, sort_keys=True, separators=(",", ":"), ensure_ascii=True)`.

  Both programs identify a request by the SHA-256 of this text: the Agent's journal
  (`begin_command`), the Server's operations (`create_operation`) and the task revision on either
  side.  Two requests are the same to them exactly when their canonical texts are.

  Keys are sorted by code point, the separators have no blanks, and everything outside printable
  ASCII is written as a UTF-16 escape.
-/
import Air780eHub.Wire.Value

namespace Air780eHub

/-- Four lower-case hexadecimal digits. -/
def hex4 (n : Nat) : String :=
  String.ofList ([n / 4096 % 16, n / 256 % 16, n / 16 % 16, n % 16].map Nat.digitChar)

/-- One character inside a JSON string, ASCII only. -/
def jsonChar (c : Char) : String :=
  if c = '"' then "\\\""
  else if c = '\\' then "\\\\"
  else if c = '\n' then "\\n"
  else if c = '\r' then "\\r"
  else if c = '\t' then "\\t"
  else if c.toNat = 8 then "\\b"
  else if c.toNat = 12 then "\\f"
  else if 32 ≤ c.toNat ∧ c.toNat ≤ 126 then String.singleton c
  else if c.toNat < 0x10000 then "\\u" ++ hex4 c.toNat
  else
    -- outside the basic plane: a surrogate pair
    "\\u" ++ hex4 (0xd800 + (c.toNat - 0x10000) / 0x400) ++
    "\\u" ++ hex4 (0xdc00 + (c.toNat - 0x10000) % 0x400)

/-- A JSON string literal. -/
def jsonString (s : String) : String := "\"" ++ String.join (s.toList.map jsonChar) ++ "\""

/-- Insert a field into a list sorted by key. -/
def insertField (f : String × String) : List (String × String) → List (String × String)
  | []      => [f]
  | g :: gs => if f.1 ≤ g.1 then f :: g :: gs else g :: insertField f gs

/-- Fields sorted by key. -/
def sortFields (fs : List (String × String)) : List (String × String) := fs.foldr insertField []

mutual

/-- The canonical text of a value. -/
def Value.dumps : Value → String
  | .null    => "null"
  | .bool b  => if b then "true" else "false"
  | .int n   => toString n
  | .float t => t
  | .str s   => jsonString s
  | .arr xs  => "[" ++ ",".intercalate (Value.dumpsItems xs) ++ "]"
  | .obj fs  => "\x7b" ++ ",".intercalate
      ((sortFields (Value.dumpsFields fs)).map fun f => jsonString f.1 ++ ":" ++ f.2) ++ "\x7d"

/-- The texts of the items of a list. -/
def Value.dumpsItems : List Value → List String
  | []      => []
  | x :: xs => Value.dumps x :: Value.dumpsItems xs

/-- The keys of a dictionary with the texts of their values. -/
def Value.dumpsFields : List (String × Value) → List (String × String)
  | []           => []
  | (k, x) :: xs => (k, Value.dumps x) :: Value.dumpsFields xs

end

/-- The canonical text of a frame. -/
def Frame.dumps (frame : Frame) : String := Value.dumps (.obj frame)

/-! ## Plain text

  `json.dumps(x, ensure_ascii=False)`: keys in their order, blanks after the separators, and only
  what a JSON string cannot hold is escaped.  It is what both programs store. -/

/-- One character inside a JSON string. -/
def plainChar (c : Char) : String := if c.toNat < 32 ∨ c = '"' ∨ c = '\\' then jsonChar c else String.singleton c

mutual

/-- The plain text of a value. -/
def Value.plain : Value → String
  | .null    => "null"
  | .bool b  => if b then "true" else "false"
  | .int n   => toString n
  | .float t => t
  | .str s   => "\"" ++ String.join (s.toList.map plainChar) ++ "\""
  | .arr xs  => "[" ++ ", ".intercalate (Value.plainItems xs) ++ "]"
  | .obj fs  => "\x7b" ++ ", ".intercalate (Value.plainFields fs) ++ "\x7d"

/-- The plain texts of the items of a list. -/
def Value.plainItems : List Value → List String
  | []      => []
  | x :: xs => Value.plain x :: Value.plainItems xs

/-- The fields of a dictionary. -/
def Value.plainFields : List (String × Value) → List String
  | []           => []
  | (k, x) :: xs =>
    ("\"" ++ String.join (k.toList.map plainChar) ++ "\": " ++ Value.plain x) :: Value.plainFields xs

end

example : Frame.dumps [("type", .str "ussd"), ("code", .str "*100#"), ("n", .int (-2))] =
    "\x7b\"code\":\"*100#\",\"n\":-2,\"type\":\"ussd\"\x7d" := by decide +kernel

end Air780eHub
