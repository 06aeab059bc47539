/-
  What can be read of a damaged frame (`pdu/salvage.py`).

  The octets after the address are read as septets from each of seven alignments on, and the most
  readable text is taken when it is readable enough.  A code is a run of four to eight digits in a
  text that says it carries one.

  1. **Readability**: two shares of the text, as doubles.
  2. **The code**, by how near it is to a word that announces one.
  3. **`recover`**, over the alignments.  `recover_returns`: whatever the octets are, it returns.
-/
import Mathlib.Data.List.DropRight
import Air780eHub.Pdu.Exceptions

namespace Air780eHub.Pdu.Raising

/-- `Salvage`. -/
structure Salvage where
  text     : List Char := []
  code     : List Char := []
  fillBits : Nat := 0
  score    : Float := 0.0

/-! ## Runs -/

/-- The longest runs of characters with `p`, each with the place it starts at. -/
def runsFrom (p : Char → Bool) (pos : Nat) : List Char → List (Nat × List Char)
  | []      => []
  | c :: cs =>
    if p c then
      match runsFrom p (pos + 1) cs with
      | []                   => [(pos, [c])]
      | (start, run) :: more =>
        if start = pos + 1 then (pos, c :: run) :: more else (pos, [c]) :: (start, run) :: more
    else runsFrom p (pos + 1) cs

def runs (p : Char → Bool) (text : List Char) : List (Nat × List Char) := runsFrom p 0 text

/-- `[A-Za-z]`. -/
def isLetter (c : Char) : Bool := ('a' ≤ c && c ≤ 'z') || ('A' ≤ c && c ≤ 'Z')

/-- `\d`. -/
def isDigit (c : Char) : Bool := (Schedule.digit c).isSome

/-- `_VOWEL`. -/
def isVowel (c : Char) : Bool := "aeiouAEIOU".toList.contains c

/-! ## Readability -/

/-- `_PLAIN`. -/
def isPlain (c : Char) : Bool :=
  isLetter c || ('0' ≤ c && c ≤ '9') || " .,:;!?'\"()/+-\n".toList.contains c

/-- The characters in words: two to fifteen letters, a vowel among them. -/
def wordChars (text : List Char) : Nat :=
  (((runs isLetter text).filter fun w =>
    2 ≤ w.2.length && w.2.length ≤ 15 && w.2.any isVowel).map fun w => w.2.length).sum

/-- The characters in runs of two digits and more. -/
def digitChars (text : List Char) : Nat :=
  (((runs isDigit text).filter fun d => 2 ≤ d.2.length).map fun d => d.2.length).sum

/-- `readability`. -/
def readability (text : List Char) : Except Raised Float :=
  if text = [] then return 0.0
  else do
    let plain ← divide (text.countP isPlain) text.length
    let shaped ← divide (wordChars text + digitChars text) text.length
    return 0.5 * plain + 0.5 * (if shaped < 1.0 then shaped else 1.0)

/-! ## The code -/

/-- The words of `_CODE_CONTEXT`, in order. -/
def CODE_CONTEXT : List (List Char) :=
  ["code", "pin", "otp", "password", "passcode", "verification"].map String.toList

/-- The small letter that a character is compared as without case.  Three letters beyond ASCII are
    compared as an ASCII one. -/
def folded (c : Char) : Char :=
  if c = 'İ' ∨ c = 'ı' then 'i' else if c = 'ſ' then 's' else c.toLower

/-- Where the words of `_CODE_CONTEXT` start.  `skip` characters are part of the word before. -/
def contextsFrom (pos skip : Nat) : List Char → List Nat
  | []      => []
  | c :: cs =>
    if skip ≠ 0 then contextsFrom (pos + 1) (skip - 1) cs
    else match CODE_CONTEXT.find? fun w => w.isPrefixOf ((c :: cs).map folded) with
      | some w => pos :: contextsFrom (pos + 1) (w.length - 1) cs
      | none   => contextsFrom (pos + 1) 0 cs

/-- The matches of `_CODE`: no digit stands next to them. -/
def candidates (text : List Char) : List (Nat × List Char) :=
  (runs isDigit text).filter fun m => 4 ≤ m.2.length && m.2.length ≤ 8

/-- How far a candidate is from the nearest of the contexts. -/
def distance (contexts : List Nat) (m : Nat × List Char) : Except Raised Nat :=
  minBy pure (contexts.map fun c : Nat => ((m.1 : Int) - c).natAbs)

/-- `extract_code`. -/
def extractCode (text : List Char) : Except Raised (List Char) :=
  let contexts := contextsFrom 0 0 text
  if candidates text = [] ∨ contexts = [] then return []
  else do
    let m ← minBy (distance contexts) (candidates text)
    return m.2

/-! ## Recovering -/

def MIN_SCORE : Float := 0.75
def MIN_CHARS : Nat := 20

/-- The body of the loop of `recover`. -/
def rephase (body : List Nat) (best : Salvage) (fillBits : Nat) : Except Raised Salvage :=
  let septets := ((body.length * 8 : Int) - fillBits) / 7
  if septets ≤ 0 then return best
  else do
    let unpacked ← unpack body septets fillBits
    let decoded ← decode unpacked
    let text := decoded.rdropWhile fun c => c == '@'
    let score ← readability text
    return if best.score < score then { text, fillBits, score } else best

/-- `recover`. -/
def recover (body : List Nat) : Except Raised Salvage := do
  let best ← (List.range 7).foldlM (rephase body) {}
  if best.score < MIN_SCORE ∨ best.text.length < MIN_CHARS then
    return { fillBits := best.fillBits, score := best.score }
  else
    let code ← extractCode best.text
    return { best with code }

theorem readability_returns (text : List Char) : Returns (readability text) := by
  unfold readability
  by_cases hempty : text = []
  · rw [if_pos hempty]
    exact Returns.pure _
  · have hlen : text.length ≠ 0 := fun h => hempty (List.length_eq_zero_iff.mp h)
    rw [if_neg hempty]
    refine Returns.bind (Returns.divide hlen) fun plain _ => ?_
    exact Returns.bind (Returns.divide hlen) fun shaped _ => Returns.pure _

/-- A code is looked for only among candidates, and only near a context. -/
theorem extractCode_returns (text : List Char) : Returns (extractCode text) := by
  unfold extractCode
  by_cases hnone : candidates text = [] ∨ contextsFrom 0 0 text = []
  · rw [if_pos hnone]
    exact Returns.pure _
  · rw [if_neg hnone]
    rw [not_or] at hnone
    have hdistance : ∀ m, Returns (distance (contextsFrom 0 0 text) m) := by
      intro m
      refine Returns.minBy ?_ Returns.pure
      rw [Ne, List.map_eq_nil_iff]
      exact hnone.2
    exact Returns.bind (Returns.minBy hnone.1 hdistance) fun m _ => Returns.pure _

theorem rephase_returns (body : List Nat) (best : Salvage) (fillBits : Nat) :
    Returns (rephase body best fillBits) := by
  unfold rephase
  by_cases hnone : ((body.length * 8 : Int) - fillBits) / 7 ≤ 0
  · rw [if_pos hnone]
    exact Returns.pure _
  · rw [if_neg hnone, unpack_ok, ok_bind, decode_ok, ok_bind]
    exact Returns.bind (readability_returns _) fun score _ => Returns.pure _

/-- **Salvaging returns**, whatever the octets are. -/
theorem recover_returns (body : List Nat) : Returns (recover body) := by
  refine Returns.bind (Returns.foldlM (rephase_returns body) {} (List.range 7)) fun best _ => ?_
  by_cases hpoor : best.score < MIN_SCORE ∨ best.text.length < MIN_CHARS
  · rw [if_pos hpoor]
    exact Returns.pure _
  · rw [if_neg hpoor]
    exact Returns.bind (extractCode_returns best.text) fun code _ => Returns.pure _

/-- What is recovered: the text and the code. -/
def recovered (body : List Nat) : String × String :=
  match recover body with
  | .ok s    => (String.ofList s.text, String.ofList s.code)
  | .error _ => ("", "")

end Air780eHub.Pdu.Raising
