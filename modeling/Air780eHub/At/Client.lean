/-
  The AT client (`at/client.py`): which line belongs to whom.

  1. **Lines** are texts without their end.  `up` is `str.upper` of one character; nothing here depends
     on what it does outside ASCII.
  2. **What a line is**: a response of the command that owns its prefix, an unsolicited result (URC)
     by a registered prefix, or a final result code.
  3. **The client**: `_handle_line` and `execute`, with their two slots `_pending` and `_urc_capture`.
     A command's future is done when its final result has come, or when the time is over or the port
     is gone; the coroutine of `execute` goes on some time later, and lines come in between.
-/
import Air780eHub.Wire.Value
import Air780eHub.Lib.Machine

namespace Air780eHub.At

/-! ## Lines -/

abbrev Line := List Char

section

variable (up : Char → Line)

/-- `line.upper()`. -/
def upper (line : Line) : Line := line.flatMap up

/-- `text.strip()`. -/
def strip (text : Line) : Line :=
  ((text.dropWhile pyIsSpace).reverse.dropWhile pyIsSpace).reverse

/-! ## What a line is -/

/-- What `[A-Z0-9]` matches when case does not matter. -/
def isPrefixChar (c : Char) : Bool :=
  c.isAlphanum || c.toNat == 0x130 || c.toNat == 0x131 || c.toNat == 0x17f || c.toNat == 0x212a

/-- `expected_response_prefix`: what follows `AT` in the command, from the plus sign on. -/
def expectedResponsePrefix (command : Line) : Option Line :=
  match strip command with
  | a :: t :: '+' :: rest =>
    if (a = 'A' || a = 'a') && (t = 'T' || t = 't') && !(rest.takeWhile isPrefixChar).isEmpty then
      some (upper up ('+' :: rest.takeWhile isPrefixChar))
    else none
  | _ => none

structure Registration where
  urcPrefix    : Line
  handler      : Nat
  payloadLines : Nat
deriving DecidableEq

structure Urc where
  name    : Line
  params  : Line
  payload : List Line
deriving DecidableEq

/-- The prefix is followed by a boundary, so that `+CMT` does not match `+CMTI:`. -/
def Registration.matchesLine (reg : Registration) (line : Line) : Bool :=
  reg.urcPrefix.isPrefixOf (upper up line) &&
    match (upper up line).drop reg.urcPrefix.length with
    | []     => true
    | c :: _ => c = ':' || c = ' ' || c = ','

/-- `_match_urc`. -/
def matchUrc (registrations : List Registration) (line : Line) : Option Registration :=
  registrations.find? fun reg => reg.matchesLine up line

/-- The URC of a header line. -/
def Urc.ofLine (line : Line) : Urc :=
  ⟨strip (line.takeWhile (· ≠ ':')), strip (line.dropWhile (· ≠ ':')).tail, []⟩

/-- How a command ends. -/
inductive Result
  | response (lines : List Line) (final : Line)
  | error
  /-- The time is over, or the port is gone. -/
  | expired
deriving DecidableEq

/-- `_FINAL_PLAIN_ERRORS`. -/
def FINAL_PLAIN_ERRORS : List Line :=
  ["ERROR".toList, "NO CARRIER".toList, "NO DIALTONE".toList, "NO ANSWER".toList, "BUSY".toList,
    "ABORTED".toList, "COMMAND NOT SUPPORT".toList]

instance decidablePlainError (line : Line) : Decidable (line ∈ FINAL_PLAIN_ERRORS) :=
  inferInstanceAs (Decidable (_ ∈ _))

/-- `_CME_RE`, `_CMS_RE` or `_CME_TEXT_RE` matches: something follows the colon. -/
def isErrorReport (line : Line) : Bool :=
  (upper up (line.take 11) = "+CME ERROR:".toList || upper up (line.take 11) = "+CMS ERROR:".toList) &&
    11 < line.length

/-- `_is_final`: the result it gives a command that has collected `lines`. -/
def finalResult (lines : List Line) (line : Line) : Option Result :=
  if upper up line = "OK".toList then some (.response lines line)
  else if isErrorReport up line then some .error
  else if upper up line ∈ FINAL_PLAIN_ERRORS then some .error
  else none

/-! ## The client -/

/-- `_Pending`.  `result` is `none` until the future is done. -/
structure Pending where
  command        : Line
  expectedPrefix : Option Line
  lines          : List Line
  result         : Option Result
deriving DecidableEq

/-- The client, and the calls of its handlers. -/
structure Client where
  registrations : List Registration
  pending       : Option Pending
  urcCapture    : Option (Registration × Urc)
  calls         : List (Registration × Urc)

/-- The line starts with the prefix that the command owns. -/
def owns (expectedPrefix : Option Line) (line : Line) : Bool :=
  expectedPrefix.any fun p => (p ++ [':']).isPrefixOf (upper up line)

/-- `_dispatch_urc`. -/
def Client.dispatchUrc (c : Client) (reg : Registration) (urc : Urc) : Client :=
  { c with calls := c.calls ++ [(reg, urc)] }

/-- A continuation line of the open capture. -/
def Client.continueUrc (c : Client) (reg : Registration) (urc : Urc) (line : Line) : Client :=
  if reg.payloadLines ≤ (urc.payload ++ [line]).length then
    Client.dispatchUrc { c with urcCapture := none } reg { urc with payload := urc.payload ++ [line] }
  else { c with urcCapture := some (reg, { urc with payload := urc.payload ++ [line] }) }

/-- The header line of a URC. -/
def Client.beginUrc (c : Client) (reg : Registration) (line : Line) : Client :=
  if 0 < reg.payloadLines then { c with urcCapture := some (reg, .ofLine line) }
  else c.dispatchUrc reg (.ofLine line)

/-- A line that is neither the answer the command expects nor a URC. -/
def Pending.take (p : Pending) (line : Line) : Pending :=
  if line = p.command then p
  else match finalResult up p.lines line with
    | some result => { p with result := p.result.or (some result) }
    | none        => { p with lines := p.lines ++ [line] }

/-- `_handle_line`. -/
def Client.handleLine (c : Client) (line : Line) : Client :=
  match c.urcCapture with
  | some (reg, urc) => c.continueUrc reg urc line
  | none =>
    if c.pending.any fun p => owns up p.expectedPrefix line then
      { c with pending := c.pending.map fun p => { p with lines := p.lines ++ [line] } }
    else match matchUrc up c.registrations line with
      | some reg => c.beginUrc reg line
      | none     => { c with pending := c.pending.map fun p => p.take up line }

/-- What happens in a step. -/
inductive Act
  /-- `register_urc`. -/
  | registered (urcPrefix : Line) (handler payloadLines : Nat)
  /-- `execute` has the lock and writes the command. -/
  | started (command : Line)
  | line (line : Line)
  /-- The time of the command is over, it is cancelled, or the port is gone. -/
  | expired
  /-- The coroutine of `execute` goes on. -/
  | resumed
deriving DecidableEq

def Client.step (c : Client) : Act → Option Client
  | .registered urcPrefix handler payloadLines =>
    some { c with registrations := c.registrations ++ [⟨upper up urcPrefix, handler, payloadLines⟩] }
  | .started command => match c.pending with
    | none   =>
      some { c with pending := some ⟨command, expectedResponsePrefix up command, [], none⟩ }
    | some _ => none
  | .line line => some (c.handleLine up line)
  | .expired => match c.pending with
    | some p => some { c with pending := some { p with result := p.result.or (some .expired) } }
    | none   => none
  | .resumed => match c.pending with
    | some _ => some { c with pending := none, urcCapture := none }
    | none   => none

end

end Air780eHub.At
