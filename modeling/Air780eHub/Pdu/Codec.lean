/-
  SMS PDUs, decoded and encoded (`pdu/codec.py`).

  Octets are natural numbers, and texts lists of characters where they are taken apart.

  1. **The reader**: octets are taken from the front, and taking too many is an error that names
     the offset.
  2. **Fields**: digits, addresses, the service centre, the timestamp, the user data header.
  3. **`decode_pdu`**, of an SMS-DELIVER or an SMS-SUBMIT.  What `salvage.recover` makes of a
     damaged frame is a parameter: it is a guess, and nothing else depends on it.
  4. **`encode_submit`**: the alphabet, the segments, and one PDU for each.
-/
import Air780eHub.Lib.Hex
import Air780eHub.Lib.Utf16
import Air780eHub.Modem.Reassembler
import Air780eHub.Pdu.Gsm7
import Air780eHub.Schedule.Numbers
import Air780eHub.Wire.Value

namespace Air780eHub.Pdu

open Modem (Concat)

/-! ## The reader -/

/-- Why a PDU is refused. -/
inductive PduError
  | notHex
  | truncated (wanted offset left : Nat)
  | unsupportedMti (mti first : Nat)
  | emptyUserData
  | notStatusReport (mti first : Nat)
deriving DecidableEq, Repr

/-- `_Reader`: the octets that are left, and how many were taken. -/
structure Reader where
  rest : List Nat
  pos  : Nat := 0

/-- A function that takes from the reader. -/
abbrev Read (α : Type) := StateT Reader (Except PduError) α

/-- `take`. -/
def take (n : Nat) : Read (List Nat) := fun r =>
  if r.rest.length < n then .error (.truncated n r.pos r.rest.length)
  else .ok (r.rest.take n, ⟨r.rest.drop n, r.pos + n⟩)

/-- `byte`. -/
def byte : Read Nat := do
  let chunk ← take 1
  return chunk.getD 0 0

/-- `tell`. -/
def tell : Read Nat := fun r => .ok (r.pos, r)

/-- `rest`. -/
def rest : Read (List Nat) := fun r => .ok (r.rest, ⟨[], r.pos + r.rest.length⟩)

/-! ## Fields -/

/-- `_swap_decimal`. -/
def swapDecimal (octet : Nat) : Nat := (octet &&& 0x0f) * 10 + octet >>> 4

/-- `_decode_digits`. -/
def decodeDigits (data : List Nat) (digitCount : Nat) : List Char :=
  ((data.flatMap fun octet => [hexChar (octet &&& 0x0f), hexChar (octet >>> 4)]).take
    digitCount).filter fun c => c != 'F'

inductive Alphabet
  | gsm7
  | eightBit
  | ucs2
deriving DecidableEq, Repr

def Alphabet.text : Alphabet → String
  | .gsm7     => "gsm7"
  | .eightBit => "8bit"
  | .ucs2     => "ucs2"

/-- `alphabet_from_dcs`. -/
def alphabetFromDcs (dcs : Nat) : Alphabet :=
  let coding :=
    if dcs &&& 0xc0 = 0 then dcs >>> 2 &&& 0x03
    else if dcs &&& 0xf0 = 0xf0 then if dcs &&& 0x04 ≠ 0 then 1 else 0
    else if dcs &&& 0xf0 = 0xe0 then 2 else 0
  if coding = 1 then .eightBit else if coding = 2 then .ucs2 else .gsm7

/-- A number with the plus of an international one. -/
def internationalOr (toa : Nat) (digits : List Char) : List Char :=
  if toa &&& 0x70 = 0x10 then '+' :: digits else digits

/-- `_decode_address`: the address and its type.  The length is in digits. -/
def decodeAddress : Read (List Char × Nat) := do
  let length ← byte
  if length = 0 then return ([], 0)
  else
    let toa ← byte
    let octets ← take ((length + 1) / 2)
    if toa &&& 0x70 = 0x50 then return (decode (unpack octets (length * 4 / 7) 0), toa)
    else return (internationalOr toa (decodeDigits octets length), toa)

/-- `_is_alphanumeric`. -/
def isAlphanumeric (toa : Nat) : Bool := toa &&& 0x70 == 0x50

/-- `_decode_smsc`. -/
def decodeSmsc : Read (Option (List Char)) := do
  let scaLen ← byte
  if scaLen = 0 then return none
  else
    let sca ← take scaLen
    return some (internationalOr (sca.getD 0 0) (decodeDigits (sca.drop 1) ((scaLen - 1) * 2)))

/-- A number in two digits. -/
def twoDigits (n : Nat) : String := if n < 10 then "0" ++ toString n else toString n

/-- The time zone of a timestamp, in quarters of an hour with a sign. -/
def timeZone (octet : Nat) : String :=
  let low := octet &&& 0x0f
  let minutes := 15 * ((low &&& 0x07) * 10 + octet >>> 4)
  (if low &&& 0x08 ≠ 0 ∧ minutes ≠ 0 then "-" else "+") ++
    twoDigits (minutes / 60) ++ ":" ++ twoDigits (minutes % 60)

/-- `_decode_scts`, in ISO format; `none` when it is no date. -/
def decodeScts (data : List Nat) : Option String :=
  let year := 2000 + swapDecimal (data.getD 0 0)
  let month := swapDecimal (data.getD 1 0)
  let day := swapDecimal (data.getD 2 0)
  let hour := swapDecimal (data.getD 3 0)
  let minute := swapDecimal (data.getD 4 0)
  let second := swapDecimal (data.getD 5 0)
  let leap := year % 4 = 0 ∧ (year % 100 ≠ 0 ∨ year % 400 = 0)
  if 1 ≤ month ∧ month ≤ 12 ∧ 1 ≤ day ∧ day ≤ Schedule.monthDays (decide leap) month ∧
      hour < 24 ∧ minute < 60 ∧ second < 60 then
    some (toString year ++ "-" ++ twoDigits month ++ "-" ++ twoDigits day ++ "T" ++
      twoDigits hour ++ ":" ++ twoDigits minute ++ ":" ++ twoDigits second ++
      timeZone (data.getD 6 0))
  else none

/-- What the user data header says: concatenation, ports, and that an element overruns it. -/
structure Udh where
  concat    : Option Concat := none
  ports     : Option (Nat × Nat) := none
  malformed : Bool := false

/-- The loop of `_parse_udh`. -/
def parseUdhFrom (concat : Option Concat) (ports : Option (Nat × Nat)) : List Nat → Udh
  | []  => ⟨concat, ports, false⟩
  | [_] => ⟨concat, ports, true⟩
  | iei :: ieLen :: rest =>
    if rest.length < ieLen then ⟨concat, ports, true⟩
    else
      let at_ := fun i => (rest.take ieLen).getD i 0
      let concat :=
        if iei = 0x00 ∧ 3 ≤ ieLen then concat.or (some ⟨at_ 0, at_ 1, at_ 2⟩)
        else if iei = 0x08 ∧ 4 ≤ ieLen then
          concat.or (some ⟨at_ 0 <<< 8 ||| at_ 1, at_ 2, at_ 3⟩)
        else concat
      let ports :=
        if iei = 0x04 ∧ 2 ≤ ieLen then ports.or (some (at_ 0, at_ 1))
        else if iei = 0x05 ∧ 4 ≤ ieLen then
          ports.or (some (at_ 0 <<< 8 ||| at_ 1, at_ 2 <<< 8 ||| at_ 3))
        else ports
      parseUdhFrom concat ports (rest.drop ieLen)
termination_by udh => udh.length
decreasing_by simp only [List.length_drop, List.length_cons]; omega

/-- `_parse_udh`. -/
def parseUdh (udh : List Nat) : Udh := parseUdhFrom none none udh

/-- `_decode_ucs2`. -/
def decodeUcs2 (payload : List Nat) : List Char :=
  if payload.take 2 = [0xfe, 0xff] then Utf16.decode Utf16.bigEndian (payload.drop 2)
  else if payload.take 2 = [0xff, 0xfe] then Utf16.decode Utf16.littleEndian (payload.drop 2)
  else Utf16.decode Utf16.bigEndian payload

/-- The octets of the header. -/
def udhOctets (body : List Nat) (hasUdh : Bool) : Nat := if hasUdh then body.getD 0 0 + 1 else 0

/-- The fill bits after a header of `n` octets. -/
def fillBitsOf (n : Nat) : Nat := (7 - n * 8 % 7) % 7

/-- The septets a header of `n` octets counts for. -/
def headerSeptets (n : Nat) : Nat := (n * 8 + fillBitsOf n) / 7

/-- The octets after the header, up to the declared length where there are as many. -/
def payloadOf (body : List Nat) (udl octets : Nat) : List Nat :=
  if udl ≤ body.length then (body.take udl).drop octets else body.drop octets

/-- The text of the user data. -/
def textOf (body : List Nat) (udl octets : Nat) : Alphabet → List Char
  | .gsm7     =>
    decode (unpack (body.drop octets) (udl - headerSeptets octets) (fillBitsOf octets))
  | .ucs2     => decodeUcs2 (payloadOf body udl octets)
  | .eightBit => (payloadOf body udl octets).map Char.ofNat

/-- The header of the user data, and whether its payload boundary can be trusted. -/
def udhOf (body : List Nat) (hasUdh : Bool) : Udh :=
  if hasUdh then
    let udh := parseUdh ((body.take (udhOctets body true)).drop 1)
    { udh with malformed := decide (body.length < udhOctets body true) || udh.malformed }
  else {}

/-- `_decode_user_data`. -/
def decodeUserData (body : List Nat) (udl dcs : Nat) (hasUdh : Bool) :
    Except PduError (List Char × Udh) :=
  if hasUdh ∧ body = [] then .error .emptyUserData
  else .ok (textOf body udl (udhOctets body hasUdh) (alphabetFromDcs dcs), udhOf body hasUdh)

/-! ## Decoding -/

/-- The fields of a PDU before its user data is read. -/
structure Tpdu where
  kind                  : String
  smsc                  : Option (List Char)
  first                 : Nat
  statusReportRequested : Bool
  address               : List Char
  toa                   : Nat
  /-- Where an SMS-DELIVER goes on after its address. -/
  bodyStart             : Nat
  pid                   : Nat
  dcs                   : Nat
  timestamp             : Option String
  udl                   : Nat
  body                  : List Nat

/-- The part of an SMS-DELIVER after its first octet. -/
def decodeDeliver (smsc : Option (List Char)) (first : Nat) : Read Tpdu := do
  let (address, toa) ← decodeAddress
  let bodyStart ← tell
  let pid ← byte
  let dcs ← byte
  let scts ← take 7
  let udl ← byte
  let body ← rest
  return ⟨"deliver", smsc, first, false, address, toa, bodyStart, pid, dcs, decodeScts scts, udl,
    body⟩

/-- The octets of the validity period, by its format. -/
def validityOctets (first : Nat) : Nat :=
  let vpf := first >>> 3 &&& 0x03
  if vpf = 0x02 then 1 else if vpf = 0x01 ∨ vpf = 0x03 then 7 else 0

/-- The part of an SMS-SUBMIT after its first octet. -/
def decodeSubmit (smsc : Option (List Char)) (first : Nat) : Read Tpdu := do
  let _ ← byte
  let (address, toa) ← decodeAddress
  let pid ← byte
  let dcs ← byte
  let _ ← take (validityOctets first)
  let udl ← byte
  let body ← rest
  return ⟨"submit", smsc, first, first &&& 0x20 != 0, address, toa, 0, pid, dcs, none, udl, body⟩

/-- The fields in order. -/
def decodeTpdu : Read Tpdu := do
  let smsc ← decodeSmsc
  let first ← byte
  if first &&& 0x03 = 0 then decodeDeliver smsc first
  else if first &&& 0x03 = 1 then decodeSubmit smsc first
  else throw (.unsupportedMti (first &&& 0x03) first)

/-- The user data header is there. -/
def Tpdu.hasUdh (t : Tpdu) : Bool := t.first &&& 0x40 != 0

/-- A deliver with an alphanumeric sender whose timestamp is not a date. -/
def Tpdu.truncated (t : Tpdu) : Bool :=
  t.kind == "deliver" && isAlphanumeric t.toa && t.timestamp.isNone

/-- `re.sub(r"\\s", "", pdu_hex)`. -/
def cleaned (pdu : String) : List Char := pdu.toList.filter fun c => !pyIsSpace c

/-- `decode_pdu`, with what `salvage.recover` finds: the text and the code. -/
def decodePdu (recover : List Nat → String × String) (pdu : String) :
    Except PduError Modem.DecodedSms :=
  match fromHex (cleaned pdu) with
  | none      => .error .notHex
  | some data => do
    let (t, _) ← decodeTpdu.run { rest := data }
    let (text, udh) ← decodeUserData t.body t.udl t.dcs t.hasUdh
    let recovered := if t.truncated then recover (data.drop t.bodyStart) else ("", "")
    return {
      kind := t.kind
      address := String.ofList t.address
      text := String.ofList text
      smsc := t.smsc.map String.ofList
      timestamp := t.timestamp
      dcs := t.dcs
      alphabet := (alphabetFromDcs t.dcs).text
      concat := udh.concat
      raw := String.ofList ((cleaned pdu).map Char.toUpper)
      ports := udh.ports
      udhMalformed := udh.malformed
      statusReportRequested := t.statusReportRequested
      pid := t.pid
      truncated := t.truncated
      recoveredText := recovered.1
      code := recovered.2 }

/-- The property `is_binary`. -/
def isBinary (sms : Modem.DecodedSms) : Bool :=
  sms.alphabet == "8bit" || sms.ports.isSome || sms.udhMalformed || sms.truncated ||
    (sms.text.isEmpty && decide (0xc0 ≤ sms.pid))

/-! ## Encoding -/

def MAX_GSM7_SINGLE : Nat := 160
def MAX_GSM7_CONCAT : Nat := 153
def MAX_UCS2_SINGLE_BYTES : Nat := 140
def MAX_UCS2_CONCAT_BYTES : Nat := 134

/-- Why a message is not encoded: its number has no digits, or a number fits no octet. -/
inductive EncodeError
  | noDigits
  | valueError
deriving DecidableEq, Repr

/-- `bytes`, of numbers. -/
def bytesOf (octets : List Nat) : Except EncodeError (List Nat) :=
  if ∀ x ∈ octets, x < 256 then .ok octets else .error .valueError

/-- `_encode_digits`. -/
def encodeDigits : List Nat → List Nat
  | []          => []
  | [lo]        => [0xf <<< 4 ||| lo]
  | lo :: hi :: rest => (hi <<< 4 ||| lo) :: encodeDigits rest

/-- The digits of a number, by their values: `re.sub(r"\D", "", number)`. -/
def digitsOf (number : String) : List Nat := number.toList.filterMap Schedule.digit

/-- `number.strip().startswith("+")`. -/
def isInternational (number : String) : Bool := (pyStrip number).toList.head? == some '+'

/-- `_encode_address`. -/
def encodeAddress (number : String) : Except EncodeError (List Nat) :=
  let digits := digitsOf number
  if digits = [] then .error .noDigits
  else do
    let head ← bytesOf [digits.length, if isInternational number then 0x91 else 0x81]
    return head ++ encodeDigits digits

/-- Where a segment of at most `limit` septets ends: never on a dangling escape. -/
def segmentEnd (limit : Nat) (septets : List Nat) : Nat :=
  let last := min limit septets.length
  if last < septets.length ∧ septets.getD (last - 1) 0 = ESC then last - 1 else last

/-- `_split_gsm7`.  A segment without septets would repeat for ever; no limit is that small. -/
def splitGsm7 (limit : Nat) (septets : List Nat) : List (List Nat) :=
  if septets = [] ∨ segmentEnd limit septets = 0 then []
  else septets.take (segmentEnd limit septets) ::
    splitGsm7 limit (septets.drop (segmentEnd limit septets))
termination_by septets.length
decreasing_by
  rename_i h
  rw [not_or] at h
  have hpos := List.length_pos_of_ne_nil h.1
  rw [List.length_drop]
  omega

/-- The loop of `_split_ucs2`. -/
def splitUcs2From (limit : Nat) (current : List Char) (used : Nat) : List Char → List (List Char)
  | []        => if current = [] then [] else [current]
  | ch :: text =>
    let size := (Utf16.octetsOf ch).length
    if limit < used + size then current :: splitUcs2From limit [ch] size text
    else splitUcs2From limit (current ++ [ch]) (used + size) text

/-- `_split_ucs2`. -/
def splitUcs2 (limit : Nat) (text : List Char) : List (List Char) := splitUcs2From limit [] 0 text

/-- `_build_udh`. -/
def buildUdh (ref total seq : Nat) : Except EncodeError (List Nat) :=
  bytesOf [0x05, 0x00, 0x03, ref &&& 0xff, total, seq]

/-- What one PDU carries: septets of the default alphabet, or text. -/
inductive Segment
  | septets (ss : List Nat)
  | chars (text : List Char)

/-- `use_gsm7`. -/
def usesGsm7 (forceUcs2 : Bool) (text : List Char) : Bool := !forceUcs2 && canEncode text

/-- The segments of a text. -/
def segmentsOf (forceUcs2 : Bool) (text : List Char) : List Segment :=
  if usesGsm7 forceUcs2 text then
    let septets := (encode text).getD []
    let limit := if MAX_GSM7_SINGLE < septets.length then MAX_GSM7_CONCAT else MAX_GSM7_SINGLE
    let segments := (splitGsm7 limit septets).map .septets
    if segments.isEmpty then [.septets []] else segments
  else
    let limit := if MAX_UCS2_SINGLE_BYTES < (Utf16.encode text).length then MAX_UCS2_CONCAT_BYTES
      else MAX_UCS2_SINGLE_BYTES
    let segments := (splitUcs2 limit text).map .chars
    if segments.isEmpty then [.chars []] else segments

/-- The declared length and the user data of a segment. -/
def Segment.userData (udh : List Nat) : Segment → Nat × List Nat
  | .septets ss  =>
    (headerSeptets udh.length + ss.length, udh ++ pack ss (fillBitsOf udh.length))
  | .chars text  => ((udh ++ Utf16.encode text).length, udh ++ Utf16.encode text)

/-- The coding scheme of a segment. -/
def Segment.dcs : Segment → Nat
  | .septets _ => 0x00
  | .chars _   => 0x08

/-- One segment ready for `AT+CMGS`. -/
structure EncodedPdu where
  pduHex  : String
  tpduLen : Nat
  seq     : Nat
  total   : Nat
deriving DecidableEq, Repr

/-- The first octet: a submit with a relative validity period. -/
def firstOctet (report udhi : Bool) : Nat :=
  let first := 0x01 ||| 0x10
  let first := if report then first ||| 0x20 else first
  if udhi then first ||| 0x40 else first

/-- The body of the loop over the segments. -/
def encodeSegment (addr : List Nat) (ref validity total : Nat) (report : Bool) (index : Nat)
    (segment : Segment) : Except EncodeError EncodedPdu := do
  let udh ← (if 1 < total then buildUdh ref total index else .ok [])
  let (udl, body) := segment.userData udh
  let head ← bytesOf [firstOctet report !udh.isEmpty, 0x00]
  let fields ← bytesOf [0x00, segment.dcs, validity, udl]
  let tpdu := head ++ addr ++ fields ++ body
  return {
    pduHex := String.ofList ('0' :: '0' :: toHex tpdu)
    tpduLen := tpdu.length
    seq := index
    total := total }

/-- The loop over the segments. -/
def encodeFrom (addr : List Nat) (ref validity total : Nat) (report : Bool) :
    Nat → List Segment → Except EncodeError (List EncodedPdu)
  | _, []                   => .ok []
  | index, segment :: rest => do
    let pdu ← encodeSegment addr ref validity total report index segment
    let pdus ← encodeFrom addr ref validity total report (index + 1) rest
    return pdu :: pdus

/-- `encode_submit`, with the reference that was passed or drawn. -/
def encodeSubmit (number text : String) (ref validity : Nat) (forceUcs2 report : Bool) :
    Except EncodeError (List EncodedPdu) := do
  let addr ← encodeAddress number
  let segments := segmentsOf forceUcs2 text.toList
  encodeFrom addr ref validity segments.length report 1 segments

end Air780eHub.Pdu
