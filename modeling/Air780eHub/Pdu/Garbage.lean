/-
  The PDU decoders on garbage.

  `decode_pdu` and `decode_status_report` over the operations that raise (`Pdu.Exceptions`), line by
  line, and what escapes from them.

  1. **Fields**: the reader, the address, the service centre, and the timestamp, whose errors are
     caught.
  2. **User data**: the walk of the header and the text after it.
  3. **The decoders.**
  4. **Agreement**: each of them does what its total counterpart of `Pdu.Codec` does
     (`decodePdu_eq`), so nothing but a `PduError` is raised (`decoders_safe`).
-/
import Air780eHub.Agent.Payloads
import Air780eHub.Pdu.Salvage

namespace Air780eHub.Pdu.Raising

open Modem (Concat)

/-! ## Fields -/

/-- A function that takes from the reader and may raise anything. -/
abbrev Walk (α : Type) := StateT Reader (Except Raised) α

/-- `take`. -/
def take (n : Nat) : Walk (List Nat) := fun r =>
  if r.rest.length < n then .error (.pdu (.truncated n r.pos r.rest.length))
  else .ok (r.rest.take n, ⟨r.rest.drop n, r.pos + n⟩)

/-- `byte`. -/
def byte : Walk Nat := do
  let chunk ← take 1
  item chunk 0

/-- `tell`. -/
def tell : Walk Nat := fun r => .ok (r.pos, r)

/-- `rest`. -/
def rest : Walk (List Nat) := fun r => .ok (r.rest, ⟨[], r.pos + r.rest.length⟩)

/-- An alphanumeric address. -/
def decodeName (octets : List Nat) (septetCount : Int) : Except Raised (List Char) := do
  let septets ← unpack octets septetCount 0
  decode septets

/-- `_decode_address`. -/
def decodeAddress : Walk (List Char × Nat) := do
  let length ← byte
  if length = 0 then return ([], 0)
  else
    let toa ← byte
    let octets ← take ((length + 1) / 2)
    if toa &&& 0x70 = 0x50 then
      let name ← decodeName octets (length * 4 / 7 : Nat)
      return (name, toa)
    else return (internationalOr toa (decodeDigits octets length), toa)

/-- `_decode_smsc`. -/
def decodeSmsc : Walk (Option (List Char)) := do
  let scaLen ← byte
  if scaLen = 0 then return none
  else
    let sca ← take scaLen
    let toa ← item sca 0
    return some (internationalOr toa (decodeDigits (slice sca 1 sca.length) ((scaLen - 1) * 2)))

/-- `timedelta(minutes=minutes)`, of whole minutes. -/
def timedelta (minutes : Int) : Except Raised Int :=
  if minutes / 1440 < -999999999 ∨ 999999999 < minutes / 1440 then .error .overflowError
  else .ok minutes

/-- `timezone(offset)`: less than a day either way. -/
def timezone (offset : Int) : Except Raised Int :=
  if -1440 < offset ∧ offset < 1440 then .ok offset else .error .valueError

/-- An offset in ISO format. -/
def isoOffset (offset : Int) : String :=
  (if offset < 0 then "-" else "+") ++ twoDigits (offset.natAbs / 60) ++ ":" ++
    twoDigits (offset.natAbs % 60)

/-- `datetime(…, tzinfo=zone)`, in ISO format. -/
def datetime (year month day hour minute second : Nat) (zone : Int) : Except Raised String :=
  let leap := year % 4 = 0 ∧ (year % 100 ≠ 0 ∨ year % 400 = 0)
  if 1 ≤ year ∧ year ≤ 9999 ∧
      1 ≤ month ∧ month ≤ 12 ∧ 1 ≤ day ∧ day ≤ Schedule.monthDays (decide leap) month ∧
      hour < 24 ∧ minute < 60 ∧ second < 60 then
    .ok (toString year ++ "-" ++ twoDigits month ++ "-" ++ twoDigits day ++ "T" ++
      twoDigits hour ++ ":" ++ twoDigits minute ++ ":" ++ twoDigits second ++ isoOffset zone)
  else .error .valueError

/-- The zone of a timestamp: quarters of an hour, and the bit of the sign. -/
def zoneOf (octet : Nat) : Except Raised Int := do
  let low := octet &&& 0x0f
  let quarters := (low &&& 0x07) * 10 + octet >>> 4
  let offset ← timedelta (15 * quarters)
  let offset ← (if low &&& 0x08 ≠ 0 then timedelta (-offset) else .ok offset)
  timezone offset

/-- The body of `_decode_scts`, before its errors are caught. -/
def timestampOf (data : List Nat) : Except Raised String := do
  let year ← item data 0
  let month ← item data 1
  let day ← item data 2
  let hour ← item data 3
  let minute ← item data 4
  let second ← item data 5
  let octet ← item data 6
  let zone ← zoneOf octet
  datetime (2000 + swapDecimal year) (swapDecimal month) (swapDecimal day) (swapDecimal hour)
    (swapDecimal minute) (swapDecimal second) zone

/-- `except (ValueError, IndexError): return None`. -/
def caught {α : Type} : Except Raised α → Except Raised (Option α)
  | .ok a              => .ok (some a)
  | .error .valueError => .ok none
  | .error .indexError => .ok none
  | .error (.pdu _)    => .ok none
  | .error e           => .error e

/-- `_decode_scts`. -/
def decodeScts (data : List Nat) : Except Raised (Option String) := caught (timestampOf data)

/-! ## User data -/

/-- `found or …`: what is found first stays. -/
def orElse {α : Type} (found : Option α) (x : Except Raised α) : Except Raised (Option α) :=
  match found with
  | some a => .ok (some a)
  | none   => x.map some

/-- `(payload[i] << 8) | payload[i + 1]`. -/
def word (payload : List Nat) (i : Nat) : Except Raised Nat := do
  let high ← item payload i
  let low ← item payload (i + 1)
  return high <<< 8 ||| low

/-- The concatenation that an element declares. -/
def concatOf (payload : List Nat) (ref : Except Raised Nat) (i : Nat) : Except Raised Concat := do
  let ref ← ref
  let total ← item payload i
  let seq ← item payload (i + 1)
  return ⟨ref, total, seq⟩

/-- The ports that an element declares. -/
def portsOf (x y : Except Raised Nat) : Except Raised (Nat × Nat) := do
  let a ← x
  let b ← y
  return (a, b)

/-- What one element adds. -/
def readElement (iei : Nat) (payload : List Nat) (concat : Option Concat)
    (ports : Option (Nat × Nat)) : Except Raised (Option Concat × Option (Nat × Nat)) :=
  if iei = 0x00 ∧ 3 ≤ payload.length then do
    let concat ← orElse concat (concatOf payload (item payload 0) 1)
    return (concat, ports)
  else if iei = 0x08 ∧ 4 ≤ payload.length then do
    let concat ← orElse concat (concatOf payload (word payload 0) 2)
    return (concat, ports)
  else if iei = 0x04 ∧ 2 ≤ payload.length then do
    let ports ← orElse ports (portsOf (item payload 0) (item payload 1))
    return (concat, ports)
  else if iei = 0x05 ∧ 4 ≤ payload.length then do
    let ports ← orElse ports (portsOf (word payload 0) (word payload 2))
    return (concat, ports)
  else return (concat, ports)

/-- The loop of `_parse_udh`, at `pos`. -/
def parseUdhFrom (udh : List Nat) (concat : Option Concat) (ports : Option (Nat × Nat))
    (pos : Nat) : Except Raised Udh :=
  if h : pos < udh.length then
    if udh.length < pos + 2 then return ⟨concat, ports, true⟩
    else do
      let iei ← item udh pos
      let ieLen ← item udh (pos + 1)
      if udh.length < pos + 2 + ieLen then return ⟨concat, ports, true⟩
      else
        let found ← readElement iei (slice udh (pos + 2) (pos + 2 + ieLen)) concat ports
        parseUdhFrom udh found.1 found.2 (pos + 2 + ieLen)
  else return ⟨concat, ports, false⟩
termination_by udh.length - pos

/-- `_parse_udh`. -/
def parseUdh (udh : List Nat) : Except Raised Udh := parseUdhFrom udh none none 0

/-- The octets of the header and what they say. -/
def header (body : List Nat) (hasUdh : Bool) : Except Raised (Nat × Udh) :=
  if hasUdh then
    if body = [] then .error (.pdu .emptyUserData)
    else do
      let udhl ← item body 0
      let udh ← parseUdh (slice body 1 (udhl + 1))
      return (udhl + 1,
        { udh with malformed := decide (body.length < udhl + 1) || udh.malformed })
  else return (0, {})

/-- The payload of an alphabet of octets. -/
def payloadOf (body : List Nat) (udl octets : Nat) : List Nat :=
  if udl ≤ body.length then slice body octets udl else slice body octets body.length

/-- The text of the user data.  The count of septets may be below zero. -/
def textOf (body : List Nat) (udl octets : Nat) : Alphabet → Except Raised (List Char)
  | .gsm7     =>
    let fillBits : Int := (7 - octets * 8 % 7) % 7
    let headerSeptets := (octets * 8 + fillBits) / 7
    do
      let septets ← unpack (slice body octets body.length) (udl - headerSeptets) fillBits
      decode septets
  | .ucs2     => return decodeUcs2 (payloadOf body udl octets)
  | .eightBit => return (payloadOf body udl octets).map Char.ofNat

/-- `_decode_user_data`. -/
def decodeUserData (body : List Nat) (udl dcs : Nat) (hasUdh : Bool) :
    Except Raised (List Char × Udh) := do
  let (octets, udh) ← header body hasUdh
  let text ← textOf body udl octets (alphabetFromDcs dcs)
  return (text, udh)

/-! ## The decoders -/

/-- The part of an SMS-DELIVER after its first octet. -/
def decodeDeliver (smsc : Option (List Char)) (first : Nat) : Walk Tpdu := do
  let (address, toa) ← decodeAddress
  let bodyStart ← tell
  let pid ← byte
  let dcs ← byte
  let scts ← take 7
  let timestamp ← decodeScts scts
  let udl ← byte
  let body ← rest
  return ⟨"deliver", smsc, first, false, address, toa, bodyStart, pid, dcs, timestamp, udl, body⟩

/-- The part of an SMS-SUBMIT after its first octet. -/
def decodeSubmit (smsc : Option (List Char)) (first : Nat) : Walk Tpdu := do
  let _ ← byte
  let (address, toa) ← decodeAddress
  let pid ← byte
  let dcs ← byte
  let _ ← take (validityOctets first)
  let udl ← byte
  let body ← rest
  return ⟨"submit", smsc, first, first &&& 0x20 != 0, address, toa, 0, pid, dcs, none, udl, body⟩

/-- The fields in order. -/
def decodeTpdu : Walk Tpdu := do
  let smsc ← decodeSmsc
  let first ← byte
  if first &&& 0x03 = 0 then decodeDeliver smsc first
  else if first &&& 0x03 = 1 then decodeSubmit smsc first
  else throw (.pdu (.unsupportedMti (first &&& 0x03) first))

/-- `bytes.fromhex`. -/
def bytesFromhex (text : List Char) : Except Raised (List Nat) :=
  match fromHex text with
  | some data => .ok data
  | none      => .error .valueError

/-- The octets of a PDU.  The `ValueError` of `bytes.fromhex` becomes a `PduError`. -/
def octetsOf (pdu : String) : Except Raised (List Nat) :=
  match bytesFromhex (cleaned pdu) with
  | .error .valueError => .error (.pdu .notHex)
  | x                  => x

/-- `salvage.recover(data[body_start:]) if truncated else salvage.Salvage()`. -/
def salvaged (data : List Nat) (t : Tpdu) : Except Raised Salvage :=
  if t.truncated then recover (slice data t.bodyStart data.length) else return {}

/-- `decode_pdu`. -/
def decodePdu (pdu : String) : Except Raised Modem.DecodedSms := do
  let data ← octetsOf pdu
  let (t, _) ← decodeTpdu.run { rest := data }
  let (text, udh) ← decodeUserData t.body t.udl t.dcs t.hasUdh
  let recovered ← salvaged data t
  return {
    kind := t.kind
    address := String.ofList t.address
    text := String.ofList text
    smsc := t.smsc.map String.ofList
    timestamp := t.timestamp
    dcs := t.dcs
    alphabet := (alphabetFromDcs t.dcs).text
    concat := udh.concat
    raw := String.ofList ((cleaned pdu).map Char.toUpper)
    ports := udh.ports
    udhMalformed := udh.malformed
    statusReportRequested := t.statusReportRequested
    pid := t.pid
    truncated := t.truncated
    recoveredText := String.ofList recovered.text
    code := String.ofList recovered.code }

/-- `StatusReport`, with the service centre. -/
structure StatusReport extends Air780eHub.StatusReport where
  smsc : Option String

/-- The fields of a status report in order. -/
def decodeReport (raw : String) : Walk StatusReport := do
  let smsc ← decodeSmsc
  let first ← byte
  if first &&& 0x03 ≠ 2 then throw (.pdu (.notStatusReport (first &&& 0x03) first))
  else
    let messageReference ← byte
    let (recipient, _) ← decodeAddress
    let scts ← take 7
    let serviceCenterTimestamp ← decodeScts scts
    let discharge ← take 7
    let dischargeTime ← decodeScts discharge
    let status ← byte
    return {
      messageReference
      recipient := String.ofList recipient
      serviceCenterTimestamp
      dischargeTime
      status
      smsc := smsc.map String.ofList
      raw }

/-- `decode_status_report`. -/
def decodeStatusReport (pdu : String) : Except Raised StatusReport := do
  let data ← octetsOf pdu
  let (report, _) ← (decodeReport (String.ofList ((cleaned pdu).map Char.toUpper))).run
    { rest := data }
  return report

/-! ## Agreement -/

/-- What is left are octets. -/
def Octets (r : Reader) : Prop := ∀ x ∈ r.rest, x < 256

/-- A step does what its total counterpart does, and returns a value with `Q`. -/
abbrev Total {α : Type} (m : Walk α) (n : Read α) (Q : α → Prop) : Prop :=
  Agrees Raised.pdu Octets m n Q

theorem take_total (n : Nat) :
    Total (take n) (Pdu.take n) fun chunk => chunk.length = n ∧ ∀ x ∈ chunk, x < 256 := by
  intro r hr
  unfold take Pdu.take
  by_cases hshort : r.rest.length < n
  · rw [if_pos hshort, if_pos hshort]
    exact ⟨rfl, nofun⟩
  · rw [if_neg hshort, if_neg hshort]
    refine ⟨rfl, ?_⟩
    rintro chunk r' ⟨⟩
    have hlen : (r.rest.take n).length = n := by rw [List.length_take]; omega
    exact ⟨⟨hlen, fun x hx => hr x (List.mem_of_mem_take hx)⟩,
      fun x hx => hr x (List.mem_of_mem_drop hx)⟩

theorem byte_total : Total byte Pdu.byte fun _ => True := by
  refine (take_total 1).bind fun chunk hchunk => ?_
  exact Agrees.lift (item_ok (i := 0) (by omega) 0) trivial

theorem tell_total : Total tell Pdu.tell fun _ => True := by
  intro r hr
  refine ⟨rfl, ?_⟩
  rintro n r' ⟨⟩
  exact ⟨trivial, hr⟩

theorem rest_total : Total rest Pdu.rest fun _ => True := by
  intro r _
  refine ⟨rfl, ?_⟩
  rintro body r' ⟨⟩
  exact ⟨trivial, nofun⟩

theorem decodeName_ok (octets : List Nat) (n : Nat) :
    decodeName octets n = .ok (Pdu.decode (Pdu.unpack octets n 0)) := by
  have hunpack := unpack_ok octets n 0
  rw [Int.toNat_natCast] at hunpack
  rw [decodeName, show (0 : Int) = ((0 : Nat) : Int) from rfl, hunpack, ok_bind, decode_ok]

theorem decodeAddress_total : Total decodeAddress Pdu.decodeAddress fun _ => True := by
  refine byte_total.bind fun length _ => ?_
  refine Agrees.ite (fun _ => Agrees.pure trivial) fun _ => ?_
  refine byte_total.bind fun toa _ => ?_
  refine (take_total _).bind fun octets _ => ?_
  refine Agrees.ite (fun _ => ?_) fun _ => Agrees.pure trivial
  exact Agrees.compute (decodeName_ok octets _) (Agrees.pure trivial)

theorem decodeSmsc_total : Total decodeSmsc Pdu.decodeSmsc fun _ => True := by
  refine byte_total.bind fun scaLen _ => ?_
  refine Agrees.ite (fun _ => Agrees.pure trivial) fun hne => ?_
  refine (take_total scaLen).bind fun sca hsca => ?_
  have hslice : slice sca 1 sca.length = sca.drop 1 := by
    rw [show (1 : Int) = ((1 : Nat) : Int) from rfl, slice_eq, List.take_length]
  refine Agrees.compute (item_ok (i := 0) (by omega) 0) ?_
  rw [hslice]
  exact Agrees.pure trivial

theorem shiftRight_four_lt {octet : Nat} (h : octet < 256) : octet >>> 4 < 16 := by
  rw [Nat.shiftRight_eq_div_pow]
  omega

/-- No year of a timestamp is out of range. -/
theorem swapDecimal_le {octet : Nat} (h : octet < 256) : swapDecimal octet ≤ 165 := by
  have hlow : octet &&& 0x0f ≤ 15 := Nat.and_le_right
  have hhigh := shiftRight_four_lt h
  unfold swapDecimal
  omega

theorem timedelta_ok {minutes : Int} (h : -1440 < minutes ∧ minutes < 1440) :
    timedelta minutes = .ok minutes := by
  rw [timedelta, if_neg (by omega)]

/-- **Every octet is a zone**: at most 85 quarters of an hour, less than a day. -/
theorem zoneOf_ok {octet : Nat} (h : octet < 256) :
    ∃ zone, zoneOf octet = .ok zone ∧ isoOffset zone = timeZone octet := by
  unfold zoneOf timeZone
  dsimp only
  have hlow : octet &&& 0x0f &&& 0x07 ≤ 7 := Nat.and_le_right
  have hhigh := shiftRight_four_lt h
  generalize hq : (octet &&& 0x0f &&& 0x07) * 10 + octet >>> 4 = quarters
  have hquarters : quarters ≤ 85 := by omega
  have hoffset : timedelta (15 * (quarters : Int)) = .ok (15 * quarters) :=
    timedelta_ok (by omega)
  rw [hoffset, ok_bind]
  by_cases hsign : octet &&& 0x0f &&& 0x08 ≠ 0
  · refine ⟨-(15 * quarters), ?_, ?_⟩
    · rw [if_pos hsign, timedelta_ok (by omega), ok_bind, timezone, if_pos (by omega)]
    · have hneg : -(15 * (quarters : Int)) < 0 ↔ 15 * quarters ≠ 0 := by omega
      have habs : (-(15 * (quarters : Int))).natAbs = 15 * quarters := by omega
      simp only [isoOffset, hneg, habs, hsign, ne_eq, not_false_eq_true, true_and]
  · refine ⟨15 * quarters, ?_, ?_⟩
    · rw [if_neg hsign, ok_bind, timezone, if_pos (by omega)]
    · have hneg : ¬ 15 * (quarters : Int) < 0 := by omega
      have habs : (15 * (quarters : Int)).natAbs = 15 * quarters := by omega
      rw [isoOffset, if_neg hneg, habs, if_neg fun hc => hsign hc.1]

theorem caught_ite {α : Type} (p : Prop) [Decidable p] (a : α) :
    caught (if p then .ok a else .error .valueError) = .ok (if p then some a else none) := by
  by_cases h : p
  · rw [if_pos h, if_pos h]
    rfl
  · rw [if_neg h, if_neg h]
    rfl

/-- **The timestamp.**  Seven octets are a date or none. -/
theorem decodeScts_ok {a b c d e f g : Nat} {rest : List Nat} (ha : a < 256) (hg : g < 256) :
    decodeScts (a :: b :: c :: d :: e :: f :: g :: rest) =
      .ok (Pdu.decodeScts (a :: b :: c :: d :: e :: f :: g :: rest)) := by
  obtain ⟨zone, hzone, hiso⟩ := zoneOf_ok hg
  have hyear := swapDecimal_le ha
  have hfields : timestampOf (a :: b :: c :: d :: e :: f :: g :: rest) =
      (zoneOf g >>= fun zone => datetime (2000 + swapDecimal a) (swapDecimal b) (swapDecimal c)
        (swapDecimal d) (swapDecimal e) (swapDecimal f) zone) := rfl
  rw [decodeScts, hfields, hzone, ok_bind, datetime, caught_ite]
  have hlow : 1 ≤ 2000 + swapDecimal a := by omega
  have hhigh : 2000 + swapDecimal a ≤ 9999 := by omega
  simp only [hlow, hhigh, true_and, hiso]
  rfl

/-- With fewer octets than the fields an index is out of range. -/
theorem timestampOf_cases :
    ∀ data : List Nat, (data.length < 7 ∧ timestampOf data = .error .indexError) ∨
      ∃ a b c d e f g rest, data = a :: b :: c :: d :: e :: f :: g :: rest
  | []                 => Or.inl ⟨by simp, rfl⟩
  | [_]                => Or.inl ⟨by simp, rfl⟩
  | [_, _]             => Or.inl ⟨by simp, rfl⟩
  | [_, _, _]          => Or.inl ⟨by simp, rfl⟩
  | [_, _, _, _]       => Or.inl ⟨by simp, rfl⟩
  | [_, _, _, _, _]    => Or.inl ⟨by simp, rfl⟩
  | [_, _, _, _, _, _] => Or.inl ⟨by simp, rfl⟩
  | a :: b :: c :: d :: e :: f :: g :: rest => Or.inr ⟨a, b, c, d, e, f, g, rest, rfl⟩

/-- The seven octets that are taken. -/
theorem decodeScts_taken {data : List Nat} (hlen : data.length = 7) (h : ∀ x ∈ data, x < 256) :
    decodeScts data = .ok (Pdu.decodeScts data) := by
  rcases timestampOf_cases data with ⟨hshort, -⟩ | ⟨a, b, c, d, e, f, g, rest, rfl⟩
  · omega
  · exact decodeScts_ok (h a (by simp)) (h g (by simp))

/-- **Any octets are a timestamp or none**, as many as there are. -/
theorem decodeScts_returns {data : List Nat} (h : ∀ x ∈ data, x < 256) :
    Returns (decodeScts data) := by
  rcases timestampOf_cases data with ⟨-, hindex⟩ | ⟨a, b, c, d, e, f, g, rest, rfl⟩
  · rw [decodeScts, hindex]
    exact Returns.pure none
  · exact ⟨_, decodeScts_ok (h a (by simp)) (h g (by simp))⟩

/-- The concatenation after an element. -/
def concatAfter (iei : Nat) (payload : List Nat) (concat : Option Concat) : Option Concat :=
  let at_ := fun i => payload.getD i 0
  if iei = 0x00 ∧ 3 ≤ payload.length then concat.or (some ⟨at_ 0, at_ 1, at_ 2⟩)
  else if iei = 0x08 ∧ 4 ≤ payload.length then
    concat.or (some ⟨at_ 0 <<< 8 ||| at_ 1, at_ 2, at_ 3⟩)
  else concat

/-- The ports after an element. -/
def portsAfter (iei : Nat) (payload : List Nat) (ports : Option (Nat × Nat)) :
    Option (Nat × Nat) :=
  let at_ := fun i => payload.getD i 0
  if iei = 0x04 ∧ 2 ≤ payload.length then ports.or (some (at_ 0, at_ 1))
  else if iei = 0x05 ∧ 4 ≤ payload.length then
    ports.or (some (at_ 0 <<< 8 ||| at_ 1, at_ 2 <<< 8 ||| at_ 3))
  else ports

theorem orElse_ok {α : Type} {x : Except Raised α} {a : α} (found : Option α) (h : x = .ok a) :
    orElse found x = .ok (found.or (some a)) := by
  subst h
  cases found <;> rfl

theorem word_ok {payload : List Nat} {i : Nat} (h : i + 1 < payload.length) :
    word payload i = .ok (payload.getD i 0 <<< 8 ||| payload.getD (i + 1) 0) := by
  have hnext : (i : Int) + 1 = ((i + 1 : Nat) : Int) := rfl
  rw [word, hnext, item_ok (by omega) 0, ok_bind, item_ok h 0]
  rfl

theorem concatOf_ok {payload : List Nat} {ref : Except Raised Nat} {r i : Nat} (hr : ref = .ok r)
    (h : i + 1 < payload.length) :
    concatOf payload ref i = .ok ⟨r, payload.getD i 0, payload.getD (i + 1) 0⟩ := by
  have hnext : (i : Int) + 1 = ((i + 1 : Nat) : Int) := rfl
  rw [concatOf, hr, ok_bind, hnext, item_ok (by omega) 0, ok_bind, item_ok h 0]
  rfl

theorem portsOf_ok {x y : Except Raised Nat} {a b : Nat} (hx : x = .ok a) (hy : y = .ok b) :
    portsOf x y = .ok (a, b) := by
  rw [portsOf, hx, ok_bind, hy]
  rfl

/-- An element is read only where its payload is long enough. -/
theorem readElement_ok (iei : Nat) (payload : List Nat) (concat : Option Concat)
    (ports : Option (Nat × Nat)) :
    readElement iei payload concat ports =
      .ok (concatAfter iei payload concat, portsAfter iei payload ports) := by
  unfold readElement concatAfter portsAfter
  dsimp only
  by_cases hshort : iei = 0x00 ∧ 3 ≤ payload.length
  · have hconcat : concatOf payload (item payload 0) 1 =
        .ok ⟨payload.getD 0 0, payload.getD 1 0, payload.getD 2 0⟩ :=
      concatOf_ok (item_ok (i := 0) (by omega) 0) (by omega)
    rw [if_pos hshort, if_pos hshort, if_neg (by omega), if_neg (by omega), orElse_ok _ hconcat]
    rfl
  rw [if_neg hshort, if_neg hshort]
  by_cases hlong : iei = 0x08 ∧ 4 ≤ payload.length
  · have hconcat : concatOf payload (word payload 0) 2 =
        .ok ⟨payload.getD 0 0 <<< 8 ||| payload.getD 1 0, payload.getD 2 0, payload.getD 3 0⟩ :=
      concatOf_ok (word_ok (by omega)) (by omega)
    rw [if_pos hlong, if_pos hlong, if_neg (by omega), if_neg (by omega), orElse_ok _ hconcat]
    rfl
  rw [if_neg hlong, if_neg hlong]
  by_cases hports : iei = 0x04 ∧ 2 ≤ payload.length
  · have hpair : portsOf (item payload 0) (item payload 1) =
        .ok (payload.getD 0 0, payload.getD 1 0) :=
      portsOf_ok (item_ok (i := 0) (by omega) 0) (item_ok (i := 1) (by omega) 0)
    rw [if_pos hports, if_pos hports, orElse_ok _ hpair]
    rfl
  rw [if_neg hports, if_neg hports]
  by_cases hwide : iei = 0x05 ∧ 4 ≤ payload.length
  · have hpair : portsOf (word payload 0) (word payload 2) =
        .ok (payload.getD 0 0 <<< 8 ||| payload.getD 1 0,
          payload.getD 2 0 <<< 8 ||| payload.getD 3 0) :=
      portsOf_ok (word_ok (by omega)) (word_ok (by omega))
    rw [if_pos hwide, if_pos hwide, orElse_ok _ hpair]
    rfl
  rw [if_neg hwide, if_neg hwide]
  rfl

/-- An element of the total walk. -/
theorem parseUdhFrom_element (concat : Option Concat) (ports : Option (Nat × Nat))
    {iei ieLen : Nat} {rest : List Nat} (h : ieLen ≤ rest.length) :
    Pdu.parseUdhFrom concat ports (iei :: ieLen :: rest) =
      Pdu.parseUdhFrom (concatAfter iei (rest.take ieLen) concat)
        (portsAfter iei (rest.take ieLen) ports) (rest.drop ieLen) := by
  have hlen : (rest.take ieLen).length = ieLen := by rw [List.length_take]; omega
  rw [Pdu.parseUdhFrom, if_neg (by omega), concatAfter, portsAfter, hlen]

/-- **The walk of the header** stays inside it, and is the walk of what is left at `pos`. -/
theorem parseUdhFrom_ok (udh : List Nat) (concat : Option Concat) (ports : Option (Nat × Nat))
    (pos : Nat) :
    parseUdhFrom udh concat ports pos = .ok (Pdu.parseUdhFrom concat ports (udh.drop pos)) := by
  induction hleft : udh.length - pos using Nat.strong_induction_on generalizing concat ports pos with
  | _ left ih =>
    rw [parseUdhFrom]
    by_cases hpos : pos < udh.length
    · rw [dif_pos hpos, List.drop_eq_getElem_cons hpos]
      by_cases hone : udh.length < pos + 2
      · -- the identifier is the last octet
        rw [if_pos hone, List.drop_eq_nil_of_le (by omega), Pdu.parseUdhFrom]
        rfl
      · have hnext : pos + 1 < udh.length := by omega
        have hiei := item_ok hpos 0
        have hieLen := item_ok hnext 0
        have hcast : ((pos + 1 : Nat) : Int) = (pos : Int) + 1 := rfl
        rw [List.getD_eq_getElem?_getD, List.getElem?_eq_getElem hpos, Option.getD_some] at hiei
        rw [List.getD_eq_getElem?_getD, List.getElem?_eq_getElem hnext, Option.getD_some,
          hcast] at hieLen
        rw [if_neg hone, hiei, ok_bind, hieLen, ok_bind, List.drop_eq_getElem_cons hnext]
        by_cases hover : udh.length < pos + 2 + udh[pos + 1]
        · -- it overruns the header
          rw [if_pos hover, Pdu.parseUdhFrom, if_pos (by rw [List.length_drop]; omega)]
          rfl
        · have hpayload : slice udh (pos + 2) (pos + 2 + udh[pos + 1]) =
              (udh.drop (pos + 2)).take udh[pos + 1] := by
            have hslice := slice_eq udh (pos + 2) (pos + 2 + udh[pos + 1])
            rw [List.drop_take, Nat.add_sub_cancel_left] at hslice
            exact hslice
          rw [if_neg hover, parseUdhFrom_element _ _ (by rw [List.length_drop]; omega), hpayload,
            readElement_ok, ok_bind, ih _ (by omega) _ _ _ rfl, List.drop_drop]
    · rw [dif_neg hpos, List.drop_eq_nil_of_le (by omega), Pdu.parseUdhFrom]
      rfl

theorem parseUdh_ok (udh : List Nat) : parseUdh udh = .ok (Pdu.parseUdh udh) :=
  parseUdhFrom_ok udh none none 0

/-- The header: the only error is that there is no user data for it. -/
theorem header_eq (body : List Nat) (hasUdh : Bool) :
    header body hasUdh =
      if hasUdh = true ∧ body = [] then .error (.pdu .emptyUserData)
      else .ok (udhOctets body hasUdh, udhOf body hasUdh) := by
  cases hasUdh with
  | false => rfl
  | true =>
    cases body with
    | nil => rfl
    | cons udhl body =>
      have hslice := slice_eq (udhl :: body) 1 (udhl + 1)
      have hne : ¬ (true = true ∧ udhl :: body = []) := fun h => List.cons_ne_nil _ _ h.2
      rw [if_neg hne]
      show (parseUdh (slice (udhl :: body) 1 (udhl + 1)) >>= fun udh => pure (udhl + 1,
        { udh with malformed := decide ((udhl :: body).length < udhl + 1) || udh.malformed })) = _
      rw [show slice (udhl :: body) 1 (udhl + 1) = _ from hslice, parseUdh_ok]
      rfl

theorem payloadOf_eq (body : List Nat) (udl octets : Nat) :
    payloadOf body udl octets = Pdu.payloadOf body udl octets := by
  rw [payloadOf, Pdu.payloadOf, slice_eq, slice_eq, List.take_length]

/-- **The text never raises**: a header that is longer than the text leaves no septets. -/
theorem textOf_ok (body : List Nat) (udl octets : Nat) (alphabet : Alphabet) :
    textOf body udl octets alphabet = .ok (Pdu.textOf body udl octets alphabet) := by
  cases alphabet with
  | gsm7 =>
    have hfill : (7 - (octets : Int) * 8 % 7) % 7 = (fillBitsOf octets : Nat) := by
      unfold fillBitsOf
      omega
    have hcount : ((udl : Int) - (octets * 8 + (fillBitsOf octets : Nat)) / 7).toNat =
        udl - headerSeptets octets := by
      unfold headerSeptets
      omega
    show (unpack (slice body octets body.length) _ _ >>= fun septets => decode septets) = _
    rw [hfill, unpack_ok, ok_bind, decode_ok, hcount, slice_eq, List.take_length]
    rfl
  | ucs2 =>
    rw [textOf, payloadOf_eq]
    rfl
  | eightBit =>
    rw [textOf, payloadOf_eq]
    rfl

/-- **User data.** -/
theorem decodeUserData_eq (body : List Nat) (udl dcs : Nat) (hasUdh : Bool) :
    decodeUserData body udl dcs hasUdh =
      (Pdu.decodeUserData body udl dcs hasUdh).mapError .pdu := by
  unfold decodeUserData Pdu.decodeUserData
  rw [header_eq]
  by_cases hempty : hasUdh = true ∧ body = []
  · rw [if_pos hempty, if_pos hempty]
    rfl
  · rw [if_neg hempty, if_neg hempty, ok_bind]
    show (textOf body udl (udhOctets body hasUdh) (alphabetFromDcs dcs) >>= _) = _
    rw [textOf_ok]
    rfl

theorem decodeDeliver_total (smsc : Option (List Char)) (first : Nat) :
    Total (decodeDeliver smsc first) (Pdu.decodeDeliver smsc first) fun _ => True := by
  refine decodeAddress_total.bind fun address _ => ?_
  refine tell_total.bind fun bodyStart _ => ?_
  refine byte_total.bind fun pid _ => ?_
  refine byte_total.bind fun dcs _ => ?_
  refine (take_total 7).bind fun scts hscts => ?_
  refine Agrees.compute (decodeScts_taken hscts.1 hscts.2) ?_
  refine byte_total.bind fun udl _ => ?_
  exact rest_total.bind fun body _ => Agrees.pure trivial

theorem decodeSubmit_total (smsc : Option (List Char)) (first : Nat) :
    Total (decodeSubmit smsc first) (Pdu.decodeSubmit smsc first) fun _ => True := by
  refine byte_total.bind fun _ _ => ?_
  refine decodeAddress_total.bind fun address _ => ?_
  refine byte_total.bind fun pid _ => ?_
  refine byte_total.bind fun dcs _ => ?_
  refine (take_total _).bind fun _ _ => ?_
  refine byte_total.bind fun udl _ => ?_
  exact rest_total.bind fun body _ => Agrees.pure trivial

theorem decodeTpdu_total : Total decodeTpdu Pdu.decodeTpdu fun _ => True := by
  refine decodeSmsc_total.bind fun smsc _ => ?_
  refine byte_total.bind fun first _ => ?_
  refine Agrees.ite (fun _ => decodeDeliver_total smsc first) fun _ => ?_
  exact Agrees.ite (fun _ => decodeSubmit_total smsc first) fun _ => Agrees.throw _

theorem octetsOf_eq (pdu : String) :
    octetsOf pdu = match fromHex (cleaned pdu) with
      | some data => .ok data
      | none      => .error (.pdu .notHex) := by
  unfold octetsOf bytesFromhex
  cases fromHex (cleaned pdu) with
  | none => rfl
  | some data => rfl

/-- What is salvaged of a frame, where it is truncated. -/
theorem salvaged_ok (data : List Nat) (t : Tpdu) :
    ∃ s, salvaged data t = .ok s ∧ (String.ofList s.text, String.ofList s.code) =
      if t.truncated then recovered (data.drop t.bodyStart) else ("", "") := by
  unfold salvaged
  by_cases htruncated : t.truncated = true
  · obtain ⟨s, hs⟩ := recover_returns (data.drop t.bodyStart)
    refine ⟨s, ?_, ?_⟩
    · rw [if_pos htruncated, slice_eq, List.take_length, hs]
    · rw [if_pos htruncated, recovered, hs]
  · refine ⟨{}, ?_, ?_⟩
    · rw [if_neg htruncated]
      rfl
    · rw [if_neg htruncated]

/-- **`decode_pdu` is the total decoder**, with the salvage that it calls. -/
theorem decodePdu_eq (pdu : String) :
    decodePdu pdu = (Pdu.decodePdu recovered pdu).mapError .pdu := by
  unfold decodePdu Pdu.decodePdu
  rw [octetsOf_eq]
  cases hdata : fromHex (cleaned pdu) with
  | none => rfl
  | some data =>
    obtain ⟨htpdu, -⟩ := decodeTpdu_total { rest := data } (fromHex_lt hdata)
    show (decodeTpdu { rest := data } >>= _) =
      (Pdu.decodeTpdu { rest := data } >>= _ : Except PduError Modem.DecodedSms).mapError .pdu
    rw [htpdu]
    cases Pdu.decodeTpdu { rest := data } with
    | error e => rfl
    | ok p =>
      obtain ⟨t, r⟩ := p
      show (decodeUserData t.body t.udl t.dcs t.hasUdh >>= _) =
        (Pdu.decodeUserData t.body t.udl t.dcs t.hasUdh >>= _ :
          Except PduError Modem.DecodedSms).mapError .pdu
      rw [decodeUserData_eq]
      cases Pdu.decodeUserData t.body t.udl t.dcs t.hasUdh with
      | error e => rfl
      | ok q =>
        obtain ⟨text, udh⟩ := q
        obtain ⟨s, hs, hrecovered⟩ := salvaged_ok data t
        show (salvaged data t >>= _) = _
        rw [hs]
        show Except.ok _ = Except.ok _
        rw [← hrecovered]

/-- **The fields of a report** are read by what reads those of a message. -/
theorem decodeReport_avoids (raw : String) :
    Avoids (fun e => ∀ p, e ≠ .pdu p) Octets (decodeReport raw) fun _ _ => True := by
  refine decodeSmsc_total.avoids_bind fun smsc _ => ?_
  refine byte_total.avoids_bind fun first _ => ?_
  refine Avoids.ite (fun _ => Avoids.throw fun hbad => hbad _ rfl) fun _ => ?_
  refine byte_total.avoids_bind fun messageReference _ => ?_
  refine decodeAddress_total.avoids_bind fun recipient _ => ?_
  refine (take_total 7).avoids_bind fun scts hscts => ?_
  refine Avoids.compute (decodeScts_taken hscts.1 hscts.2) ?_
  refine (take_total 7).avoids_bind fun discharge hdischarge => ?_
  refine Avoids.compute (decodeScts_taken hdischarge.1 hdischarge.2) ?_
  exact byte_total.avoids_bind fun status _ => Avoids.pure fun _ _ => trivial

/-! ## Safety -/

theorem safe_of_mapError {α : Type} (x : Except PduError α) : Safe (x.mapError Raised.pdu) := by
  cases x with
  | error e => exact Or.inr ⟨e, rfl⟩
  | ok a => exact Or.inl ⟨a, rfl⟩

/-- A program that raises nothing but a `PduError`, at a reader of octets. -/
theorem safe_of_avoids {α : Type} {m : Walk α} {Q : α → Reader → Prop} {r : Reader}
    (h : Avoids (fun e => ∀ p, e ≠ .pdu p) Octets m Q) (hr : Octets r) : Safe (m r) := by
  have hm := h r hr
  cases hrun : m r with
  | ok p => exact Or.inl ⟨p, rfl⟩
  | error e =>
    rw [hrun] at hm
    obtain ⟨p, hp⟩ := not_forall.mp hm
    exact Or.inr ⟨p, by rw [not_not.mp hp]⟩

theorem decodeStatusReport_safe (pdu : String) : Safe (decodeStatusReport pdu) := by
  unfold decodeStatusReport
  rw [octetsOf_eq]
  cases hdata : fromHex (cleaned pdu) with
  | none => exact Or.inr ⟨.notHex, rfl⟩
  | some data =>
    have hrun := safe_of_avoids (decodeReport_avoids (String.ofList ((cleaned pdu).map Char.toUpper)))
      (r := { rest := data }) (fromHex_lt hdata)
    rw [ok_bind, StateT.run]
    rcases hrun with ⟨p, hp⟩ | ⟨e, he⟩
    · exact Or.inl ⟨p.1, by rw [hp]; rfl⟩
    · exact Or.inr ⟨e, by rw [he]; rfl⟩

/-- What the decoders call, on any octets: with any declared length, any coding scheme, any count
    and any fill. -/
structure HelpersSafe (data : List Nat) : Prop where
  address   : ∀ pos, Safe (decodeAddress ⟨data, pos⟩)
  smsc      : ∀ pos, Safe (decodeSmsc ⟨data, pos⟩)
  timestamp : Returns (decodeScts data)
  header    : Returns (parseUdh data)
  septets   : ∀ (count : Int) (fill : Nat), Returns (unpack data count fill >>= decode)
  userData  : ∀ udl dcs hasUdh, Safe (decodeUserData data udl dcs hasUdh)
  salvage   : Returns (recover data)

theorem helpers_safe {data : List Nat} (h : ∀ x ∈ data, x < 256) : HelpersSafe data where
  address _ := safe_of_avoids decodeAddress_total.avoids h
  smsc _ := safe_of_avoids decodeSmsc_total.avoids h
  timestamp := decodeScts_returns h
  header := ⟨_, parseUdh_ok data⟩
  septets count fill := ⟨_, by rw [unpack_ok, ok_bind, decode_ok]⟩
  userData udl dcs hasUdh := decodeUserData_eq data udl dcs hasUdh ▸ safe_of_mapError _
  salvage := recover_returns data

/-- **The decoders are safe on garbage.**  Every text is decoded or refused with a `PduError`, and
    on any octets none of the functions they call raises anything else. -/
theorem decoders_safe (pdu : String) (data : List UInt8) :
    Safe (decodePdu pdu) ∧ Safe (decodeStatusReport pdu) ∧
      HelpersSafe (data.map UInt8.toNat) := by
  refine ⟨?_, decodeStatusReport_safe pdu, helpers_safe fun x hx => ?_⟩
  · rw [decodePdu_eq]
    exact safe_of_mapError _
  · obtain ⟨octet, -, rfl⟩ := List.mem_map.mp hx
    exact octet.toNat_lt

end Air780eHub.Pdu.Raising
