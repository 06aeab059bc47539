/-
  Who an outgoing message goes to (`app.py`, `modem.py` and `pdu/codec.py`).

  1. **The dial string** of an address, as the network reads it: ten digits, star and hash, and the
     letters a to c, one semi-octet each.
  2. **Sending**: `_cmd_send_sms` checks the number, the modem encodes the message and issues one
     `AT+CMGS` for each segment, up to the first that fails.
  3. **What is dialled** (`destination_segment`): the sign and the digits of the number.  Whatever
     else is in it gets lost.
  4. **When the recipient is the one asked for** (`recipient_iff`): when the number is a sign and
     digits, or when it has no digit and nothing is sent.
-/
import Air780eHub.Lib.Raising
import Air780eHub.Pdu.RoundTrip

namespace Air780eHub.Pdu

/-! ## The dial string -/

/-- The symbols a semi-octet can stand for; fifteen fills up. -/
def DIAL_SYMBOLS : List Char :=
  ['0', '1', '2', '3', '4', '5', '6', '7', '8', '9', '*', '#', 'a', 'b', 'c']

/-- The semi-octets of a row of octets, the low one first. -/
def semiOctetsOf (octets : List Nat) : List Nat :=
  octets.flatMap fun octet => [octet &&& 0x0f, octet >>> 4]

/-- What an address field dials: so many semi-octets, after a plus where the number is
    international. -/
def dialled : List Nat → Option (List Char)
  | length :: toa :: octets =>
    (((semiOctetsOf octets).take length).mapM fun s => DIAL_SYMBOLS[s]?).map fun symbols =>
      if toa &&& 0x70 = 0x10 then '+' :: symbols else symbols
  | _ => none

/-- The destination of a submit, after the service centre, the first octet and the reference. -/
def destination (pdu : EncodedPdu) : Option (List Char) :=
  (fromHex pdu.pduHex.toList).bind fun octets => dialled (octets.drop (octets.getD 0 0 + 3))

/-! ## Sending -/

/-- The characters `_cmd_send_sms` admits in a number. -/
def NUMBER_CHARS : List Char :=
  ['+', '0', '1', '2', '3', '4', '5', '6', '7', '8', '9', '*', '#']

/-- A number `_cmd_send_sms` accepts. -/
structure AcceptedNumber (number : String) : Prop where
  nonempty : number ≠ ""
  short    : number.length ≤ 32
  chars    : ∀ c ∈ number.toList, c ∈ NUMBER_CHARS

instance (number : String) : Decidable (AcceptedNumber number) :=
  -- not `∀ c ∈ number.toList`, which may be decided by going through all characters there are
  decidable_of_iff (number ≠ "" ∧ number.length ≤ 32 ∧
      (number.toList.all fun c => decide (c ∈ NUMBER_CHARS)) = true)
    ⟨fun ⟨h₁, h₂, h₃⟩ => ⟨h₁, h₂, fun c hc => of_decide_eq_true (List.all_eq_true.mp h₃ c hc)⟩,
      fun h => ⟨h.nonempty, h.short,
        List.all_eq_true.mpr fun c hc => decide_eq_true (h.chars c hc)⟩⟩

inductive SendError
  | valueError
  | deviceOffline
  | encoding (e : EncodeError)
  | atError
deriving DecidableEq

/-- The loop of `Air780E.send_sms`: the segments for which `AT+CMGS` was issued, and the error that
    ended it.  `answers` says which of them the modem took. -/
def sendParts (answers : EncodedPdu → Bool) : List EncodedPdu → List EncodedPdu × Option SendError
  | []           => ([], none)
  | part :: rest =>
    if answers part then (part :: (sendParts answers rest).1, (sendParts answers rest).2)
    else ([part], some .atError)

/-- `Air780E.send_sms`, with the reference that was drawn. -/
def sendSms (number text : String) (ref : Nat) (answers : EncodedPdu → Bool) :
    List EncodedPdu × Option SendError :=
  match encodeSubmit number text ref 0xaa false true with
  | .error e => ([], some (.encoding e))
  | .ok pdus => sendParts answers pdus

/-- `_cmd_send_sms`.  `radio` says that the device is online with its radio on. -/
def cmdSendSms (radio : Bool) (number body : String) (ref : Nat) (answers : EncodedPdu → Bool) :
    List EncodedPdu × Option SendError :=
  if ¬ AcceptedNumber (pyStrip number) then ([], some .valueError)
  else if body = "" ∨ 2000 < body.length then ([], some .valueError)
  else if ¬ radio then ([], some .deviceOffline)
  else sendSms (pyStrip number) body ref answers

/-- Sending fails before the first segment is issued, or every segment is addressed to the number
    that was asked for. -/
def RecipientKept (number : String) : Prop :=
  ∀ (radio : Bool) (body : String) (ref : Nat) (answers : EncodedPdu → Bool), ref ≤ 255 →
    ((cmdSendSms radio number body ref answers).1 = []
        ∧ (cmdSendSms radio number body ref answers).2 ≠ none)
      ∨ ((cmdSendSms radio number body ref answers).1 ≠ []
        ∧ ∀ pdu ∈ (cmdSendSms radio number body ref answers).1,
          destination pdu = some (pyStrip number).toList)

/-! ## What is dialled -/

theorem semiOctetsOf_encodeDigits {digits : List Nat} (h : ∀ d ∈ digits, d < 10) (tl : List Nat) :
    (semiOctetsOf (encodeDigits digits ++ tl)).take digits.length = digits := by
  induction digits using List.twoStepInduction with
  | nil => rfl
  | singleton lo =>
    have hlo : lo < 10 := h lo List.mem_cons_self
    obtain ⟨hlow, -, -⟩ := semiOctets lo 0xf (by omega) (by omega)
    show [(0xf <<< 4 ||| lo) &&& 0x0f] = [lo]
    rw [hlow]
  | cons_cons lo hi rest ih _ =>
    have hlo : lo < 10 := h lo List.mem_cons_self
    have hhi : hi < 10 := h hi (List.mem_cons_of_mem lo List.mem_cons_self)
    obtain ⟨hlow, hhigh, -⟩ := semiOctets lo hi (by omega) (by omega)
    have hrest := ih fun d hd => h d (List.mem_cons_of_mem lo (List.mem_cons_of_mem hi hd))
    show ((hi <<< 4 ||| lo) &&& 0x0f) :: (hi <<< 4 ||| lo) >>> 4 ::
      (semiOctetsOf (encodeDigits rest ++ tl)).take rest.length = lo :: hi :: rest
    rw [hlow, hhigh, hrest]

theorem dialSymbols_digits {digits : List Nat} (h : ∀ d ∈ digits, d < 10) :
    (digits.mapM fun s => DIAL_SYMBOLS[s]?) = some (digits.map hexChar) := by
  induction digits with
  | nil => rfl
  | cons d ds ih =>
    rw [List.forall_mem_cons] at h
    have hall : ∀ d < 10, DIAL_SYMBOLS[d]? = some (hexChar d) := by decide
    rw [List.mapM_cons, hall d h.1, ih h.2]
    rfl

/-- **An encoded address dials the sign and the digits.** -/
theorem dialled_addressOctets (number : String) (tl : List Nat) :
    dialled (addressOctets number ++ tl) = some (addressOf number) := by
  show dialled ((digitsOf number).length :: toaOf number ::
    (encodeDigits (digitsOf number) ++ tl)) = _
  rw [dialled, semiOctetsOf_encodeDigits digitsOf_lt, dialSymbols_digits digitsOf_lt, Option.map_some]
  unfold toaOf addressOf
  cases isInternational number <;> rfl

theorem of_bytesOf_ok {octets out : List Nat} (h : bytesOf octets = .ok out) :
    out = octets ∧ ∀ x ∈ octets, x < 256 := by
  unfold bytesOf at h
  split at h
  · rename_i hall
    exact ⟨(Except.ok.inj h).symm, hall⟩
  · cases h

/-- The user data of a segment are octets, where its header is. -/
theorem userData_lt {udh : List Nat} {segment : Segment} {part : List Char}
    (hc : segment.Carries part) (hudh : ∀ x ∈ udh, x < 256) :
    ∀ x ∈ (segment.userData udh).2, x < 256 := by
  cases segment with
  | septets ss =>
    exact List.forall_mem_append.mpr ⟨hudh, (pack_spec (encode_lt hc) _).1⟩
  | chars text => exact List.forall_mem_append.mpr ⟨hudh, Utf16.encode_lt text⟩

/-- **A segment is addressed to the sign and the digits of the number.** -/
theorem destination_segment {number : String} (hd : Dialable number) {ref validity total index : Nat}
    {report : Bool} {segment : Segment} {part : List Char} {pdu : EncodedPdu}
    (hc : segment.Carries part)
    (h : encodeSegment (addressOctets number) ref validity total report index segment = .ok pdu) :
    destination pdu = some (addressOf number) := by
  unfold encodeSegment at h
  obtain ⟨udh, hheader, h⟩ := of_except_bind_ok h
  have hudh : ∀ x ∈ udh, x < 256 := by
    split at hheader
    · obtain ⟨rfl, hall⟩ := of_bytesOf_ok hheader
      exact hall
    · obtain rfl := Except.ok.inj hheader
      exact nofun
  have hbody := userData_lt hc hudh
  generalize segment.userData udh = ud at h hbody
  obtain ⟨udl, body⟩ := ud
  dsimp only at h hbody
  obtain ⟨head, hh, h⟩ := of_except_bind_ok h
  obtain ⟨fields, hf, h⟩ := of_except_bind_ok h
  obtain ⟨rfl, hhead⟩ := of_bytesOf_ok hh
  obtain ⟨rfl, hfields⟩ := of_bytesOf_ok hf
  obtain rfl := Except.ok.inj h
  have hoctets : ∀ x ∈ 0 :: ([firstOctet report !udh.isEmpty, 0x00] ++ addressOctets number
      ++ [0x00, segment.dcs, validity, udl] ++ body), x < 256 := by
    rw [List.forall_mem_cons, List.forall_mem_append, List.forall_mem_append,
      List.forall_mem_append]
    exact ⟨by decide, ⟨⟨hhead, addressOctets_lt hd⟩, hfields⟩, hbody⟩
  show (fromHex (String.ofList (toHex (0 :: _))).toList).bind _ = _
  rw [String.toList_ofList, fromHex_toHex hoctets, Option.bind_some, List.append_assoc,
    List.append_assoc]
  exact dialled_addressOctets number _

/-- The segments from `index` on are addressed alike, and there are as many. -/
theorem destination_segments {number : String} (hd : Dialable number) {ref validity total : Nat}
    {report : Bool} {segments : List Segment} (hc : ∀ segment ∈ segments, ∃ part, segment.Carries part)
    {index : Nat} {pdus : List EncodedPdu}
    (h : encodeFrom (addressOctets number) ref validity total report index segments = .ok pdus) :
    pdus.length = segments.length
      ∧ ∀ pdu ∈ pdus, destination pdu = some (addressOf number) := by
  induction segments generalizing index pdus with
  | nil =>
    obtain rfl := Except.ok.inj h
    exact ⟨rfl, nofun⟩
  | cons segment segments ih =>
    rw [List.forall_mem_cons] at hc
    unfold encodeFrom at h
    obtain ⟨pdu, hpdu, h⟩ := of_except_bind_ok h
    obtain ⟨rest, hrest, h⟩ := of_except_bind_ok h
    obtain rfl := Except.ok.inj h
    obtain ⟨part, hpart⟩ := hc.1
    obtain ⟨hlen, hall⟩ := ih hc.2 hrest
    refine ⟨congrArg Nat.succ hlen, List.forall_mem_cons.mpr ⟨?_, hall⟩⟩
    exact destination_segment hd hpart hpdu

/-- What carries the parts of a text carries something. -/
theorem segmentsOf_carry (forceUcs2 : Bool) (text : List Char) :
    ∀ segment ∈ segmentsOf forceUcs2 text, ∃ part, segment.Carries part := by
  obtain ⟨parts, -, hparts⟩ := segmentsOf_spec forceUcs2 text
  have hcarry : List.Forall₂ (fun segment part => segment.Carries part)
      (segmentsOf forceUcs2 text) parts := hparts.imp fun _ _ h => h.1
  clear hparts
  generalize segmentsOf forceUcs2 text = segments at hcarry ⊢
  induction hcarry with
  | nil => exact nofun
  | cons hseg _ ih => exact List.forall_mem_cons.mpr ⟨⟨_, hseg⟩, ih⟩

/-- **An encoded message is addressed to the sign and the digits of its number.** -/
theorem destination_submit {number text : String} {ref validity : Nat} {forceUcs2 report : Bool}
    {pdus : List EncodedPdu} (hfits : (digitsOf number).length ≤ 255)
    (h : encodeSubmit number text ref validity forceUcs2 report = .ok pdus) :
    pdus ≠ [] ∧ ∀ pdu ∈ pdus, destination pdu = some (addressOf number) := by
  by_cases hnone : digitsOf number = []
  · -- no digit, no address
    have herr : encodeAddress number = .error .noDigits := by
      unfold encodeAddress
      dsimp only
      rw [if_pos hnone]
    unfold encodeSubmit at h
    rw [herr] at h
    cases h
  · have hd : Dialable number := ⟨List.length_pos_of_ne_nil hnone, hfits⟩
    unfold encodeSubmit at h
    rw [encodeAddress_ok hd] at h
    obtain ⟨hlen, hall⟩ := destination_segments hd (segmentsOf_carry forceUcs2 text.toList) h
    refine ⟨fun hnil => segmentsOf_ne_nil forceUcs2 text.toList ?_, hall⟩
    rw [hnil] at hlen
    exact List.length_eq_zero_iff.mp hlen.symm

/-- The modem is given the first segment and those that follow a segment it took. -/
theorem sendParts_issued (answers : EncodedPdu → Bool) {pdus : List EncodedPdu} (hne : pdus ≠ []) :
    (sendParts answers pdus).1 ≠ [] ∧ ∀ pdu ∈ (sendParts answers pdus).1, pdu ∈ pdus := by
  induction pdus with
  | nil => exact absurd rfl hne
  | cons part rest ih =>
    rw [sendParts]
    split
    · refine ⟨List.cons_ne_nil _ _, List.forall_mem_cons.mpr ⟨List.mem_cons_self, ?_⟩⟩
      intro pdu hpdu
      by_cases hrest : rest = []
      · subst hrest
        cases hpdu
      · exact List.mem_cons_of_mem _ ((ih hrest).2 pdu hpdu)
    · exact ⟨List.cons_ne_nil _ _, fun pdu hpdu => List.mem_singleton.mp hpdu ▸ List.mem_cons_self⟩

/-! ## The recipient that was asked for -/

/-- A text without the plus it may begin with. -/
def afterPlus : List Char → List Char
  | '+' :: cs => cs
  | cs        => cs

/-- An address can say what the number says: it is digits, after a plus or not. -/
def Expressible (number : String) : Prop := ∀ c ∈ afterPlus number.toList, c.isDigit = true

/-- There is nothing to address. -/
def Digitless (number : String) : Prop := ∀ c ∈ number.toList, c.isDigit = false

section

variable {number : String} (h : AcceptedNumber number)

include h

theorem AcceptedNumber.strip : pyStrip number = number := by
  have hdrop : ∀ l : List Char, (∀ c ∈ l, c ∈ NUMBER_CHARS) → l.dropWhile pyIsSpace = l := by
    intro l hl
    cases l with
    | nil => rfl
    | cons c cs =>
      have hall : (NUMBER_CHARS.all fun c => !pyIsSpace c) = true := by decide
      have hc := List.all_eq_true.mp hall c (hl c List.mem_cons_self)
      rw [Bool.not_eq_true'] at hc
      rw [List.dropWhile_cons_of_neg]
      rw [hc]
      decide
  unfold pyStrip
  rw [hdrop _ h.chars, hdrop, List.reverse_reverse, String.ofList_toList]
  exact fun c hc => h.chars c (List.mem_reverse.mp hc)

theorem AcceptedNumber.ascii : ∀ c ∈ number.toList, (Schedule.digit c).isSome → c.isDigit := by
  have hall : (NUMBER_CHARS.all fun c => decide ((Schedule.digit c).isSome → c.isDigit)) = true := by
    decide
  intro c hc
  exact of_decide_eq_true (List.all_eq_true.mp hall c (h.chars c hc))

theorem AcceptedNumber.fits : (digitsOf number).length ≤ 255 := by
  have hle : (digitsOf number).length ≤ number.toList.length := List.length_filterMap_le _ _
  have hshort := h.short
  rw [← String.length_toList] at hshort
  omega

/-- **The address says the number when it is expressible.** -/
theorem AcceptedNumber.addressOf_iff : addressOf number = number.toList ↔ Expressible number := by
  have hfilter : ∀ l : List Char, l.filter Char.isDigit = l ↔ ∀ c ∈ l, c.isDigit = true :=
    fun l => List.filter_eq_self
  rw [addressOf_eq, digitsOf_ascii h.ascii, signOf, h.strip, Expressible]
  generalize number.toList = cs
  match cs with
  | [] => exact ⟨fun _ => nofun, fun _ => rfl⟩
  | c :: cs =>
    by_cases hplus : c = '+'
    · subst hplus
      rw [if_pos List.head?_cons, List.filter_cons_of_neg (by decide)]
      show '+' :: cs.filter Char.isDigit = '+' :: cs ↔ _
      rw [List.cons_inj_right, hfilter]
      exact Iff.rfl
    · rw [if_neg (by simpa using hplus), List.nil_append, hfilter]
      have hafter : afterPlus (c :: cs) = c :: cs := by
        unfold afterPlus
        split
        · rename_i heq
          exact absurd (List.cons.inj heq).1 hplus
        · rfl
      rw [hafter]

theorem AcceptedNumber.digitsOf_eq_nil : digitsOf number = [] ↔ Digitless number := by
  have hmap : digitsOf number = [] ↔ number.toList.filter Char.isDigit = [] := by
    rw [← digitsOf_ascii h.ascii, List.map_eq_nil_iff]
  rw [hmap, List.filter_eq_nil_iff]
  simp only [Digitless, Bool.not_eq_true]

end

/-- A one-letter message to a number with digits is encoded. -/
theorem encodeSubmit_letter {number : String} (hd : Dialable number) :
    encodeSubmit number "a" 0 0xaa false true =
      .ok [pduOf number true false 0xaa 0x00 1 [0x61] 1 1] := by
  have hsegments : segmentsOf false "a".toList = [.septets [0x61]] := by
    have huse : usesGsm7 false "a".toList = true := by decide
    have hseptets : (encode "a".toList).getD [] = [0x61] := by decide
    have hsplit : splitGsm7 160 [0x61] = [[0x61]] := splitGsm7_of_le (by decide) (by decide)
    unfold segmentsOf
    rw [if_pos huse, hseptets]
    show (if ((splitGsm7 160 [0x61]).map Segment.septets).isEmpty then [Segment.septets []]
      else (splitGsm7 160 [0x61]).map Segment.septets) = _
    rw [hsplit]
    rfl
  unfold encodeSubmit
  rw [encodeAddress_ok hd, hsegments]
  show encodeFrom (addressOctets number) 0 0xaa 1 true 1 [.septets [0x61]] = _
  have hud : (Segment.septets [0x61]).userData (headerOf 0 1 1) = (1, [0x61]) := by decide
  have hsegment := encodeSegment_eq number (by decide : 0 ≤ 255) (by decide : 1 ≤ 255)
    (by decide : 1 ≤ 1) true hud (show ∀ x ∈ [0, 0, 0xaa, 1], x < 256 by decide)
  rw [encodeFrom, hsegment]
  rfl

/-- **When the message goes to the number that was asked for.**  Of the numbers the command accepts,
    those that are digits after an optional plus are dialled as they are, those without a digit are
    refused before anything is sent, and every other one is dialled as another number. -/
theorem recipient_iff {number : String} (h : AcceptedNumber (pyStrip number)) :
    RecipientKept number ↔ Expressible (pyStrip number) ∨ Digitless (pyStrip number) := by
  constructor
  · intro hkept
    by_cases hnone : Digitless (pyStrip number)
    · exact .inr hnone
    · have hne : digitsOf (pyStrip number) ≠ [] := fun hnil => hnone (h.digitsOf_eq_nil.mp hnil)
      have hd : Dialable (pyStrip number) := ⟨List.length_pos_of_ne_nil hne, h.fits⟩
      have hpdus := encodeSubmit_letter hd
      generalize [pduOf (pyStrip number) true false 0xaa 0x00 1 [0x61] 1 1] = pdus at hpdus
      have hsend : cmdSendSms true number "a" 0 (fun _ => true)
          = sendParts (fun _ => true) pdus := by
        rw [cmdSendSms, if_neg (not_not_intro h), if_neg (by decide), if_neg (by decide), sendSms,
          hpdus]
      obtain ⟨hpdus', hall⟩ := destination_submit h.fits hpdus
      obtain ⟨hissued, hmem⟩ := sendParts_issued (fun _ => true) hpdus'
      have hcase := hkept true "a" 0 (fun _ => true) (by decide)
      rw [hsend] at hcase
      rcases hcase with ⟨hnil, -⟩ | ⟨-, hdest⟩
      · exact absurd hnil hissued
      · obtain ⟨pdu, hpdu⟩ := List.exists_mem_of_ne_nil _ hissued
        have heq := (hall pdu (hmem pdu hpdu)).symm.trans (hdest pdu hpdu)
        exact .inl (h.addressOf_iff.mp (Option.some.inj heq))
  · intro hcond radio body ref answers _
    rw [cmdSendSms, if_neg (not_not_intro h)]
    split
    · exact .inl ⟨rfl, nofun⟩
    · split
      · exact .inl ⟨rfl, nofun⟩
      · rw [sendSms]
        cases hencode : encodeSubmit (pyStrip number) body ref 0xaa false true with
        | error e => exact .inl ⟨rfl, nofun⟩
        | ok pdus =>
          obtain ⟨hne, hall⟩ := destination_submit h.fits hencode
          obtain ⟨hissued, hmem⟩ := sendParts_issued answers hne
          refine .inr ⟨hissued, fun pdu hpdu => ?_⟩
          have hexpr : Expressible (pyStrip number) := by
            refine hcond.resolve_right fun hnone => ?_
            -- without a digit nothing would have been encoded
            have herr : encodeAddress (pyStrip number) = .error .noDigits := by
              unfold encodeAddress
              dsimp only
              rw [if_pos (h.digitsOf_eq_nil.mpr hnone)]
            unfold encodeSubmit at hencode
            rw [herr] at hencode
            cases hencode
          rw [hall pdu (hmem pdu hpdu), h.addressOf_iff.mpr hexpr]

/-- A sign and digits are accepted and dialled as they are. -/
theorem recipient_iff_plain :
    RecipientKept "+10086" ↔ Expressible (pyStrip "+10086") ∨ Digitless (pyStrip "+10086") :=
  recipient_iff (by decide)

/-- **A service code is dialled as a subscriber.**  `*21*10086#` loses its stars and its hash, and
    the message goes to 2110086. -/
theorem recipient_of_service_code :
    AcceptedNumber (pyStrip "*21*10086#") ∧ ¬ RecipientKept "*21*10086#"
      ∧ ∃ pdu, cmdSendSms true "*21*10086#" "a" 0 (fun _ => true) = ([pdu], none)
        ∧ destination pdu = some "2110086".toList := by
  have haccepted : AcceptedNumber (pyStrip "*21*10086#") := by decide
  have hencode := encodeSubmit_letter
    (show Dialable (pyStrip "*21*10086#") from ⟨by decide, by decide⟩)
  generalize pduOf (pyStrip "*21*10086#") true false 0xaa 0x00 1 [0x61] 1 1 = pdu at hencode
  have hsend : cmdSendSms true "*21*10086#" "a" 0 (fun _ => true) = ([pdu], none) := by
    rw [cmdSendSms, if_neg (not_not_intro haccepted), if_neg (by decide), if_neg (by decide),
      sendSms, hencode]
    rfl
  have hdest := (destination_submit haccepted.fits hencode).2 _ (List.mem_singleton_self _)
  have haddress : addressOf (pyStrip "*21*10086#") = "2110086".toList := by decide
  rw [haddress] at hdest
  refine ⟨haccepted, fun h => ?_, _, hsend, hdest⟩
  have hcase := h true "a" 0 (fun _ => true) (by decide)
  rw [hsend] at hcase
  rcases hcase with ⟨hnil, -⟩ | ⟨-, hkept⟩
  · cases hnil
  · have heq := hdest.symm.trans (hkept _ (List.mem_singleton_self _))
    exact absurd (Option.some.inj heq) (by decide)

end Air780eHub.Pdu
