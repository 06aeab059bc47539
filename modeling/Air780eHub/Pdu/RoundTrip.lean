/-
  A message that is encoded, decoded and put together again is the same message
  (`submit_round_trip`), whatever order its segments come in.

  1. **Reading what is there**: the reader takes from the front what stands at the front.
  2. **Addresses** are read back, each octet holding two digits.
  3. **One segment** is read back: the header says its place, the fields say how long it is, and
     septets or characters are read from where the header ends.
  4. **The message**, with `Reassembler.feed_any_order`.
-/
import Air780eHub.Modem.AnyOrder
import Air780eHub.Pdu.Split

namespace Air780eHub.Pdu

open Modem (Concat Reassembler)

/-! ## Reading what is there -/

section

variable {α β : Type} {r r₁ : Reader} {a : α} {pos : Nat} {tl : List Nat}

theorem bind_ok {x : Read α} {f : α → Read β} (hx : x r = .ok (a, r₁)) : (x >>= f) r = f a r₁ := by
  show (x r >>= fun p => f p.1 p.2) = f a r₁
  rw [hx]
  rfl

theorem take_append {chunk : List Nat} {n : Nat} (hn : chunk.length = n) :
    take n ⟨chunk ++ tl, pos⟩ = .ok (chunk, ⟨tl, pos + n⟩) := by
  have hlen : ¬ (chunk ++ tl).length < n := by
    rw [List.length_append]
    omega
  unfold take
  rw [if_neg hlen, ← hn, List.take_left, List.drop_left]

theorem take_one {x : Nat} : take 1 ⟨x :: tl, pos⟩ = .ok ([x], ⟨tl, pos + 1⟩) :=
  show take 1 ⟨[x] ++ tl, pos⟩ = _ from take_append rfl

theorem byte_cons {x : Nat} : byte ⟨x :: tl, pos⟩ = .ok (x, ⟨tl, pos + 1⟩) := bind_ok take_one

end

/-! ## Addresses -/

theorem semiOctets (lo hi : Nat) (hlo : lo < 16) (hhi : hi < 16) :
    (hi <<< 4 ||| lo) &&& 0x0f = lo ∧ (hi <<< 4 ||| lo) >>> 4 = hi ∧ hi <<< 4 ||| lo < 256 := by
  have hall : ∀ lo < 16, ∀ hi < 16,
      (hi <<< 4 ||| lo) &&& 0x0f = lo ∧ (hi <<< 4 ||| lo) >>> 4 = hi ∧ hi <<< 4 ||| lo < 256 := by
    decide
  exact hall lo hlo hi hhi

/-- Two digits an octet. -/
theorem encodeDigits_spec {digits : List Nat} (h : ∀ d ∈ digits, d < 10) :
    (encodeDigits digits).length = (digits.length + 1) / 2 ∧
      (∀ x ∈ encodeDigits digits, x < 256) ∧
      ((encodeDigits digits).flatMap fun octet =>
          [hexChar (octet &&& 0x0f), hexChar (octet >>> 4)]).take digits.length =
        digits.map hexChar := by
  induction digits using List.twoStepInduction with
  | nil => exact ⟨rfl, nofun, rfl⟩
  | singleton lo =>
    have hlo : lo < 10 := h lo List.mem_cons_self
    obtain ⟨hlow, -, hlt⟩ := semiOctets lo 0xf (by omega) (by omega)
    refine ⟨?_, fun x hx => ?_, ?_⟩
    · show 1 = (1 + 1) / 2
      rfl
    · obtain rfl := List.mem_singleton.mp hx
      exact hlt
    · show [hexChar ((0xf <<< 4 ||| lo) &&& 0x0f)] = [hexChar lo]
      rw [hlow]
  | cons_cons lo hi rest ih _ =>
    have hlo : lo < 10 := h lo List.mem_cons_self
    have hhi : hi < 10 := h hi (List.mem_cons_of_mem lo List.mem_cons_self)
    obtain ⟨hlow, hhigh, hlt⟩ := semiOctets lo hi (by omega) (by omega)
    obtain ⟨hlen, hoctets, htake⟩ := ih fun d hd =>
      h d (List.mem_cons_of_mem lo (List.mem_cons_of_mem hi hd))
    refine ⟨?_, fun x hx => ?_, ?_⟩
    · show (encodeDigits rest).length + 1 = (rest.length + 1 + 1 + 1) / 2
      omega
    · rcases List.mem_cons.mp hx with rfl | hx
      · exact hlt
      · exact hoctets x hx
    · show hexChar ((hi <<< 4 ||| lo) &&& 0x0f) :: hexChar ((hi <<< 4 ||| lo) >>> 4) :: _ =
        hexChar lo :: hexChar hi :: rest.map hexChar
      rw [hlow, hhigh]
      exact congrArg (hexChar lo :: hexChar hi :: ·) htake

/-- **Digits are read back.** -/
theorem decodeDigits_encodeDigits {digits : List Nat} (h : ∀ d ∈ digits, d < 10) :
    decodeDigits (encodeDigits digits) digits.length = digits.map hexChar := by
  unfold decodeDigits
  rw [(encodeDigits_spec h).2.2]
  refine List.filter_eq_self.mpr fun c hc => ?_
  obtain ⟨d, hd, rfl⟩ := List.mem_map.mp hc
  have hall : ∀ d < 10, (hexChar d != 'F') = true := by decide
  exact hall d (h d hd)

theorem digitsOf_lt {number : String} : ∀ d ∈ digitsOf number, d < 10 := by
  intro d hd
  obtain ⟨c, -, hc⟩ := List.mem_filterMap.mp hd
  obtain ⟨z, hz, rfl⟩ := Option.map_eq_some_iff.mp hc
  have hle := List.find?_some (p := fun z : Nat => z ≤ c.toNat && c.toNat ≤ z + 9) hz
  simp only [Bool.and_eq_true, decide_eq_true_iff] at hle
  omega

/-- The type of address of a number. -/
def toaOf (number : String) : Nat := if isInternational number then 0x91 else 0x81

/-- What can be sent to: one to 255 digits. -/
structure Dialable (number : String) : Prop where
  some_digit : 0 < (digitsOf number).length
  fits       : (digitsOf number).length ≤ 255

/-- The octets of the address of a number. -/
def addressOctets (number : String) : List Nat :=
  (digitsOf number).length :: toaOf number :: encodeDigits (digitsOf number)

theorem addressOctets_lt {number : String} (h : Dialable number) :
    ∀ x ∈ addressOctets number, x < 256 := by
  have hfits := h.fits
  intro x hx
  rcases List.mem_cons.mp hx with rfl | hx
  · omega
  rcases List.mem_cons.mp hx with rfl | hx
  · unfold toaOf
    split <;> decide
  · exact (encodeDigits_spec digitsOf_lt).2.1 x hx

theorem bytesOf_ok {octets : List Nat} (h : ∀ x ∈ octets, x < 256) : bytesOf octets = .ok octets :=
  if_pos h

/-- **An address is encoded.** -/
theorem encodeAddress_ok {number : String} (h : Dialable number) :
    encodeAddress number = .ok (addressOctets number) := by
  have hne : digitsOf number ≠ [] := List.ne_nil_of_length_pos h.some_digit
  have hbytes : ∀ x ∈ [(digitsOf number).length, toaOf number], x < 256 := fun x hx =>
    addressOctets_lt h x (List.mem_append_left (encodeDigits (digitsOf number)) hx)
  unfold encodeAddress
  dsimp only
  rw [if_neg hne]
  show (bytesOf [(digitsOf number).length, toaOf number] >>= _) = _
  rw [bytesOf_ok hbytes]
  rfl

/-- What the address of a number is read as. -/
def addressOf (number : String) : List Char :=
  if isInternational number then '+' :: (digitsOf number).map hexChar
  else (digitsOf number).map hexChar

/-- **An address is read back.** -/
theorem decodeAddress_ok {number : String} (h : Dialable number) (tl : List Nat) (pos : Nat) :
    ∃ pos', decodeAddress ⟨addressOctets number ++ tl, pos⟩ =
      .ok ((addressOf number, toaOf number), ⟨tl, pos'⟩) := by
  have hpos := h.some_digit
  refine ⟨pos + 1 + 1 + ((digitsOf number).length + 1) / 2, ?_⟩
  show decodeAddress ⟨(digitsOf number).length :: toaOf number ::
    (encodeDigits (digitsOf number) ++ tl), pos⟩ = _
  unfold decodeAddress
  rw [bind_ok byte_cons, if_neg (by omega), bind_ok byte_cons,
    bind_ok (take_append (encodeDigits_spec digitsOf_lt).1), decodeDigits_encodeDigits digitsOf_lt]
  unfold toaOf addressOf
  cases isInternational number <;> rfl

/-! ## One segment -/

/-- The fields of a submit that was encoded. -/
def submitted (number : String) (report udhi : Bool) (dcs udl : Nat) (body : List Nat) : Tpdu where
  kind := "submit"
  smsc := none
  first := firstOctet report udhi
  statusReportRequested := report
  address := addressOf number
  toa := toaOf number
  bodyStart := 0
  pid := 0
  dcs := dcs
  timestamp := none
  udl := udl
  body := body

/-- The octets after the service centre's number. -/
def tpduOctets (number : String) (report udhi : Bool) (validity dcs udl : Nat) (body : List Nat) :
    List Nat :=
  [firstOctet report udhi, 0] ++ addressOctets number ++ [0, dcs, validity, udl] ++ body

theorem firstOctet_spec (report udhi : Bool) :
    firstOctet report udhi < 256 ∧ firstOctet report udhi &&& 0x03 = 1 ∧
      validityOctets (firstOctet report udhi) = 1 ∧
      (firstOctet report udhi &&& 0x20 != 0) = report ∧
      (firstOctet report udhi &&& 0x40 != 0) = udhi := by
  revert report udhi
  decide

theorem tpduOctets_lt {number : String} (h : Dialable number) (report udhi : Bool)
    {validity dcs udl : Nat} {body : List Nat} (hfields : ∀ x ∈ [0, dcs, validity, udl], x < 256)
    (hbody : ∀ x ∈ body, x < 256) :
    ∀ x ∈ tpduOctets number report udhi validity dcs udl body, x < 256 := by
  intro x hx
  rcases List.mem_append.mp hx with hx | hx
  · rcases List.mem_append.mp hx with hx | hx
    · rcases List.mem_cons.mp hx with rfl | hx
      · exact (firstOctet_spec report udhi).1
      rcases List.mem_cons.mp hx with rfl | hx
      · decide
      · exact addressOctets_lt h x hx
    · exact hfields x hx
  · exact hbody x hx

/-- **The fields are read back.** -/
theorem decodeTpdu_submit {number : String} (h : Dialable number) (report udhi : Bool)
    (validity dcs udl : Nat) (body : List Nat) :
    ∃ r', decodeTpdu { rest := 0 :: tpduOctets number report udhi validity dcs udl body } =
      .ok (submitted number report udhi dcs udl body, r') := by
  obtain ⟨-, hmti, hvpf, hreport, -⟩ := firstOctet_spec report udhi
  have hsmsc : ∀ tl : List Nat, decodeSmsc { rest := 0 :: tl } = .ok (none, ⟨tl, 1⟩) :=
    fun tl => bind_ok byte_cons
  unfold tpduOctets
  rw [List.append_assoc, List.append_assoc]
  show ∃ r', decodeTpdu { rest := 0 :: firstOctet report udhi :: 0 ::
    (addressOctets number ++ (0 :: dcs :: validity :: udl :: body)) } = _
  unfold decodeTpdu
  rw [bind_ok (hsmsc _), bind_ok byte_cons, hmti, if_neg (by decide), if_pos rfl]
  unfold decodeSubmit
  obtain ⟨pos', haddress⟩ := decodeAddress_ok h (0 :: dcs :: validity :: udl :: body) (1 + 1 + 1)
  rw [bind_ok byte_cons, bind_ok haddress]
  dsimp only
  rw [bind_ok byte_cons, bind_ok byte_cons, hvpf, bind_ok take_one, bind_ok byte_cons, hreport]
  exact ⟨_, rfl⟩

/-- The header of a segment. -/
def headerOf (ref total index : Nat) : List Nat :=
  if 1 < total then [5, 0, 3, ref, total, index] else []

/-- The place a segment says it has. -/
def concatOf (ref total index : Nat) : Option Concat :=
  if 1 < total then some ⟨ref, total, index⟩ else none

theorem udhOctets_headerOf (ref total index : Nat) (tl : List Nat) :
    udhOctets (headerOf ref total index ++ tl) (!(headerOf ref total index).isEmpty) =
      (headerOf ref total index).length := by
  unfold headerOf
  split <;> rfl

theorem parseUdh_place (ref total index : Nat) :
    parseUdh [0, 3, ref, total, index] = ⟨some ⟨ref, total, index⟩, none, false⟩ := by
  unfold parseUdh
  rw [parseUdhFrom, if_neg (by simp)]
  show parseUdhFrom (some ⟨ref, total, index⟩) none [] = _
  rw [parseUdhFrom]

/-- **The header is read back.** -/
theorem udhOf_headerOf (ref total index : Nat) (tl : List Nat) :
    udhOf (headerOf ref total index ++ tl) (!(headerOf ref total index).isEmpty) =
      ⟨concatOf ref total index, none, false⟩ := by
  unfold headerOf concatOf
  split
  · show (⟨(parseUdh [0, 3, ref, total, index]).concat, (parseUdh [0, 3, ref, total, index]).ports,
      decide (([5, 0, 3, ref, total, index] ++ tl).length < 6) ||
        (parseUdh [0, 3, ref, total, index]).malformed⟩ : Udh) = _
    have hlen : ¬ ([5, 0, 3, ref, total, index] ++ tl).length < 6 := by
      rw [List.length_append]
      show ¬ 6 + tl.length < 6
      omega
    rw [parseUdh_place, decide_eq_false hlen]
    rfl
  · rfl

/-- A text without a byte order mark at its start is read back. -/
theorem decodeUcs2_encode {text : List Char} (hbig : text.head? ≠ some '\uFEFF')
    (hlittle : text.head? ≠ some '\uFFFE') : decodeUcs2 (Utf16.encode text) = text := by
  -- the first two octets are the first code unit
  have hmark : ∀ a b : Nat, 0xe0 ≤ a → b < 256 → (Utf16.encode text).take 2 = [a, b] →
      ∃ c, text.head? = some c ∧ c.toNat = 256 * a + b := by
    intro a b ha hb htake
    cases text with
    | nil => cases htake
    | cons c text =>
      refine ⟨c, rfl, ?_⟩
      have hoctets : (Utf16.octetsOf c ++ Utf16.encode text).take 2 = [a, b] := htake
      unfold Utf16.octetsOf at hoctets
      split at hoctets
      · obtain ⟨rfl, h⟩ := List.cons.inj hoctets
        obtain ⟨rfl, -⟩ := List.cons.inj h
        omega
      · obtain ⟨h, -⟩ := List.cons.inj hoctets
        have hlt := Utf16.toNat_lt c
        omega
  unfold decodeUcs2
  split
  · rename_i htake
    obtain ⟨c, hc, hnat⟩ := hmark 0xfe 0xff (by decide) (by decide) htake
    refine absurd (hc.trans (congrArg some ?_)) hbig
    exact Char.toNat_inj.mp hnat
  · split
    · rename_i htake
      obtain ⟨c, hc, hnat⟩ := hmark 0xff 0xfe (by decide) (by decide) htake
      refine absurd (hc.trans (congrArg some ?_)) hlittle
      exact Char.toNat_inj.mp hnat
    · exact Utf16.decode_encode text

/-- The length that decoding needs: septets with those of the header, or octets. -/
def neededLength (t : Tpdu) (text : List Char) : Nat :=
  match alphabetFromDcs t.dcs with
  | .gsm7 => headerSeptets (udhOctets t.body t.hasUdh) + ((encode text).getD []).length
  | _     => t.body.length

/-- The lengths that a PDU declares, and the room that its user data takes. -/
def Measured (pdu : EncodedPdu) (text : List Char) : Prop :=
  ∃ data t r', fromHex (cleaned pdu.pduHex) = some data ∧
    decodeTpdu { rest := data } = .ok (t, r') ∧
    pdu.tpduLen = (data.drop (data.getD 0 0 + 1)).length ∧ t.body.length ≤ 140 ∧
    t.udl = neededLength t text

theorem length_headerOf (ref total index : Nat) :
    (headerOf ref total index).length = if 1 < total then 6 else 0 := by
  unfold headerOf
  split <;> rfl

/-- A segment in UCS-2 does not start with a byte order mark. -/
def Segment.Unmarked : Segment → Prop
  | .septets _  => True
  | .chars text => text.head? ≠ some '\uFEFF' ∧ text.head? ≠ some '\uFFFE'

instance (segment : Segment) : Decidable segment.Unmarked := by
  cases segment
  · exact isTrue trivial
  · exact instDecidableAnd

theorem alphabet_septets : alphabetFromDcs 0x00 = .gsm7 := by decide

theorem alphabet_chars : alphabetFromDcs 0x08 = .ucs2 := by decide

/-- Octets after a header are what comes after it. -/
theorem payloadOf_append (header e : List Nat) :
    payloadOf (header ++ e) (header ++ e).length header.length = e := by
  unfold payloadOf
  rw [if_pos (Nat.le_refl _), List.take_length, List.drop_left]

/-- **The user data of a segment** fits, and its text is read back. -/
theorem userData_spec (ref index : Nat) {total : Nat} {segment : Segment} {part : List Char}
    (hcarries : segment.Carries part) (hfits : segment.Fits (1 < total))
    (hunmarked : segment.Unmarked) :
    ∃ payload, (segment.userData (headerOf ref total index)).2 =
        headerOf ref total index ++ payload ∧
      (∀ x ∈ payload, x < 256) ∧
      (segment.userData (headerOf ref total index)).2.length ≤ 140 ∧
      (segment.userData (headerOf ref total index)).1 ≤ 160 ∧
      textOf (segment.userData (headerOf ref total index)).2
        (segment.userData (headerOf ref total index)).1 (headerOf ref total index).length
        (alphabetFromDcs segment.dcs) = part ∧
      (segment.userData (headerOf ref total index)).1 =
        match alphabetFromDcs segment.dcs with
        | .gsm7 => headerSeptets (headerOf ref total index).length +
            ((encode part).getD []).length
        | _     => (segment.userData (headerOf ref total index)).2.length := by
  have hlen := length_headerOf ref total index
  cases segment with
  | septets ss =>
    have hss : encode part = some ss := hcarries
    have hle : ss.length ≤ if 1 < total then 153 else 160 := hfits
    obtain ⟨hoctets, hpack, -⟩ :=
      pack_spec (encode_lt hss) (fillBitsOf (headerOf ref total index).length)
    have hfill : (headerOf ref total index).length + (fillBitsOf (headerOf ref total index).length +
        7 * ss.length + 7) / 8 ≤ 140 ∧
        headerSeptets (headerOf ref total index).length + ss.length ≤ 160 := by
      unfold headerSeptets fillBitsOf
      rw [hlen]
      split at hle
      · rename_i h
        rw [if_pos h]
        omega
      · rename_i h
        rw [if_neg h]
        omega
    rw [show alphabetFromDcs (Segment.septets ss).dcs = .gsm7 from alphabet_septets]
    refine ⟨pack ss (fillBitsOf (headerOf ref total index).length), rfl, hoctets, ?_, hfill.2, ?_,
      ?_⟩
    · show (headerOf ref total index ++ _).length ≤ 140
      rw [List.length_append, hpack]
      exact hfill.1
    · show decode (unpack ((headerOf ref total index ++ _).drop _) (_ + ss.length - _) _) = part
      rw [List.drop_left, Nat.add_sub_cancel_left, unpack_pack (encode_lt hss), decode_encode hss]
    · show _ = headerSeptets _ + ((encode part).getD []).length
      rw [hss]
      rfl
  | chars text =>
    obtain rfl : text = part := hcarries
    have hle : (Utf16.encode text).length ≤ if 1 < total then 134 else 140 := hfits
    have hroom : (headerOf ref total index ++ Utf16.encode text).length ≤ 140 := by
      rw [List.length_append, hlen]
      split at hle
      · rename_i h
        rw [if_pos h]
        omega
      · rename_i h
        rw [if_neg h]
        omega
    rw [show alphabetFromDcs (Segment.chars text).dcs = .ucs2 from alphabet_chars]
    refine ⟨Utf16.encode text, rfl, Utf16.encode_lt text, hroom, Nat.le_trans hroom (by decide), ?_,
      rfl⟩
    show decodeUcs2 (payloadOf (headerOf ref total index ++ Utf16.encode text)
      (headerOf ref total index ++ Utf16.encode text).length (headerOf ref total index).length) = text
    rw [payloadOf_append]
    exact decodeUcs2_encode hunmarked.1 hunmarked.2

/-- A text of digits has no white space, and its octets are read. -/
theorem fromHex_cleaned {octets : List Nat} (h : ∀ x ∈ octets, x < 256) :
    fromHex (cleaned (String.ofList (toHex octets))) = some octets := by
  have hclean : cleaned (String.ofList (toHex octets)) = toHex octets := by
    unfold cleaned
    rw [String.toList_ofList]
    refine List.filter_eq_self.mpr fun c hc => ?_
    obtain ⟨n, hn, rfl⟩ := mem_toHex h hc
    have hall : ∀ n < 16, (!pyIsSpace (hexChar n)) = true := by decide
    exact hall n hn
  rw [hclean, fromHex_toHex h]

/-- **A submit is read back**, up to its user data. -/
theorem decodePdu_submit (recover : List Nat → String × String) {number : String}
    (h : Dialable number) (report udhi : Bool) {validity dcs udl : Nat} {body : List Nat}
    (hfields : ∀ x ∈ [0, dcs, validity, udl], x < 256) (hbody : ∀ x ∈ body, x < 256)
    (hudh : udhi = true → body ≠ []) :
    ∃ sms, decodePdu recover (String.ofList
        (toHex (0 :: tpduOctets number report udhi validity dcs udl body))) = .ok sms ∧
      sms.text = String.ofList (textOf body udl (udhOctets body udhi) (alphabetFromDcs dcs)) ∧
      sms.address = String.ofList (addressOf number) ∧ sms.concat = (udhOf body udhi).concat := by
  obtain ⟨r', ht⟩ := decodeTpdu_submit h report udhi validity dcs udl body
  have hoctets : ∀ x ∈ 0 :: tpduOctets number report udhi validity dcs udl body, x < 256 := by
    intro x hx
    rcases List.mem_cons.mp hx with rfl | hx
    · decide
    · exact tpduOctets_lt h report udhi hfields hbody x hx
  have hasUdh : (submitted number report udhi dcs udl body).hasUdh = udhi :=
    (firstOctet_spec report udhi).2.2.2.2
  have hdata : decodeUserData body udl dcs (submitted number report udhi dcs udl body).hasUdh =
      .ok (textOf body udl (udhOctets body udhi) (alphabetFromDcs dcs), udhOf body udhi) := by
    unfold decodeUserData
    rw [hasUdh, if_neg fun hc => hudh hc.1 hc.2]
  unfold decodePdu
  rw [fromHex_cleaned hoctets]
  dsimp only
  rw [show decodeTpdu.run { rest := 0 :: tpduOctets number report udhi validity dcs udl body } = _
    from ht]
  show ∃ sms, (decodeUserData body udl dcs
    (submitted number report udhi dcs udl body).hasUdh >>= _) = .ok sms ∧ _
  rw [hdata]
  refine ⟨_, rfl, ?_, ?_, ?_⟩
  · rfl
  · dsimp only [submitted]
  · rfl

/-- A segment that was sent and read: its text, its sender and its place. -/
structure ReadBack (recover : List Nat → String × String) (number : String) (ref total index : Nat)
    (part : List Char) (pdu : EncodedPdu) (sms : Modem.DecodedSms) : Prop where
  place    : pdu.seq = index
  decoded  : decodePdu recover pdu.pduHex = .ok sms
  text     : sms.text = String.ofList part
  address  : sms.address = String.ofList (addressOf number)
  concat   : sms.concat = concatOf ref total index
  measured : Measured pdu part

/-- The PDU of a segment with this user data. -/
def pduOf (number : String) (report udhi : Bool) (validity dcs udl : Nat) (body : List Nat)
    (index total : Nat) : EncodedPdu where
  pduHex := String.ofList (toHex (0 :: tpduOctets number report udhi validity dcs udl body))
  tpduLen := (tpduOctets number report udhi validity dcs udl body).length
  seq := index
  total := total

theorem headerOf_lt {ref total index : Nat} (href : ref ≤ 255) (htotal : total ≤ 255)
    (hindex : index ≤ total) : ∀ x ∈ [5, 0, 3, ref, total, index], x < 256 := by
  simp only [List.forall_mem_cons, List.not_mem_nil, false_imp_iff, implies_true, and_true]
  omega

/-- The header that is built. -/
theorem buildUdh_ok {ref total index : Nat} (href : ref ≤ 255) (htotal : total ≤ 255)
    (hindex : index ≤ total) :
    (if 1 < total then buildUdh ref total index else .ok []) = .ok (headerOf ref total index) := by
  unfold headerOf buildUdh
  rw [show (0xff : Nat) = 2 ^ 8 - 1 from rfl, Nat.and_two_pow_sub_one_eq_mod,
    Nat.mod_eq_of_lt (by omega : ref < 2 ^ 8), bytesOf_ok (headerOf_lt href htotal hindex)]
  split <;> rfl

/-- What `encodeSegment` makes of a segment. -/
theorem encodeSegment_eq (number : String) {ref validity total index udl : Nat} {body : List Nat}
    (href : ref ≤ 255) (htotal : total ≤ 255) (hindex : index ≤ total) (report : Bool)
    {segment : Segment}
    (hud : segment.userData (headerOf ref total index) = (udl, body))
    (hfields : ∀ x ∈ [0, segment.dcs, validity, udl], x < 256) :
    encodeSegment (addressOctets number) ref validity total report index segment =
      .ok (pduOf number report (!(headerOf ref total index).isEmpty) validity segment.dcs udl body
        index total) := by
  have hfirst : ∀ x ∈ [firstOctet report (!(headerOf ref total index).isEmpty), 0], x < 256 := by
    intro x hx
    rcases List.mem_cons.mp hx with rfl | hx
    · exact (firstOctet_spec _ _).1
    · obtain rfl := List.mem_singleton.mp hx
      decide
  unfold encodeSegment
  rw [buildUdh_ok href htotal hindex]
  dsimp only [bind, Except.bind]
  rw [hud]
  dsimp only
  rw [bytesOf_ok hfirst, bytesOf_ok hfields]
  rfl

/-- **One segment is read back.** -/
theorem encodeSegment_spec (recover : List Nat → String × String) {number : String}
    (hnumber : Dialable number) {ref validity total index : Nat} (href : ref ≤ 255)
    (hvalidity : validity ≤ 255) (htotal : total ≤ 255) (hindex : index ≤ total) (report : Bool)
    {segment : Segment} {part : List Char} (hcarries : segment.Carries part)
    (hfits : segment.Fits (1 < total)) (hunmarked : segment.Unmarked) :
    ∃ pdu sms, encodeSegment (addressOctets number) ref validity total report index segment =
        .ok pdu ∧ ReadBack recover number ref total index part pdu sms := by
  obtain ⟨payload, hbody, hpayload, hroom, hudl, htext, hneeded⟩ :=
    userData_spec ref index hcarries hfits hunmarked
  have hdcs : segment.dcs ≤ 8 := by
    cases segment
    · exact Nat.zero_le 8
    · exact Nat.le_refl 8
  generalize hud : segment.userData (headerOf ref total index) = ud at hbody hroom hudl htext hneeded
  obtain ⟨udl, body⟩ := ud
  dsimp only at hbody hroom hudl htext hneeded
  have hfields : ∀ x ∈ [0, segment.dcs, validity, udl], x < 256 := by
    simp only [List.forall_mem_cons, List.not_mem_nil, false_imp_iff, implies_true, and_true]
    omega
  have hbody' : ∀ x ∈ body, x < 256 := by
    intro x hx
    rw [hbody] at hx
    rcases List.mem_append.mp hx with hx | hx
    · unfold headerOf at hx
      split at hx
      · exact headerOf_lt href htotal hindex x hx
      · cases hx
    · exact hpayload x hx
  have hne : (!(headerOf ref total index).isEmpty) = true → body ≠ [] := by
    intro hudhi hnil
    rw [hnil] at hbody
    rw [(List.append_eq_nil_iff.mp hbody.symm).1] at hudhi
    cases hudhi
  have hoctets : udhOctets body (!(headerOf ref total index).isEmpty) =
      (headerOf ref total index).length := by
    rw [hbody]
    exact udhOctets_headerOf ref total index payload
  obtain ⟨sms, hsms, htext', haddress, hconcat⟩ := decodePdu_submit recover hnumber report
    (!(headerOf ref total index).isEmpty) hfields hbody' hne
  obtain ⟨r', ht⟩ := decodeTpdu_submit hnumber report (!(headerOf ref total index).isEmpty)
    validity segment.dcs udl body
  refine ⟨_, sms, encodeSegment_eq number href htotal hindex report hud hfields, rfl, hsms, ?_, haddress,
    ?_, ?_⟩
  · rw [htext', hoctets, htext]
  · rw [hconcat, hbody, udhOf_headerOf]
  · refine ⟨_, _, r', fromHex_cleaned fun x hx => ?_, ht, rfl, hroom, ?_⟩
    · rcases List.mem_cons.mp hx with rfl | hx
      · decide
      · exact tpduOctets_lt hnumber report _ hfields hbody' x hx
    · have hasUdh : (submitted number report (!(headerOf ref total index).isEmpty) segment.dcs udl
          body).hasUdh = !(headerOf ref total index).isEmpty := (firstOctet_spec report _).2.2.2.2
      unfold neededLength
      rw [hasUdh]
      show udl = match alphabetFromDcs segment.dcs with
        | .gsm7 => headerSeptets (udhOctets body (!(headerOf ref total index).isEmpty)) +
            ((encode part).getD []).length
        | _     => body.length
      rw [hoctets]
      exact hneeded

/-! ## The message -/

/-- The segments from `index` on, with the text of each place. -/
theorem encodeFrom_spec (recover : List Nat → String × String) {number : String}
    (hnumber : Dialable number) {ref validity total : Nat} (index : Nat) (href : ref ≤ 255)
    (hvalidity : validity ≤ 255) (htotal : total ≤ 255) (report : Bool)
    {segments : List Segment} {texts : List (List Char)}
    (hsegments : List.Forall₂ (fun seg text => Segment.Carries seg text ∧ seg.Fits (1 < total))
      segments texts)
    (hunmarked : ∀ seg ∈ segments, seg.Unmarked) (hindex : index + segments.length ≤ total + 1) :
    ∃ (pdus : List EncodedPdu) (parts : Nat → Modem.DecodedSms),
      encodeFrom (addressOctets number) ref validity total report index segments = .ok pdus ∧
      pdus.map EncodedPdu.seq = List.range' index segments.length ∧
      (∀ pdu ∈ pdus, ∃ text, ReadBack recover number ref total pdu.seq text pdu (parts pdu.seq)) ∧
      (List.range' index segments.length).map (fun i => (parts i).text) =
        texts.map String.ofList := by
  induction hsegments generalizing index with
  | nil => exact ⟨[], fun _ => ⟨"", "", "", none, none, 0, "", none, "", none, false, false, 0, false,
      "", "", []⟩, rfl, rfl, nofun, rfl⟩
  | cons hseg hrest ih =>
    rename_i segment text segments texts
    rw [List.length_cons] at hindex
    obtain ⟨pdu, sms, hpdu, hread⟩ := encodeSegment_spec recover hnumber href hvalidity htotal
      (by omega : index ≤ total) report hseg.1 hseg.2 (hunmarked segment List.mem_cons_self)
    obtain ⟨pdus, parts, hpdus, hseq, hreads, htexts⟩ := ih (index + 1)
      (fun seg hmem => hunmarked seg (List.mem_cons_of_mem segment hmem))
      (by omega : index + 1 + segments.length ≤ total + 1)
    -- the places after the first are larger
    have hlater : ∀ i ∈ List.range' (index + 1) segments.length,
        Function.update parts index sms i = parts i := by
      intro i hi
      have hlt := (List.mem_range'_1.mp hi).1
      exact Function.update_of_ne (by omega : i ≠ index) sms parts
    refine ⟨pdu :: pdus, Function.update parts index sms, ?_, ?_, ?_, ?_⟩
    · rw [encodeFrom, hpdu]
      show (encodeFrom (addressOctets number) ref validity total report (index + 1) segments >>= _) =
        _
      rw [hpdus]
      rfl
    · rw [List.map_cons, hread.place, hseq]
      rfl
    · intro pdu' hmem
      rcases List.mem_cons.mp hmem with rfl | hmem
      · rw [hread.place, Function.update_self]
        exact ⟨text, hread⟩
      · rw [hlater pdu'.seq (hseq ▸ List.mem_map_of_mem hmem)]
        exact hreads pdu' hmem
    · rw [List.length_cons, List.range'_succ, List.map_cons, List.map_cons, Function.update_self,
        hread.text, ← htexts]
      refine congrArg _ (List.map_congr_left fun i hi => ?_)
      rw [hlater i hi]

/-- Segments taken up one after the other, each with the time on the clock: what `push` returns. -/
def deliver (recover : List Nat → String × String) (r : Reassembler) :
    List (Nat × EncodedPdu) → Except PduError (List (Option Modem.DecodedSms))
  | []                 => .ok []
  | (now, pdu) :: rest => do
    let sms ← decodePdu recover pdu.pduHex
    let next := r.push now sms
    let outs ← deliver recover next.1 rest
    return next.2 :: outs

/-- When every segment is decoded, `push` gets the decoded ones. -/
theorem deliver_eq {recover : List Nat → String × String} {parts : Nat → Modem.DecodedSms}
    {pushes : List (Nat × EncodedPdu)}
    (h : ∀ e ∈ pushes, decodePdu recover e.2.pduHex = .ok (parts e.2.seq)) (r : Reassembler) :
    deliver recover r pushes =
      .ok (r.feed (pushes.map fun e => (e.1, parts e.2.seq))).2 := by
  induction pushes generalizing r with
  | nil => rfl
  | cons e pushes ih =>
    rw [deliver, h e List.mem_cons_self]
    show (deliver recover (r.push e.1 (parts e.2.seq)).1 pushes >>= _) = _
    rw [ih fun e' he' => h e' (List.mem_cons_of_mem e he')]
    rfl

theorem join_ofList (texts : List (List Char)) :
    String.join (texts.map String.ofList) = String.ofList texts.flatten := by
  induction texts with
  | nil => rfl
  | cons text texts ih =>
    rw [List.map_cons, String.join_cons, ih, List.flatten_cons, String.ofList_append]

/-- ASCII digits are read back as they are. -/
theorem digitsOf_ascii {number : String}
    (h : ∀ c ∈ number.toList, (Schedule.digit c).isSome → c.isDigit) :
    (digitsOf number).map hexChar = number.toList.filter Char.isDigit := by
  unfold digitsOf
  generalize number.toList = cs at h
  induction cs with
  | nil => rfl
  | cons c cs ih =>
    have ih' := ih fun c' hc' => h c' (List.mem_cons_of_mem c hc')
    by_cases hdigit : c.isDigit = true
    · have hrange : 48 ≤ c.toNat ∧ c.toNat ≤ 57 := by
        unfold Char.isDigit at hdigit
        rw [Bool.and_eq_true, decide_eq_true_iff, decide_eq_true_iff] at hdigit
        exact hdigit
      have hvalue : Schedule.digit c = some (c.toNat - 48) := by
        unfold Schedule.digit Schedule.DIGIT_ZEROS
        rw [List.find?_cons_of_pos (by simpa using hrange)]
        rfl
      have hback : hexChar (c.toNat - 48) = c := by
        unfold hexChar
        rw [if_pos (by omega), show 48 + (c.toNat - 48) = c.toNat by omega, Char.ofNat_toNat]
      rw [List.filterMap_cons_some hvalue, List.map_cons, hback, List.filter_cons_of_pos hdigit, ih']
    · have hnone : Schedule.digit c = none := by
        cases hc : Schedule.digit c with
        | none => rfl
        | some d => exact absurd (h c List.mem_cons_self (hc ▸ rfl)) hdigit
      rw [List.filterMap_cons_none hnone, List.filter_cons_of_neg hdigit, ih']

theorem segmentsOf_ne_nil (forceUcs2 : Bool) (text : List Char) : segmentsOf forceUcs2 text ≠ [] := by
  have hne : ∀ (l : List Segment) (seg : Segment), (if l.isEmpty then [seg] else l) ≠ [] := by
    intro l seg
    cases l <;> exact nofun
  unfold segmentsOf
  split
  · exact hne _ _
  · exact hne _ _

/-- The sign of a number that starts with one. -/
def signOf (number : String) : List Char :=
  if (pyStrip number).toList.head? = some '+' then ['+'] else []

theorem addressOf_eq (number : String) :
    addressOf number = signOf number ++ (digitsOf number).map hexChar := by
  unfold addressOf signOf isInternational
  by_cases h : (pyStrip number).toList.head? = some '+'
  · rw [if_pos h, if_pos (beq_iff_eq.mpr h)]
    rfl
  · rw [if_neg h, if_neg fun hc => h (beq_iff_eq.mp hc)]
    rfl

/-- The decoded segments in any order: nothing, and then the whole message. -/
theorem feed_message {recover : List Nat → String × String} {number : String} {ref total : Nat}
    {pdus : List EncodedPdu} {parts : Nat → Modem.DecodedSms} (hpos : 0 < total)
    (hseq : pdus.map EncodedPdu.seq = List.range' 1 total)
    (hreads : ∀ pdu ∈ pdus, ∃ part,
      ReadBack recover number ref total pdu.seq part pdu (parts pdu.seq))
    {order : List (Nat × Nat)} (hperm : (order.map Prod.snd).Perm (Reassembler.numbers total)) :
    ∃ merged, (Reassembler.feed {} (order.map fun e => (e.1, parts e.2))).2 =
        List.replicate (order.length - 1) none ++ [some merged] ∧
      merged.address = String.ofList (addressOf number) ∧
      merged.text = String.join ((Reassembler.numbers total).map fun i => (parts i).text) := by
  have hplace : ∀ i, i ∈ Reassembler.numbers total → ∃ part pdu,
      ReadBack recover number ref total i part pdu (parts i) := by
    intro i hi
    obtain ⟨pdu, hpdu, rfl⟩ := List.mem_map.mp (hseq ▸ hi : i ∈ pdus.map EncodedPdu.seq)
    obtain ⟨part, hread⟩ := hreads pdu hpdu
    exact ⟨part, pdu, hread⟩
  have haddress : ∀ i, 1 ≤ i → i ≤ total →
      (parts i).address = String.ofList (addressOf number) := by
    intro i hi hle
    obtain ⟨part, pdu, hread⟩ := hplace i (Reassembler.mem_numbers.mpr ⟨hi, hle⟩)
    exact hread.address
  have hnumbered : 1 < total →
      Reassembler.Numbered parts (String.ofList (addressOf number)) ref total := by
    refine fun hmany => ⟨fun i hi hle => ?_, haddress⟩
    obtain ⟨part, pdu, hread⟩ := hplace i (Reassembler.mem_numbers.mpr ⟨hi, hle⟩)
    rw [hread.concat]
    exact if_pos hmany
  refine Reassembler.feed_whole hpos hnumbered ?_ hperm
  rintro rfl
  obtain ⟨part, pdu, hread⟩ := hplace 1 (Reassembler.mem_numbers.mpr ⟨Nat.le_refl 1, Nat.le_refl 1⟩)
  refine ⟨hread.address, ?_⟩
  rw [hread.concat]
  exact nofun

/-- **A message is encoded, decoded and put together as it was**, in whatever order and at whatever
    times its segments come; and every segment fits and declares its lengths right. -/
theorem submit_round_trip (recover : List Nat → String × String) {number text : String}
    {ref validity : Nat} (forceUcs2 report : Bool) (hnumber : Dialable number) (href : ref ≤ 255)
    (hvalidity : validity ≤ 255) (hcount : (segmentsOf forceUcs2 text.toList).length ≤ 255)
    (hunmarked : ∀ seg ∈ segmentsOf forceUcs2 text.toList, seg.Unmarked) :
    ∃ pdus, encodeSubmit number text ref validity forceUcs2 report = .ok pdus ∧
      (∀ pushes : List (Nat × EncodedPdu), (pushes.map Prod.snd).Perm pdus →
        ∃ merged : Modem.DecodedSms, deliver recover {} pushes =
            .ok (List.replicate (pushes.length - 1) none ++ [some merged]) ∧
          merged.text = text ∧
          merged.address = String.ofList (signOf number ++ (digitsOf number).map hexChar) ∧
          ((∀ c ∈ number.toList, (Schedule.digit c).isSome → c.isDigit) →
            merged.address = String.ofList (signOf number ++ number.toList.filter Char.isDigit))) ∧
      ∀ pdu ∈ pdus, ∃ sms, decodePdu recover pdu.pduHex = .ok sms ∧
        Measured pdu sms.text.toList := by
  obtain ⟨texts, hflat, hsegments⟩ := segmentsOf_spec forceUcs2 text.toList
  have hpos := List.length_pos_of_ne_nil (segmentsOf_ne_nil forceUcs2 text.toList)
  obtain ⟨pdus, parts, hpdus, hseq, hreads, htexts⟩ := encodeFrom_spec recover hnumber 1 href
    hvalidity hcount report hsegments hunmarked (by omega)
  have hencode : encodeSubmit number text ref validity forceUcs2 report = .ok pdus := by
    unfold encodeSubmit
    rw [encodeAddress_ok hnumber, ← hpdus]
    rfl
  refine ⟨pdus, hencode, fun pushes hperm => ?_, fun pdu hpdu => ?_⟩
  · have hdecode : ∀ e ∈ pushes, decodePdu recover e.2.pduHex = .ok (parts e.2.seq) := by
      intro e he
      obtain ⟨part, hread⟩ := hreads e.2 (hperm.subset (List.mem_map_of_mem he))
      exact hread.decoded
    have hplaces : ((pushes.map fun e => (e.1, e.2.seq)).map Prod.snd).Perm
        (Reassembler.numbers (segmentsOf forceUcs2 text.toList).length) := by
      have h := hperm.map EncodedPdu.seq
      rw [List.map_map, hseq] at h
      rw [List.map_map]
      exact h
    obtain ⟨merged, houts, haddress, hmerged⟩ := feed_message hpos hseq hreads hplaces
    rw [List.map_map, List.length_map] at houts
    rw [htexts, join_ofList, hflat, String.ofList_toList] at hmerged
    rw [addressOf_eq] at haddress
    refine ⟨merged, ?_, hmerged, haddress, fun hascii => ?_⟩
    · rw [deliver_eq hdecode]
      exact congrArg Except.ok houts
    · rw [haddress, digitsOf_ascii hascii]
  · obtain ⟨part, hread⟩ := hreads pdu hpdu
    refine ⟨parts pdu.seq, hread.decoded, ?_⟩
    rw [hread.text, String.toList_ofList]
    exact hread.measured

/-- 71 characters in UCS-2 take two segments, which may come the other way round. -/
theorem submit_round_trip_two :
    ∃ pdus, encodeSubmit "+86 10086" (String.ofList (List.replicate 71 'a')) 7 0xaa true true =
        .ok pdus ∧
      ∀ pushes : List (Nat × EncodedPdu), (pushes.map Prod.snd).Perm pdus →
        ∃ merged : Modem.DecodedSms, deliver (fun _ => ("", "")) {} pushes =
            .ok (List.replicate (pushes.length - 1) none ++ [some merged]) ∧
          merged.text = String.ofList (List.replicate 71 'a') := by
  have hnumber : Dialable "+86 10086" := ⟨by decide +kernel, by decide +kernel⟩
  have hcount : (segmentsOf true (String.ofList (List.replicate 71 'a')).toList).length ≤ 255 := by
    rw [String.toList_ofList]
    decide +kernel
  have hunmarked : ∀ seg ∈ segmentsOf true (String.ofList (List.replicate 71 'a')).toList,
      seg.Unmarked := by
    rw [String.toList_ofList]
    decide +kernel
  obtain ⟨pdus, hencode, hpushes, -⟩ := submit_round_trip (fun _ => ("", "")) true true hnumber
    (by decide : 7 ≤ 255) (by decide : 0xaa ≤ 255) hcount hunmarked
  refine ⟨pdus, hencode, fun pushes hperm => ?_⟩
  obtain ⟨merged, hdeliver, htext, -⟩ := hpushes pushes hperm
  exact ⟨merged, hdeliver, htext⟩

end Air780eHub.Pdu
