/-
  A long message that its sender cut anywhere.

  The sender writes the text as code units, UTF-16 or septets, cuts them where it likes, and puts
  each piece behind a header of its own.  Each segment is decoded by itself, and the texts are put
  together.

  1. **Units**: what a text is written as, and that the decoders read units as a `Pairing`.
  2. **Segments**: an SMS-DELIVER with any service centre, timestamp and further header elements.
  3. **Any order** (`receive_pieces`): the message is the pieces, each read by itself.
  4. **Transparent cuts** (`receive_pieces_iff`): it is the text exactly when no piece ends in a
     high surrogate or an escape.
-/
import Air780eHub.Lib.Pairs
import Air780eHub.Pdu.RoundTrip

namespace Air780eHub.Pdu

open Modem (Concat Reassembler)

/-! ## Units -/

/-- An escape leads the septet after it.  `decode` reads an escape at the end as a space. -/
def escapes : Pairing Nat Char where
  lead s := s == ESC
  trail s := s != ESC
  single s := BASIC_TABLE.getD s ' '
  pair _ s := escaped s
  alone := ' '
  apart s h := by
    rw [bne_iff_ne] at h
    exact beq_false_of_ne h

/-- **Septets are decoded as pairs.** -/
theorem decodeFrom_eq {o : Option Nat} {ss : List Nat} (hlt : ∀ s ∈ ss, s < 128) :
    decodeFrom o.isSome ss = escapes.readFrom o ss := by
  induction ss generalizing o with
  | nil => cases o <;> rfl
  | cons s ss ih =>
    rw [List.forall_mem_cons] at hlt
    cases o with
    | some l =>
      show escaped s :: decodeFrom false ss = escaped s :: escapes.readFrom none ss
      rw [← ih (o := none) hlt.2]
      rfl
    | none =>
      show decodeFrom false (s :: ss) = escapes.readFrom none (s :: ss)
      rw [decodeFrom, Pairing.readFrom]
      by_cases hesc : s = ESC
      · rw [if_pos hesc, if_pos (show escapes.lead s = true from beq_iff_eq.mpr hesc)]
        exact ih (o := some s) hlt.2
      · rw [if_neg hesc, if_pos hlt.1,
          if_neg (show ¬ escapes.lead s = true from fun h => hesc (beq_iff_eq.mp h)),
          ← ih (o := none) hlt.2]
        rfl

theorem decode_eq {ss : List Nat} (hlt : ∀ s ∈ ss, s < 128) : decode ss = escapes.read ss :=
  decodeFrom_eq (o := none) hlt

/-- **The septets of a text are complete.** -/
theorem complete_encode {text : List Char} {ss : List Nat} (h : encode text = some ss) :
    escapes.Complete false ss := by
  induction text generalizing ss with
  | nil =>
    obtain rfl := Option.some.inj h
    trivial
  | cons c text ih =>
    obtain ⟨s, rest, hs, hrest, rfl⟩ := encode_cons h
    rcases septetsOf_cases hs with ⟨x, rfl, -, hne, -⟩ | ⟨x, rfl, -, hne, -⟩
    · have hlead : escapes.lead x = false := beq_false_of_ne hne
      rw [List.singleton_append, Pairing.complete_cons, hlead]
      exact ih hrest
    · have htrail : escapes.trail x = true := bne_iff_ne.mpr hne
      rw [List.cons_append, List.singleton_append, Pairing.complete_cons]
      show escapes.Complete true (x :: rest)
      rw [Pairing.complete_trail]
      exact ⟨htrail, ih hrest⟩

/-- How a sender writes a text. -/
inductive Coding
  | gsm7
  | ucs2
deriving DecidableEq, Repr

namespace Coding

def alphabet : Coding → Alphabet
  | gsm7 => .gsm7
  | ucs2 => .ucs2

/-- The units of a text; a text that is not in the default alphabet has no septets. -/
def units : Coding → List Char → Option (List Nat)
  | gsm7, text => encode text
  | ucs2, text => some (Utf16.units text)

def pairing : Coding → Pairing Nat Char
  | gsm7 => escapes
  | ucs2 => Utf16.surrogates

def bound : Coding → Nat
  | gsm7 => 128
  | ucs2 => 65536

/-- The declared length and the user data of a piece. -/
def userData (header us : List Nat) : Coding → Nat × List Nat
  | gsm7 => (headerSeptets header.length + us.length, header ++ pack us (fillBitsOf header.length))
  | ucs2 => ((header ++ Utf16.bytes us).length, header ++ Utf16.bytes us)

/-- A piece in UCS-2 does not start with a byte order mark, of either order. -/
def Unmarked (us : List Nat) : Coding → Prop
  | gsm7 => True
  | ucs2 => us.head? ≠ some 0xfeff ∧ us.head? ≠ some 0xfffe

instance (us : List Nat) (c : Coding) : Decidable (c.Unmarked us) := by
  cases c
  · exact isTrue trivial
  · exact instDecidableAnd

/-- **The units of a text** are complete, and read as the text. -/
theorem units_spec {c : Coding} {text : List Char} {us : List Nat} (h : c.units text = some us) :
    (∀ u ∈ us, u < c.bound) ∧ c.pairing.Complete false us ∧ c.pairing.read us = text := by
  cases c with
  | gsm7 =>
    have hlt := encode_lt h
    refine ⟨hlt, complete_encode h, ?_⟩
    show escapes.read us = text
    rw [← decode_eq hlt, decode_encode h]
  | ucs2 =>
    obtain rfl := Option.some.inj h
    exact ⟨Utf16.units_lt text, Utf16.complete_units text, Utf16.read_units text⟩

end Coding

/-- Units without a mark in front are decoded big-endian. -/
theorem decodeUcs2_bytes {us : List Nat} (hlt : ∀ u ∈ us, u < 65536)
    (hmark : Coding.ucs2.Unmarked us) :
    decodeUcs2 (Utf16.bytes us) = Utf16.decode Utf16.bigEndian (Utf16.bytes us) := by
  have hhead : ∀ a b : Nat, b < 256 → (Utf16.bytes us).take 2 = [a, b] →
      us.head? = some (256 * a + b) := by
    intro a b hb htake
    cases us with
    | nil => cases htake
    | cons u us =>
      have hoctets : [u / 256, u % 256] = [a, b] := htake
      obtain ⟨ha, h⟩ := List.cons.inj hoctets
      obtain ⟨hb', -⟩ := List.cons.inj h
      rw [List.head?_cons]
      exact congrArg some (by omega)
  unfold decodeUcs2
  split
  · rename_i htake
    exact absurd (hhead 0xfe 0xff (by decide) htake) hmark.1
  · split
    · rename_i htake
      exact absurd (hhead 0xff 0xfe (by decide) htake) hmark.2
    · rfl

/-- **A piece is read by itself.** -/
theorem textOf_userData {c : Coding} {us : List Nat} (header : List Nat)
    (hlt : ∀ u ∈ us, u < c.bound) (hcoherent : c.pairing.Coherent false us)
    (hmark : c.Unmarked us) :
    textOf (c.userData header us).2 (c.userData header us).1 header.length c.alphabet =
      c.pairing.read us := by
  cases c with
  | gsm7 =>
    show decode (unpack ((header ++ _).drop _) (_ + us.length - _) _) = escapes.read us
    rw [List.drop_left, Nat.add_sub_cancel_left, unpack_pack hlt, decode_eq hlt]
  | ucs2 =>
    show decodeUcs2 (payloadOf (header ++ Utf16.bytes us) (header ++ Utf16.bytes us).length
      header.length) = Utf16.surrogates.read us
    rw [payloadOf_append, decodeUcs2_bytes hlt hmark, Utf16.decode_bytes hlt hcoherent]

/-! ## Segments -/

/-- An address field: its length in digits, its type and its octets. -/
structure Sender where
  length : Nat
  toa    : Nat
  octets : List Nat
  fits   : octets.length = (length + 1) / 2

namespace Sender

def field (s : Sender) : List Nat :=
  if s.length = 0 then [0] else s.length :: s.toa :: s.octets

/-- What the address is read as. -/
def text (s : Sender) : List Char :=
  if s.length = 0 then []
  else if s.toa &&& 0x70 = 0x50 then decode (unpack s.octets (s.length * 4 / 7) 0)
  else internationalOr s.toa (decodeDigits s.octets s.length)

theorem decode_field (s : Sender) (tl : List Nat) (pos : Nat) :
    ∃ toa pos', decodeAddress ⟨s.field ++ tl, pos⟩ = .ok ((s.text, toa), ⟨tl, pos'⟩) := by
  unfold field text
  split
  · exact ⟨0, pos + 1, bind_ok byte_cons⟩
  · rename_i hpos
    rw [List.cons_append, List.cons_append]
    unfold decodeAddress
    rw [bind_ok byte_cons, if_neg hpos, bind_ok byte_cons, bind_ok (take_append s.fits)]
    split
    · exact ⟨s.toa, _, rfl⟩
    · exact ⟨s.toa, _, rfl⟩

end Sender

/-- What stands around the address and the user data of an SMS-DELIVER with a header. -/
structure Envelope where
  smsc    : List Nat
  first   : Nat
  pid     : Nat
  dcs     : Nat
  scts    : List Nat
  deliver : first &&& 0x03 = 0
  udhi    : first &&& 0x40 ≠ 0
  seven   : scts.length = 7

/-- The octets of an SMS-DELIVER. -/
def Envelope.octets (e : Envelope) (s : Sender) (udl : Nat) (body : List Nat) : List Nat :=
  e.smsc.length :: (e.smsc ++ e.first :: (s.field ++ e.pid :: e.dcs :: (e.scts ++ udl :: body)))

theorem decodeSmsc_append (smsc tl : List Nat) :
    ∃ name pos, decodeSmsc { rest := smsc.length :: (smsc ++ tl) } = .ok (name, ⟨tl, pos⟩) := by
  unfold decodeSmsc
  rw [bind_ok byte_cons]
  split
  · rename_i hnone
    rw [List.eq_nil_of_length_eq_zero hnone]
    exact ⟨none, _, rfl⟩
  · rw [bind_ok (take_append rfl)]
    exact ⟨_, _, rfl⟩

/-- **An SMS-DELIVER is read**, up to its user data. -/
theorem decodeTpdu_deliver (e : Envelope) (s : Sender) (udl : Nat) (body : List Nat) :
    ∃ t r', decodeTpdu { rest := e.octets s udl body } = .ok (t, r') ∧ t.address = s.text ∧
      t.hasUdh = true ∧ t.dcs = e.dcs ∧ t.udl = udl ∧ t.body = body := by
  obtain ⟨name, pos, hsmsc⟩ := decodeSmsc_append e.smsc
    (e.first :: (s.field ++ e.pid :: e.dcs :: (e.scts ++ udl :: body)))
  obtain ⟨toa, pos', haddress⟩ := s.decode_field (e.pid :: e.dcs :: (e.scts ++ udl :: body)) (pos + 1)
  unfold Envelope.octets decodeTpdu
  rw [bind_ok hsmsc, bind_ok byte_cons, if_pos e.deliver]
  unfold decodeDeliver
  rw [bind_ok haddress]
  dsimp only
  rw [bind_ok rfl, bind_ok byte_cons, bind_ok byte_cons, bind_ok (take_append e.seven),
    bind_ok byte_cons]
  exact ⟨_, _, rfl, rfl, bne_iff_ne.mpr e.udhi, rfl, rfl, rfl⟩

/-- A PDU that carries a piece at a place: its header says so, with whatever else it says. -/
def IsSegment (c : Coding) (s : Sender) (place : Concat) (us : List Nat) (pdu : String) : Prop :=
  ∃ (e : Envelope) (header : List Nat), alphabetFromDcs e.dcs = c.alphabet ∧
    header.length = header.headD 0 + 1 ∧ (parseUdh (header.drop 1)).concat = some place ∧
    fromHex (cleaned pdu) =
      some (e.octets s (c.userData header us).1 (c.userData header us).2)

theorem udhOf_append {header : List Nat} (hlen : header.length = header.headD 0 + 1)
    (payload : List Nat) :
    udhOctets (header ++ payload) true = header.length ∧
      (udhOf (header ++ payload) true).concat = (parseUdh (header.drop 1)).concat := by
  have hoctets : udhOctets (header ++ payload) true = header.length := by
    cases header with
    | nil => cases hlen
    | cons x header => exact hlen.symm
  refine ⟨hoctets, ?_⟩
  show (parseUdh (((header ++ payload).take (udhOctets (header ++ payload) true)).drop 1)).concat = _
  rw [hoctets, List.take_left]

theorem userData_eq (c : Coding) (header us : List Nat) :
    ∃ payload, (c.userData header us).2 = header ++ payload := by
  cases c
  · exact ⟨_, rfl⟩
  · exact ⟨_, rfl⟩

/-- **A segment is decoded**: its sender, its place, and its piece read by itself. -/
theorem decodePdu_segment (recover : List Nat → String × String) {c : Coding} {s : Sender}
    {place : Concat} {us : List Nat} {pdu : String} (h : IsSegment c s place us pdu)
    (hlt : ∀ u ∈ us, u < c.bound) (hcoherent : c.pairing.Coherent false us)
    (hmark : c.Unmarked us) :
    ∃ sms, decodePdu recover pdu = .ok sms ∧ sms.address = String.ofList s.text ∧
      sms.concat = some place ∧ sms.text = String.ofList (c.pairing.read us) := by
  obtain ⟨e, header, hdcs, hlen, hplace, hhex⟩ := h
  obtain ⟨payload, hbody⟩ := userData_eq c header us
  obtain ⟨t, r', ht, haddress, hudhi, hdcs', hudl, hbody'⟩ :=
    decodeTpdu_deliver e s (c.userData header us).1 (c.userData header us).2
  obtain ⟨hoctets, hudh⟩ := udhOf_append hlen payload
  have hne : ¬ (true = true ∧ header ++ payload = []) := by
    rintro ⟨-, hnil⟩
    rw [(List.append_eq_nil_iff.mp hnil).1] at hlen
    cases hlen
  have hdata : decodeUserData t.body t.udl t.dcs t.hasUdh =
      .ok (c.pairing.read us, udhOf (header ++ payload) true) := by
    have htext := textOf_userData header hlt hcoherent hmark
    rw [hbody] at htext
    rw [hudhi, hudl, hbody', hbody, hdcs', decodeUserData, if_neg hne, hoctets, hdcs, htext]
  unfold decodePdu
  rw [hhex]
  dsimp only
  rw [show decodeTpdu.run { rest := _ } = _ from ht]
  show ∃ sms, (decodeUserData t.body t.udl t.dcs t.hasUdh >>= _) = .ok sms ∧ _
  rw [hdata]
  exact ⟨_, rfl, congrArg String.ofList haddress, hudh.trans hplace, rfl⟩

/-! ## Any order -/

/-- PDUs decoded and pushed one after the other, each with the time on the clock. -/
def receive (recover : List Nat → String × String) (r : Reassembler) :
    List (Nat × String) → Except PduError (List (Option Modem.DecodedSms))
  | []                 => .ok []
  | (now, pdu) :: rest => do
    let sms ← decodePdu recover pdu
    let next := r.push now sms
    let outs ← receive recover next.1 rest
    return next.2 :: outs

theorem receive_eq {recover : List Nat → String × String} {parts : Nat → Modem.DecodedSms}
    {pdus : Nat → String} {order : List (Nat × Nat)}
    (h : ∀ e ∈ order, decodePdu recover (pdus e.2) = .ok (parts e.2)) (r : Reassembler) :
    receive recover r (order.map fun e => (e.1, pdus e.2)) =
      .ok (r.feed (order.map fun e => (e.1, parts e.2))).2 := by
  induction order generalizing r with
  | nil => rfl
  | cons e order ih =>
    rw [List.map_cons, receive, h e List.mem_cons_self]
    show (receive recover (r.push e.1 (parts e.2)).1 _ >>= _) = _
    rw [ih fun e' he' => h e' (List.mem_cons_of_mem e he')]
    rfl

/-- The piece at a place. -/
def pieceAt (pieces : List (List Nat)) (i : Nat) : List Nat := pieces.getD (i - 1) []

theorem map_pieceAt (pieces : List (List Nat)) :
    (Reassembler.numbers pieces.length).map (pieceAt pieces) = pieces := by
  refine List.ext_getElem (by rw [List.length_map, List.length_range']) fun j hj hj' => ?_
  rw [List.getElem_map, List.getElem_range', pieceAt, show 1 + 1 * j - 1 = j by omega,
    List.getD_eq_getElem?_getD, List.getElem?_eq_getElem hj', Option.getD_some]

theorem pieceAt_mem {pieces : List (List Nat)} {i : Nat}
    (hi : i ∈ Reassembler.numbers pieces.length) : pieceAt pieces i ∈ pieces := by
  have h := List.mem_map_of_mem (f := pieceAt pieces) hi
  rwa [map_pieceAt] at h

section

variable {c : Coding} {s : Sender} {ref : Nat} {text : List Char} {us : List Nat}
  {pieces : List (List Nat)} {pdus : Nat → String}

/-- **The message** is the pieces, each read by itself, in whatever order they come. -/
theorem receive_pieces (recover : List Nat → String × String) (hunits : c.units text = some us)
    (hpieces : pieces.flatten = us) (hsome : pieces ≠ []) (hmark : ∀ a ∈ pieces, c.Unmarked a)
    (hpdus : ∀ i ∈ Reassembler.numbers pieces.length,
      IsSegment c s ⟨ref, pieces.length, i⟩ (pieceAt pieces i) (pdus i))
    {order : List (Nat × Nat)}
    (horder : (order.map Prod.snd).Perm (Reassembler.numbers pieces.length)) :
    ∃ merged, receive recover {} (order.map fun e => (e.1, pdus e.2)) =
        .ok (List.replicate (order.length - 1) none ++ [some merged]) ∧
      merged.text = String.ofList (pieces.flatMap c.pairing.read) := by
  obtain ⟨hlt, hcomplete, -⟩ := Coding.units_spec hunits
  rw [← hpieces] at hlt hcomplete
  have hcoherent := Pairing.coherent_pieces hcomplete
  -- each segment is decoded
  have hdecoded : ∀ i ∈ Reassembler.numbers pieces.length, ∃ sms,
      decodePdu recover (pdus i) = .ok sms ∧ sms.address = String.ofList s.text ∧
        sms.concat = some ⟨ref, pieces.length, i⟩ ∧
        sms.text = String.ofList (c.pairing.read (pieceAt pieces i)) := by
    intro i hi
    have hmem := pieceAt_mem hi
    exact decodePdu_segment recover (hpdus i hi)
      (fun u hu => hlt u (List.mem_flatten.mpr ⟨_, hmem, hu⟩)) (hcoherent _ hmem) (hmark _ hmem)
  have hpos := List.length_pos_of_ne_nil hsome
  have : Nonempty Modem.DecodedSms :=
    (hdecoded 1 (Reassembler.mem_numbers.mpr ⟨Nat.le_refl 1, hpos⟩)).nonempty
  choose! parts hparts using hdecoded
  have hnumbered : Reassembler.Numbered parts (String.ofList s.text) ref pieces.length := by
    constructor
    · intro i hi hle
      exact (hparts i (Reassembler.mem_numbers.mpr ⟨hi, hle⟩)).2.2.1
    · intro i hi hle
      exact (hparts i (Reassembler.mem_numbers.mpr ⟨hi, hle⟩)).2.1
  have halone : pieces.length = 1 → (parts 1).address = String.ofList s.text ∧
      ∀ c, (parts 1).concat = some c → c.total ≤ 1 := by
    intro hone
    refine ⟨hnumbered.address 1 (Nat.le_refl 1) hpos, fun c hc => ?_⟩
    rw [hnumbered.concat 1 (Nat.le_refl 1) hpos] at hc
    obtain rfl := Option.some.inj hc
    exact Nat.le_of_eq hone
  obtain ⟨merged, hfeed, -, htext⟩ :=
    Reassembler.feed_whole hpos (fun _ => hnumbered) halone horder
  refine ⟨merged, ?_, ?_⟩
  · have hall : ∀ e ∈ order, decodePdu recover (pdus e.2) = .ok (parts e.2) :=
      fun e he => (hparts e.2 (horder.subset (List.mem_map_of_mem he))).1
    rw [receive_eq hall, ← hfeed]
  · have htexts : (Reassembler.numbers pieces.length).map (fun i => (parts i).text) =
        (pieces.map c.pairing.read).map String.ofList := by
      conv_rhs => rw [← map_pieceAt pieces]
      rw [List.map_map, List.map_map]
      exact List.map_congr_left fun i hi => (hparts i hi).2.2.2
    rw [htext, htexts, join_ofList]
    rfl

/-- **Which cuts are transparent.**  The text is put together, whatever order the segments come in,
    exactly when none of them ends in a high surrogate or an escape: the other half would be in the
    next segment, and each is decoded by itself. -/
theorem receive_pieces_iff (recover : List Nat → String × String) (hunits : c.units text = some us)
    (hpieces : pieces.flatten = us) (hne : ∀ a ∈ pieces, a ≠ []) (hsome : pieces ≠ [])
    (hmark : ∀ a ∈ pieces, c.Unmarked a)
    (hpdus : ∀ i ∈ Reassembler.numbers pieces.length,
      IsSegment c s ⟨ref, pieces.length, i⟩ (pieceAt pieces i) (pdus i)) :
    (∀ order : List (Nat × Nat),
        (order.map Prod.snd).Perm (Reassembler.numbers pieces.length) →
        ∃ merged, receive recover {} (order.map fun e => (e.1, pdus e.2)) =
            .ok (List.replicate (order.length - 1) none ++ [some merged]) ∧
          merged.text = String.ofList text) ↔
      ∀ a ∈ pieces, c.pairing.endsOpen a = false := by
  obtain ⟨-, hcomplete, hread⟩ := Coding.units_spec hunits
  rw [← hpieces] at hcomplete hread
  rw [← Pairing.read_pieces_iff hcomplete hne, hread]
  constructor
  · intro hall
    -- one order is enough
    have horder : (((Reassembler.numbers pieces.length).map fun i => (0, i)).map Prod.snd).Perm
        (Reassembler.numbers pieces.length) := by
      rw [List.map_map]
      exact List.Perm.of_eq (List.map_id _)
    obtain ⟨merged, hreceive, htext⟩ := hall _ horder
    obtain ⟨merged', hreceive', htext'⟩ :=
      receive_pieces recover hunits hpieces hsome hmark hpdus horder
    rw [hreceive] at hreceive'
    have hlast := List.append_cancel_left (Except.ok.inj hreceive')
    obtain rfl := Option.some.inj (List.cons.inj hlast).1
    rw [htext'] at htext
    exact String.ofList_injective htext
  · intro hpiecewise order horder
    obtain ⟨merged, hreceive, htext⟩ :=
      receive_pieces recover hunits hpieces hsome hmark hpdus horder
    exact ⟨merged, hreceive, by rw [htext, hpiecewise]⟩

end

/-- A message from 10010 around a piece, with a header of concatenation alone. -/
theorem isSegment_plain {c : Coding} {place : Concat} {us : List Nat} {pdu : String} {dcs : Nat}
    (hdcs : alphabetFromDcs dcs = c.alphabet)
    (hpdu : fromHex (cleaned pdu) =
      some ([0, 0x44, 5, 0x81, 0x01, 0x10, 0xf0, 0, dcs, 0x42, 0x70, 0x13, 0x12, 0, 0, 0x23,
          (c.userData [5, 0, 3, place.ref, place.total, place.seq] us).1] ++
        (c.userData [5, 0, 3, place.ref, place.total, place.seq] us).2)) :
    IsSegment c ⟨5, 0x81, [0x01, 0x10, 0xf0], rfl⟩ place us pdu := by
  refine ⟨⟨[], 0x44, 0, dcs, [0x42, 0x70, 0x13, 0x12, 0, 0, 0x23], by decide, by decide, rfl⟩,
    [5, 0, 3, place.ref, place.total, place.seq], hdcs, rfl, ?_, hpdu⟩
  show (parseUdh [0, 3, place.ref, place.total, place.seq]).concat = some place
  rw [parseUdh_place]

/-- The euro sign is two septets, and both are in the second segment, which comes first. -/
theorem receive_pieces_iff_euro :
    ∃ merged, receive (fun _ => ("", "")) {}
        [(0, "004405810110F0000042701312000023090500030702023665"),
          (0, "004405810110F000004270131200002308050003070201D0")] =
        .ok [none, some merged] ∧ merged.text = String.ofList ['h', '€'] := by
  have hunits : Coding.gsm7.units ['h', '€'] = some [0x68, 0x1b, 0x65] := by decide +kernel
  have hpdus : ∀ i ∈ [1, 2], IsSegment .gsm7 ⟨5, 0x81, [0x01, 0x10, 0xf0], rfl⟩ ⟨7, 2, i⟩
      (pieceAt [[0x68], [0x1b, 0x65]] i)
      (["004405810110F000004270131200002308050003070201D0",
        "004405810110F0000042701312000023090500030702023665"].getD (i - 1) "") := by
    refine List.forall_mem_cons.mpr ⟨?_, List.forall_mem_cons.mpr ⟨?_, nofun⟩⟩
    · exact isSegment_plain alphabet_septets (by decide +kernel)
    · exact isSegment_plain alphabet_septets (by decide +kernel)
  exact (receive_pieces_iff (fun _ => ("", "")) hunits
    (show [[0x68], [0x1b, 0x65]].flatten = [0x68, 0x1b, 0x65] from rfl) (by decide) (by decide)
    (by decide) hpdus).mpr (by decide) [(0, 2), (0, 1)] (List.Perm.swap 1 2 [])

/-- A face is two code units; a sender that cuts between them gets two replacements through. -/
theorem receive_cut_face :
    (∀ i ∈ [1, 2], IsSegment .ucs2 ⟨5, 0x81, [0x01, 0x10, 0xf0], rfl⟩ ⟨7, 2, i⟩
        (pieceAt [[0xd83d], [0xde00]] i)
        (["004405810110F000084270131200002308050003070201D83D",
          "004405810110F000084270131200002308050003070202DE00"].getD (i - 1) "")) ∧
      Coding.ucs2.units ['😀'] = some [[0xd83d], [0xde00]].flatten ∧
      ¬ ∃ merged, receive (fun _ => ("", "")) {}
          [(0, "004405810110F000084270131200002308050003070201D83D"),
            (0, "004405810110F000084270131200002308050003070202DE00")] =
          .ok [none, some merged] ∧ merged.text = String.ofList ['😀'] := by
  have hunits : Coding.ucs2.units ['😀'] = some [0xd83d, 0xde00] := by decide +kernel
  have hpdus : ∀ i ∈ [1, 2], IsSegment .ucs2 ⟨5, 0x81, [0x01, 0x10, 0xf0], rfl⟩ ⟨7, 2, i⟩
      (pieceAt [[0xd83d], [0xde00]] i)
      (["004405810110F000084270131200002308050003070201D83D",
        "004405810110F000084270131200002308050003070202DE00"].getD (i - 1) "") := by
    refine List.forall_mem_cons.mpr ⟨?_, List.forall_mem_cons.mpr ⟨?_, nofun⟩⟩
    · exact isSegment_plain alphabet_chars (by decide +kernel)
    · exact isSegment_plain alphabet_chars (by decide +kernel)
  refine ⟨hpdus, hunits, ?_⟩
  rintro ⟨merged, hreceive, htext⟩
  obtain ⟨merged', hreceive', htext'⟩ := receive_pieces (fun _ => ("", "")) hunits
    (show [[0xd83d], [0xde00]].flatten = [0xd83d, 0xde00] from rfl) (by decide) (by decide) hpdus
    (show ([(0, 1), (0, 2)].map Prod.snd).Perm (Reassembler.numbers 2) from List.Perm.refl _)
  have hlast : Except.ok [none, some merged] = Except.ok [none, some merged'] :=
    hreceive.symm.trans hreceive'
  obtain rfl := Option.some.inj (List.cons.inj (List.cons.inj (Except.ok.inj hlast)).2).1
  rw [htext'] at htext
  exact absurd (String.ofList_injective htext) (by decide +kernel)

end Air780eHub.Pdu
