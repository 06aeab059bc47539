/-
  Two classifiers of data messages (`classifiers_agree_iff`): `is_binary` of what the Agent decodes,
  and `_pdu_is_data` of the Server's migration.

  Both read the same octets of an SMS-DELIVER.  They differ in three places:

  * an address of length zero has a type octet for the Server and none for the Agent, so that one
    of them reads every later field one octet off;
  * an information element 04 or 05 that is too short for a port is a port for the Server;
  * an empty message of a service-centre specific protocol is one whose text is empty for the
    Agent, and one whose declared length is zero for the Server.
-/
import Air780eHub.Pdu.Codec
import Air780eHub.Server.Apply

namespace Air780eHub.Pdu

open Modem (Concat)

/-! ## What a successful read took -/

section

variable {α β : Type} {r r' : Reader} {a : α} {b : β} {n : Nat} {c : List Nat}

theorem read_bind {x : Read α} {f : α → Read β} (h : (x >>= f) r = .ok (b, r')) :
    ∃ a r₁, x r = .ok (a, r₁) ∧ f a r₁ = .ok (b, r') := by
  replace h : (x r >>= fun p => f p.1 p.2) = .ok (b, r') := h
  cases hx : x r with
  | error e => rw [hx] at h; cases h
  | ok p =>
    rw [hx] at h
    exact ⟨p.1, p.2, rfl, h⟩

theorem take_ok (h : take n r = .ok (c, r')) :
    n ≤ r.rest.length ∧ c = r.rest.take n ∧ r' = ⟨r.rest.drop n, r.pos + n⟩ := by
  unfold take at h
  split at h
  · cases h
  · rename_i hlen
    obtain ⟨rfl, rfl⟩ := Prod.mk.inj (Except.ok.inj h)
    exact ⟨Nat.le_of_not_lt hlen, rfl, rfl⟩

theorem byte_ok (h : byte r = .ok (n, r')) : r.rest = n :: r'.rest ∧ r'.pos = r.pos + 1 := by
  obtain ⟨chunk, r₁, htake, hpure⟩ := read_bind h
  obtain ⟨hlen, rfl, rfl⟩ := take_ok htake
  obtain ⟨rfl, rfl⟩ := Prod.mk.inj (Except.ok.inj hpure)
  cases hr : r.rest with
  | nil => rw [hr] at hlen; cases hlen
  | cons x tl => exact ⟨rfl, rfl⟩

theorem rest_ok (h : rest r = .ok (c, r')) : c = r.rest :=
  (Prod.mk.inj (Except.ok.inj h)).1.symm

theorem smsc_ok {smsc : Option (List Char)} (h : decodeSmsc r = .ok (smsc, r')) :
    ∃ scaLen tl, r.rest = scaLen :: tl ∧ scaLen ≤ tl.length ∧ r'.rest = tl.drop scaLen := by
  obtain ⟨scaLen, r₁, hbyte, h⟩ := read_bind h
  obtain ⟨hrest, -⟩ := byte_ok hbyte
  refine ⟨scaLen, r₁.rest, hrest, ?_⟩
  by_cases hzero : scaLen = 0
  · rw [if_pos hzero] at h
    obtain ⟨-, rfl⟩ := Prod.mk.inj (Except.ok.inj h)
    rw [hzero]
    exact ⟨Nat.zero_le _, rfl⟩
  · rw [if_neg hzero] at h
    obtain ⟨sca, r₂, htake, h⟩ := read_bind h
    obtain ⟨hlen, -, rfl⟩ := take_ok htake
    obtain ⟨-, rfl⟩ := Prod.mk.inj (Except.ok.inj h)
    exact ⟨hlen, rfl⟩

/-- An address takes its length octet, and its type and digits unless the length is zero. -/
theorem address_ok {x : List Char × Nat} (h : decodeAddress r = .ok (x, r')) :
    ∃ length tl, r.rest = length :: tl ∧ (if length = 0 then 0 else 1 + (length + 1) / 2) ≤ tl.length ∧
      r'.rest = tl.drop (if length = 0 then 0 else 1 + (length + 1) / 2) := by
  obtain ⟨length, r₁, hbyte, h⟩ := read_bind h
  obtain ⟨hrest, -⟩ := byte_ok hbyte
  refine ⟨length, r₁.rest, hrest, ?_⟩
  by_cases hzero : length = 0
  · rw [if_pos hzero] at h
    obtain ⟨-, rfl⟩ := Prod.mk.inj (Except.ok.inj h)
    rw [if_pos hzero]
    exact ⟨Nat.zero_le _, rfl⟩
  · rw [if_neg hzero] at h
    obtain ⟨toa, r₂, htoa, h⟩ := read_bind h
    obtain ⟨hrest', -⟩ := byte_ok htoa
    obtain ⟨octets, r₃, htake, h⟩ := read_bind h
    obtain ⟨hlen, -, rfl⟩ := take_ok htake
    have hend : r'.rest = r₂.rest.drop ((length + 1) / 2) := by
      split at h
      · obtain ⟨-, rfl⟩ := Prod.mk.inj (Except.ok.inj h)
        rfl
      · obtain ⟨-, rfl⟩ := Prod.mk.inj (Except.ok.inj h)
        rfl
    rw [if_neg hzero, hrest', hend, List.length_cons, Nat.add_comm 1]
    exact ⟨Nat.succ_le_succ hlen, rfl⟩

/-- An SMS-DELIVER after its first octet. -/
theorem deliver_ok {smsc : Option (List Char)} {first : Nat} {t : Tpdu}
    (h : decodeDeliver smsc first r = .ok (t, r')) :
    t.first = first ∧ ∃ x r₁, decodeAddress r = .ok (x, r₁) ∧
      ∃ scts, scts.length = 7 ∧ r₁.rest = t.pid :: t.dcs :: (scts ++ t.udl :: t.body) := by
  obtain ⟨x, r₁, haddress, h⟩ := read_bind h
  obtain ⟨bodyStart, r₂, htell, h⟩ := read_bind h
  obtain ⟨-, rfl⟩ := Prod.mk.inj (Except.ok.inj htell)
  obtain ⟨pid, r₃, hpid, h⟩ := read_bind h
  obtain ⟨dcs, r₄, hdcs, h⟩ := read_bind h
  obtain ⟨scts, r₅, hscts, h⟩ := read_bind h
  obtain ⟨udl, r₆, hudl, h⟩ := read_bind h
  obtain ⟨body, r₇, hbody, h⟩ := read_bind h
  obtain ⟨rfl, -⟩ := Prod.mk.inj (Except.ok.inj h)
  obtain ⟨hlen, rfl, rfl⟩ := take_ok hscts
  have hrest : r₄.rest = r₄.rest.take 7 ++ udl :: body := by
    rw [rest_ok hbody, ← (byte_ok hudl).1]
    exact (List.take_append_drop 7 _).symm
  refine ⟨rfl, x, r₁, haddress, r₄.rest.take 7, List.length_take_of_le hlen, ?_⟩
  show r₁.rest = pid :: dcs :: (r₄.rest.take 7 ++ udl :: body)
  rw [(byte_ok hpid).1, (byte_ok hdcs).1, ← hrest]

end

/-! ## The octets of a frame -/

/-- Where `decode_pdu` finds the fields of an SMS-DELIVER. -/
structure Layout where
  first         : Nat
  addressLength : Nat
  /-- From TP-PID on. -/
  fields        : List Nat

/-- The layout of the octets of a PDU. -/
def layout (data : List Nat) : Layout :=
  let tpdu := data.drop (data.getD 0 0 + 1)
  let length := tpdu.getD 1 0
  ⟨tpdu.getD 0 0, length, tpdu.drop (2 + if length = 0 then 0 else 1 + (length + 1) / 2)⟩

/-- **The layout is what was decoded.** -/
theorem layout_of_ok {data : List Nat} {t : Tpdu} {r' : Reader}
    (hdecode : decodeTpdu { rest := data } = .ok (t, r')) (hk : t.kind = "deliver") :
    (layout data).first = t.first ∧ t.first &&& 0x03 = 0 ∧
      ∃ scts, scts.length = 7 ∧
        (layout data).fields = t.pid :: t.dcs :: (scts ++ t.udl :: t.body) := by
  obtain ⟨smsc, r₁, hsmsc, hread⟩ := read_bind hdecode
  obtain ⟨first, r₂, hfirst, h⟩ := read_bind hread
  obtain ⟨scaLen, tl, rfl, -, hr₁⟩ := smsc_ok hsmsc
  obtain ⟨hr₂, -⟩ := byte_ok hfirst
  by_cases hmti : first &&& 0x03 = 0
  · rw [if_pos hmti] at h
    obtain ⟨rfl, x, r₃, haddress, scts, hscts, hr₃⟩ := deliver_ok h
    obtain ⟨length, tl', hr₂', -, hend⟩ := address_ok haddress
    have htpdu : (scaLen :: tl).drop (scaLen + 1) = t.first :: length :: tl' := by
      rw [List.drop_succ_cons, ← hr₁, hr₂, hr₂']
    refine ⟨?_, hmti, scts, hscts, ?_⟩
    · show ((scaLen :: tl).drop (scaLen + 1)).getD 0 0 = t.first
      rw [htpdu]
      rfl
    · show ((scaLen :: tl).drop (scaLen + 1)).drop
        (2 + if ((scaLen :: tl).drop (scaLen + 1)).getD 1 0 = 0 then 0
          else 1 + (((scaLen :: tl).drop (scaLen + 1)).getD 1 0 + 1) / 2) = _
      rw [htpdu, Nat.add_comm 2, ← hr₃, hend]
      rfl
  · rw [if_neg hmti] at h
    exfalso
    split at h
    · obtain ⟨_, _, -, h⟩ := read_bind h
      obtain ⟨_, _, -, h⟩ := read_bind h
      obtain ⟨_, _, -, h⟩ := read_bind h
      obtain ⟨_, _, -, h⟩ := read_bind h
      obtain ⟨_, _, -, h⟩ := read_bind h
      obtain ⟨_, _, -, h⟩ := read_bind h
      obtain ⟨_, _, -, h⟩ := read_bind h
      obtain ⟨rfl, -⟩ := Prod.mk.inj (Except.ok.inj h)
      exact absurd (show "submit" = "deliver" from hk) (by decide)
    · cases h

/-! ## The user data header, element by element -/

/-- The information elements that lie within a header: their types and lengths. -/
def elements : List Nat → List (Nat × Nat)
  | []                => []
  | [_]               => []
  | iei :: len :: rest =>
    if rest.length < len then [] else (iei, len) :: elements (rest.drop len)
termination_by header => header.length
decreasing_by simp only [List.length_drop, List.length_cons]; omega

/-- An element crosses the end of the header. -/
def overrun : List Nat → Bool
  | []                => false
  | [_]               => true
  | _ :: len :: rest =>
    if rest.length < len then true else overrun (rest.drop len)
termination_by header => header.length
decreasing_by simp only [List.length_drop, List.length_cons]; omega

/-- An element for application port addressing. -/
def isPort (e : Nat × Nat) : Bool := e.1 == 4 || e.1 == 5

/-- One that is long enough for its ports. -/
def holdsPorts (e : Nat × Nat) : Bool := e.1 == 4 && decide (2 ≤ e.2) || e.1 == 5 && decide (4 ≤ e.2)

theorem portAddressed_eq (header : List Nat) :
    Server.portAddressed header = (overrun header || (elements header).any isPort) := by
  induction header using elements.induct with
  | case1 => rw [Server.portAddressed, overrun, elements]; rfl
  | case2 => rw [Server.portAddressed, overrun, elements]; rfl
  | case3 iei len rest hlen =>
    rw [Server.portAddressed, overrun, if_pos hlen, if_pos hlen]
    rfl
  | case4 iei len rest hlen ih =>
    rw [Server.portAddressed, overrun, elements, if_neg hlen, if_neg hlen, if_neg hlen,
      List.any_cons]
    by_cases hport : iei = 4 ∨ iei = 5
    · have his : isPort (iei, len) = true := by
        unfold isPort
        simpa using hport
      rw [if_pos hport, his, Bool.true_or, Bool.or_true]
    · have his : isPort (iei, len) = false := by
        unfold isPort
        simpa using hport
      rw [if_neg hport, his, Bool.false_or, ih]

theorem parseUdhFrom_spec (concat : Option Concat) (ports : Option (Nat × Nat)) (header : List Nat) :
    (parseUdhFrom concat ports header).malformed = overrun header ∧
      (parseUdhFrom concat ports header).ports.isSome =
        (ports.isSome || (elements header).any holdsPorts) := by
  induction header using elements.induct generalizing concat ports with
  | case1 =>
    rw [parseUdhFrom, overrun, elements]
    exact ⟨rfl, (Bool.or_false _).symm⟩
  | case2 =>
    rw [parseUdhFrom, overrun, elements]
    exact ⟨rfl, (Bool.or_false _).symm⟩
  | case3 iei len rest hlen =>
    rw [parseUdhFrom, overrun, elements, if_pos hlen, if_pos hlen, if_pos hlen]
    exact ⟨rfl, (Bool.or_false _).symm⟩
  | case4 iei len rest hlen ih =>
    rw [parseUdhFrom, overrun, elements, if_neg hlen, if_neg hlen, if_neg hlen, List.any_cons]
    refine ⟨(ih _ _).1, (ih _ _).2.trans ?_⟩
    rw [← Bool.or_assoc]
    refine congrArg (· || _) ?_
    unfold holdsPorts
    split
    · rename_i h4
      rw [Option.isSome_or]
      simp [h4.1, h4.2]
    · split
      · rename_i h5
        rw [Option.isSome_or]
        simp [h5.1, h5.2]
      · rename_i h4 h5
        have hno : (iei == 4 && decide (2 ≤ len) || iei == 5 && decide (4 ≤ len)) = false := by
          simpa using And.intro h4 h5
        rw [hno, Bool.or_false]

/-! ## An empty text -/

theorem decodeFrom_ne_nil {ss : List Nat} (hs : ∀ s ∈ ss, s < 128) :
    decodeFrom true ss ≠ [] ∧ (ss ≠ [] → decodeFrom false ss ≠ []) := by
  induction ss with
  | nil => exact ⟨List.cons_ne_nil _ _, fun hne => absurd rfl hne⟩
  | cons s ss ih =>
    refine ⟨List.cons_ne_nil _ _, fun _ => ?_⟩
    rw [decodeFrom]
    split
    · exact (ih fun x hx => hs x (List.mem_cons_of_mem s hx)).1
    · rw [if_pos (hs s List.mem_cons_self)]
      exact List.cons_ne_nil _ _

theorem unpackFrom_lt (octets : List Nat) (p n : Nat) : ∀ s ∈ unpackFrom octets p n, s < 128 := by
  induction n generalizing p with
  | zero => exact nofun
  | succ n ih =>
    intro s hs
    rw [unpackFrom] at hs
    split at hs
    · cases hs
    · rcases List.mem_cons.mp hs with rfl | hs
      · exact Nat.lt_succ_of_le Nat.and_le_right
      · exact ih _ s hs

/-- No text comes of no septets, and of nothing else. -/
theorem decode_unpack_eq_nil {octets : List Nat} {n fill : Nat} (hfill : fill < 8) :
    decode (unpack octets n fill) = [] ↔ n = 0 ∨ octets = [] := by
  unfold unpack decode
  constructor
  · intro hnil
    by_contra hne
    rw [not_or] at hne
    obtain ⟨n, rfl⟩ := Nat.exists_eq_succ_of_ne_zero hne.1
    have hpos : 0 < octets.length := List.length_pos_of_ne_nil hne.2
    refine (decodeFrom_ne_nil (unpackFrom_lt octets fill (n + 1))).2 ?_ hnil
    rw [unpackFrom, Nat.div_eq_of_lt hfill, if_neg (Nat.not_le_of_lt hpos)]
    exact List.cons_ne_nil _ _
  · rintro (rfl | rfl)
    · rfl
    · cases n with
      | zero => rfl
      | succ n =>
        have hle : ([] : List Nat).length ≤ fill / 8 := Nat.zero_le _
        rw [unpackFrom, if_pos hle]
        rfl

theorem utf16_eq_nil {unit : Nat → Nat → Nat} {octets : List Nat} :
    Utf16.decode unit octets = [] ↔ octets = [] := by
  have hsome : ∀ (high : Nat) (octets : List Nat), Utf16.decodeFrom unit (some high) octets ≠ [] := by
    intro high octets
    induction octets using List.twoStepInduction generalizing high with
    | nil => exact List.cons_ne_nil _ _
    | singleton a => exact List.cons_ne_nil _ _
    | cons_cons a b rest ih _ =>
      rw [Utf16.decodeFrom]
      split
      · exact List.cons_ne_nil _ _
      · split
        · exact List.cons_ne_nil _ _
        · exact List.cons_ne_nil _ _
  constructor
  · intro hnil
    rcases octets with _ | ⟨a, _ | ⟨b, rest⟩⟩
    · rfl
    · cases hnil
    · exfalso
      unfold Utf16.decode at hnil
      rw [Utf16.decodeFrom] at hnil
      split at hnil
      · cases hnil
      · split at hnil
        · exact hsome _ _ hnil
        · cases hnil
  · rintro rfl
    rfl

/-- A payload without a character: at most a byte order mark. -/
theorem decodeUcs2_eq_nil {payload : List Nat} :
    decodeUcs2 payload = [] ↔ payload = [] ∨ payload = [0xfe, 0xff] ∨ payload = [0xff, 0xfe] := by
  unfold decodeUcs2
  match payload with
  | []            => exact ⟨fun _ => Or.inl rfl, fun _ => rfl⟩
  | [a]           => simp [utf16_eq_nil]
  | a :: b :: rest =>
    have htake : (a :: b :: rest).take 2 = [a, b] := rfl
    have hdrop : (a :: b :: rest).drop 2 = rest := rfl
    rw [htake, hdrop]
    split
    · rename_i hbig
      simp_all [utf16_eq_nil]
    · split
      · simp_all [utf16_eq_nil]
      · simp_all [utf16_eq_nil]

/-! ## The two verdicts, octet by octet -/

/-- The fields of an SMS-DELIVER from TP-PID on, without the timestamp. -/
structure Fields where
  pid  : Nat
  dcs  : Nat
  udl  : Nat
  body : List Nat

/-- The fields in octets. -/
def fieldsOf (octets : List Nat) : Fields :=
  ⟨octets.getD 0 0, octets.getD 1 0, octets.getD 9 0, octets.drop 10⟩

/-- The first octet announces a user data header. -/
def announcesUdh (first : Nat) : Bool := first &&& 0x40 != 0

/-- The elements of the user data header. -/
def Fields.header (f : Fields) (first : Nat) : List Nat :=
  if announcesUdh first then (f.body.take (udhOctets f.body true)).drop 1 else []

/-- The payload is octets by its coding scheme. -/
def Fields.eightBit (f : Fields) : Bool := alphabetFromDcs f.dcs == .eightBit

/-- The user data ends before its header does, or the header within an element. -/
def Fields.damaged (f : Fields) (first : Nat) : Bool :=
  announcesUdh first &&
    (decide (f.body.length < udhOctets f.body true) || overrun (f.header first))

/-- The protocol is specific to the service centre. -/
def Fields.control (f : Fields) : Bool := decide (0xc0 ≤ f.pid)

/-- There is no character after the header: no septet is declared or no octet is left, or the
    payload is at most a byte order mark. -/
def Fields.noText (f : Fields) (first : Nat) : Bool :=
  let octets := udhOctets f.body (announcesUdh first)
  match alphabetFromDcs f.dcs with
  | .gsm7     => decide (f.udl ≤ headerSeptets octets) || decide (f.body.length ≤ octets)
  | .ucs2     =>
    let payload := payloadOf f.body f.udl octets
    payload == [] || payload == [0xfe, 0xff] || payload == [0xff, 0xfe]
  | .eightBit => payloadOf f.body f.udl octets == []

/-- What makes a message data, given which elements are ports and what an empty message is. -/
def Fields.data (f : Fields) (first : Nat) (port : Nat × Nat → Bool) (empty : Bool) : Bool :=
  f.eightBit || f.damaged first || (elements (f.header first)).any port || (empty && f.control)

theorem uses8bit_eq (dcs : Nat) :
    (if dcs &&& 0xc0 = 0 then dcs >>> 2 &&& 3 == 1
      else if dcs &&& 0xf0 = 0xf0 then dcs &&& 4 != 0 else false) =
      (alphabetFromDcs dcs == .eightBit) := by
  -- the code of the alphabet decides, and only 1 is octets
  have hcode : ∀ coding : Nat, (coding == 1) =
      ((if coding = 1 then Alphabet.eightBit else if coding = 2 then .ucs2 else .gsm7) ==
        .eightBit) := by
    intro coding
    by_cases h1 : coding = 1
    · rw [if_pos h1, h1]
      rfl
    · rw [if_neg h1, beq_eq_false_iff_ne.mpr h1]
      split <;> rfl
  unfold alphabetFromDcs
  rw [← hcode]
  split
  · rfl
  · split
    · by_cases h4 : dcs &&& 4 = 0
      · rw [h4]
        rfl
      · rw [if_pos h4, bne_iff_ne.mpr h4]
        rfl
    · split <;> rfl

/-- **The Server's verdict.** -/
theorem deliverIsData_eq (first : Nat) (octets : List Nat) :
    Server.deliverIsData first octets =
      (fieldsOf octets).data first isPort ((fieldsOf octets).udl == 0) := by
  have h8 := uses8bit_eq (octets.getD 1 0)
  unfold Server.deliverIsData Fields.data Fields.eightBit Fields.control
  show (if (_ || (octets.getD 9 0 == 0 && decide (0xc0 ≤ octets.getD 0 0))) = true then true else _) =
    ((alphabetFromDcs (octets.getD 1 0) == Alphabet.eightBit) || _ || _ ||
      (octets.getD 9 0 == 0 && decide (0xc0 ≤ octets.getD 0 0)))
  rw [h8]
  cases alphabetFromDcs (octets.getD 1 0) == Alphabet.eightBit with
  | true => rfl
  | false =>
    cases octets.getD 9 0 == 0 && decide (0xc0 ≤ octets.getD 0 0) with
    | true => exact (Bool.or_true _).symm
    | false =>
      rw [Bool.or_false, Bool.or_false, Bool.false_or, if_neg Bool.false_ne_true]
      unfold Fields.damaged Fields.header announcesUdh fieldsOf
      by_cases hudh : first &&& 0x40 = 0
      · rw [if_pos hudh, hudh]
        show false = (false || (elements []).any isPort)
        rw [elements]
        rfl
      · rw [if_neg hudh, bne_iff_ne.mpr hudh, if_pos rfl, Bool.true_and]
        dsimp only
        cases octets.drop 10 with
        | nil => rfl
        | cons n body =>
          show (if (n :: body).length < n + 1 then true
            else Server.portAddressed (((n :: body).take (n + 1)).drop 1)) =
            (decide ((n :: body).length < n + 1) ||
                overrun (((n :: body).take (n + 1)).drop 1) ||
              (elements (((n :: body).take (n + 1)).drop 1)).any isPort)
          rw [portAddressed_eq, Bool.or_assoc]
          by_cases hlen : (n :: body).length < n + 1
          · rw [if_pos hlen, decide_eq_true hlen, Bool.true_or]
          · rw [if_neg hlen, decide_eq_false hlen, Bool.false_or]

/-- An alphabet is the one its name says. -/
theorem text_eq_eightBit (a : Alphabet) : (a.text == "8bit") = (a == .eightBit) := by
  cases a <;> rfl

/-- **An empty text**, by the octets. -/
theorem textOf_eq_nil (f : Fields) (first : Nat) (h8 : f.eightBit = false) :
    (textOf f.body f.udl (udhOctets f.body (announcesUdh first)) (alphabetFromDcs f.dcs)).isEmpty =
      f.noText first := by
  unfold Fields.eightBit at h8
  unfold Fields.noText
  rw [Bool.eq_iff_iff, List.isEmpty_iff]
  cases ha : alphabetFromDcs f.dcs with
  | gsm7 =>
    have hfill : fillBitsOf (udhOctets f.body (announcesUdh first)) < 8 := by
      unfold fillBitsOf
      omega
    show decode _ = [] ↔ _
    rw [decode_unpack_eq_nil hfill, Nat.sub_eq_zero_iff_le, List.drop_eq_nil_iff]
    simp only [Bool.or_eq_true, decide_eq_true_iff]
  | ucs2 =>
    show decodeUcs2 _ = [] ↔ _
    rw [decodeUcs2_eq_nil]
    simp only [Bool.or_eq_true, beq_iff_eq, or_assoc]
  | eightBit =>
    rw [ha] at h8
    cases h8

theorem udhOf_spec (f : Fields) (first : Nat) :
    (udhOf f.body (announcesUdh first)).malformed = f.damaged first ∧
      (udhOf f.body (announcesUdh first)).ports.isSome =
        (elements (f.header first)).any holdsPorts := by
  unfold Fields.damaged Fields.header udhOf
  cases announcesUdh first with
  | false =>
    show false = false ∧ false = (elements []).any holdsPorts
    rw [elements]
    exact ⟨rfl, rfl⟩
  | true =>
    obtain ⟨hmal, hports⟩ :=
      parseUdhFrom_spec none none ((f.body.take (udhOctets f.body true)).drop 1)
    refine ⟨?_, hports⟩
    show (_ || (parseUdhFrom none none _).malformed) = _
    rw [hmal]
    rfl

/-! ## The two classifiers -/

/-- A message that was decoded, and the fields it was decoded from. -/
theorem decodePdu_ok {recover : List Nat → String × String} {p : String} {sms : Modem.DecodedSms}
    (h : decodePdu recover p = .ok sms) :
    ∃ data t r', fromHex (cleaned p) = some data ∧
      decodeTpdu { rest := data } = .ok (t, r') ∧ sms.kind = t.kind ∧ sms.pid = t.pid ∧
      (t.hasUdh = true → t.body ≠ []) ∧ sms.truncated = t.truncated ∧
      sms.alphabet = (alphabetFromDcs t.dcs).text ∧
      sms.text = String.ofList
        (textOf t.body t.udl (udhOctets t.body t.hasUdh) (alphabetFromDcs t.dcs)) ∧
      sms.ports = (udhOf t.body t.hasUdh).ports ∧
      sms.udhMalformed = (udhOf t.body t.hasUdh).malformed := by
  unfold decodePdu at h
  cases hhex : fromHex (cleaned p) with
  | none => rw [hhex] at h; cases h
  | some data =>
    rw [hhex] at h
    dsimp only at h
    cases ht : decodeTpdu.run { rest := data } with
    | error e => rw [ht] at h; cases h
    | ok x =>
      obtain ⟨t, r'⟩ := x
      rw [ht] at h
      by_cases hbody : t.hasUdh = true ∧ t.body = []
      · replace h : (decodeUserData t.body t.udl t.dcs t.hasUdh >>= _) = .ok sms := h
        unfold decodeUserData at h
        rw [if_pos hbody] at h
        cases h
      · replace h : (decodeUserData t.body t.udl t.dcs t.hasUdh >>= _) = .ok sms := h
        unfold decodeUserData at h
        rw [if_neg hbody] at h
        obtain rfl := Except.ok.inj h
        exact ⟨data, t, r', rfl, ht, rfl, rfl, fun hu hb => hbody ⟨hu, hb⟩, rfl, rfl, rfl, rfl, rfl⟩

/-- **The Agent's verdict.** -/
theorem isBinary_eq {recover : List Nat → String × String} {p : String} {sms : Modem.DecodedSms}
    (h : decodePdu recover p = .ok sms) (htruncated : sms.truncated = false) :
    ∃ data t r', fromHex (cleaned p) = some data ∧ decodeTpdu { rest := data } = .ok (t, r') ∧
      sms.kind = t.kind ∧
      isBinary sms = Fields.data ⟨t.pid, t.dcs, t.udl, t.body⟩ t.first holdsPorts
        (Fields.noText ⟨t.pid, t.dcs, t.udl, t.body⟩ t.first) := by
  obtain ⟨data, t, r', hhex, ht, hkind, hpid, -, -, halphabet, htext, hports, hmal⟩ := decodePdu_ok h
  refine ⟨data, t, r', hhex, ht, hkind, ?_⟩
  obtain ⟨hmal', hports'⟩ := udhOf_spec ⟨t.pid, t.dcs, t.udl, t.body⟩ t.first
  unfold isBinary
  rw [halphabet, text_eq_eightBit, htruncated, hpid, hports, hmal, Bool.or_false]
  unfold Fields.data
  cases h8 : Fields.eightBit ⟨t.pid, t.dcs, t.udl, t.body⟩ with
  | true =>
    have h8' : (alphabetFromDcs t.dcs == Alphabet.eightBit) = true := h8
    rw [h8']
    rfl
  | false =>
    have h8' : (alphabetFromDcs t.dcs == Alphabet.eightBit) = false := h8
    have hempty : sms.text.isEmpty = Fields.noText ⟨t.pid, t.dcs, t.udl, t.body⟩ t.first := by
      rw [htext, ← textOf_eq_nil _ _ h8, Bool.eq_iff_iff, String.isEmpty_iff, List.isEmpty_iff,
        String.ofList_eq_empty_iff]
      rfl
    rw [h8', hempty, Bool.false_or, Bool.false_or, ← hmal', ← hports']
    refine congrArg (· || _) (Bool.or_comm _ _)

/-- The octets that the Server reads as the fields: it takes an address to have a type octet. -/
def Layout.serverFields (l : Layout) : List Nat :=
  if l.addressLength = 0 then l.fields.drop 1 else l.fields

theorem getD_drop (l : List Nat) (i j : Nat) : (l.drop i).getD j 0 = l.getD (i + j) 0 := by
  rw [List.getD_eq_getElem?_getD, List.getElem?_drop, ← List.getD_eq_getElem?_getD]

/-- What the Server makes of the octets of a deliver. -/
theorem pduIsData_eq {data : List Nat} {p : String} (hhex : fromHex (cleaned p) = some data)
    (hmti : (layout data).first &&& 0x03 = 0) (hlen : 10 ≤ (layout data).fields.length) :
    Server.pduIsData p = (decide (10 ≤ (layout data).serverFields.length) &&
      Server.deliverIsData (layout data).first (layout data).serverFields) := by
  have hfields : (layout data).fields = data.drop (data.getD 0 0 + 1 +
      (2 + if (layout data).addressLength = 0 then 0
        else 1 + ((layout data).addressLength + 1) / 2)) := List.drop_drop
  have hfirst : data.getD (1 + data.getD 0 0) 0 = (layout data).first := by
    show _ = (data.drop (data.getD 0 0 + 1)).getD 0 0
    rw [getD_drop, Nat.add_zero, Nat.add_comm 1]
  have haddress : data.getD (1 + data.getD 0 0 + 1) 0 = (layout data).addressLength := by
    show _ = (data.drop (data.getD 0 0 + 1)).getD 1 0
    rw [getD_drop, Nat.add_comm 1 (data.getD 0 0)]
  have hserver : (layout data).serverFields =
      data.drop (1 + data.getD 0 0 + 3 + ((layout data).addressLength + 1) / 2) := by
    unfold Layout.serverFields
    rw [hfields]
    split
    · rename_i hzero
      rw [hzero, List.drop_drop]
      refine congrArg (data.drop ·) ?_
      omega
    · refine congrArg (data.drop ·) ?_
      omega
  have hroom : 10 + (data.getD 0 0 + 3) ≤ data.length := by
    rw [hfields, List.length_drop] at hlen
    omega
  unfold Server.pduIsData
  rw [show p.toList.filter (fun c => !pyIsSpace c) = cleaned p from rfl, hhex]
  dsimp only
  have hnonempty : (data.isEmpty || decide (data.length ≤ 1 + data.getD 0 0)) = false := by
    rw [Bool.or_eq_false_iff, List.isEmpty_eq_false_iff, decide_eq_false_iff_not]
    refine ⟨?_, by omega⟩
    rintro rfl
    simp at hroom
  rw [hnonempty, if_neg Bool.false_ne_true, hfirst, if_neg (not_not.mpr hmti), if_neg (by omega),
    haddress, ← hserver]
  split
  · rename_i hshort
    rw [decide_eq_false, Bool.false_and]
    rw [hserver, List.length_drop]
    omega
  · rename_i hlong
    rw [decide_eq_true, Bool.true_and]
    rw [hserver, List.length_drop]
    omega

/-- **When the classifiers agree.**  With a type octet in the address both read the same fields;
    then the message is data for both, or an element that is too short for its ports and an empty
    message make it data for both or for none.  Without one the Server reads one octet later. -/
def Alike (l : Layout) : Prop :=
  let f := fieldsOf l.fields
  if l.addressLength = 0 then
    let g := fieldsOf (l.fields.drop 1)
    f.data l.first holdsPorts (f.noText l.first) =
      (decide (11 ≤ l.fields.length) && g.data l.first isPort (g.udl == 0))
  else
    f.eightBit ∨ f.damaged l.first ∨ (elements (f.header l.first)).any holdsPorts ∨
      (((elements (f.header l.first)).any isPort ∨ (f.udl = 0 ∧ 0xc0 ≤ f.pid)) ↔
        (f.noText l.first ∧ 0xc0 ≤ f.pid))

instance (l : Layout) : Decidable (Alike l) := by
  unfold Alike
  infer_instance

/-- The layout of a PDU in hexadecimal. -/
def layoutOf (p : String) : Layout := layout ((fromHex (cleaned p)).getD [])

/-- An operator's control message that holds nothing but a byte order mark. -/
def orderMark : String := "00000B915121551532F4C0083240615133148002FEFF"

theorem orderMark_decoded : ∃ sms, decodePdu (fun _ => ("", "")) orderMark = .ok sms ∧
    sms.kind = "deliver" ∧ sms.truncated = false ∧ isBinary sms = true := by
  refine ⟨⟨"deliver", "+15125551234", "", none, some "2023-04-16T15:33:41+02:00", 8, "ucs2", none,
    orderMark, none, false, false, 0xc0, false, "", "", []⟩, ?_, rfl, rfl, rfl⟩
  rfl

end Air780eHub.Pdu
