/-
  The segments of a text (`_split_gsm7`, `_split_ucs2`): each is a part of the text, and together
  they are the text.

  1. **Septets.**  An escape and the septet after it are one character, so that a cut is between
     characters exactly when the septet before it is no escape (`encode_cut`).
  2. **Characters.**  A cut is between characters by construction.
  3. **`segmentsOf`**: the parts of the text, and how much each takes.
-/
import Air780eHub.Pdu.Codec

namespace Air780eHub.Pdu

/-! ## Septets -/

theorem encode_cons_of {c : Char} {text : List Char} {s rest : List Nat}
    (hs : septetsOf c = some s) (hrest : encode text = some rest) :
    encode (c :: text) = some (s ++ rest) := by
  rw [encode, hs, hrest]

/-- No escape follows an escape. -/
theorem escape_alone {text : List Char} {ss : List Nat} (h : encode text = some ss) {i : Nat}
    (hi : ss.getD i 0 = ESC) : ss.getD (i + 1) 0 ≠ ESC := by
  induction text generalizing ss i with
  | nil =>
    obtain rfl := Option.some.inj h
    rw [List.getD_nil] at hi
    cases hi
  | cons c text ih =>
    obtain ⟨s, rest, hs, hrest, rfl⟩ := encode_cons h
    rcases septetsOf_cases hs with ⟨x, rfl, -, hne, -⟩ | ⟨x, rfl, -, hne, -⟩
    · cases i with
      | zero => exact absurd hi hne
      | succ i => exact ih (i := i) hrest hi
    · match i with
      | 0     => exact hne
      | 1     => exact absurd hi hne
      | i + 2 => exact ih (i := i) hrest hi

/-- **A cut that is not behind an escape is between characters.** -/
theorem encode_cut {text : List Char} {ss : List Nat} (h : encode text = some ss) {n : Nat}
    (hn : n ≤ ss.length) (hesc : n < ss.length → n ≠ 0 → ss.getD (n - 1) 0 ≠ ESC) :
    ∃ front back, text = front ++ back ∧ encode front = some (ss.take n) ∧
      encode back = some (ss.drop n) := by
  induction text generalizing ss n with
  | nil =>
    obtain rfl := Option.some.inj h
    exact ⟨[], [], rfl, by rw [List.take_nil]; rfl, by rw [List.drop_nil]; rfl⟩
  | cons c text ih =>
    obtain ⟨s, rest, hs, hrest, rfl⟩ := encode_cons h
    by_cases hzero : n = 0
    · rw [hzero]
      exact ⟨[], c :: text, rfl, rfl, h⟩
    -- the cut is behind the whole of the first character
    have hcut : ∀ m, n = s.length + m → m ≤ rest.length →
        (m < rest.length → m ≠ 0 → rest.getD (m - 1) 0 ≠ ESC) →
        ∃ front back, c :: text = front ++ back ∧ encode front = some ((s ++ rest).take n) ∧
          encode back = some ((s ++ rest).drop n) := by
      rintro m rfl hm hm'
      obtain ⟨front, back, rfl, hfront, hback⟩ := ih hrest hm hm'
      refine ⟨c :: front, back, rfl, ?_, ?_⟩
      · rw [encode_cons_of hs hfront, List.take_length_add_append]
      · rw [hback, List.drop_length_add_append]
    rcases septetsOf_cases hs with ⟨x, rfl, -, -, -⟩ | ⟨x, rfl, -, -, -⟩
    · have hlen : ([x] ++ rest).length = rest.length + 1 := rfl
      rw [hlen] at hn hesc
      refine hcut (n - 1) (by rw [List.length_singleton]; omega) (by omega) fun hlt hne => ?_
      obtain ⟨m, rfl⟩ : ∃ m, n = m + 2 := ⟨n - 2, by omega⟩
      exact hesc (by omega) hzero
    · have hlen : ([ESC, x] ++ rest).length = rest.length + 2 := rfl
      rw [hlen] at hn hesc
      have hone : n ≠ 1 := by
        rintro rfl
        exact hesc (by omega) hzero rfl
      refine hcut (n - 2) (by show n = 2 + (n - 2); omega) (by omega) fun hlt hne => ?_
      obtain ⟨m, rfl⟩ : ∃ m, n = m + 3 := ⟨n - 3, by omega⟩
      exact hesc (by omega) hzero

/-- Where a segment ends. -/
theorem segmentEnd_spec {limit : Nat} (hlimit : 2 ≤ limit) {text : List Char} {ss : List Nat}
    (h : encode text = some ss) (hne : ss ≠ []) :
    0 < segmentEnd limit ss ∧ segmentEnd limit ss ≤ ss.length ∧ segmentEnd limit ss ≤ limit ∧
      (segmentEnd limit ss < ss.length → ss.getD (segmentEnd limit ss - 1) 0 ≠ ESC) := by
  have hpos := List.length_pos_of_ne_nil hne
  unfold segmentEnd
  dsimp only
  split
  · rename_i hesc
    refine ⟨by omega, by omega, by omega, fun _ hesc' => ?_⟩
    -- two escapes in a row
    refine escape_alone h hesc' ?_
    rw [show min limit ss.length - 1 - 1 + 1 = min limit ss.length - 1 by omega]
    exact hesc.2
  · rename_i hesc
    exact ⟨by omega, by omega, by omega, fun hlt hesc' => hesc ⟨hlt, hesc'⟩⟩

/-- **The segments of septets** are the septets of parts of the text. -/
theorem splitGsm7_spec {limit : Nat} (hlimit : 2 ≤ limit) {text : List Char} {ss : List Nat}
    (h : encode text = some ss) :
    ∃ parts : List (List Char), parts.flatten = text ∧
      List.Forall₂ (fun seg part => encode part = some seg ∧ seg.length ≤ limit)
        (splitGsm7 limit ss) parts := by
  induction ss using splitGsm7.induct limit generalizing text with
  | case1 ss hstop =>
    rw [splitGsm7, if_pos hstop]
    have hnil : ss = [] := by
      by_contra hne
      have hpos := (segmentEnd_spec hlimit h hne).1
      exact (hstop.resolve_left hne ▸ hpos).false
    rw [hnil] at h
    refine ⟨[], ?_, .nil⟩
    rw [← decode_encode h]
    rfl
  | case2 ss hgo ih =>
    rw [splitGsm7, if_neg hgo]
    rw [not_or] at hgo
    obtain ⟨-, hlen, hle, hesc⟩ := segmentEnd_spec hlimit h hgo.1
    obtain ⟨front, back, rfl, hfront, hback⟩ := encode_cut h hlen fun hlt _ => hesc hlt
    obtain ⟨parts, rfl, hparts⟩ := ih hback
    refine ⟨front :: parts, rfl, .cons ⟨hfront, ?_⟩ hparts⟩
    rw [List.length_take]
    omega

/-- What fits into one segment is one. -/
theorem splitGsm7_of_le {limit : Nat} {ss : List Nat} (hne : ss ≠ []) (hle : ss.length ≤ limit) :
    splitGsm7 limit ss = [ss] := by
  have hpos := List.length_pos_of_ne_nil hne
  have hend : segmentEnd limit ss = ss.length := by
    unfold segmentEnd
    dsimp only
    rw [if_neg (by omega)]
    omega
  have hgo : ¬ (ss = [] ∨ ss.length = 0) := not_or.mpr ⟨hne, by omega⟩
  rw [splitGsm7, hend, if_neg hgo, List.take_length, List.drop_length, splitGsm7,
    if_pos (Or.inl rfl)]

/-! ## Characters -/

theorem length_encode_append (t t' : List Char) :
    (Utf16.encode (t ++ t')).length = (Utf16.encode t).length + (Utf16.encode t').length := by
  unfold Utf16.encode
  rw [List.flatMap_append, List.length_append]

theorem length_encode_singleton (c : Char) :
    (Utf16.encode [c]).length = (Utf16.octetsOf c).length := by
  unfold Utf16.encode
  rw [List.flatMap_singleton]

/-- The segments of characters, with those that are collected already. -/
theorem splitUcs2From_spec {limit : Nat} (hlimit : 4 ≤ limit) (current text : List Char)
    {used : Nat} (hused : used = (Utf16.encode current).length) (hle : used ≤ limit) :
    (splitUcs2From limit current used text).flatten = current ++ text ∧
      ∀ seg ∈ splitUcs2From limit current used text, (Utf16.encode seg).length ≤ limit := by
  induction text generalizing current used with
  | nil =>
    rw [splitUcs2From, List.append_nil]
    split
    · rename_i hnil
      rw [hnil]
      exact ⟨rfl, nofun⟩
    · refine ⟨List.flatten_singleton, fun seg hseg => ?_⟩
      obtain rfl := List.mem_singleton.mp hseg
      omega
  | cons ch text ih =>
    have hsize : (Utf16.octetsOf ch).length ≤ 4 := by
      rw [Utf16.length_octetsOf]
      split <;> omega
    rw [splitUcs2From]
    split
    · obtain ⟨hflat, hall⟩ := ih [ch] (length_encode_singleton ch).symm
        (by omega : (Utf16.octetsOf ch).length ≤ limit)
      refine ⟨by rw [List.flatten_cons, hflat]; rfl, fun seg hseg => ?_⟩
      rcases List.mem_cons.mp hseg with rfl | hseg
      · omega
      · exact hall seg hseg
    · obtain ⟨hflat, hall⟩ := ih (current ++ [ch])
        (by rw [length_encode_append, length_encode_singleton, hused] :
          used + (Utf16.octetsOf ch).length = (Utf16.encode (current ++ [ch])).length) (by omega)
      refine ⟨?_, hall⟩
      rw [hflat, List.append_assoc]
      rfl

/-- What fits into one segment is one. -/
theorem splitUcs2From_of_le {limit : Nat} (current : List Char) {text : List Char} {used : Nat}
    (hle : used + (Utf16.encode text).length ≤ limit) (hne : current ++ text ≠ []) :
    splitUcs2From limit current used text = [current ++ text] := by
  induction text generalizing current used with
  | nil =>
    rw [List.append_nil] at hne ⊢
    rw [splitUcs2From, if_neg hne]
  | cons ch text ih =>
    have hlen : (Utf16.encode (ch :: text)).length =
        (Utf16.octetsOf ch).length + (Utf16.encode text).length := by
      rw [show ch :: text = [ch] ++ text from rfl, length_encode_append, length_encode_singleton]
    rw [hlen] at hle
    rw [splitUcs2From, if_neg (by omega), ih _ (by omega) (by simp), List.append_assoc]
    rfl

/-! ## The segments of a text -/

namespace Segment

/-- The part of the text that a segment carries. -/
def Carries : Segment → List Char → Prop
  | .septets ss, part => encode part = some ss
  | .chars text, part => text = part

/-- A segment fits into one PDU, with a concatenation header or without. -/
def Fits (header : Prop) [Decidable header] : Segment → Prop
  | .septets ss => ss.length ≤ if header then MAX_GSM7_CONCAT else MAX_GSM7_SINGLE
  | .chars text =>
    (Utf16.encode text).length ≤ if header then MAX_UCS2_CONCAT_BYTES else MAX_UCS2_SINGLE_BYTES

variable {header : Prop} [Decidable header]

theorem fits_septets {ss : List Nat} (h : ss.length ≤ MAX_GSM7_CONCAT) :
    (Segment.septets ss).Fits header := by
  show ss.length ≤ if header then MAX_GSM7_CONCAT else MAX_GSM7_SINGLE
  split
  · exact h
  · exact Nat.le_trans h (by decide)

theorem fits_chars {text : List Char} (h : (Utf16.encode text).length ≤ MAX_UCS2_CONCAT_BYTES) :
    (Segment.chars text).Fits header := by
  show _ ≤ if header then MAX_UCS2_CONCAT_BYTES else MAX_UCS2_SINGLE_BYTES
  split
  · exact h
  · exact Nat.le_trans h (by decide)

end Segment

/-- Segments that carry the parts of a text and fit. -/
def Parts (segments : List Segment) (text : List Char) : Prop :=
  ∃ parts : List (List Char), parts.flatten = text ∧
    List.Forall₂ (fun seg part => Segment.Carries seg part ∧ seg.Fits (1 < segments.length))
      segments parts

theorem parts_singleton {seg : Segment} {text : List Char} (h : seg.Carries text)
    (hfits : seg.Fits (1 < 1)) : Parts [seg] text :=
  ⟨[text], List.flatten_singleton, .cons ⟨h, hfits⟩ .nil⟩

/-- **The segments of a text carry its parts, and each fits.** -/
theorem segmentsOf_spec (forceUcs2 : Bool) (text : List Char) :
    Parts (segmentsOf forceUcs2 text) text := by
  unfold segmentsOf
  by_cases huse : usesGsm7 forceUcs2 text = true
  · rw [if_pos huse]
    obtain ⟨ss, hss⟩ := encode_of_canEncode (Bool.and_eq_true_iff.mp huse).2
    rw [hss, Option.getD_some]
    dsimp only
    by_cases hnil : ss = []
    · rw [hnil, splitGsm7, if_pos (Or.inl rfl), List.map_nil]
      exact parts_singleton (hnil ▸ hss) (Nat.zero_le _)
    by_cases hlong : MAX_GSM7_SINGLE < ss.length
    · rw [if_pos hlong]
      obtain ⟨parts, hflat, hparts⟩ :=
        splitGsm7_spec (by decide : 2 ≤ MAX_GSM7_CONCAT) hss
      have hne : splitGsm7 MAX_GSM7_CONCAT ss ≠ [] := by
        intro hempty
        rw [hempty, List.forall₂_nil_left_iff] at hparts
        rw [hparts] at hflat
        rw [← hflat] at hss
        exact hnil (Option.some.inj hss).symm
      rw [if_neg (by simpa using hne)]
      refine ⟨parts, hflat, List.forall₂_map_left_iff.mpr (hparts.imp fun seg part h => ?_)⟩
      exact ⟨h.1, Segment.fits_septets h.2⟩
    · rw [if_neg hlong, splitGsm7_of_le hnil (Nat.le_of_not_lt hlong)]
      exact parts_singleton hss (Nat.le_of_not_lt hlong)
  · rw [if_neg huse]
    dsimp only
    by_cases hnil : text = []
    · rw [hnil]
      exact parts_singleton rfl (Nat.zero_le _)
    by_cases hlong : MAX_UCS2_SINGLE_BYTES < (Utf16.encode text).length
    · rw [if_pos hlong]
      obtain ⟨hflat, hall⟩ := splitUcs2From_spec (by decide : 4 ≤ MAX_UCS2_CONCAT_BYTES)
        [] text rfl (Nat.zero_le _)
      have hne : splitUcs2 MAX_UCS2_CONCAT_BYTES text ≠ [] := by
        intro hempty
        have hflat' : (splitUcs2 MAX_UCS2_CONCAT_BYTES text).flatten = text := hflat
        rw [hempty] at hflat'
        exact hnil hflat'.symm
      rw [if_neg (by simpa using hne)]
      refine ⟨splitUcs2 MAX_UCS2_CONCAT_BYTES text, hflat,
        List.forall₂_map_left_iff.mpr (List.forall₂_same.mpr fun seg hseg => ?_)⟩
      exact ⟨rfl, Segment.fits_chars (hall seg hseg)⟩
    · have hone : splitUcs2 MAX_UCS2_SINGLE_BYTES text = [text] :=
        splitUcs2From_of_le [] (by omega) hnil
      rw [if_neg hlong, hone]
      exact parts_singleton rfl (Nat.le_of_not_lt hlong)

end Air780eHub.Pdu
