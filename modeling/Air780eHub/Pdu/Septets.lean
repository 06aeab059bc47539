/-
  The septet layer as a whole (`pdu/gsm7.py`, `_split_gsm7`): alphabet, packing and cuts.

  The loop of `_split_gsm7` moves a cut back by one where it would be behind an escape, so that it
  has to be shown to move at all.  `splitLoop` is that loop with a bound on its rounds: one round
  for each septet is enough (`splitLoop_eq`), for every limit that holds an escape and its septet.
-/
import Air780eHub.Pdu.Split

namespace Air780eHub.Pdu

/-- The loop of `_split_gsm7`, for so many rounds; `none` where they are too few. -/
def splitLoop (limit : Nat) : Nat → List Nat → Option (List (List Nat))
  | _, []               => some []
  | 0, _ :: _           => none
  | rounds + 1, s :: ss =>
    (splitLoop limit rounds ((s :: ss).drop (segmentEnd limit (s :: ss)))).map
      ((s :: ss).take (segmentEnd limit (s :: ss)) :: ·)

/-- No text ends on an escape. -/
theorem getLast?_ne_escape {text : List Char} {ss : List Nat} (h : encode text = some ss) :
    ss.getLast? ≠ some ESC := by
  induction text generalizing ss with
  | nil =>
    obtain rfl := Option.some.inj h
    exact nofun
  | cons c text ih =>
    obtain ⟨s, rest, hs, hrest, rfl⟩ := encode_cons h
    by_cases hnil : rest = []
    · rw [hnil, List.append_nil]
      rcases septetsOf_cases hs with ⟨x, rfl, -, hne, -⟩ | ⟨x, rfl, -, hne, -⟩
      · exact fun hlast => hne (Option.some.inj hlast)
      · exact fun hlast => hne (Option.some.inj hlast)
    · rw [List.getLast?_append_of_ne_nil _ hnil]
      exact ih hrest

/-- A cut leaves the septets of a shorter text, so that the loop goes on with fewer of them. -/
theorem splitLoop_eq {limit : Nat} (hlimit : 2 ≤ limit) {text : List Char} {ss : List Nat}
    (h : encode text = some ss) {rounds : Nat} (hrounds : ss.length ≤ rounds) :
    splitLoop limit rounds ss = some (splitGsm7 limit ss) := by
  induction rounds generalizing text ss with
  | zero =>
    obtain rfl := List.eq_nil_of_length_eq_zero (Nat.le_zero.mp hrounds)
    rw [splitGsm7, if_pos (Or.inl rfl)]
    rfl
  | succ rounds ih =>
    cases ss with
    | nil =>
      rw [splitGsm7, if_pos (Or.inl rfl)]
      rfl
    | cons s ss =>
      obtain ⟨hpos, hlen, -, hesc⟩ := segmentEnd_spec hlimit h (List.cons_ne_nil s ss)
      obtain ⟨front, back, rfl, -, hback⟩ := encode_cut h hlen fun hlt _ => hesc hlt
      have hgo : ¬ (s :: ss = [] ∨ segmentEnd limit (s :: ss) = 0) :=
        not_or.mpr ⟨List.cons_ne_nil s ss, by omega⟩
      have hrest : splitLoop limit rounds ((s :: ss).drop (segmentEnd limit (s :: ss))) =
          some (splitGsm7 limit ((s :: ss).drop (segmentEnd limit (s :: ss)))) := by
        apply ih hback
        rw [List.length_drop]
        omega
      rw [splitLoop, hrest, splitGsm7.eq_def limit (s :: ss), if_neg hgo]
      rfl

/-- A segment is not empty. -/
theorem splitGsm7_ne_nil {limit : Nat} (ss : List Nat) :
    ∀ seg ∈ splitGsm7 limit ss, seg ≠ [] := by
  induction ss using splitGsm7.induct limit with
  | case1 ss hstop =>
    rw [splitGsm7, if_pos hstop]
    exact fun seg hseg => absurd hseg List.not_mem_nil
  | case2 ss hgo ih =>
    rw [splitGsm7, if_neg hgo]
    rw [not_or] at hgo
    intro seg hseg
    rcases List.mem_cons.mp hseg with rfl | hseg
    · intro hnil
      rcases List.take_eq_nil_iff.mp hnil with hzero | hempty
      · exact hgo.2 hzero
      · exact hgo.1 hempty
    · exact ih seg hseg

theorem encode_append {front back : List Char} {ss ss' : List Nat} (hfront : encode front = some ss)
    (hback : encode back = some ss') : encode (front ++ back) = some (ss ++ ss') := by
  induction front generalizing ss with
  | nil =>
    obtain rfl := Option.some.inj hfront
    exact hback
  | cons c front ih =>
    obtain ⟨s, rest, hs, hrest, rfl⟩ := encode_cons hfront
    rw [List.append_assoc]
    exact encode_cons_of hs (ih hrest)

/-- Segments of the parts of a text: each is a whole piece of it, and together they are it. -/
theorem whole_pieces {limit : Nat} {segs : List (List Nat)} {parts : List (List Char)}
    (h : List.Forall₂ (fun seg part => encode part = some seg ∧ seg.length ≤ limit) segs parts) :
    encode parts.flatten = some segs.flatten ∧ segs.map decode = parts ∧
      ∀ seg ∈ segs, seg.length ≤ limit ∧ seg.getLast? ≠ some ESC := by
  induction h with
  | nil => exact ⟨rfl, rfl, fun seg hseg => absurd hseg List.not_mem_nil⟩
  | @cons seg part segs parts hseg hsegs ih =>
    obtain ⟨henc, hdec, hall⟩ := ih
    refine ⟨encode_append hseg.1 henc, ?_, ?_⟩
    · rw [List.map_cons, decode_encode hseg.1, hdec]
    · exact List.forall_mem_cons.mpr ⟨⟨hseg.2, getLast?_ne_escape hseg.1⟩, hall⟩

/-- **The septet layer gives back what went in.**  Septets through the octets of any fill, a text
through its septets, and a text through the segments of its septets, each decoded by itself. -/
theorem septets_round_trip {septets : List Nat} (hseptets : ∀ s ∈ septets, s < 128) (fill : Nat)
    {text : List Char} (htext : canEncode text = true) {limit : Nat} (hlimit : 2 ≤ limit) :
    unpack (pack septets fill) septets.length fill = septets ∧
      ∃ ss chunks, encode text = some ss ∧ decode ss = text ∧
        (∀ rounds, ss.length ≤ rounds → splitLoop limit rounds ss = some chunks) ∧
        (∀ chunk ∈ chunks, chunk ≠ [] ∧ chunk.length ≤ limit ∧ chunk.getLast? ≠ some ESC) ∧
        chunks.flatten = ss ∧ (chunks.map decode).flatten = text := by
  refine ⟨unpack_pack hseptets fill, ?_⟩
  obtain ⟨ss, hss⟩ := encode_of_canEncode htext
  obtain ⟨parts, hflat, hparts⟩ := splitGsm7_spec hlimit hss
  obtain ⟨henc, hdec, hall⟩ := whole_pieces hparts
  rw [hflat, hss] at henc
  refine ⟨ss, splitGsm7 limit ss, hss, decode_encode hss, fun rounds => splitLoop_eq hlimit hss,
    fun chunk hchunk => ?_, (Option.some.inj henc).symm, hdec ▸ hflat⟩
  exact ⟨splitGsm7_ne_nil ss chunk hchunk, hall chunk hchunk⟩

/-- An escape at the cut of a segment of two septets. -/
theorem septets_round_trip_escape :
    unpack (pack [0x1b, 0x7f] 3) 2 3 = [0x1b, 0x7f] ∧
      ∃ ss chunks, encode ['a', '€'] = some ss ∧ decode ss = ['a', '€'] ∧
        (∀ rounds, ss.length ≤ rounds → splitLoop 2 rounds ss = some chunks) ∧
        (∀ chunk ∈ chunks, chunk ≠ [] ∧ chunk.length ≤ 2 ∧ chunk.getLast? ≠ some ESC) ∧
        chunks.flatten = ss ∧ (chunks.map decode).flatten = ['a', '€'] :=
  septets_round_trip (by decide) 3 (by decide) (by decide)

end Air780eHub.Pdu
