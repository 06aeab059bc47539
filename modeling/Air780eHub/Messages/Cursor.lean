/-
  Positions in a list of messages (`MessageScope.cursor`, `MessageScope.parse_cursor`).

  A cursor is a version, the digest of the filter it was made under, the id of a row and its
  timestamp, in base 64.  What it is read back by is strict: length, encoding, fields, filter, id
  and timestamp are each checked.
  1. **Texts**: octets, the digest of a filter, decimal ids.
  2. **`cursor`, `parse_cursor`**.
  3. **`parseCursor_cursor`**: a cursor is read back under its own filter.
-/
import Air780eHub.Lib.Base64
import Air780eHub.Messages.Scope
import Air780eHub.Messages.Timestamps
import Air780eHub.Schedule.Numbers
import Air780eHub.Wire.Json

namespace Air780eHub.Messages

/-! ## Texts -/

/-- `text.encode()`. -/
def octets (text : String) : List Nat := text.toUTF8.data.toList.map UInt8.toNat

/-- `octets.decode()`; `none` where they are no UTF-8. -/
def ofOctets (l : List Nat) : Option String := String.fromUTF8? ⟨(l.map UInt8.ofNat).toArray⟩

/-- What is used of the standard library as it is. -/
structure Library where
  /-- `hashlib.blake2s(octets, digest_size=4).digest()`. -/
  blake2s       : List Nat → List Nat
  /-- Whether `datetime.fromisoformat` reads a text. -/
  fromisoformat : String → Bool

/-- `hexdigest`. -/
def hexdigest (digest : List Nat) : List Char :=
  digest.flatMap fun x => [Nat.digitChar (x / 16), Nat.digitChar (x % 16)]

/-- Code points that `str.isdigit` takes beside the decimal digits, by their first and last. -/
def OTHER_DIGITS : List (Nat × Nat) :=
  [(0xb2, 0xb3), (0xb9, 0xb9), (0x1369, 0x1371), (0x19da, 0x19da), (0x2070, 0x2070),
   (0x2074, 0x2079), (0x2080, 0x2089), (0x2460, 0x2468), (0x2474, 0x247c), (0x2488, 0x2490),
   (0x24ea, 0x24ea), (0x24f5, 0x24fd), (0x24ff, 0x24ff), (0x2776, 0x277e), (0x2780, 0x2788),
   (0x278a, 0x2792), (0x10a40, 0x10a43), (0x10e60, 0x10e68), (0x11052, 0x1105a),
   (0x1f100, 0x1f10a)]

/-- `text.isdigit()`. -/
def isdigit (text : List Char) : Bool :=
  !text.isEmpty && text.all fun c => (Schedule.digit c).isSome ||
    OTHER_DIGITS.any fun r => decide (r.1 ≤ c.toNat) && decide (c.toNat ≤ r.2)

/-- `int(text)` of what `isdigit` takes, so that there is no sign, no underscore and no blank in it;
    `none` where it raises. -/
def intOf (text : List Char) : Option Nat := (text.mapM Schedule.digit).map Schedule.ofDigits

/-- `text.split(sep, n)`. -/
def split (sep : Char) : Nat → List Char → List (List Char)
  | 0, text     => [text]
  | n + 1, text => match text.dropWhile (· != sep) with
    | []        => [text]
    | _ :: rest => text.takeWhile (· != sep) :: split sep n rest

/-! ## Cursors -/

/-- The first entry of the digested list. -/
def SimScope.value : SimScope → Value
  | .all        => .str "all"
  | .unassigned => .str "unassigned"
  | .card id    => .int id

/-- A text or nothing, as JSON. -/
def orNull : Option String → Value
  | some s => .str s
  | none   => .null

namespace MessageScope

variable (L : Library) (scope : MessageScope)

/-- `MessageScope.fingerprint`. -/
def fingerprint : List Char :=
  let canonical := Value.plain (.arr [scope.sim.value, orNull scope.direction, orNull scope.peer,
    orNull scope.search, orNull scope.content])
  hexdigest (L.blake2s (octets canonical))

/-- The text that a cursor encodes. -/
def payload (id : Nat) (ts : String) : String :=
  String.ofList ('1' :: '|' :: (scope.fingerprint L ++ '|' :: (Nat.toDigits 10 id ++ '|' ::
    ts.toList)))

/-- `MessageScope.cursor`, of a row's id and timestamp. -/
def cursor (id : Nat) (ts : String) : String :=
  String.ofList (Base64.unpadded (Base64.encode (octets (scope.payload L id ts))))

end MessageScope

/-- What `parse_cursor` raises. -/
inductive CursorError
  | badCursor (why : String)
  /-- `int(raw_id)`, of digits that are not decimal. -/
  | valueError
deriving DecidableEq

/-- The payload of a cursor; `none` where it does not decode. -/
def decodeCursor (text : String) : Option String :=
  if text.toList.all fun c => decide (c.toNat < 128) then
    (Base64.decode (Base64.padded text.toList)).bind ofOctets
  else none

/-- `MessageScope.parse_cursor`. -/
def MessageScope.parseCursor (L : Library) (scope : MessageScope) (text : String) :
    Except CursorError (String × Nat) :=
  if text = "" ∨ 160 < text.length then .error (.badCursor "cursor length")
  else match decodeCursor text with
    | none         => .error (.badCursor "cursor encoding")
    | some payload => match split '|' 3 payload.toList with
      | [version, fingerprint, rawId, ts] =>
        if version ≠ ['1'] then .error (.badCursor "cursor version")
        else if fingerprint ≠ scope.fingerprint L then .error (.badCursor "cursor filter")
        else if isdigit rawId = false ∨ 19 < rawId.length then .error (.badCursor "cursor id")
        else if 40 < ts.length then .error (.badCursor "cursor timestamp")
        else if L.fromisoformat (String.ofList ts) = false then
          .error (.badCursor "cursor timestamp")
        else match intOf rawId with
          | some id => .ok (String.ofList ts, id)
          | none    => .error .valueError
      | _ => .error (.badCursor "cursor fields")

/-! ## Reading back -/

theorem octets_lt (text : String) : ∀ x ∈ octets text, x < 256 := by
  intro x hx
  obtain ⟨b, -, rfl⟩ := List.mem_map.mp hx
  exact b.toNat_lt

theorem ofOctets_octets (text : String) : ofOctets (octets text) = some text := by
  have hmap : (octets text).map UInt8.ofNat = text.toUTF8.data.toList := by
    unfold octets
    rw [List.map_map]
    refine (List.map_congr_left fun b _ => ?_).trans (List.map_id _)
    exact UInt8.ofNat_toNat
  unfold ofOctets
  rw [hmap, Array.toArray_toList]
  exact dif_pos text.isValidUTF8

/-- Octets of a text without any character above 127. -/
theorem length_octets {l : List Char} (h : ∀ c ∈ l, c.utf8Size = 1) :
    (octets (String.ofList l)).length = l.length := by
  have hsize : (octets (String.ofList l)).length = (String.ofList l).utf8ByteSize := by
    unfold octets
    rw [List.length_map]
    rfl
  rw [hsize]
  induction l with
  | nil => rfl
  | cons c l ih =>
    obtain ⟨hc, hl⟩ := List.forall_mem_cons.mp h
    have hcons : String.ofList (c :: l) = String.singleton c ++ String.ofList l := by
      rw [← String.toList_inj, String.toList_append, String.toList_ofList, String.toList_ofList,
        String.toList_singleton]
      rfl
    have hlen : (octets (String.ofList l)).length = (String.ofList l).utf8ByteSize := by
      unfold octets
      rw [List.length_map]
      rfl
    rw [hcons, String.utf8ByteSize_append, String.utf8ByteSize_singleton, hc, ih hl hlen,
      List.length_cons, Nat.add_comm]

theorem digitChar_spec (n : Nat) : Nat.digitChar n ≠ '|' ∧ (Nat.digitChar n).utf8Size = 1 := by
  by_cases hlt : n < 16
  · have hall : ∀ k < 16, Nat.digitChar k ≠ '|' ∧ (Nat.digitChar k).utf8Size = 1 := by decide
    exact hall n hlt
  · have hstar : Nat.digitChar n = '*' := by
      unfold Nat.digitChar
      repeat rw [if_neg (by omega)]
    rw [hstar]
    decide

theorem mem_digits {w n : Nat} {c : Char} (h : c ∈ digits w n) : ∃ k, c = Nat.digitChar k := by
  induction w generalizing n with
  | zero => exact absurd h List.not_mem_nil
  | succ w ih =>
    rw [digits] at h
    rcases List.mem_append.mp h with h | h
    · exact ih h
    · exact ⟨_, List.mem_singleton.mp h⟩

/-- A separator that is not in the first part. -/
theorem split_cons {sep : Char} {n : Nat} {front back : List Char} (h : sep ∉ front) :
    split sep (n + 1) (front ++ sep :: back) = front :: split sep n back := by
  have hall : ∀ c ∈ front, (c != sep) = true := by
    intro c hc
    rw [bne_iff_ne]
    rintro rfl
    exact h hc
  have hdrop : (front ++ sep :: back).dropWhile (· != sep) = sep :: back := by
    rw [List.dropWhile_append_of_pos hall, List.dropWhile_cons_of_neg (by simp)]
  have htake : (front ++ sep :: back).takeWhile (· != sep) = front := by
    rw [List.takeWhile_append_of_pos hall, List.takeWhile_cons_of_neg (by simp), List.append_nil]
  rw [split, hdrop, htake]

theorem digit_digitChar : ∀ n < 10, Schedule.digit (Nat.digitChar n) = some n := by decide

/-- Every character that is written of an id is a decimal digit. -/
theorem mem_toDigits {n : Nat} {c : Char} (h : c ∈ Nat.toDigits 10 n) :
    ∃ k < 10, c = Nat.digitChar k := by
  induction n using Nat.strong_induction_on with
  | h n ih =>
    by_cases hlt : n < 10
    · rw [Nat.toDigits_of_lt_base hlt] at h
      exact ⟨n, hlt, List.mem_singleton.mp h⟩
    · rw [Nat.toDigits_of_base_le (by decide) (by omega)] at h
      rcases List.mem_append.mp h with h | h
      · exact ih (n / 10) (by omega) h
      · exact ⟨n % 10, by omega, List.mem_singleton.mp h⟩

theorem intOf_concat {text : List Char} {n d : Nat} (h : intOf text = some n) (hd : d < 10) :
    intOf (text ++ [Nat.digitChar d]) = some (10 * n + d) := by
  unfold intOf at h ⊢
  obtain ⟨ds, hds, rfl⟩ := Option.map_eq_some_iff.mp h
  rw [List.mapM_append, hds, List.mapM_cons, digit_digitChar d hd]
  show some (Schedule.ofDigits (ds ++ [d])) = _
  unfold Schedule.ofDigits
  rw [List.foldl_append]
  rfl

/-- **An id is read back.** -/
theorem intOf_toDigits (n : Nat) : intOf (Nat.toDigits 10 n) = some n := by
  induction n using Nat.strong_induction_on with
  | h n ih =>
    by_cases hlt : n < 10
    · rw [Nat.toDigits_of_lt_base hlt]
      have hone : intOf ([] ++ [Nat.digitChar n]) = some (10 * 0 + n) := intOf_concat rfl hlt
      rwa [Nat.mul_zero, Nat.zero_add] at hone
    · rw [Nat.toDigits_of_base_le (by decide) (by omega),
        intOf_concat (ih (n / 10) (by omega)) (by omega)]
      exact congrArg some (by omega)

theorem isdigit_toDigits (n : Nat) : isdigit (Nat.toDigits 10 n) = true := by
  unfold isdigit
  rw [Bool.and_eq_true, List.all_eq_true, Bool.not_eq_true', List.isEmpty_eq_false_iff]
  refine ⟨Nat.toDigits_ne_nil, fun c hc => ?_⟩
  obtain ⟨k, hk, rfl⟩ := mem_toDigits hc
  rw [digit_digitChar k hk]
  rfl

/-- No character of a timestamp is a separator, and each is one octet. -/
theorem isoText_spec (s : Nat) : ∀ c ∈ isoText s, c ≠ '|' ∧ c.utf8Size = 1 := by
  have hdigits : ∀ {w n : Nat} {c : Char}, c ∈ digits w n → c ≠ '|' ∧ c.utf8Size = 1 := by
    intro w n c hc
    obtain ⟨k, rfl⟩ := mem_digits hc
    exact digitChar_spec k
  have hzone : ∀ c ∈ "+00:00".toList, c ≠ '|' ∧ c.utf8Size = 1 :=
    List.forall_iff_forall_mem.mp (by decide)
  intro c hc
  unfold isoText isoDate at hc
  simp only [List.mem_append, List.mem_cons] at hc
  rcases hc with (hc | rfl | hc | rfl | hc) | rfl | hc | rfl | hc | rfl | hc | hc
  · exact hdigits hc
  · decide
  · exact hdigits hc
  · decide
  · exact hdigits hc
  · decide
  · exact hdigits hc
  · decide
  · exact hdigits hc
  · decide
  · exact hdigits hc
  · exact hzone c hc

section RoundTrip

variable {L : Library} (scope : MessageScope)

theorem fingerprint_spec : ∀ c ∈ scope.fingerprint L, c ≠ '|' ∧ c.utf8Size = 1 := by
  intro c hc
  obtain ⟨x, -, hx⟩ := List.mem_flatMap.mp hc
  rcases List.mem_cons.mp hx with rfl | hx
  · exact digitChar_spec _
  · rw [List.mem_singleton.mp hx]
    exact digitChar_spec _

theorem length_fingerprint (hdigest : ∀ l, (L.blake2s l).length = 4) :
    (scope.fingerprint L).length = 8 := by
  show (List.flatMap _ _).length = 8
  rw [List.length_flatMap]
  simp [hdigest]

/-- The parts of the text of a cursor. -/
theorem split_payload (id second : Nat) :
    split '|' 3 (scope.payload L id (isoformat second)).toList =
      [['1'], scope.fingerprint L, Nat.toDigits 10 id, isoText second] := by
  have hid : '|' ∉ Nat.toDigits 10 id := by
    intro h
    obtain ⟨k, -, hk⟩ := mem_toDigits h
    exact (digitChar_spec k).1 hk.symm
  unfold MessageScope.payload isoformat
  rw [String.toList_ofList, String.toList_ofList]
  show split '|' 3 (['1'] ++ '|' :: (scope.fingerprint L ++ '|' ::
    (Nat.toDigits 10 id ++ '|' :: isoText second))) = _
  rw [split_cons (by decide), split_cons fun h => (fingerprint_spec scope _ h).1 rfl,
    split_cons hid]
  rfl

/-- The text of a cursor is within the limit. -/
theorem length_cursor (hdigest : ∀ l, (L.blake2s l).length = 4) {id : Nat} (hid : id < 10 ^ 19)
    (second : Nat) : (scope.cursor L id (isoformat second)).length ≤ 75 ∧
      1 ≤ (scope.cursor L id (isoformat second)).length := by
  have hsize : (octets (scope.payload L id (isoformat second))).length =
      1 + 1 + 8 + 1 + (Nat.toDigits 10 id).length + 1 + 25 := by
    unfold MessageScope.payload isoformat
    rw [String.toList_ofList, length_octets]
    · simp only [List.length_cons, List.length_append, length_fingerprint scope hdigest,
        length_isoText]
      omega
    · intro c hc
      simp only [List.mem_cons, List.mem_append] at hc
      rcases hc with rfl | rfl | hc | rfl | hc | rfl | hc
      · decide
      · decide
      · exact (fingerprint_spec scope c hc).2
      · decide
      · obtain ⟨k, -, rfl⟩ := mem_toDigits hc
        exact (digitChar_spec k).2
      · decide
      · exact (isoText_spec second c hc).2
  have hdigits := (Nat.length_toDigits_le_iff (by decide) (by decide)).mpr hid
  have hbody := Base64.length_body (octets (scope.payload L id (isoformat second)))
  have hlower := Base64.le_length_body (octets (scope.payload L id (isoformat second)))
  unfold MessageScope.cursor
  rw [String.length_ofList, Base64.unpadded_encode (octets_lt _)]
  omega

/-- **A cursor is read back under its own filter**: the timestamp and the id of the row. -/
theorem parseCursor_cursor (hdigest : ∀ l, (L.blake2s l).length = 4)
    (hreads : ∀ s < MAX_SECONDS, L.fromisoformat (isoformat s) = true) {id second : Nat}
    (hid : id < 10 ^ 19) (hsecond : second < MAX_SECONDS) :
    scope.parseCursor L (scope.cursor L id (isoformat second)) = .ok (isoformat second, id) := by
  obtain ⟨hle, hge⟩ := length_cursor scope hdigest hid second
  have hne : ¬ (scope.cursor L id (isoformat second) = "" ∨
      160 < (scope.cursor L id (isoformat second)).length) := by
    rintro (hempty | hlong)
    · rw [hempty] at hge
      cases hge
    · omega
  have hdecode : decodeCursor (scope.cursor L id (isoformat second)) =
      some (scope.payload L id (isoformat second)) := by
    unfold decodeCursor MessageScope.cursor
    rw [String.toList_ofList, if_pos, Base64.decode_padded (octets_lt _)]
    · exact ofOctets_octets _
    · rw [List.all_eq_true]
      intro c hc
      rw [Base64.unpadded_encode (octets_lt _)] at hc
      exact decide_eq_true (Base64.body_lt _ c hc)
  have hts : String.ofList (isoText second) = isoformat second := rfl
  have hdigits := (Nat.length_toDigits_le_iff (by decide) (by decide)).mpr hid
  unfold MessageScope.parseCursor
  rw [if_neg hne, hdecode]
  dsimp only
  rw [split_payload]
  dsimp only
  rw [if_neg (not_not_intro rfl), if_neg (not_not_intro rfl),
    if_neg (by rw [isdigit_toDigits]; simp only [Bool.true_eq_false, false_or]; omega),
    if_neg (by rw [length_isoText]; omega), hts,
    if_neg (by rw [hreads second hsecond]; exact Bool.noConfusion), intOf_toDigits]

end RoundTrip

end Air780eHub.Messages
