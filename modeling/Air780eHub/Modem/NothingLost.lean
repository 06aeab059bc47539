/-
  What the reassembler keeps, over every sequence of calls.

  The pushed segments are arbitrary: any senders, references, totals and numbers, in any order and
  at any time.  A segment is REPRESENTED while an identical one (same sender, reference, total,
  number and text) is pending or part of a message that was returned.

  1. **What is returned**: a message as it came, or one merged from its segments.
  2. **One push**: `represented_push` and `of_represented_push` say between them exactly what is
     represented after a push: the new segment, and what was held without being overwritten.
  3. **The machine** of pushes and flushes, and the result (`nothing_lost`): the pushed segments
     stay represented exactly as long as no push overwrites something else under its reference.
-/
import Air780eHub.Lib.Machine
import Air780eHub.Modem.Reassembler

namespace Air780eHub.Modem

/-! ## What is returned -/

/-- The same sender, reference, total, number and text. -/
structure Identical (a b : DecodedSms) : Prop where
  address : a.address = b.address
  concat  : a.concat = b.concat
  text    : a.text = b.text

theorem Identical.refl (a : DecodedSms) : Identical a a := ⟨rfl, rfl, rfl⟩

theorem Identical.symm {a b : DecodedSms} (h : Identical a b) : Identical b a :=
  ⟨h.address.symm, h.concat.symm, h.text.symm⟩

theorem Identical.trans {a b c : DecodedSms} (h : Identical a b) (h' : Identical b c) :
    Identical a c :=
  ⟨h.address.trans h'.address, h.concat.trans h'.concat, h.text.trans h'.text⟩

namespace Partial

/-- The segment is one of the parts. -/
def Has (p : Partial) (x : DecodedSms) : Prop := ∃ i, p.parts.get? i = some x

theorem mem_ordered {p : Partial} {x : DecodedSms} : x ∈ p.ordered ↔ p.Has x := by
  rw [p.ordered_perm.mem_iff, List.mem_map]
  constructor
  · rintro ⟨⟨i, y⟩, hm, rfl⟩
    exact ⟨i, Dict.mem_iff_get?.mp hm⟩
  · rintro ⟨i, hi⟩
    exact ⟨(i, x), Dict.mem_iff_get?.mpr hi, rfl⟩

end Partial

/-- A message that was returned: one segment as it came, or a merged partial message. -/
inductive Handed
  | whole (sms : DecodedSms)
  | merged (p : Partial)

namespace Handed

/-- The message. -/
def message : Handed → DecodedSms
  | whole sms => sms
  | merged p  => p.merge

/-- The segments it is made of. -/
def segments : Handed → List DecodedSms
  | whole sms => [sms]
  | merged p  => p.ordered

/-- The text of each of its segments stands in the message. -/
theorem text_infix {h : Handed} {x : DecodedSms} (hx : x ∈ h.segments) :
    x.text.toList <:+: h.message.text.toList := by
  cases h with
  | whole sms =>
    obtain rfl := List.mem_singleton.mp hx
    exact List.infix_refl _
  | merged p =>
    show x.text.toList <:+: (String.join (p.ordered.map DecodedSms.text)).toList
    obtain ⟨before, after, he⟩ := List.mem_iff_append.mp (show x ∈ p.ordered from hx)
    rw [he, String.toList_join]
    simp only [List.map_append, List.map_cons, List.flatMap_append, List.flatMap_cons]
    exact ⟨_, _, List.append_assoc _ _ _⟩

end Handed

/-! ## One push -/

namespace Reassembler

variable {r : Reassembler} {now : Nat} {sms x : DecodedSms} {c : Concat}

/-- The segment is pending. -/
def Holds (r : Reassembler) (x : DecodedSms) : Prop :=
  ∃ k p, r.pending.get? k = some p ∧ p.Has x

/-- Every segment lies under its own sender, reference, total and number. -/
def Filed (r : Reassembler) : Prop :=
  ∀ k p, r.pending.get? k = some p → ∀ i x, p.parts.get? i = some x →
    x.address = k.1 ∧ x.concat = some ⟨k.2, p.total, i⟩

/-- A push of `sms` takes `d` out of its place: it had the same number, or the message under this
    reference has another length. -/
def Overwrites (r : Reassembler) (sms d : DecodedSms) : Prop :=
  ∃ c p i, sms.concat = some c ∧ 1 < c.total ∧ r.pending.get? (sms.address, c.ref) = some p ∧
    p.parts.get? i = some d ∧ (p.total = c.total → i = c.seq)

/-- What a push returns, with what it is made of. -/
def handed (r : Reassembler) (now : Nat) (sms : DecodedSms) : List Handed :=
  match sms.concat with
  | none   => [.whole sms]
  | some c =>
    if c.total ≤ 1 then [.whole sms]
    else if (r.partialFor now sms c).complete then [.merged (r.partialFor now sms c)]
    else []

/-- It is what the push returns. -/
theorem handed_message (r : Reassembler) (now : Nat) (sms : DecodedSms) :
    (r.handed now sms).map Handed.message = (r.push now sms).2.toList := by
  unfold handed push
  cases sms.concat with
  | none => rfl
  | some c =>
    by_cases ht : c.total ≤ 1
    · simp only [if_pos ht]
      rfl
    · simp only [if_neg ht]
      split
      · rfl
      · rfl

/-- What a flush returns, with what it is made of. -/
def flushed (r : Reassembler) (now timeout : Nat) : List Handed :=
  (r.pending.entries.filter fun e => decide (timeout ≤ now - e.2.firstSeen)).map fun e => .merged e.2

theorem flushed_message (r : Reassembler) (now timeout : Nat) :
    (r.flushed now timeout).map Handed.message = (r.flushExpired now timeout).2 := by
  unfold flushed flushExpired
  rw [List.map_map]
  rfl

/-- The parts of the partial message a segment goes into: the segment at its number, and the
    parts that were there when the length is the same. -/
theorem get?_partialFor (i : Nat) :
    (r.partialFor now sms c).parts.get? i = some x ↔
      (i = c.seq ∧ x = sms) ∨
      (i ≠ c.seq ∧ ∃ p, r.pending.get? (sms.address, c.ref) = some p ∧ p.total = c.total ∧
        p.parts.get? i = some x) := by
  have hset : ∀ d : Dict Nat DecodedSms, (d.set c.seq sms).get? i = some x ↔
      (i = c.seq ∧ x = sms) ∨ (i ≠ c.seq ∧ d.get? i = some x) := by
    intro d
    by_cases hi : i = c.seq
    · subst hi
      rw [Dict.get?_set]
      constructor
      · intro h
        exact Or.inl ⟨rfl, (Option.some.inj h).symm⟩
      · rintro (⟨-, rfl⟩ | ⟨hne, -⟩)
        · rfl
        · exact absurd rfl hne
    · rw [Dict.get?_set_ne hi]
      constructor
      · intro h
        exact Or.inr ⟨hi, h⟩
      · rintro (⟨he, -⟩ | ⟨-, h⟩)
        · exact absurd he hi
        · exact h
  unfold partialFor
  cases hp : r.pending.get? (sms.address, c.ref) with
  | none =>
    show ((∅ : Dict Nat DecodedSms).set c.seq sms).get? i = some x ↔ _
    rw [hset]
    constructor
    · rintro (h | ⟨-, h⟩)
      · exact Or.inl h
      · cases h
    · rintro (h | ⟨-, p, h, -⟩)
      · exact Or.inl h
      · cases h
  | some p =>
    by_cases ht : p.total = c.total
    · simp only [if_pos ht]
      show (p.parts.set c.seq sms).get? i = some x ↔ _
      rw [hset]
      constructor
      · rintro (h | ⟨hi, h⟩)
        · exact Or.inl h
        · exact Or.inr ⟨hi, p, rfl, ht, h⟩
      · rintro (h | ⟨hi, q, hq, -, h⟩)
        · exact Or.inl h
        · cases hq
          exact Or.inr ⟨hi, h⟩
    · simp only [if_neg ht]
      show ((∅ : Dict Nat DecodedSms).set c.seq sms).get? i = some x ↔ _
      rw [hset]
      constructor
      · rintro (h | ⟨-, h⟩)
        · exact Or.inl h
        · cases h
      · rintro (h | ⟨-, q, hq, htq, -⟩)
        · exact Or.inl h
        · cases hq
          exact absurd htq ht

theorem partialFor_total : (r.partialFor now sms c).total = c.total := by
  unfold partialFor
  split
  · rfl
  · split
    · assumption
    · rfl

/-- **What a push does**: a segment that is no part of a longer message comes back as it is; any
    other goes into its partial message, which is returned and gone when it is whole. -/
theorem push_cases (r : Reassembler) (now : Nat) (sms : DecodedSms) :
    ((∀ c, sms.concat = some c → c.total ≤ 1) ∧ (r.push now sms).1 = r ∧
      r.handed now sms = [.whole sms]) ∨
    ∃ c, sms.concat = some c ∧ 1 < c.total ∧
      (∀ k, k ≠ (sms.address, c.ref) → (r.push now sms).1.pending.get? k = r.pending.get? k) ∧
      (((r.push now sms).1.pending.get? (sms.address, c.ref) = some (r.partialFor now sms c) ∧
          r.handed now sms = []) ∨
        ((r.push now sms).1.pending.get? (sms.address, c.ref) = none ∧
          r.handed now sms = [.merged (r.partialFor now sms c)])) := by
  unfold push handed
  cases hc : sms.concat with
  | none => exact Or.inl ⟨nofun, rfl, rfl⟩
  | some c =>
    by_cases ht : c.total ≤ 1
    · simp only [if_pos ht]
      exact Or.inl ⟨fun c' h => by cases h; exact ht, trivial, trivial⟩
    · refine Or.inr ⟨c, rfl, by omega, ?_⟩
      simp only [if_neg ht]
      split
      · refine ⟨fun k hk => ?_, Or.inr ⟨Dict.get?_erase, rfl⟩⟩
        exact (Dict.get?_erase_ne hk).trans (Dict.get?_set_ne hk)
      · exact ⟨fun k hk => Dict.get?_set_ne hk, Or.inl ⟨Dict.get?_set, rfl⟩⟩

/-- Pending, or part of a message returned just now. -/
def Shown (r : Reassembler) (out : List Handed) (x : DecodedSms) : Prop :=
  r.Holds x ∨ ∃ h ∈ out, x ∈ h.segments

/-- A partial message is shown after the push, pending or returned. -/
theorem shown_of_held (hc : sms.concat = some c) (ht : 1 < c.total)
    (hx : (r.partialFor now sms c).Has x) :
    Shown (r.push now sms).1 (r.handed now sms) x := by
  rcases r.push_cases now sms with ⟨hsmall, -⟩ | ⟨c', hc', -, -, h⟩
  · have := hsmall c hc
    omega
  · obtain rfl : c = c' := Option.some.inj (hc.symm.trans hc')
    rcases h with ⟨hk, -⟩ | ⟨-, ho⟩
    · exact Or.inl ⟨_, _, hk, hx⟩
    · refine Or.inr ⟨.merged (r.partialFor now sms c), ?_, Partial.mem_ordered.mpr hx⟩
      rw [ho]
      exact List.mem_singleton_self _

/-- The new segment is shown. -/
theorem shown_push_self : Shown (r.push now sms).1 (r.handed now sms) sms := by
  rcases r.push_cases now sms with ⟨-, -, ho⟩ | ⟨c, hc, ht, -⟩
  · refine Or.inr ⟨.whole sms, ?_, List.mem_singleton_self _⟩
    rw [ho]
    exact List.mem_singleton_self _
  · exact shown_of_held hc ht ⟨c.seq, (get?_partialFor _).mpr (Or.inl ⟨rfl, rfl⟩)⟩

/-- **What was held is shown after a push, unless the push overwrites it.** -/
theorem shown_push (hx : r.Holds x) :
    Shown (r.push now sms).1 (r.handed now sms) x ∨ r.Overwrites sms x := by
  obtain ⟨k, p, hk, i, hi⟩ := hx
  rcases r.push_cases now sms with ⟨-, he, -⟩ | ⟨c, hc, ht, hother, h⟩
  · exact Or.inl (Or.inl ⟨k, p, by rw [he]; exact hk, i, hi⟩)
  · by_cases hkey : k = (sms.address, c.ref)
    · subst hkey
      by_cases hstay : p.total = c.total ∧ i ≠ c.seq
      · refine Or.inl (shown_of_held hc ht ⟨i, ?_⟩)
        exact (get?_partialFor i).mpr (Or.inr ⟨hstay.2, p, hk, hstay.1, hi⟩)
      · refine Or.inr ⟨c, p, i, hc, ht, hk, hi, fun htot => ?_⟩
        by_contra hne
        exact hstay ⟨htot, hne⟩
    · exact Or.inl (Or.inl ⟨k, p, (hother k hkey).trans hk, i, hi⟩)

/-- What a push shows is the new segment or was held; if it is identical to something the push
    overwrites, it is identical to the new segment. -/
theorem of_shown_push (hf : r.Filed) {d : DecodedSms} (hd : r.Overwrites sms d)
    (hx : Shown (r.push now sms).1 (r.handed now sms) x) (hid : Identical x d) :
    Identical d sms := by
  obtain ⟨c, p, i, hc, ht, hp, hi, hseq⟩ := hd
  obtain ⟨hda, hdc⟩ := hf _ _ hp i d hi
  have hpart : (r.partialFor now sms c).Has x → Identical d sms := by
    rintro ⟨j, hj⟩
    rcases (get?_partialFor j).mp hj with ⟨-, rfl⟩ | ⟨hne, q, hq, htot, hqj⟩
    · exact hid.symm
    · -- a part that stayed has another number than the one that went
      obtain rfl : p = q := Option.some.inj (hp.symm.trans hq)
      have hxc := (hf _ _ hp j x hqj).2
      have heq : (⟨c.ref, p.total, j⟩ : Concat) = ⟨c.ref, p.total, i⟩ :=
        Option.some.inj (hxc.symm.trans (hid.concat.trans hdc))
      have hji : j = i := congrArg Concat.seq heq
      exact absurd (hji.trans (hseq htot)) hne
  rcases r.push_cases now sms with ⟨hsmall, -⟩ | ⟨c', hc', -, hother, h⟩
  · have := hsmall c hc
    omega
  · obtain rfl : c = c' := Option.some.inj (hc.symm.trans hc')
    rcases hx with ⟨k, q, hk, hxq⟩ | ⟨m, hm, hxm⟩
    · by_cases hkey : k = (sms.address, c.ref)
      · subst hkey
        rcases h with ⟨hP, -⟩ | ⟨hnone, -⟩
        · obtain rfl := Option.some.inj (hk.symm.trans hP)
          exact hpart hxq
        · rw [hnone] at hk
          cases hk
      · -- under another key nothing is identical to it
        rw [hother k hkey] at hk
        obtain ⟨j, hj⟩ := hxq
        obtain ⟨hxa, hxc⟩ := hf k q hk j x hj
        have heq : (⟨k.2, q.total, j⟩ : Concat) = ⟨c.ref, p.total, i⟩ :=
          Option.some.inj (hxc.symm.trans (hid.concat.trans hdc))
        refine absurd (Prod.ext ?_ (congrArg Concat.ref heq)) hkey
        exact hxa.symm.trans (hid.address.trans hda)
    · rcases h with ⟨-, ho⟩ | ⟨-, ho⟩
      · rw [ho] at hm
        cases hm
      · rw [ho] at hm
        obtain rfl := List.mem_singleton.mp hm
        exact hpart (Partial.mem_ordered.mp hxm)

/-- A push files its segment. -/
theorem push_filed (hf : r.Filed) : (r.push now sms).1.Filed := by
  rcases r.push_cases now sms with ⟨-, he, -⟩ | ⟨c, hc, ht, hother, h⟩
  · rw [he]
    exact hf
  · intro k p hk i x hi
    by_cases hkey : k = (sms.address, c.ref)
    · subst hkey
      rcases h with ⟨hP, -⟩ | ⟨hnone, -⟩
      · obtain rfl := Option.some.inj (hk.symm.trans hP)
        rw [partialFor_total]
        rcases (get?_partialFor i).mp hi with ⟨rfl, rfl⟩ | ⟨-, q, hq, htot, hqi⟩
        · exact ⟨rfl, hc⟩
        · rw [← htot]
          exact hf _ _ hq i x hqi
      · rw [hnone] at hk
        cases hk
    · exact hf k p ((hother k hkey).symm.trans hk) i x hi

/-- What is pending after a push is the new segment or was pending before. -/
theorem holds_push (hx : (r.push now sms).1.Holds x) : x = sms ∨ r.Holds x := by
  obtain ⟨k, p, hk, i, hi⟩ := hx
  rcases r.push_cases now sms with ⟨-, he, -⟩ | ⟨c, -, -, hother, h⟩
  · rw [he] at hk
    exact Or.inr ⟨k, p, hk, i, hi⟩
  · by_cases hkey : k = (sms.address, c.ref)
    · subst hkey
      rcases h with ⟨hP, -⟩ | ⟨hnone, -⟩
      · obtain rfl := Option.some.inj (hk.symm.trans hP)
        rcases (get?_partialFor i).mp hi with ⟨-, rfl⟩ | ⟨-, q, hq, -, hqi⟩
        · exact Or.inl rfl
        · exact Or.inr ⟨_, q, hq, i, hqi⟩
      · rw [hnone] at hk
        cases hk
    · exact Or.inr ⟨k, p, (hother k hkey).symm.trans hk, i, hi⟩

/-! ### A flush -/

theorem get?_flushExpired {k : String × Nat} {p : Partial} {timeout : Nat} :
    (r.flushExpired now timeout).1.pending.get? k = some p ↔
      r.pending.get? k = some p ∧ ¬ timeout ≤ now - p.firstSeen := by
  rw [← Dict.mem_iff_get?, ← Dict.mem_iff_get?]
  show (k, p) ∈ r.pending.entries.filter _ ↔ _
  rw [List.mem_filter]
  simp

/-- What was pending is pending or returned after a flush. -/
theorem shown_flush {timeout : Nat} (hx : r.Holds x) :
    Shown (r.flushExpired now timeout).1 (r.flushed now timeout) x := by
  obtain ⟨k, p, hk, hp⟩ := hx
  by_cases hexp : timeout ≤ now - p.firstSeen
  · refine Or.inr ⟨.merged p, ?_, Partial.mem_ordered.mpr hp⟩
    refine List.mem_map.mpr ⟨(k, p), ?_, rfl⟩
    exact List.mem_filter.mpr ⟨Dict.mem_iff_get?.mpr hk, decide_eq_true hexp⟩
  · exact Or.inl ⟨k, p, get?_flushExpired.mpr ⟨hk, hexp⟩, hp⟩

theorem holds_flush {timeout : Nat} (hx : (r.flushExpired now timeout).1.Holds x) : r.Holds x := by
  obtain ⟨k, p, hk, hp⟩ := hx
  exact ⟨k, p, (get?_flushExpired.mp hk).1, hp⟩

end Reassembler

/-! ## The machine -/

/-- A reassembler, every segment pushed so far and every message returned so far. -/
structure Pile where
  reassembler : Reassembler := {}
  pushed      : List DecodedSms := []
  returned    : List Handed := []

/-- A call, with the time `time.monotonic` gives it. -/
inductive PileCall
  | push (now : Nat) (sms : DecodedSms)
  | flush (now : Nat)

namespace Pile

/-- One call. -/
def step (timeout : Nat) (s : Pile) : PileCall → Option Pile
  | .push now sms => some
    { reassembler := (s.reassembler.push now sms).1
      pushed      := s.pushed ++ [sms]
      returned    := s.returned ++ s.reassembler.handed now sms }
  | .flush now => some
    { s with
      reassembler := (s.reassembler.flushExpired now timeout).1
      returned    := s.returned ++ s.reassembler.flushed now timeout }

/-- Every pushed segment, or an identical one, is pending or part of a returned message. -/
def Kept (s : Pile) : Prop :=
  ∀ sms ∈ s.pushed, ∃ x, Identical x sms ∧ s.reassembler.Shown s.returned x

/-- The condition: what a push overwrites is identical to the new segment, or to a part of a
    message that was returned. -/
def Undisturbed (s : Pile) : PileCall → Prop
  | .push _ sms => ∀ d, s.reassembler.Overwrites sms d →
      Identical d sms ∨ ∃ h ∈ s.returned, ∃ x ∈ h.segments, Identical x d
  | .flush _ => True

/-- The segments are filed, and all of them were pushed. -/
structure Tidy (s : Pile) : Prop where
  filed  : s.reassembler.Filed
  pushed : ∀ x, s.reassembler.Holds x → x ∈ s.pushed

end Pile

/-- Every sequence of calls of one reassembler. -/
def pile (timeout : Nat) : Machine Pile PileCall where
  Start := fun s => s = {}
  step  := Pile.step timeout

namespace Pile

variable {timeout : Nat} {s s' : Pile} {a : PileCall}

theorem tidy_step (h : s.Tidy) (hs : s.step timeout a = some s') : s'.Tidy := by
  cases a with
  | push now sms =>
    obtain rfl := Option.some.inj hs
    refine ⟨Reassembler.push_filed h.filed, fun x hx => ?_⟩
    rcases Reassembler.holds_push hx with rfl | hx
    · exact List.mem_append_right _ (List.mem_singleton_self _)
    · exact List.mem_append_left _ (h.pushed x hx)
  | flush now =>
    obtain rfl := Option.some.inj hs
    refine ⟨fun k p hk => ?_, fun x hx => h.pushed x (Reassembler.holds_flush hx)⟩
    exact h.filed k p (Reassembler.get?_flushExpired.mp hk).1

/-- Nothing that was returned is taken back. -/
theorem shown_more {r : Reassembler} {out more : List Handed} {x : DecodedSms}
    (h : r.Shown more x) : r.Shown (out ++ more) x := by
  rcases h with h | ⟨m, hm, hx⟩
  · exact Or.inl h
  · exact Or.inr ⟨m, List.mem_append_right _ hm, hx⟩

/-- **One call keeps what was kept exactly under the condition.** -/
theorem kept_step (ht : s.Tidy) (hk : s.Kept) (hs : s.step timeout a = some s') :
    s'.Kept ↔ s.Undisturbed a := by
  cases a with
  | flush now =>
    obtain rfl := Option.some.inj hs
    refine ⟨fun _ => trivial, fun _ sms hsms => ?_⟩
    obtain ⟨x, hid, hx | ⟨m, hm, hx⟩⟩ := hk sms hsms
    · exact ⟨x, hid, shown_more (Reassembler.shown_flush hx)⟩
    · exact ⟨x, hid, Or.inr ⟨m, List.mem_append_left _ hm, hx⟩⟩
  | push now new =>
    obtain rfl := Option.some.inj hs
    constructor
    · -- what was overwritten had been pushed, so something identical is still shown
      intro hk' d hd
      have hpushed : d ∈ s.pushed := by
        obtain ⟨c, p, i, -, -, hp, hi, -⟩ := hd
        exact ht.pushed d ⟨_, p, hp, i, hi⟩
      obtain ⟨x, hid, hx | ⟨m, hm, hx⟩⟩ := hk' d (List.mem_append_left _ hpushed)
      · exact Or.inl (@Reassembler.of_shown_push _ now _ _ ht.filed _ hd (Or.inl hx) hid)
      · rcases List.mem_append.mp hm with hm | hm
        · exact Or.inr ⟨m, hm, x, hx, hid⟩
        · exact Or.inl (Reassembler.of_shown_push ht.filed hd (Or.inr ⟨m, hm, hx⟩) hid)
    · intro hg sms hsms
      have hnew : ∃ x, Identical x new ∧
          (s.reassembler.push now new).1.Shown (s.returned ++ s.reassembler.handed now new) x :=
        ⟨new, .refl new, shown_more Reassembler.shown_push_self⟩
      rcases List.mem_append.mp hsms with hsms | hsms
      · obtain ⟨x, hid, hx | ⟨m, hm, hx⟩⟩ := hk sms hsms
        · rcases @Reassembler.shown_push _ now new _ hx with hx | hover
          · exact ⟨x, hid, shown_more hx⟩
          · rcases hg x hover with hsame | ⟨m, hm, y, hy, hyx⟩
            · obtain ⟨y, hy, hshown⟩ := hnew
              exact ⟨y, hy.trans (hsame.symm.trans hid), hshown⟩
            · exact ⟨y, hyx.trans hid, Or.inr ⟨m, List.mem_append_left _ hm, hy⟩⟩
        · exact ⟨x, hid, Or.inr ⟨m, List.mem_append_left _ hm, hx⟩⟩
      · obtain rfl := List.mem_singleton.mp hsms
        exact hnew

theorem start_tidy : ({} : Pile).Tidy where
  filed  := fun _ _ hk => by cases hk
  pushed := fun _ ⟨_, _, hk, _⟩ => by cases hk

end Pile

theorem pile_tidy {timeout : Nat} {s : Pile} (h : (pile timeout).Reachable s) : s.Tidy := by
  refine h.invariant (I := Pile.Tidy) ?_ fun s a s' hs _ hstep => Pile.tidy_step hs hstep
  rintro s rfl
  exact Pile.start_tidy

/-- **The reassembler loses nothing while no push overwrites something else.**  Over every
    sequence of pushes and flushes whose pushes meet the condition, every segment pushed is
    represented; and a next call keeps it so exactly when it meets the condition too. -/
theorem nothing_lost {timeout : Nat} {s : Pile}
    (h : (pile timeout).ReachableBy Pile.Undisturbed s) :
    s.Kept ∧ ∀ a s', (pile timeout).step s a = some s' → (s'.Kept ↔ s.Undisturbed a) := by
  have hkept : s.Kept := by
    refine h.bundle (I := Pile.Tidy) (fun s hs => pile_tidy hs.reachable) ?_ ?_
    · rintro s rfl sms hsms
      cases hsms
    · intro s a s' ht hk hg hstep
      exact (Pile.kept_step ht hk hstep).mpr hg
  exact ⟨hkept, fun a s' hstep => Pile.kept_step (pile_tidy h.reachable) hkept hstep⟩

/-- A segment of a message of `total` parts. -/
def part (total seq : Nat) (text : String) : DecodedSms :=
  { kind := "deliver", address := "10086", text := text, concat := some ⟨7, total, seq⟩ }

/-- Two parts of one message, the second first, meet the condition: one message comes out. -/
theorem nothing_lost_two :
    ∃ s, s.returned.map (fun h => h.message.text) = ["ab"] ∧ s.Kept ∧
      ∀ a s', (pile 30).step s a = some s' → (s'.Kept ↔ s.Undisturbed a) := by
  have hfirst : ({} : Pile).Undisturbed (.push 0 (part 2 2 "b")) := by
    rintro d ⟨c, p, i, -, -, hp, -, -⟩
    cases hp
  have hsecond : ∀ s, (pile 30).step {} (.push 0 (part 2 2 "b")) = some s →
      s.Undisturbed (.push 1 (part 2 1 "a")) := by
    rintro s hs d ⟨c, p, i, hc, -, hp, hi, hseq⟩
    cases hs
    cases hc
    cases hp
    -- nothing is held under the number of the new part
    obtain rfl : i = 1 := hseq rfl
    cases hi
  refine ⟨_, ?_, nothing_lost ⟨{}, rfl, (Machine.Path.refl.snoc hfirst rfl).snoc
    (hsecond _ rfl) rfl⟩⟩
  decide

/-- Reusing a reference discards what was held under it: after a segment of a three-part message
    the first segment of a two-part one is neither pending nor returned. -/
theorem reused_reference_loses :
    ∃ s, (pile 30).run {} [.push 0 (part 2 1 "first"), .push 1 (part 3 1 "second")] = some s ∧
      ¬ s.Kept := by
  refine ⟨_, rfl, fun hk => ?_⟩
  obtain ⟨x, hid, ⟨k, p, hp, i, hi⟩ | ⟨m, hm, -⟩⟩ := hk (part 2 1 "first") List.mem_cons_self
  · obtain ⟨rfl, rfl⟩ := Prod.mk.inj (List.mem_singleton.mp (Dict.mem_iff_get?.mpr hp))
    obtain ⟨rfl, rfl⟩ := Prod.mk.inj (List.mem_singleton.mp (Dict.mem_iff_get?.mpr hi))
    cases hid.concat
  · cases hm

end Air780eHub.Modem
