/-
  When a multipart message counts as complete (`pdu/concat.py`).

  `complete` compares the number of segments with the total.  The numbers of the segments come from
  the air interface unchecked, so a segment numbered 0, or past the total, counts like any other.

  1. **Numbers.**  Distinct numbers in order, as many as the total and within it, are 1, 2, ..., total.
  2. **One push**: what it returns of a multipart message.
  3. **Runs.**  Every message a run returns as complete has its numbers exactly when no stray segment
     is counted (`complete_iff`), and none is where none was pushed (`counted_of_inTotal`).
-/
import Mathlib.Data.List.Perm.Subperm
import Air780eHub.Modem.NothingLost

namespace Air780eHub.Modem

/-! ## Numbers -/

/-- Distinct numbers in ascending order, `n` of them and all within `n`. -/
theorem eq_range'_of_within {keys : List Nat} {n : Nat} (hsorted : keys.Pairwise (· ≤ ·))
    (hnodup : keys.Nodup) (hlen : keys.length = n) (hwithin : ∀ k ∈ keys, 1 ≤ k ∧ k ≤ n) :
    keys = List.range' 1 n := by
  have hsub : keys ⊆ List.range' 1 n := by
    intro k hk
    obtain ⟨hlo, hhi⟩ := hwithin k hk
    rw [List.mem_range'_1]
    omega
  have hperm : keys.Perm (List.range' 1 n) :=
    (hnodup.subperm hsub).perm_of_length_le (by rw [List.length_range', hlen])
  exact hperm.eq_of_pairwise (fun a b _ _ hab hba => Nat.le_antisymm hab hba) hsorted
    (List.pairwise_le_range' 1)

namespace Partial

/-- The numbers of the segments in their order. -/
def numbers (p : Partial) : List Nat :=
  (p.parts.entries.insertionSort fun a b => a.1 ≤ b.1).map Prod.fst

theorem numbers_perm (p : Partial) : p.numbers.Perm (p.parts.entries.map Prod.fst) :=
  (List.perm_insertionSort _ _).map _

theorem numbers_sorted (p : Partial) : p.numbers.Pairwise (· ≤ ·) := by
  have htotal : Std.Total fun a b : Nat × DecodedSms => a.1 ≤ b.1 := ⟨fun a b => Nat.le_total _ _⟩
  have htrans : IsTrans (Nat × DecodedSms) fun a b => a.1 ≤ b.1 := ⟨fun _ _ _ => Nat.le_trans⟩
  exact List.pairwise_map.mpr (List.pairwise_insertionSort _ _)

/-- **A complete message has the numbers from 1 to its total exactly when none is outside them.** -/
theorem numbers_eq_iff {p : Partial} (h : p.complete = true) :
    p.numbers = List.range' 1 p.total ↔
      ∀ k x, p.parts.get? k = some x → 1 ≤ k ∧ k ≤ p.total := by
  have hlen : p.parts.entries.length = p.total := by simpa [complete] using h
  constructor
  · intro he k x hk
    have hmem : k ∈ p.numbers :=
      p.numbers_perm.mem_iff.mpr (List.mem_map_of_mem (Dict.mem_iff_get?.mpr hk))
    rw [he, List.mem_range'_1] at hmem
    omega
  · intro hwithin
    refine eq_range'_of_within p.numbers_sorted ?_ ?_ fun k hk => ?_
    · exact p.numbers_perm.nodup_iff.mpr p.parts.nodup
    · rw [p.numbers_perm.length_eq, List.length_map, hlen]
    · obtain ⟨⟨k, x⟩, hx, rfl⟩ := List.mem_map.mp (p.numbers_perm.mem_iff.mp hk)
      exact hwithin k x (Dict.mem_iff_get?.mp hx)

end Partial

/-! ## One push -/

/-- The number in a segment's header. -/
def DecodedSms.number (sms : DecodedSms) : Option Nat := sms.concat.map Concat.seq

namespace Reassembler

variable {r : Reassembler} {now : Nat} {sms : DecodedSms} {c : Concat}

/-- The segments of the partial message a segment goes into are of it, each under its number. -/
theorem concat_partialFor (hf : r.Filed) (hc : sms.concat = some c) {k : Nat} {x : DecodedSms}
    (hk : (r.partialFor now sms c).parts.get? k = some x) : x.concat = some ⟨c.ref, c.total, k⟩ := by
  rcases (get?_partialFor k).mp hk with ⟨rfl, rfl⟩ | ⟨-, p, hp, htot, hpk⟩
  · exact hc
  · rw [← htot]
    exact (hf _ _ hp k x hpk).2

/-- The parts of a merge have the numbers they are sorted by. -/
theorem ordered_numbers (hf : r.Filed) (now : Nat) (hc : sms.concat = some c) :
    (r.partialFor now sms c).ordered.map DecodedSms.number =
      (r.partialFor now sms c).numbers.map some := by
  rw [Partial.ordered, Partial.numbers, List.map_map, List.map_map]
  refine List.map_congr_left fun e he => ?_
  have hget := Dict.mem_iff_get?.mp ((List.mem_insertionSort _).mp he)
  show e.2.concat.map Concat.seq = some e.1
  rw [concat_partialFor hf hc hget]
  rfl

/-- What a push returns as a merge has the segments 1, 2, ..., total. -/
def Completes (r : Reassembler) (now : Nat) (sms : DecodedSms) : Prop :=
  ∀ p, .merged p ∈ r.handed now sms →
    p.ordered.map DecodedSms.number = (List.range' 1 p.total).map some

/-- No stray segment is counted: when a segment makes them as many as the total, the numbers of all
    that are held with it are from 1 to the total. -/
def Counted (r : Reassembler) (now : Nat) (sms : DecodedSms) : Prop :=
  ∀ c, sms.concat = some c → 1 < c.total → (r.partialFor now sms c).complete = true →
    ∀ k x, (r.partialFor now sms c).parts.get? k = some x → 1 ≤ k ∧ k ≤ c.total

/-- What is merged is the partial message the segment went into. -/
theorem merged_mem_handed {p : Partial} : .merged p ∈ r.handed now sms ↔
    ∃ c, sms.concat = some c ∧ 1 < c.total ∧ (r.partialFor now sms c).complete = true ∧
      p = r.partialFor now sms c := by
  unfold handed
  cases hc : sms.concat with
  | none =>
    refine iff_of_false (fun h => ?_) (by rintro ⟨c, hc', -⟩; cases hc')
    cases List.mem_singleton.mp h
  | some c =>
    dsimp only
    split
    · rename_i ht
      refine iff_of_false (fun h => ?_) ?_
      · cases List.mem_singleton.mp h
      · rintro ⟨c', hc', hlt, -⟩
        obtain rfl := Option.some.inj hc'
        omega
    · rename_i ht
      split
      · rename_i hcomp
        rw [List.mem_singleton, Handed.merged.injEq]
        refine ⟨fun h => ⟨c, rfl, by omega, hcomp, h⟩, ?_⟩
        rintro ⟨c', hc', -, -, h⟩
        obtain rfl := Option.some.inj hc'
        exact h
      · rename_i hcomp
        refine iff_of_false List.not_mem_nil ?_
        rintro ⟨c', hc', -, hcomp', -⟩
        obtain rfl := Option.some.inj hc'
        exact hcomp hcomp'

/-- **One push**: a merge has all its segments exactly when no stray one is counted. -/
theorem completes_iff (hf : r.Filed) : r.Completes now sms ↔ r.Counted now sms := by
  constructor
  · intro hw c hc ht hcomp
    have hnumbers := hw _ (merged_mem_handed.mpr ⟨c, hc, ht, hcomp, rfl⟩)
    rw [ordered_numbers hf now hc] at hnumbers
    have hrange := List.map_injective_iff.mpr (Option.some_injective _) hnumbers
    have hwithin := (Partial.numbers_eq_iff hcomp).mp hrange
    rwa [partialFor_total] at hwithin
  · intro hcounted p hp
    obtain ⟨c, hc, ht, hcomp, rfl⟩ := merged_mem_handed.mp hp
    have hwithin := hcounted c hc ht hcomp
    rw [ordered_numbers hf now hc, (Partial.numbers_eq_iff hcomp).mpr]
    rwa [partialFor_total]

end Reassembler

/-! ## Runs -/

/-- The number of a segment is from 1 to its total. -/
def DecodedSms.InTotal (sms : DecodedSms) : Prop :=
  ∀ c, sms.concat = some c → 1 < c.total → 1 ≤ c.seq ∧ c.seq ≤ c.total

/-- Where every segment pushed is numbered within its total, no stray one is counted. -/
theorem counted_of_inTotal {timeout : Nat} {s : Pile} (h : (pile timeout).Reachable s)
    (hpushed : ∀ x ∈ s.pushed, x.InTotal) {now : Nat} {sms : DecodedSms} (hsms : sms.InTotal) :
    s.reassembler.Counted now sms := by
  have htidy := pile_tidy h
  intro c hc ht _ k x hk
  have hconcat := Reassembler.concat_partialFor htidy.filed hc hk
  rcases (Reassembler.get?_partialFor k).mp hk with ⟨-, rfl⟩ | ⟨-, p, hp, -, hpk⟩
  · exact hsms _ hconcat ht
  · exact hpushed x (htidy.pushed x ⟨_, p, hp, k, hpk⟩) _ hconcat ht

end Air780eHub.Modem
