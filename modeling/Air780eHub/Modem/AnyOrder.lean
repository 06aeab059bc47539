/-
  The segments of one message, in any order: every push but the last returns nothing, and the last
  returns the whole message (`feed_any_order`).

  What carries it is that the partial message holds exactly the segments that came so far, in the
  order they came (`Collected`); `merge` sorts them.
-/
import Air780eHub.Modem.Reassembler

namespace Air780eHub.Modem

namespace Reassembler

/-- Segments pushed one after the other, each with the time on the clock, and what is returned. -/
def feed (r : Reassembler) : List (Nat × DecodedSms) → Reassembler × List (Option DecodedSms)
  | []                => (r, [])
  | (now, sms) :: rest =>
    let next := r.push now sms
    let last := feed next.1 rest
    (last.1, next.2 :: last.2)

/-- The numbered segments of one message. -/
structure Numbered (parts : Nat → DecodedSms) (address : String) (ref total : Nat) : Prop where
  concat  : ∀ i, 1 ≤ i → i ≤ total → (parts i).concat = some ⟨ref, total, i⟩
  address : ∀ i, 1 ≤ i → i ≤ total → (parts i).address = address

/-- The numbers of the segments. -/
abbrev numbers (total : Nat) : List Nat := List.range' 1 total

theorem mem_numbers {total i : Nat} : i ∈ numbers total ↔ 1 ≤ i ∧ i ≤ total := by
  rw [List.mem_range'_1]
  omega

section

variable {parts : Nat → DecodedSms} {address : String} {ref total : Nat}

/-- What is held under the reference when the segments `done` came. -/
def Collected (parts : Nat → DecodedSms) (address : String) (ref total : Nat) (r : Reassembler)
    (done : List Nat) : Prop :=
  (done = [] ∧ r.pending.get? (address, ref) = none) ∨
    ∃ p, r.pending.get? (address, ref) = some p ∧ p.total = total ∧
      p.parts.entries.Perm (done.map fun i => (i, parts i))

/-- **The segments in order** are those of the numbers in order. -/
theorem ordered_eq {p : Partial} {done : List Nat}
    (hp : p.parts.entries.Perm (done.map fun i => (i, parts i)))
    (hdone : done.Perm (numbers total)) : p.ordered = (numbers total).map parts := by
  unfold Partial.ordered
  have hperm := (List.perm_insertionSort (fun a b : Nat × DecodedSms => a.1 ≤ b.1)
    p.parts.entries).trans hp
  have hsorted := List.pairwise_insertionSort (fun a b : Nat × DecodedSms => a.1 ≤ b.1)
    p.parts.entries
  generalize p.parts.entries.insertionSort (fun a b => a.1 ≤ b.1) = l at hperm hsorted
  -- the numbers are sorted, and there is one sorted order of them
  have hfst : l.map Prod.fst = numbers total := by
    have hle : (l.map Prod.fst).Pairwise (· ≤ ·) := List.pairwise_map.mpr hsorted
    refine List.Perm.eq_of_pairwise' hle List.pairwise_le_range' ?_
    refine (hperm.map Prod.fst).trans ?_
    rw [List.map_map, show Prod.fst ∘ (fun i => (i, parts i)) = id from rfl, List.map_id]
    exact hdone
  -- and each segment is the one of its number
  have hsnd : l.map Prod.snd = (l.map Prod.fst).map parts := by
    rw [List.map_map]
    refine List.map_congr_left fun e he => ?_
    obtain ⟨i, -, rfl⟩ := List.mem_map.mp (hperm.subset he)
    rfl
  rw [hsnd, hfst]

/-- The partial message that the next segment goes into. -/
theorem partialFor_spec {r : Reassembler} {done : List Nat} {i : Nat} (now : Nat)
    (hnumbered : Numbered parts address ref total)
    (h : Collected parts address ref total r done) (hi : i ∈ numbers total) (hnew : i ∉ done) :
    (r.partialFor now (parts i) ⟨ref, total, i⟩).total = total ∧
      (r.partialFor now (parts i) ⟨ref, total, i⟩).parts.entries.Perm
        ((i :: done).map fun i => (i, parts i)) := by
  have haddress := hnumbered.address i (mem_numbers.mp hi).1 (mem_numbers.mp hi).2
  unfold partialFor
  rw [haddress]
  rcases h with ⟨rfl, hget⟩ | ⟨p, hget, htotal, hp⟩
  · rw [hget]
    exact ⟨rfl, Dict.set_perm_new rfl⟩
  · rw [hget]
    dsimp only
    rw [if_pos htotal]
    refine ⟨htotal, (Dict.set_perm_new ?_).trans (hp.cons (i, parts i))⟩
    cases hold : p.parts.get? i with
    | none => rfl
    | some sms =>
      obtain ⟨j, hj, heq⟩ := List.mem_map.mp (hp.subset (Dict.mem_of_get? hold))
      exact absurd ((Prod.mk.inj heq).1 ▸ hj) hnew

/-- The whole message. -/
theorem merge_spec {p : Partial} {done : List Nat} (hnumbered : Numbered parts address ref total)
    (hp : p.parts.entries.Perm (done.map fun i => (i, parts i)))
    (hdone : done.Perm (numbers total)) :
    p.merge.address = address ∧
      p.merge.text = String.join ((numbers total).map fun i => (parts i).text) := by
  have hordered := ordered_eq hp hdone
  constructor
  · have hmem : p.ordered.head p.ordered_ne_nil ∈ (numbers total).map parts :=
      hordered ▸ List.head_mem p.ordered_ne_nil
    obtain ⟨i, hi, heq⟩ := List.mem_map.mp hmem
    show (p.ordered.head p.ordered_ne_nil).address = address
    rw [← heq]
    exact hnumbered.address i (mem_numbers.mp hi).1 (mem_numbers.mp hi).2
  · show String.join (p.ordered.map DecodedSms.text) = _
    rw [hordered, List.map_map]
    rfl

/-- **One segment.**  It goes into the partial message, and the last one takes that out. -/
theorem push_segment {r : Reassembler} {done : List Nat} {i : Nat} (now : Nat)
    (hnumbered : Numbered parts address ref total) (htotal : 1 < total)
    (h : Collected parts address ref total r done) (hi : i ∈ numbers total) (hnew : i ∉ done) :
    ∃ p : Partial, p.total = total ∧
      p.parts.entries.Perm ((i :: done).map fun i => (i, parts i)) ∧
      r.push now (parts i) =
        if done.length + 1 = total then
          (⟨(r.pending.set (address, ref) p).erase (address, ref)⟩, some p.merge)
        else (⟨r.pending.set (address, ref) p⟩, none) := by
  obtain ⟨htot, hp⟩ := partialFor_spec now hnumbered h hi hnew
  refine ⟨r.partialFor now (parts i) ⟨ref, total, i⟩, htot, hp, ?_⟩
  have hcomplete : (r.partialFor now (parts i) ⟨ref, total, i⟩).complete =
      decide (done.length + 1 = total) := by
    unfold Partial.complete
    rw [hp.length_eq, htot, List.length_map, List.length_cons]
  have hmany : ¬ total ≤ 1 := by omega
  unfold push
  rw [hnumbered.concat i (mem_numbers.mp hi).1 (mem_numbers.mp hi).2]
  dsimp only
  rw [if_neg hmany, hcomplete, hnumbered.address i (mem_numbers.mp hi).1 (mem_numbers.mp hi).2]
  simp only [decide_eq_true_iff]

/-- **Every order.**  With the segments `done` there, the others may come in any order. -/
theorem feed_any_order (hnumbered : Numbered parts address ref total) (htotal : 1 < total)
    {order : List (Nat × Nat)} {done : List Nat} {r : Reassembler}
    (h : Collected parts address ref total r done) (hne : order ≠ [])
    (hall : (done ++ order.map Prod.snd).Perm (numbers total)) :
    ∃ merged, (feed r (order.map fun e => (e.1, parts e.2))).2 =
        List.replicate (order.length - 1) none ++ [some merged] ∧
      merged.address = address ∧
      merged.text = String.join ((numbers total).map fun i => (parts i).text) := by
  induction order generalizing done r with
  | nil => exact absurd rfl hne
  | cons e order ih =>
    obtain ⟨now, i⟩ := e
    have hi : i ∈ numbers total :=
      hall.subset (List.mem_append_right done List.mem_cons_self)
    have hnodup := hall.nodup_iff.mpr List.nodup_range'
    have hnew : i ∉ done := fun hmem =>
      (List.nodup_append.mp hnodup).2.2 i hmem i List.mem_cons_self rfl
    have hall' : ((i :: done) ++ order.map Prod.snd).Perm (numbers total) :=
      List.perm_middle.symm.trans hall
    have hlen : done.length + 1 + order.length = total := by
      have hlength := hall'.length_eq
      rw [List.length_append, List.length_cons, List.length_map, List.length_range'] at hlength
      exact hlength
    obtain ⟨p, htot, hp, hpush⟩ := push_segment now hnumbered htotal h hi hnew
    show ∃ merged, (r.push now (parts i)).2 :: (feed (r.push now (parts i)).1 _).2 = _ ∧ _
    cases order with
    | nil =>
      have hlast : done.length + 1 = total := hlen
      rw [if_pos hlast] at hpush
      rw [List.map_nil, List.append_nil] at hall'
      exact ⟨p.merge, by rw [hpush]; rfl, merge_spec hnumbered hp hall'⟩
    | cons e' order =>
      rw [List.length_cons] at hlen
      rw [if_neg (by omega)] at hpush
      have hcollected : Collected parts address ref total ⟨r.pending.set (address, ref) p⟩ (i :: done) :=
        Or.inr ⟨p, Dict.get?_set, htot, hp⟩
      obtain ⟨merged, hfeed, hmerged⟩ := ih hcollected (List.cons_ne_nil e' order) hall'
      refine ⟨merged, ?_, hmerged⟩
      rw [hpush]
      exact congrArg (none :: ·) hfeed

/-- A segment that is a message by itself passes straight through. -/
theorem push_alone (r : Reassembler) (now : Nat) {sms : DecodedSms}
    (halone : ∀ c, sms.concat = some c → c.total ≤ 1) : push r now sms = (r, some sms) := by
  unfold push
  cases hconcat : sms.concat with
  | none => rfl
  | some c => exact if_pos (halone c hconcat)

/-- **A whole message**, also of one segment, which may say that it is one of one. -/
theorem feed_whole (hpos : 0 < total) (hmany : 1 < total → Numbered parts address ref total)
    (halone : total = 1 → (parts 1).address = address ∧
      ∀ c, (parts 1).concat = some c → c.total ≤ 1)
    {order : List (Nat × Nat)} (hall : (order.map Prod.snd).Perm (numbers total)) :
    ∃ merged, (feed {} (order.map fun e => (e.1, parts e.2))).2 =
        List.replicate (order.length - 1) none ++ [some merged] ∧
      merged.address = address ∧
      merged.text = String.join ((numbers total).map fun i => (parts i).text) := by
  by_cases hone : 1 < total
  · have hne : order ≠ [] := by
      rintro rfl
      have hlen := hall.length_eq
      rw [List.length_range'] at hlen
      exact absurd hlen (Nat.ne_of_lt hpos)
    exact feed_any_order (hmany hone) hone (Or.inl ⟨rfl, rfl⟩) hne hall
  · obtain rfl : total = 1 := by omega
    obtain ⟨haddress, hconcat⟩ := halone rfl
    obtain ⟨e, rfl, he⟩ := List.map_eq_singleton_iff.mp (List.perm_singleton.mp hall)
    refine ⟨parts 1, ?_, haddress, ?_⟩
    · show [(push {} e.1 (parts e.2)).2] = [some (parts 1)]
      rw [he, push_alone {} e.1 hconcat]
    · show (parts 1).text = String.join [(parts 1).text]
      rw [String.join_cons, String.join_nil, String.append_empty]

end

end Reassembler

end Air780eHub.Modem
