/-
  The classification of a merged message (`_Partial.merge` and `DecodedSms.is_binary`).

  Five signals make a message data.  `merge` collects three of them from all segments: ports, a
  malformed header, a truncated frame.  The other two, the alphabet and the service centre's
  protocol identifier, it takes from the first segment.
  `merge_isBinary_iff` says when that makes no difference.  `merge_loses_octets` is two segments
  where it does.
-/
import Air780eHub.Pdu.Codec

namespace Air780eHub.Modem.Partial

open Pdu (isBinary)

/-- The signals `merge` collects from all segments. -/
def Marked (s : DecodedSms) : Prop :=
  s.ports.isSome = true ∨ s.udhMalformed = true ∨ s.truncated = true

/-- The signals `merge` takes from the first segment.  An empty control message counts only where
    there is no text at all. -/
def Labelled (p : Partial) (s : DecodedSms) : Prop :=
  s.alphabet = "8bit" ∨ (p.merge.text = "" ∧ 0xc0 ≤ s.pid)

/-- A segment counts as data. -/
def CountsBinary (p : Partial) (s : DecodedSms) : Prop :=
  s.alphabet = "8bit" ∨ s.ports.isSome = true ∨ s.udhMalformed = true ∨ s.truncated = true
    ∨ (s.text = "" ∧ 0xc0 ≤ s.pid ∧ p.merge.text = "")

/-- The segment `merge` takes the header from. -/
def head (p : Partial) : DecodedSms := p.ordered.head p.ordered_ne_nil

theorem head_mem (p : Partial) : p.head ∈ p.ordered := List.head_mem _

/-- A join is empty when all its pieces are. -/
theorem join_eq_empty {l : List String} (h : String.join l = "") : ∀ s ∈ l, s = "" := by
  induction l with
  | nil => exact fun s hs => absurd hs List.not_mem_nil
  | cons a l ih =>
    rw [String.join_cons, String.append_eq_empty_iff] at h
    rw [List.forall_mem_cons]
    exact ⟨h.1, ih h.2⟩

theorem countsBinary_iff {p : Partial} {s : DecodedSms} (hs : s ∈ p.ordered) :
    p.CountsBinary s ↔ Marked s ∨ p.Labelled s := by
  have htext : p.merge.text = "" → s.text = "" := fun h =>
    join_eq_empty h s.text (List.mem_map_of_mem hs)
  rw [CountsBinary, Marked, Labelled]
  constructor
  · rintro (h | h | h | h | ⟨-, hpid, htext⟩)
    · exact .inr (.inl h)
    · exact .inl (.inl h)
    · exact .inl (.inr (.inl h))
    · exact .inl (.inr (.inr h))
    · exact .inr (.inr ⟨htext, hpid⟩)
  · rintro ((h | h | h) | (h | ⟨hempty, hpid⟩))
    · exact .inr (.inl h)
    · exact .inr (.inr (.inl h))
    · exact .inr (.inr (.inr (.inl h)))
    · exact .inl h
    · exact .inr (.inr (.inr (.inr ⟨htext hempty, hpid, hempty⟩)))

/-- The merged message is data when a segment is marked, or the first one is labelled. -/
theorem isBinary_merge (p : Partial) :
    isBinary p.merge = true ↔ (∃ s ∈ p.ordered, Marked s) ∨ p.Labelled p.head := by
  have hports : p.merge.ports.isSome = true ↔ ∃ s ∈ p.ordered, s.ports.isSome = true :=
    List.findSome?_isSome_iff
  have hmal : p.merge.udhMalformed = true ↔ ∃ s ∈ p.ordered, s.udhMalformed = true :=
    List.any_eq_true
  have htrunc : p.merge.truncated = true ↔ ∃ s ∈ p.ordered, s.truncated = true :=
    List.any_eq_true
  have hempty : p.merge.text.isEmpty = true ↔ p.merge.text = "" := String.isEmpty_iff
  have halpha : p.merge.alphabet = p.head.alphabet := rfl
  have hpid : p.merge.pid = p.head.pid := rfl
  simp only [isBinary, Bool.or_eq_true, Bool.and_eq_true, beq_iff_eq, decide_eq_true_eq, hports,
    hmal, htrunc, hempty, halpha, hpid, Labelled, Marked]
  constructor
  · rintro ((((h | ⟨s, hs, h⟩) | ⟨s, hs, h⟩) | ⟨s, hs, h⟩) | ⟨htext, hpid⟩)
    · exact .inr (.inl h)
    · exact .inl ⟨s, hs, .inl h⟩
    · exact .inl ⟨s, hs, .inr (.inl h)⟩
    · exact .inl ⟨s, hs, .inr (.inr h)⟩
    · exact .inr (.inr ⟨htext, hpid⟩)
  · rintro (⟨s, hs, h | h | h⟩ | h | ⟨htext, hpid⟩)
    · exact .inl (.inl (.inl (.inr ⟨s, hs, h⟩)))
    · exact .inl (.inl (.inr ⟨s, hs, h⟩))
    · exact .inl (.inr ⟨s, hs, h⟩)
    · exact .inl (.inl (.inl (.inl h)))
    · exact .inr ⟨htext, hpid⟩

/-- **When merging preserves the classification.**  The merged message is data exactly when one of
    its segments counts as data, if and only if some segment is marked, or the first segment is
    labelled, or none is. -/
theorem merge_isBinary_iff (p : Partial) :
    (isBinary p.merge = true ↔ ∃ s ∈ p.ordered, p.CountsBinary s)
      ↔ ((∃ s ∈ p.ordered, Marked s) ∨ p.Labelled p.head ∨ ∀ s ∈ p.ordered, ¬ p.Labelled s) := by
  have hsome : (∃ s ∈ p.ordered, p.CountsBinary s)
      ↔ (∃ s ∈ p.ordered, Marked s) ∨ ∃ s ∈ p.ordered, p.Labelled s := by
    constructor
    · rintro ⟨s, hs, hcounts⟩
      exact ((countsBinary_iff hs).mp hcounts).imp (fun h => ⟨s, hs, h⟩) fun h => ⟨s, hs, h⟩
    · rintro (⟨s, hs, h⟩ | ⟨s, hs, h⟩)
      · exact ⟨s, hs, (countsBinary_iff hs).mpr (.inl h)⟩
      · exact ⟨s, hs, (countsBinary_iff hs).mpr (.inr h)⟩
  rw [isBinary_merge, hsome]
  constructor
  · intro h
    by_cases hlabel : ∃ s ∈ p.ordered, p.Labelled s
    · exact (h.mpr (.inr hlabel)).imp_right .inl
    · exact .inr (.inr fun s hs hl => hlabel ⟨s, hs, hl⟩)
  · rintro (hmarked | hhead | hnone)
    · exact ⟨fun _ => .inl hmarked, fun _ => .inl hmarked⟩
    · exact ⟨fun _ => .inr ⟨_, p.head_mem, hhead⟩, fun _ => .inr hhead⟩
    · constructor
      · rintro (hmarked | hhead)
        · exact .inl hmarked
        · exact absurd hhead (hnone _ p.head_mem)
      · rintro (hmarked | ⟨s, hs, hl⟩)
        · exact .inl hmarked
        · exact absurd hl (hnone s hs)

/-- A text segment and a segment of octets under one reference. -/
def textPart : DecodedSms :=
  { kind := "deliver", address := "+8613800138000", text := "settings",
    concat := some ⟨7, 2, 1⟩ }

def octetPart : DecodedSms :=
  { kind := "deliver", address := "+8613800138000", text := "\x01\x06", dcs := 4,
    alphabet := "8bit", concat := some ⟨7, 2, 2⟩ }

/-- What the reassembler holds when both have come, the octets first. -/
def mixed : Partial := (Partial.fresh 2 "+8613800138000" 0 2 octetPart).put 1 textPart

/-- **Octets behind a text segment are shown as text.** -/
theorem merge_loses_octets :
    (((⟨∅⟩ : Reassembler).push 0 octetPart).1.push 0 textPart).2 = some mixed.merge
      ∧ isBinary octetPart = true ∧ isBinary mixed.merge = false
      ∧ ¬ (isBinary mixed.merge = true ↔ ∃ s ∈ mixed.ordered, mixed.CountsBinary s) := by
  have hmerged : isBinary mixed.merge = false := by decide
  have hordered : mixed.ordered = [textPart, octetPart] := rfl
  refine ⟨rfl, by decide, hmerged, fun h => ?_⟩
  have hbinary : isBinary mixed.merge = true := by
    refine h.mpr ⟨octetPart, ?_, .inl rfl⟩
    rw [hordered]
    exact List.mem_cons_of_mem _ List.mem_cons_self
  rw [hmerged] at hbinary
  cases hbinary

end Air780eHub.Modem.Partial
