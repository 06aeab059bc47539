/-
  Reassembly of concatenated SMS (`pdu/concat.py`).

  Segments of one long message arrive as separate PDUs sharing a reference number, in any order.
  `push` takes a segment up and returns a message as soon as it is whole; `flush_expired` gives up
  on what waited too long and returns it merged with gaps closed.

  Every decoded message carries a ghost field, `reads`: the stored messages it was decoded from.
  A merged message has those of all its segments, so that "the segment is part of a message handed
  over" can be said.

  1. **Decoded messages** and the stored messages they come from.
  2. **One partial message**: its segments by sequence number, and `merge`.
  3. **The reassembler.**  `push_perm` and `flushExpired_perm` account for every segment: what is
     held and returned afterwards, with what the push displaced, is what was held before with the
     new segment.
-/
import Air780eHub.Lib.Dict
import Mathlib.Data.List.Sort

namespace Air780eHub.Modem

/-! ## Decoded messages -/

/-- A message in a slot of the modem's store.  `declared` is the length in its `+CMGR` header;
    `id` is ghost, the number of its arrival. -/
structure Stored where
  id       : Nat
  pdu      : String
  declared : Option Nat
deriving DecidableEq

/-- Concatenation header extracted from the UDH. -/
structure Concat where
  ref   : Nat
  total : Nat
  seq   : Nat
deriving DecidableEq

/-- A decoded PDU, or several merged. -/
structure DecodedSms where
  kind                  : String
  address               : String
  text                  : String
  smsc                  : Option String := none
  timestamp             : Option String := none
  dcs                   : Nat := 0
  alphabet              : String := "gsm7"
  concat                : Option Concat := none
  raw                   : String := ""
  ports                 : Option (Nat × Nat) := none
  udhMalformed          : Bool := false
  statusReportRequested : Bool := false
  pid                   : Nat := 0
  truncated             : Bool := false
  recoveredText         : String := ""
  code                  : String := ""
  /-- Ghost: the stored messages it was decoded from. -/
  reads                 : List Stored := []

/-- The property `is_multipart`. -/
def DecodedSms.isMultipart (sms : DecodedSms) : Bool :=
  match sms.concat with
  | none   => false
  | some c => decide (1 < c.total)

/-- The stored messages behind a list of decoded ones. -/
def readsOf (l : List DecodedSms) : List Stored := l.flatMap DecodedSms.reads

@[simp] theorem readsOf_nil : readsOf [] = [] := rfl

@[simp] theorem readsOf_append (l l' : List DecodedSms) :
    readsOf (l ++ l') = readsOf l ++ readsOf l' :=
  List.flatMap_append

@[simp] theorem readsOf_singleton (sms : DecodedSms) : readsOf [sms] = sms.reads :=
  List.flatMap_singleton _ _

@[simp] theorem readsOf_some (sms : DecodedSms) : readsOf (some sms).toList = sms.reads :=
  List.flatMap_singleton _ _

theorem mem_readsOf {m : Stored} {sms : DecodedSms} {l : List DecodedSms} (hs : sms ∈ l)
    (hm : m ∈ sms.reads) : m ∈ readsOf l :=
  List.mem_flatMap.mpr ⟨sms, hs, hm⟩

theorem readsOf_perm {l l' : List DecodedSms} (h : l.Perm l') : (readsOf l).Perm (readsOf l') :=
  h.flatMap_right _

/-! ## One partial message -/

/-- `_Partial`: the segments that arrived, by sequence number.  `push` makes one and puts the
    first segment in, so there is always one. -/
structure Partial where
  total     : Nat
  address   : String
  parts     : Dict Nat DecodedSms
  firstSeen : Nat
  filled    : parts.entries ≠ []

namespace Partial

theorem filled_set (parts : Dict Nat DecodedSms) (seq : Nat) (sms : DecodedSms) :
    (parts.set seq sms).entries ≠ [] := by
  intro hnil
  have hget : (parts.set seq sms).get? seq = some sms := Dict.get?_set
  rw [Dict.get?, hnil] at hget
  cases hget

/-- `partial.parts[seq] = sms`. -/
def put (p : Partial) (seq : Nat) (sms : DecodedSms) : Partial :=
  { p with parts := p.parts.set seq sms, filled := filled_set _ _ _ }

/-- A new partial message with its first segment. -/
def fresh (total : Nat) (address : String) (now seq : Nat) (sms : DecodedSms) : Partial where
  total := total
  address := address
  parts := (∅ : Dict Nat DecodedSms).set seq sms
  firstSeen := now
  filled := filled_set _ _ _

/-- The property `complete`. -/
def complete (p : Partial) : Bool := p.parts.entries.length = p.total

/-- The segments in the order of their sequence numbers. -/
def ordered (p : Partial) : List DecodedSms :=
  (p.parts.entries.insertionSort fun a b => a.1 ≤ b.1).map Prod.snd

theorem ordered_perm (p : Partial) : p.ordered.Perm (p.parts.entries.map Prod.snd) :=
  (List.perm_insertionSort _ _).map _

theorem ordered_ne_nil (p : Partial) : p.ordered ≠ [] := by
  intro hnil
  have hlen := p.ordered_perm.length_eq
  rw [hnil, List.length_map, List.length_nil] at hlen
  exact p.filled (List.length_eq_zero_iff.mp hlen.symm)

/-- `merge`. -/
def merge (p : Partial) : DecodedSms where
  kind := (p.ordered.head p.ordered_ne_nil).kind
  address := (p.ordered.head p.ordered_ne_nil).address
  text := String.join (p.ordered.map DecodedSms.text)
  smsc := (p.ordered.head p.ordered_ne_nil).smsc
  timestamp := (p.ordered.head p.ordered_ne_nil).timestamp
  dcs := (p.ordered.head p.ordered_ne_nil).dcs
  alphabet := (p.ordered.head p.ordered_ne_nil).alphabet
  concat := (p.ordered.head p.ordered_ne_nil).concat
  raw := String.intercalate " " (p.ordered.map DecodedSms.raw)
  ports := p.ordered.findSome? DecodedSms.ports
  udhMalformed := p.ordered.any DecodedSms.udhMalformed
  pid := (p.ordered.head p.ordered_ne_nil).pid
  truncated := p.ordered.any DecodedSms.truncated
  recoveredText := String.join (p.ordered.map DecodedSms.recoveredText)
  code := ((p.ordered.map DecodedSms.code).find? fun code => code != "").getD ""
  reads := readsOf p.ordered

/-- The stored messages behind the segments. -/
def reads (p : Partial) : List Stored := readsOf (p.parts.entries.map Prod.snd)

theorem merge_reads (p : Partial) : p.merge.reads.Perm p.reads := readsOf_perm p.ordered_perm

theorem fresh_reads (total : Nat) (address : String) (now seq : Nat) (sms : DecodedSms) :
    (fresh total address now seq sms).reads = sms.reads :=
  List.flatMap_singleton _ _

/-- A segment takes the place of the one under its number. -/
theorem put_reads (p : Partial) (seq : Nat) (sms : DecodedSms) :
    ((p.put seq sms).reads ++ readsOf (p.parts.get? seq).toList).Perm (p.reads ++ sms.reads) := by
  have hcons : ∀ (s : DecodedSms) (l : List (Nat × DecodedSms)),
      readsOf (((seq, s) :: l).map Prod.snd) = s.reads ++ readsOf (l.map Prod.snd) :=
    fun _ _ => rfl
  show (readsOf ((p.parts.set seq sms).entries.map Prod.snd) ++ _).Perm _
  cases hget : p.parts.get? seq with
  | none =>
    have hp := readsOf_perm ((Dict.set_perm_new (v := sms) hget).map Prod.snd)
    rw [hcons] at hp
    rw [Option.toList_none, readsOf_nil, List.append_nil]
    exact hp.trans List.perm_append_comm
  | some old =>
    have hp := readsOf_perm ((Dict.set_perm_old (v := sms) hget).map Prod.snd)
    rw [hcons, hcons] at hp
    rw [readsOf_some]
    exact List.perm_append_comm.trans (hp.trans List.perm_append_comm)

end Partial

/-! ## The reassembler -/

/-- `Reassembler`: the partial messages by sender and reference. -/
structure Reassembler where
  pending : Dict (String × Nat) Partial := ∅

namespace Reassembler

/-- The stored messages behind the segments it holds. -/
def held (r : Reassembler) : List Stored := r.pending.entries.flatMap fun e => e.2.reads

/-- The partial message a segment goes into, with the segment in it. -/
def partialFor (r : Reassembler) (now : Nat) (sms : DecodedSms) (c : Concat) : Partial :=
  match r.pending.get? (sms.address, c.ref) with
  | none   => Partial.fresh c.total sms.address now c.seq sms
  | some p =>
    if p.total = c.total then p.put c.seq sms
    else Partial.fresh c.total sms.address now c.seq sms

/-- `push`. -/
def push (r : Reassembler) (now : Nat) (sms : DecodedSms) : Reassembler × Option DecodedSms :=
  match sms.concat with
  | none   => (r, some sms)
  | some c =>
    if c.total ≤ 1 then (r, some sms)
    else if (r.partialFor now sms c).complete then
      (⟨(r.pending.set (sms.address, c.ref) (r.partialFor now sms c)).erase (sms.address, c.ref)⟩,
        some (r.partialFor now sms c).merge)
    else (⟨r.pending.set (sms.address, c.ref) (r.partialFor now sms c)⟩, none)

/-- `flush_expired`. -/
def flushExpired (r : Reassembler) (now timeout : Nat) : Reassembler × List DecodedSms :=
  (⟨r.pending.filter fun e => !decide (timeout ≤ now - e.2.firstSeen)⟩,
    (r.pending.entries.filter fun e => decide (timeout ≤ now - e.2.firstSeen)).map fun e =>
      e.2.merge)

/-- What a push takes out of the reassembler without returning it: the segment that had the same
    number, or, when the partial message under this reference has another length, all of it. -/
def displaced (r : Reassembler) (sms : DecodedSms) : List Stored :=
  match sms.concat with
  | none   => []
  | some c =>
    if c.total ≤ 1 then []
    else match r.pending.get? (sms.address, c.ref) with
      | none   => []
      | some p => if p.total = c.total then readsOf (p.parts.get? c.seq).toList else p.reads

/-! ### Every segment is accounted for -/

variable (r : Reassembler) (now : Nat) (sms : DecodedSms)

theorem held_perm_of_entries (l l' : List ((String × Nat) × Partial))
    {d d' : Dict (String × Nat) Partial} (h : (l ++ d.entries).Perm (l' ++ d'.entries)) :
    ((l.flatMap fun e => e.2.reads) ++ held ⟨d⟩).Perm
      ((l'.flatMap fun e => e.2.reads) ++ held ⟨d'⟩) := by
  rw [held, held, ← List.flatMap_append, ← List.flatMap_append]
  exact h.flatMap_right _

/-- With the partial message assigned under its key, everything is there. -/
theorem set_perm (c : Concat) (hc : sms.concat = some c) (ht : ¬ c.total ≤ 1) :
    (held ⟨r.pending.set (sms.address, c.ref) (r.partialFor now sms c)⟩ ++ r.displaced sms).Perm
      (r.held ++ sms.reads) := by
  rw [displaced, hc]
  simp only [if_neg ht]
  cases hget : r.pending.get? (sms.address, c.ref) with
  | none =>
    have hp : r.partialFor now sms c = Partial.fresh c.total sms.address now c.seq sms := by
      rw [partialFor, hget]
    have hperm := held_perm_of_entries [] [((sms.address, c.ref), r.partialFor now sms c)]
      (d := r.pending.set (sms.address, c.ref) (r.partialFor now sms c))
      (Dict.set_perm_new hget)
    rw [List.flatMap_nil, List.nil_append, List.flatMap_singleton, hp, Partial.fresh_reads] at hperm
    rw [List.append_nil, hp]
    exact hperm.trans List.perm_append_comm
  | some p =>
    have hperm := held_perm_of_entries [_] [_]
      (Dict.set_perm_old (v := r.partialFor now sms c) hget)
    rw [List.flatMap_singleton, List.flatMap_singleton] at hperm
    by_cases htot : p.total = c.total
    · have hp : r.partialFor now sms c = p.put c.seq sms := by
        rw [partialFor, hget]; exact if_pos htot
      simp only [if_pos htot]
      -- both sides, with the old partial message's segments added
      refine (List.perm_append_left_iff p.reads).mp ?_
      have hput := p.put_reads c.seq sms
      rw [hp] at hperm ⊢
      calc _ = (p.reads ++ held _) ++ _ := (List.append_assoc _ _ _).symm
        _ |>.Perm (((p.put c.seq sms).reads ++ r.held) ++ readsOf (p.parts.get? c.seq).toList) :=
            hperm.append_right _
        _ |>.Perm (((p.put c.seq sms).reads ++ readsOf (p.parts.get? c.seq).toList) ++ r.held) := by
            rw [List.append_assoc, List.append_assoc]
            exact List.perm_append_comm.append_left _
        _ |>.Perm ((p.reads ++ sms.reads) ++ r.held) := hput.append_right _
        _ |>.Perm _ := by
            rw [List.append_assoc]
            exact List.perm_append_comm.append_left _
    · have hp : r.partialFor now sms c = Partial.fresh c.total sms.address now c.seq sms := by
        rw [partialFor, hget]; exact if_neg htot
      rw [hp, Partial.fresh_reads] at hperm
      simp only [if_neg htot]
      rw [hp]
      exact List.perm_append_comm.trans (hperm.trans List.perm_append_comm)

/-- **A push accounts for every segment**: what is held or returned, with what was displaced, is
    what was held, with the new one. -/
theorem push_perm :
    ((r.push now sms).1.held ++ readsOf (r.push now sms).2.toList ++ r.displaced sms).Perm
      (r.held ++ sms.reads) := by
  cases hc : sms.concat with
  | none => simp [push, displaced, hc]
  | some c =>
    by_cases ht : c.total ≤ 1
    · simp [push, displaced, hc, ht]
    · have hset := r.set_perm now sms c hc ht
      by_cases hcomp : (r.partialFor now sms c).complete = true
      · have herase := held_perm_of_entries [_] []
          (Dict.erase_perm (Dict.get?_set (d := r.pending) (k := (sms.address, c.ref))
            (v := r.partialFor now sms c)))
        rw [List.flatMap_singleton, List.flatMap_nil, List.nil_append] at herase
        simp only [push, hc, if_neg ht, if_pos hcomp, readsOf_some]
        refine List.Perm.trans (List.Perm.append_right _ ?_) hset
        exact (((Partial.merge_reads _).append_left _).trans List.perm_append_comm).trans herase
      · simp only [push, hc, if_neg ht, if_neg hcomp, Option.toList_none, readsOf_nil,
          List.append_nil]
        exact hset

theorem mem_partialFor {c : Concat} {m : Stored} (hm : m ∈ sms.reads) :
    m ∈ (r.partialFor now sms c).reads := by
  have hmem : ∀ (d : Dict Nat DecodedSms),
      m ∈ readsOf ((d.set c.seq sms).entries.map Prod.snd) := fun d =>
    mem_readsOf (List.mem_map_of_mem (f := Prod.snd) (Dict.mem_set (d := d) (k := c.seq))) hm
  rw [partialFor]
  cases r.pending.get? (sms.address, c.ref) with
  | none => exact hmem ∅
  | some p =>
    by_cases htot : p.total = c.total
    · simp only [if_pos htot]; exact hmem p.parts
    · simp only [if_neg htot]; exact hmem ∅

/-- The new segment is held or returned. -/
theorem push_keeps {m : Stored} (hm : m ∈ sms.reads) :
    m ∈ (r.push now sms).1.held ++ readsOf (r.push now sms).2.toList := by
  cases hc : sms.concat with
  | none => simp [push, hc, hm]
  | some c =>
    have hp : m ∈ (r.partialFor now sms c).reads := r.mem_partialFor now sms hm
    by_cases ht : c.total ≤ 1
    · simp [push, hc, ht, hm]
    · by_cases hcomp : (r.partialFor now sms c).complete = true
      · simp only [push, hc, if_neg ht, if_pos hcomp, readsOf_some]
        exact List.mem_append_right _ ((Partial.merge_reads _).mem_iff.mpr hp)
      · simp only [push, hc, if_neg ht, if_neg hcomp]
        exact List.mem_append_left _ (List.mem_flatMap.mpr ⟨_, Dict.mem_set, hp⟩)

/-- **A flush accounts for every segment.** -/
theorem flushExpired_perm (timeout : Nat) :
    ((r.flushExpired now timeout).1.held ++ readsOf (r.flushExpired now timeout).2).Perm
      r.held := by
  have hmerge : ∀ l : List ((String × Nat) × Partial),
      (readsOf (l.map fun e => e.2.merge)).Perm (l.flatMap fun e => e.2.reads) := by
    intro l
    rw [readsOf, List.flatMap_map]
    exact List.Perm.flatMap_left _ fun e _ => e.2.merge_reads
  have hsplit := (List.filter_append_perm (fun e => decide (timeout ≤ now - e.2.firstSeen))
    r.pending.entries).flatMap_right fun e => e.2.reads
  rw [List.flatMap_append] at hsplit
  exact ((hmerge _).append_left _).trans (List.perm_append_comm.trans hsplit)

end Reassembler

end Air780eHub.Modem
