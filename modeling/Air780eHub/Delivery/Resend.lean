/-
  Resends: what the Server asks for again is sent again.

  1. **The queue**: what an append, a trim and an ack do to what is queued.
  2. **The batch** (`Ordered`): what the sender has in hand is in order and covers the queue.
  3. **Debts**: as long as no resend is lost, what is owed is what is ahead of the sender.
  4. **Progress**: an event ahead of the sender comes closer with every turn (`Within`).
  5. **`resend_honoured`**, and that a resend outside the condition is lost (`harm`).
-/
import Air780eHub.Delivery.Sender

namespace Air780eHub.Delivery

/-! ## The queue -/

theorem unackedEvents_eq (t : EventTable) (limit : Nat) :
    t.unackedEvents limit = (queued t).take limit := List.map_take

theorem queued_of_window {t : EventTable} {limit : Nat} {e : Event}
    (h : e ∈ t.unackedEvents limit) : e ∈ queued t := by
  rw [unackedEvents_eq] at h
  exact List.mem_of_mem_take h

theorem queued_sorted (t : EventTable) : (queued t).Pairwise fun a b => a.seq < b.seq :=
  List.pairwise_map.mpr (t.sorted.sublist List.filter_sublist)

theorem queued_row {t : EventTable} {e : Event} (h : e ∈ queued t) :
    ∃ r ∈ t.rows, r.acked = false ∧ r.event = e := by
  obtain ⟨r, hr, rfl⟩ := List.mem_map.mp h
  obtain ⟨hrow, hacked⟩ := List.mem_filter.mp hr
  rw [Bool.not_eq_true'] at hacked
  exact ⟨r, hrow, hacked, rfl⟩

theorem queued_bounds {t : EventTable} {e : Event} (h : e ∈ queued t) :
    1 ≤ e.seq ∧ e.seq ≤ t.sequence := by
  obtain ⟨r, hr, -, rfl⟩ := queued_row h
  exact t.bounded r hr

theorem queued_append (t : EventTable) (kind : String) (payload : Payload) :
    queued (t.appendEvent kind payload) = queued t ++ [t.appended kind payload] := by
  show ((t.rows ++ [_]).filter _).map _ = _
  rw [List.filter_append, List.map_append]
  rfl

theorem queued_delete (t : EventTable) (p : EventRow → Bool) :
    (queued (t.delete p)).Sublist (queued t) :=
  (List.filter_sublist.filter _).map _

theorem queued_markAcked (t : EventTable) (seq : Int) :
    (queued (t.markAcked seq)).Sublist (queued t) := by
  refine List.Sublist.map _ ?_
  show ((updateWhere (EventTable.covered seq) EventTable.setAcked t.rows).filter _).Sublist _
  unfold updateWhere
  induction t.rows with
  | nil => exact List.Sublist.refl _
  | cons r rows ih =>
    rw [List.map_cons]
    by_cases hc : EventTable.covered seq r = true
    · -- the row leaves the queue
      rw [if_pos hc, List.filter_cons_of_neg (by simp [EventTable.setAcked])]
      exact ih.trans ((List.sublist_cons_self r rows).filter _)
    · rw [if_neg hc]
      by_cases ha : r.acked = true
      · rw [List.filter_cons_of_neg (by simp [ha]), List.filter_cons_of_neg (by simp [ha])]
        exact ih
      · rw [List.filter_cons_of_pos (by simp [ha]), List.filter_cons_of_pos (by simp [ha])]
        exact ih.cons_cons r

theorem queued_ackThrough (t : EventTable) (seq : Int) :
    (queued (t.ackThrough seq)).Sublist (queued t) :=
  (queued_delete _ _).trans (queued_markAcked t seq)

/-- What is among the oldest stays there while others leave. -/
theorem mem_take_of_sublist {l l' : List Event} (h : l'.Sublist l)
    (hs : l.Pairwise fun a b => a.seq < b.seq) {n : Nat} {e : Event} (he : e ∈ l.take n)
    (he' : e ∈ l') : e ∈ l'.take n := by
  induction h generalizing n with
  | slnil => exact absurd he' List.not_mem_nil
  | @cons l' l a hsub ih =>
    obtain ⟨hlt, hs⟩ := List.pairwise_cons.mp hs
    cases n with
    | zero   => exact absurd he List.not_mem_nil
    | succ n =>
      rw [List.take_succ_cons] at he
      rcases List.mem_cons.mp he with rfl | he
      · exact absurd (hlt e (hsub.subset he')) (Nat.lt_irrefl _)
      · exact (List.take_sublist_take_left (Nat.le_succ n)).subset (ih hs he he')
  | @cons_cons l' l a hsub ih =>
    obtain ⟨hlt, hs⟩ := List.pairwise_cons.mp hs
    cases n with
    | zero   => exact absurd he List.not_mem_nil
    | succ n =>
      rw [List.take_succ_cons] at he ⊢
      rcases List.mem_cons.mp he with rfl | he
      · exact List.mem_cons_self
      · rcases List.mem_cons.mp he' with rfl | he'
        · exact List.mem_cons_self
        · exact List.mem_cons_of_mem a (ih hs he he')

/-- What is queued after a step was queued, or is new; and the oldest stay the oldest. -/
structure Shrinks (t t' : EventTable) : Prop where
  sequence : t.sequence ≤ t'.sequence
  old      : ∀ e ∈ queued t', e ∈ queued t ∨ t.sequence < e.seq
  window   : ∀ e ∈ t.unackedEvents BATCH, e ∈ queued t' → e ∈ t'.unackedEvents BATCH

theorem Shrinks.of_sublist {t t' : EventTable} (hseq : t'.sequence = t.sequence)
    (h : (queued t').Sublist (queued t)) : Shrinks t t' := by
  refine ⟨Nat.le_of_eq hseq.symm, fun e he => Or.inl (h.subset he), ?_⟩
  intro e he he'
  rw [unackedEvents_eq] at he ⊢
  exact mem_take_of_sublist h (queued_sorted t) he he'

theorem Shrinks.append (t : EventTable) (kind : String) (payload : Payload) :
    Shrinks t (t.appendEvent kind payload) := by
  refine ⟨Nat.le_succ _, ?_, ?_⟩
  · intro e he
    rw [queued_append] at he
    rcases List.mem_append.mp he with he | he
    · exact Or.inl he
    · rw [List.mem_singleton.mp he]
      exact Or.inr (Nat.lt_succ_self _)
  · intro e he _
    rw [unackedEvents_eq] at he ⊢
    rw [queued_append, List.take_append]
    exact List.mem_append_left _ he

/-! ## The batch -/

/-- What the sender has still in hand. -/
def Link.rest (l : Link) : List Event :=
  match l.sender with
  | .idle           => []
  | .sending _ rest => rest

/-- The batch is in order, and covers what is queued as far as it goes. -/
structure Ordered (l : Link) : Prop where
  rising  : l.rest.Pairwise fun a b => a.seq < b.seq
  beyond  : ∀ x ∈ l.rest, l.reached < x.seq
  short   : l.rest.length < BATCH
  bounded : ∀ x ∈ l.rest, x.seq ≤ l.events.sequence
  cover   : ∀ x ∈ queued l.events, l.reached < x.seq →
    x ∈ l.rest ∨ ∀ y ∈ l.rest, y.seq < x.seq

/-- The sender with nothing in hand. -/
theorem Ordered.of_idle {l : Link} (h : l.rest = []) : Ordered l := by
  refine ⟨?_, ?_, ?_, ?_, ?_⟩
  · rw [h]; exact List.Pairwise.nil
  · rw [h]; exact nofun
  · rw [h]; exact Nat.succ_pos _
  · rw [h]; exact nofun
  · intro x _ _
    rw [h]
    exact Or.inr nofun

/-- Steps beside the sender. -/
theorem Ordered.beside {l l' : Link} (h : Ordered l) (hs : Shrinks l.events l'.events)
    (hsender : l'.sender = l.sender)
    (hmark : l.rest ≠ [] → l'.reached = l.reached) : Ordered l' := by
  have hrest : l'.rest = l.rest := by unfold Link.rest; rw [hsender]
  by_cases hnil : l.rest = []
  · exact Ordered.of_idle (hrest.trans hnil)
  · refine ⟨?_, ?_, ?_, ?_, ?_⟩
    · rw [hrest]; exact h.rising
    · rw [hrest, hmark hnil]; exact h.beyond
    · rw [hrest]; exact h.short
    · rw [hrest]
      exact fun x hx => Nat.le_trans (h.bounded x hx) hs.sequence
    · rw [hrest, hmark hnil]
      intro x hx hlt
      rcases hs.old x hx with hx | hnew
      · exact h.cover x hx hlt
      · exact Or.inr fun y hy => Nat.lt_of_le_of_lt (h.bounded y hy) hnew

/-- What a turn of the sender does. -/
inductive Turned (l : Link) : Link → Prop
  /-- Everything it reads it has sent. -/
  | idle (n : Nat) (h : ∀ e ∈ l.events.unackedEvents BATCH, e.seq ≤ l.reached) :
      Turned l { l with sender := .idle, sentThrough := l.reached, turns := n }
  /-- It sends the first event ahead of it, from what it had in hand or from what it reads. -/
  | sends (e : Event) (rest : List Event) (n : Nat)
      (h : l.rest = e :: rest ∨ l.rest = [] ∧ e :: rest =
        (l.events.unackedEvents BATCH).filter fun e => decide (l.reached < e.seq)) :
      Turned l { l with
        sender := .sending e rest, sentThrough := l.reached, log := .sent e.seq :: l.log, turns := n }

theorem look_turned {l : Link} {n : Nat} (hrest : l.rest = []) :
    Turned l { { l with sentThrough := l.reached }.look with turns := n } := by
  unfold Link.look
  dsimp only
  split
  · rename_i hnil
    refine .idle n ?_
    intro e he
    by_contra hlt
    have hmem : e ∈ (l.events.unackedEvents BATCH).filter fun e => decide (l.reached < e.seq) :=
      List.mem_filter.mpr ⟨he, decide_eq_true (Nat.lt_of_not_le hlt)⟩
    rw [hnil] at hmem
    cases hmem
  · rename_i e rest heq
    exact .sends e rest n (Or.inr ⟨hrest, heq.symm⟩)

theorem turned (l : Link) : Turned l l.turn := by
  obtain ⟨events, sender, mark, log, turns⟩ := l
  cases sender with
  | idle => exact look_turned (l := ⟨events, .idle, mark, log, turns⟩) rfl
  | sending e rest =>
    cases rest with
    | nil => exact look_turned (l := ⟨events, .sending e [], mark, log, turns⟩) rfl
    | cons e' rest => exact .sends e' rest _ (Or.inl rfl)

/-- The sender sends the first of the events ahead of it. -/
theorem sends_first {l : Link} {e : Event} {rest : List Event} (h : Ordered l)
    (hin : l.rest = e :: rest ∨ l.rest = [] ∧ e :: rest =
      (l.events.unackedEvents BATCH).filter fun e => decide (l.reached < e.seq)) :
    l.reached < e.seq ∧ (∀ x ∈ rest, e.seq < x.seq) ∧
      ∀ x ∈ queued l.events, l.reached < x.seq → x = e ∨ x ∈ rest ∨
        (e.seq < x.seq ∧ ∀ y ∈ rest, y.seq < x.seq) := by
  rcases hin with hrest | ⟨-, hread⟩
  · have hrising := h.rising
    have hbeyond := h.beyond
    have hcover := h.cover
    rw [hrest] at hrising hbeyond hcover
    refine ⟨hbeyond e List.mem_cons_self, (List.pairwise_cons.mp hrising).1, ?_⟩
    intro x hx hlt
    rcases hcover x hx hlt with hx | hall
    · rcases List.mem_cons.mp hx with hx | hx
      · exact Or.inl hx
      · exact Or.inr (Or.inl hx)
    · exact Or.inr (Or.inr ⟨hall e List.mem_cons_self, fun y hy => hall y (List.mem_cons_of_mem e hy)⟩)
  · have hsorted := (EventTable.unackedEvents_sorted l.events BATCH).sublist
      (List.filter_sublist (p := fun e => decide (l.reached < e.seq)))
    rw [← hread] at hsorted
    have hahead : ∀ x ∈ e :: rest, x ∈ l.events.unackedEvents BATCH ∧ l.reached < x.seq := by
      intro x hx
      rw [hread] at hx
      obtain ⟨hwindow, hlt⟩ := List.mem_filter.mp hx
      exact ⟨hwindow, of_decide_eq_true hlt⟩
    refine ⟨(hahead e List.mem_cons_self).2, (List.pairwise_cons.mp hsorted).1, ?_⟩
    intro x hx hlt
    obtain ⟨r, hr, hacked, rfl⟩ := queued_row hx
    rcases EventTable.unackedEvents_cover BATCH hr hacked with hwindow | hall
    · have hmem : r.event ∈ e :: rest := by
        rw [hread]
        exact List.mem_filter.mpr ⟨hwindow, decide_eq_true hlt⟩
      rcases List.mem_cons.mp hmem with hx | hx
      · exact Or.inl hx
      · exact Or.inr (Or.inl hx)
    · exact Or.inr (Or.inr ⟨hall e (hahead e List.mem_cons_self).1,
        fun y hy => hall y (hahead y (List.mem_cons_of_mem e hy)).1⟩)

theorem Ordered.turned {l l' : Link} (h : Ordered l) (ht : Turned l l') : Ordered l' := by
  cases ht with
  | idle n hdone => exact Ordered.of_idle rfl
  | sends e rest n hin =>
    obtain ⟨-, hfirst, hcover⟩ := sends_first h hin
    have hsub : (e :: rest).Sublist l.rest ∨ l.rest = [] ∧
        (e :: rest).Sublist (l.events.unackedEvents BATCH) := by
      rcases hin with hrest | ⟨hnil, hread⟩
      · exact Or.inl (hrest ▸ List.Sublist.refl _)
      · rw [hread]
        exact Or.inr ⟨hnil, List.filter_sublist⟩
    refine ⟨?_, hfirst, ?_, ?_, ?_⟩
    · rcases hsub with hsub | ⟨-, hsub⟩
      · exact (List.pairwise_cons.mp (h.rising.sublist hsub)).2
      · exact (List.pairwise_cons.mp ((EventTable.unackedEvents_sorted _ _).sublist hsub)).2
    · show rest.length < BATCH
      rcases hsub with hsub | ⟨-, hsub⟩
      · have hlen := hsub.length_le
        have hshort := h.short
        rw [List.length_cons] at hlen
        omega
      · have hlen := hsub.length_le
        rw [unackedEvents_eq, List.length_cons, List.length_take] at hlen
        omega
    · intro x hx
      have hx : x ∈ e :: rest := List.mem_cons_of_mem e hx
      rcases hsub with hsub | ⟨-, hsub⟩
      · exact h.bounded x (hsub.subset hx)
      · exact (queued_bounds (queued_of_window (hsub.subset hx))).2
    · intro x hx hlt
      have hlt : e.seq < x.seq := hlt
      rcases hcover x hx (by have := (sends_first h hin).1; omega) with rfl | hx | ⟨-, hall⟩
      · exact absurd hlt (Nat.lt_irrefl _)
      · exact Or.inl hx
      · exact Or.inr hall

/-! ## Debts -/

/-- A resend that is not lost: while a frame is being sent, it asks for nothing queued that this
frame is beyond; otherwise it does not move the mark over anything queued, or still to be queued. -/
def Link.Keeps (l : Link) (n : Int) : Prop :=
  match l.sender with
  | .idle        => (n - 1).toNat ≤ l.sentThrough ∨ (n - 1).toNat ≤ l.events.sequence ∧
      ∀ e ∈ queued l.events, e.seq ≤ l.sentThrough ∨ (n - 1).toNat < e.seq
  | .sending e _ => ∀ x ∈ queued l.events, n ≤ x.seq → e.seq < x.seq

instance (l : Link) (n : Int) : Decidable (l.Keeps n) :=
  match l with
  | ⟨_, .idle, _, _, _⟩        => inferInstanceAs (Decidable (_ ∨ _ ∧ ∀ e ∈ _, _))
  | ⟨_, .sending _ _, _, _, _⟩ => inferInstanceAs (Decidable (∀ x ∈ _, _ → _))

/-- The condition on a step. -/
def Harmless (l : Link) : LinkAct → Prop
  | .receive frame => frame.get "type" = .str "resend_from" → ∀ n ∈ Link.seqOf frame, l.Keeps n
  | _              => True

instance (l : Link) (a : LinkAct) : Decidable (Harmless l a) :=
  match a with
  | .receive _  => inferInstanceAs (Decidable (_ → ∀ n ∈ _, l.Keeps n))
  | .append _ _ => .isTrue trivial
  | .trim _     => .isTrue trivial
  | .turn       => .isTrue trivial

/-- What is owed is what is ahead of the sender. -/
structure Debts (l : Link) : Prop where
  ordered : Ordered l
  known   : l.reached ≤ l.events.sequence
  fresh   : ∀ n, .sent n ∈ l.log → n ≤ l.events.sequence
  owed    : ∀ e ∈ queued l.events, owed e.seq l.log ↔ l.reached < e.seq

theorem owed_of_unsent {seq : Nat} {log : List Entry} (h : .sent seq ∉ log) : owed seq log := by
  induction log with
  | nil => trivial
  | cons x log ih =>
    rw [List.mem_cons, not_or] at h
    cases x with
    | sent n  => exact ⟨fun heq => h.1 (by rw [heq]), ih h.2⟩
    | asked n => exact Or.inr (ih h.2)

/-- What a step does. -/
inductive Stepped (l : Link) : LinkAct → Link → Prop
  /-- At most the queue changes. -/
  | table (a : LinkAct) (t : EventTable) (h : Shrinks l.events t) :
      Stepped l a { l with events := t }
  /-- A resend. -/
  | asked (frame : Frame) (n : Int) (htype : frame.get "type" = .str "resend_from")
      (hn : n ∈ Link.seqOf frame) :
      Stepped l (.receive frame) { l with sentThrough := (n - 1).toNat, log := .asked n :: l.log }
  | turned (l' : Link) (h : Turned l l') : Stepped l .turn l'

theorem Shrinks.refl (t : EventTable) : Shrinks t t := Shrinks.of_sublist rfl (List.Sublist.refl _)

theorem shrinks_ack (t : EventTable) (frame : Frame) :
    Shrinks t (handleAck EventTable.ackThrough t frame) := by
  unfold handleAck
  split
  · exact Shrinks.of_sublist rfl (queued_ackThrough t _)
  · exact Shrinks.of_sublist rfl (queued_ackThrough t _)
  · exact Shrinks.refl t

/-- **One step.** -/
theorem stepped {l l' : Link} {a : LinkAct} (hs : l.step a = some l') : Stepped l a l' := by
  cases a with
  | append kind payload =>
    obtain rfl := Option.some.inj hs
    exact .table _ _ (Shrinks.append l.events kind payload)
  | trim keep =>
    obtain rfl := Option.some.inj hs
    exact .table _ _ (Shrinks.of_sublist rfl (queued_delete _ _))
  | turn =>
    obtain rfl := Option.some.inj hs
    exact .turned _ (turned l)
  | receive frame =>
    obtain rfl := Option.some.inj hs
    unfold Link.receive
    split
    · exact .table _ _ (shrinks_ack l.events frame)
    · split
      · rename_i htype
        unfold Link.handleResend
        split
        · rename_i n hn
          exact .asked frame n htype hn
        · exact .table _ l.events (Shrinks.refl _)
      · exact .table _ l.events (Shrinks.refl _)

theorem Debts.opened (t : EventTable) : Debts (.opened t) :=
  ⟨Ordered.of_idle rfl, Nat.zero_le _, nofun,
    fun _ he => ⟨fun _ => (queued_bounds he).1, fun _ => trivial⟩⟩

/-- A resend while the sender waits. -/
theorem Debts.asked_idle {l : Link} {n : Int} (h : Debts l) (hidle : l.sender = .idle)
    (hg : (n - 1).toNat ≤ l.sentThrough ∨ (n - 1).toNat ≤ l.events.sequence ∧
      ∀ e ∈ queued l.events, e.seq ≤ l.sentThrough ∨ (n - 1).toNat < e.seq) :
    Debts { l with sentThrough := (n - 1).toNat, log := .asked n :: l.log } := by
  obtain ⟨events, sender, mark, log, turns⟩ := l
  obtain rfl : sender = .idle := hidle
  have hknown : mark ≤ events.sequence := h.known
  refine ⟨Ordered.of_idle rfl, ?_, ?_, ?_⟩
  · show (n - 1).toNat ≤ events.sequence
    rcases hg with hback | ⟨hforth, -⟩
    · exact Nat.le_trans hback hknown
    · exact hforth
  · intro m hm
    rcases List.mem_cons.mp hm with heq | hm
    · cases heq
    · exact h.fresh m hm
  · intro e he
    have hbounds := queued_bounds he
    have howed : Delivery.owed e.seq log ↔ mark < e.seq := h.owed e he
    show n ≤ (e.seq : Int) ∨ Delivery.owed e.seq log ↔ (n - 1).toNat < e.seq
    constructor
    · rintro (hle | hold)
      · omega
      · have hlt := howed.mp hold
        rcases hg with hback | ⟨-, hall⟩
        · exact Nat.lt_of_le_of_lt hback hlt
        · rcases hall e he with hle | hlt'
          · exact absurd hlt (Nat.not_lt_of_le hle)
          · exact hlt'
    · intro hlt
      exact Or.inl (by omega)

/-- A resend while a frame is being sent. -/
theorem Debts.asked_sending {l : Link} {n : Int} {e : Event} {rest : List Event} (h : Debts l)
    (hsending : l.sender = .sending e rest)
    (hg : ∀ x ∈ queued l.events, n ≤ x.seq → e.seq < x.seq) :
    Debts { l with sentThrough := (n - 1).toNat, log := .asked n :: l.log } := by
  obtain ⟨events, sender, mark, log, turns⟩ := l
  obtain rfl : sender = .sending e rest := hsending
  refine ⟨h.ordered.beside (Shrinks.refl _) rfl (fun _ => rfl), h.known, ?_, ?_⟩
  · intro m hm
    rcases List.mem_cons.mp hm with heq | hm
    · cases heq
    · exact h.fresh m hm
  · intro x hx
    have howed : Delivery.owed x.seq log ↔ e.seq < x.seq := h.owed x hx
    show n ≤ (x.seq : Int) ∨ Delivery.owed x.seq log ↔ e.seq < x.seq
    constructor
    · rintro (hle | hold)
      · exact hg x hx hle
      · exact howed.mp hold
    · exact fun hlt => Or.inr (howed.mpr hlt)

/-- A turn of the sender. -/
theorem Debts.turned {l l' : Link} (h : Debts l) (ht : Turned l l') : Debts l' := by
  have hordered := h.ordered.turned ht
  cases ht with
  | idle n hdone => exact ⟨hordered, h.known, h.fresh, h.owed⟩
  | sends e rest n hin =>
    obtain ⟨hlt, hfirst, hcover⟩ := sends_first h.ordered hin
    have hknown : e.seq ≤ l.events.sequence := by
      rcases hin with hrest | ⟨-, hread⟩
      · exact h.ordered.bounded e (hrest ▸ List.mem_cons_self)
      · have hmem : e ∈ (l.events.unackedEvents BATCH).filter _ := hread ▸ List.mem_cons_self
        exact (queued_bounds (queued_of_window (List.mem_of_mem_filter hmem))).2
    refine ⟨hordered, hknown, ?_, ?_⟩
    · intro m hm
      rcases List.mem_cons.mp hm with heq | hm
      · cases heq
        exact hknown
      · exact h.fresh m hm
    · intro x hx
      have howed := h.owed x hx
      show (e.seq ≠ x.seq ∧ Delivery.owed x.seq l.log) ↔ e.seq < x.seq
      constructor
      · rintro ⟨hne, hold⟩
        rcases hcover x hx (howed.mp hold) with rfl | hx | ⟨hlt', -⟩
        · exact absurd rfl hne
        · exact hfirst x hx
        · exact hlt'
      · intro hlt'
        exact ⟨Nat.ne_of_lt hlt', howed.mpr (Nat.lt_trans hlt hlt')⟩

theorem Link.sender_cases (l : Link) :
    l.sender = .idle ∨ ∃ e rest, l.sender = .sending e rest := by
  cases l.sender with
  | idle           => exact Or.inl rfl
  | sending e rest => exact Or.inr ⟨e, rest, rfl⟩

theorem Debts.step {l l' : Link} {a : LinkAct} (h : Debts l) (hg : Harmless l a)
    (hs : Stepped l a l') : Debts l' := by
  cases hs with
  | table a t ht =>
    refine ⟨h.ordered.beside ht rfl (fun _ => rfl), Nat.le_trans h.known ht.sequence,
      fun n hn => Nat.le_trans (h.fresh n hn) ht.sequence, ?_⟩
    intro e he
    rcases ht.old e he with he | hnew
    · exact h.owed e he
    · -- a new event, beyond everything there was
      have hlt : l.reached < e.seq := Nat.lt_of_le_of_lt h.known hnew
      have hunsent : .sent e.seq ∉ l.log := fun hm => Nat.not_lt_of_le (h.fresh _ hm) hnew
      exact ⟨fun _ => hlt, fun _ => owed_of_unsent hunsent⟩
  | asked frame n htype hn =>
    have hg := hg htype n hn
    unfold Link.Keeps at hg
    rcases l.sender_cases with hidle | ⟨e, rest, hsending⟩
    · rw [hidle] at hg
      exact h.asked_idle hidle hg
    · rw [hsending] at hg
      exact h.asked_sending hsending hg
  | turned l' ht => exact h.turned ht

/-! ## Progress -/

/-- An event is sent within `n` turns: from what is in hand, or after it. -/
def Within (n : Nat) (l : Link) (e : Event) : Prop :=
  (∃ before after, l.rest = before ++ e :: after ∧ before.length < n) ∨
    ((∀ x ∈ l.rest, x.seq < e.seq) ∧ l.rest.length + BATCH ≤ n)

theorem Within.pos {n : Nat} {l : Link} {e : Event} (h : Within n l e) : 0 < n := by
  rcases h with ⟨before, after, -, hlt⟩ | ⟨-, hle⟩
  · exact Nat.zero_lt_of_lt hlt
  · have hbatch : 0 < BATCH := by decide
    omega

theorem Within.of_ordered {l : Link} {e : Event} (h : Ordered l) (he : e ∈ queued l.events)
    (hlt : l.reached < e.seq) : Within PATIENCE l e := by
  have hshort := h.short
  have hpatience : PATIENCE = 2 * BATCH := rfl
  rcases h.cover e he hlt with hmem | hall
  · obtain ⟨before, after, heq⟩ := List.append_of_mem hmem
    refine Or.inl ⟨before, after, heq, ?_⟩
    rw [heq, List.length_append] at hshort
    omega
  · exact Or.inr ⟨hall, by omega⟩

/-- What the sender reads has an event ahead of it among the first `BATCH`. -/
theorem index_of_read {l : Link} {e : Event} (he : e ∈ l.events.unackedEvents BATCH)
    (hlt : l.reached < e.seq) : ∃ before after,
      (l.events.unackedEvents BATCH).filter (fun e => decide (l.reached < e.seq)) =
        before ++ e :: after ∧ before.length < BATCH := by
  have hmem : e ∈ (l.events.unackedEvents BATCH).filter fun e => decide (l.reached < e.seq) :=
    List.mem_filter.mpr ⟨he, decide_eq_true hlt⟩
  have hlen := (List.filter_sublist (p := fun e => decide (l.reached < e.seq))
    (l := l.events.unackedEvents BATCH)).length_le
  obtain ⟨before, after, heq⟩ := List.append_of_mem hmem
  refine ⟨before, after, heq, ?_⟩
  rw [heq, List.length_append, List.length_cons, unackedEvents_eq, List.length_take] at hlen
  omega

/-- The first event goes: it is the one, or the one is closer. -/
theorem closer {n : Nat} {x e : Event} {rest before after : List Event}
    (h : x :: rest = before ++ e :: after) (hn : before.length < n) :
    x = e ∨ ∃ before', rest = before' ++ e :: after ∧ before'.length < n - 1 := by
  cases before with
  | nil => exact Or.inl (List.cons.inj h).1
  | cons b before =>
    rw [List.length_cons] at hn
    exact Or.inr ⟨before, (List.cons.inj h).2, by omega⟩

/-- **A turn** sends an event ahead of the sender, or brings it closer. -/
theorem Within.turned {n : Nat} {l l' : Link} {e : Event} (ho : Ordered l) (h : Within n l e)
    (he : e ∈ l.events.unackedEvents BATCH) (hlt : l.reached < e.seq) (ht : Turned l l') :
    l'.log = .sent e.seq :: l.log ∨ l'.reached < e.seq ∧ Within (n - 1) l' e := by
  cases ht with
  | idle m hdone => exact absurd hlt (Nat.not_lt_of_le (hdone e he))
  | sends x rest m hin =>
    obtain ⟨-, hfirst, -⟩ := sends_first ho hin
    -- when `e` is in hand, or read
    have hhand : ∀ before after, x :: rest = before ++ e :: after → before.length < n →
        Entry.sent x.seq :: l.log = .sent e.seq :: l.log ∨ x.seq < e.seq ∧
          ∃ before after, rest = before ++ e :: after ∧ before.length < n - 1 := by
      intro before after heq hn
      rcases closer heq hn with rfl | ⟨before', hrest, hn'⟩
      · exact Or.inl rfl
      · refine Or.inr ⟨hfirst e ?_, before', after, hrest, hn'⟩
        rw [hrest]
        exact List.mem_append_right _ List.mem_cons_self
    have hin' : (∃ before after, x :: rest = before ++ e :: after ∧ before.length < n) ∨
        (∀ y ∈ x :: rest, y.seq < e.seq) ∧ rest.length + 1 + BATCH ≤ n := by
      rcases hin with hrest | ⟨hnil, hread⟩
      · rw [← List.length_cons, ← hrest]
        exact h
      · obtain ⟨before, after, heq, hlen⟩ := index_of_read he hlt
        refine Or.inl ⟨before, after, hread.trans heq, ?_⟩
        rcases h with ⟨before', after', heq', -⟩ | ⟨-, hn⟩
        · rw [hnil] at heq'
          exact absurd heq'.symm (List.append_ne_nil_of_right_ne_nil _ (List.cons_ne_nil _ _))
        · omega
    rcases hin' with ⟨before, after, heq, hn⟩ | ⟨hall, hn⟩
    · rcases hhand before after heq hn with hsent | ⟨hlt', hrest⟩
      · exact Or.inl hsent
      · exact Or.inr ⟨hlt', Or.inl hrest⟩
    · refine Or.inr ⟨hall x List.mem_cons_self, Or.inr ⟨?_, ?_⟩⟩
      · exact fun y hy => hall y (List.mem_cons_of_mem x hy)
      · show rest.length + BATCH ≤ n - 1
        omega

/-- An event on its way: ahead of the sender, among those it reads, and close. -/
structure OnItsWay (N : Nat) (l : Link) (e : Event) : Prop where
  ahead  : l.reached < e.seq
  window : e ∈ l.events.unackedEvents BATCH
  close  : ∃ n, Within n l e ∧ n + l.turns ≤ N

/-- **A step**: what is on its way is sent, or still on its way. -/
theorem OnItsWay.step {N : Nat} {l l' : Link} {a : LinkAct} {e : Event} (h : OnItsWay N l e)
    (hdebts : Debts l) (hg : Harmless l a) (hs : Stepped l a l')
    (hturns : a = .turn → l'.turns = l.turns + 1) (he : e ∈ queued l'.events) :
    l'.log = .sent e.seq :: l.log ∨ OnItsWay N l' e := by
  obtain ⟨n, hwithin, hn⟩ := h.close
  cases hs with
  | table a t ht => exact Or.inr ⟨h.ahead, ht.window e h.window he, n, hwithin, hn⟩
  | asked frame m htype hm =>
    have hg := hg htype m hm
    unfold Link.Keeps at hg
    refine Or.inr ⟨?_, h.window, n, hwithin, hn⟩
    have hahead := h.ahead
    rcases l.sender_cases with hidle | ⟨e', rest, hsending⟩
    · rw [hidle] at hg
      unfold Link.reached at hahead ⊢
      rw [hidle] at hahead
      dsimp only at hahead ⊢
      rw [hidle]
      rcases hg with hback | ⟨-, hall⟩
      · exact Nat.lt_of_le_of_lt hback hahead
      · rcases hall e he with hle | hlt
        · exact absurd hahead (Nat.not_lt_of_le hle)
        · exact hlt
    · unfold Link.reached at hahead ⊢
      rw [hsending] at hahead
      dsimp only at hahead ⊢
      rw [hsending]
      exact hahead
  | turned l' ht =>
    rcases hwithin.turned hdebts.ordered h.window h.ahead ht with hsent | ⟨hahead, hwithin'⟩
    · exact Or.inl hsent
    · have hpos := hwithin.pos
      have hevents : l'.events = l.events := by cases ht <;> rfl
      refine Or.inr ⟨hahead, hevents ▸ h.window, n - 1, hwithin', ?_⟩
      rw [hturns rfl]
      omega

/-! ## Every run -/

/-- What every step keeps. -/
theorem stepped_mono {l l' : Link} {a : LinkAct} (hs : Stepped l a l') :
    Shrinks l.events l'.events ∧ ∃ news, l'.log = news ++ l.log := by
  cases hs with
  | table a t ht => exact ⟨ht, [], rfl⟩
  | asked frame n htype hn => exact ⟨Shrinks.refl _, [.asked n], rfl⟩
  | turned l' ht =>
    cases ht with
    | idle n hdone       => exact ⟨Shrinks.refl _, [], rfl⟩
    | sends e rest n hin => exact ⟨Shrinks.refl _, [.sent e.seq], rfl⟩

theorem debts_of_run {l : Link} (h : link.ReachableBy Harmless l) : Debts l := by
  refine h.invariant ?_ fun _ _ _ hd hg hs => hd.step hg (stepped hs)
  rintro _ ⟨t, rfl⟩
  exact Debts.opened t

/-- What a run keeps of an event that is on its way. -/
structure Followed (N : Nat) (l l' : Link) (e : Event) : Prop where
  debts    : Debts l'
  sequence : l.events.sequence ≤ l'.events.sequence
  log      : ∃ news, l'.log = news ++ l.log
  event    : e ∈ queued l'.events → SentSince l l' e ∨ OnItsWay N l' e

/-- **A run.** -/
theorem followed {N : Nat} {l l' : Link} {e : Event} (hd : Debts l) (hway : OnItsWay N l e)
    (hp : link.Path Harmless l l') : Followed N l l' e := by
  have hknown := (queued_bounds (queued_of_window hway.window)).2
  induction hp with
  | refl => exact ⟨hd, Nat.le_refl _, ⟨[], rfl⟩, fun _ => Or.inr hway⟩
  | @snoc t t' a _ hg hs ih =>
    have hstepped := stepped hs
    obtain ⟨hshrinks, new, hnew⟩ := stepped_mono hstepped
    obtain ⟨news, hnews⟩ := ih.log
    have hlog : t'.log = (new ++ news) ++ l.log := by rw [hnew, hnews, List.append_assoc]
    refine ⟨ih.debts.step hg hstepped, Nat.le_trans ih.sequence hshrinks.sequence, ⟨_, hlog⟩, ?_⟩
    intro he
    have hqueued : e ∈ queued t.events := by
      rcases hshrinks.old e he with hold | hlt
      · exact hold
      · have hle := ih.sequence
        omega
    rcases ih.event hqueued with ⟨sent, hsent, hmem⟩ | hway
    · -- it was sent before
      refine Or.inl ⟨new ++ sent, ?_, List.mem_append_right _ hmem⟩
      rw [hnew, hsent, List.append_assoc]
    · have hturns : a = .turn → t'.turns = t.turns + 1 := by
        rintro rfl
        obtain rfl := Option.some.inj hs
        rfl
      rcases hway.step ih.debts hg hstepped hturns he with hsent | hway
      · refine Or.inl ⟨.sent e.seq :: news, ?_, List.mem_cons_self⟩
        rw [hsent, hnews]
        rfl
      · exact Or.inr hway

/-- **What a resend asks for is sent again**, and nothing is passed over, in every run whose resends
are harmless. -/
theorem resend_honoured (l : Link) (h : link.ReachableBy Harmless l) : Honoured Harmless l := by
  have hd := debts_of_run h
  constructor
  · intro e he howed l' hp he' hturns
    have hqueued := queued_of_window he
    have hahead := (hd.owed e hqueued).mp howed
    have hway : OnItsWay (l.turns + PATIENCE) l e :=
      ⟨hahead, he, PATIENCE, Within.of_ordered hd.ordered hqueued hahead, by omega⟩
    rcases (followed hd hway hp).event he' with hsent | hway'
    · exact hsent
    · obtain ⟨n, hwithin, hn⟩ := hway'.close
      have hpos := hwithin.pos
      omega
  · exact fun e he => (hd.owed e he).mp

/-- Two events, sent, asked for again and sent again. -/
def askedAgain : List LinkAct :=
  [.append "sms_in" ⟨[], noReserved_nil⟩, .append "sms_in" ⟨[], noReserved_nil⟩, .turn, .turn, .turn,
    .receive [("type", .str "resend_from"), ("seq", .int 1)], .turn, .turn]

theorem resend_honoured_again : ∃ l, link.runBy (fun l a => decide (Harmless l a))
      (.opened .empty) askedAgain = some l ∧
    l.log = [.sent 2, .sent 1, .asked 1, .sent 2, .sent 1] ∧ Honoured Harmless l := by
  obtain ⟨l, hl, hlog⟩ : ∃ l, link.runBy (fun l a => decide (Harmless l a))
      (.opened .empty) askedAgain = some l ∧
        l.log = [.sent 2, .sent 1, .asked 1, .sent 2, .sent 1] := ⟨_, rfl, rfl⟩
  have hpath := (Machine.runBy_path hl).mono fun l a h => of_decide_eq_true h
  exact ⟨l, hl, hlog, resend_honoured l ⟨_, ⟨_, rfl⟩, hpath⟩⟩

/-! ## Outside the condition -/

/-- Runs without another resend. -/
def NoResend (_ : Link) : LinkAct → Prop
  | .receive frame => frame.get "type" ≠ .str "resend_from"
  | _              => True

/-- **What the sender is beyond** it does not come back to by itself. -/
theorem passed_over {l l' : Link} {e : Event} (ho : Ordered l) (hle : e.seq ≤ l.reached)
    (hp : link.Path NoResend l l') : ¬ SentSince l l' e := by
  have hall : Ordered l' ∧ e.seq ≤ l'.reached ∧
      ∃ news, l'.log = news ++ l.log ∧ .sent e.seq ∉ news := by
    induction hp with
    | refl => exact ⟨ho, hle, [], rfl, List.not_mem_nil⟩
    | @snoc t t' a _ hg hs ih =>
      obtain ⟨ho', hle', news, hnews, hunsent⟩ := ih
      cases stepped hs with
      | table a t₁ ht =>
        exact ⟨ho'.beside ht rfl (fun _ => rfl), hle', news, hnews, hunsent⟩
      | asked frame n htype hn => exact absurd htype hg
      | turned t' ht =>
        have hordered := ho'.turned ht
        cases ht with
        | idle n hdone       => exact ⟨hordered, hle', news, hnews, hunsent⟩
        | sends x rest n hin =>
          have hlt := (sends_first ho' hin).1
          have hle'' : e.seq < x.seq := Nat.lt_of_le_of_lt hle' hlt
          refine ⟨hordered, Nat.le_of_lt hle'', .sent x.seq :: news, ?_, ?_⟩
          · show Entry.sent x.seq :: t.log = _
            rw [hnews]
            rfl
          · intro hm
            rcases List.mem_cons.mp hm with heq | hm
            · rw [Entry.sent.inj heq] at hle''
              exact Nat.lt_irrefl _ hle''
            · exact hunsent hm
  obtain ⟨-, -, news, hnews, hunsent⟩ := hall
  rintro ⟨news', hnews', hm⟩
  rw [List.append_cancel_right (hnews'.symm.trans hnews)] at hm
  exact hunsent hm

/-- Something is owed that the sender does not send unless it is asked for once more. -/
def Forgets (l : Link) : Prop :=
  ∃ e ∈ queued l.events, owed e.seq l.log ∧ ∀ l', link.Path NoResend l l' → ¬ SentSince l l' e

theorem Forgets.of_beyond {l : Link} {e : Event} (ho : Ordered l) (he : e ∈ queued l.events)
    (howed : owed e.seq l.log) (hle : e.seq ≤ l.reached) : Forgets l :=
  ⟨e, he, howed, fun _ hp => passed_over ho hle hp⟩

/-- **Any other resend is lost**, at once or with the next event. -/
theorem harm {l : Link} {frame : Frame} {n : Int} (hd : Debts l)
    (htype : frame.get "type" = .str "resend_from") (hn : n ∈ Link.seqOf frame)
    (hlost : ¬ l.Keeps n) :
    Forgets (l.receive frame) ∨ ∀ kind payload l',
      (l.receive frame).step (.append kind payload) = some l' → Forgets l' := by
  have hreceive : l.receive frame =
      { l with sentThrough := (n - 1).toNat, log := .asked n :: l.log } := by
    have hack : ¬ frame.get "type" = .str "ack" := by rw [htype]; decide
    unfold Link.receive Link.handleResend
    rw [if_neg hack, if_pos htype, Option.mem_def.mp hn]
  rw [hreceive]
  obtain ⟨events, sender, mark, log, turns⟩ := l
  unfold Link.Keeps at hlost
  cases sender with
  | idle =>
    dsimp only at hlost
    rw [not_or] at hlost
    by_cases hknown : (n - 1).toNat ≤ events.sequence
    · -- the mark moves over an event that is queued
      left
      obtain ⟨e, he, hne⟩ : ∃ e ∈ queued events, ¬ (e.seq ≤ mark ∨ (n - 1).toNat < e.seq) := by
        by_contra hnone
        refine hlost.2 ⟨hknown, fun e he => ?_⟩
        by_contra hne
        exact hnone ⟨e, he, hne⟩
      rw [not_or] at hne
      have howed := (hd.owed e he).mpr (Nat.lt_of_not_le hne.1)
      exact .of_beyond (Ordered.of_idle rfl) he (Or.inr howed) (Nat.le_of_not_lt hne.2)
    · -- the mark moves over the number of the next event
      right
      rintro kind payload _ ⟨⟩
      have hqueued : events.appended kind payload ∈ queued (events.appendEvent kind payload) := by
        rw [queued_append]
        exact List.mem_append_right _ (List.mem_singleton_self _)
      have hunsent : .sent (events.sequence + 1) ∉ Entry.asked n :: log := by
        intro hm
        rcases List.mem_cons.mp hm with heq | hm
        · cases heq
        · exact Nat.not_succ_le_self _ (hd.fresh _ hm)
      exact .of_beyond (Ordered.of_idle rfl) hqueued (owed_of_unsent hunsent)
        (Nat.lt_of_not_le hknown)
  | sending e rest =>
    -- the mark is overwritten when the frame is sent
    left
    obtain ⟨x, hx, hne⟩ : ∃ x ∈ queued events, ¬ (n ≤ x.seq → e.seq < x.seq) := by
      by_contra hnone
      refine hlost fun x hx => ?_
      by_contra hne
      exact hnone ⟨x, hx, hne⟩
    rw [Classical.not_imp] at hne
    have hordered : Ordered ⟨events, .sending e rest, (n - 1).toNat, .asked n :: log, turns⟩ :=
      hd.ordered.beside (Shrinks.refl _) rfl fun _ => rfl
    exact .of_beyond hordered hx (Or.inl hne.1) (Nat.le_of_not_lt hne.2)

/-- Two events; the resend of the first comes while the second is being sent. -/
def askedInBetween : List LinkAct :=
  [.append "sms_in" ⟨[], noReserved_nil⟩, .append "sms_in" ⟨[], noReserved_nil⟩, .turn, .turn,
    .receive [("type", .str "resend_from"), ("seq", .int 1)], .turn]

/-- Both events are queued and were asked for, and the sender is beyond them: they are not sent
again on this connection. -/
theorem resend_overwritten : ∃ l, link.run (.opened .empty) askedInBetween = some l ∧
    l.log = [.asked 1, .sent 2, .sent 1] ∧ (queued l.events).map Event.seq = [1, 2] ∧
    (∀ e ∈ queued l.events, owed e.seq l.log ∧
      ∀ l', link.Path NoResend l l' → ¬ SentSince l l' e) ∧ ¬ Honoured Machine.Always l := by
  refine ⟨_, rfl, rfl, rfl, ?_, ?_⟩
  · intro e he
    have hbounds := queued_bounds he
    refine ⟨Or.inl (by omega), fun l' hp => passed_over (Ordered.of_idle rfl) hbounds.2 hp⟩
  · intro hhonoured
    exact absurd (hhonoured.ahead _ List.mem_cons_self (Or.inl (Int.le_refl 1))) (by decide)

end Air780eHub.Delivery
