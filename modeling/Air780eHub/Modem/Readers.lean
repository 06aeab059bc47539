/-
  Concurrent inbox readers.

  `drain_inbox` and `_index_loop` read slots and delete them by number later, and the lock is held
  for one command only.  Two readers of one slot hand its message over twice, and the later delete
  frees whatever the network put there in between (`readers_collide`).  Where no command fails and
  every step is `orderly`, they agree.

  1. **The condition** `orderly`.
  2. **Arrivals are numbered**, so a message in the log is there once.
  3. **Every stored message is noticed**: it is claimed, its slot number waits in the queue, or a
     listing is due.
  4. **The result** (`readers_agree`), a run it applies to, and a run in which they do not agree.
-/
import Air780eHub.Modem.Inbox

namespace Air780eHub.Modem

open Mailbox

namespace State

/-! ## The condition -/

/-- The messages are deleted after reading, the command succeeds, the step reads no slot that
    another task has read and not yet deleted, and it displaces no segment. -/
def orderly (cfg : Config) (s : State) (a : Act) : Bool :=
  cfg.deleteAfterRead && !a.raises && !s.collides a
    && (s.takes a).toList.all fun m => (s.displacedBy cfg m).isEmpty

theorem wasted_raises {s : State} {a : Act} {W : List Stored} (h : s.wasted a = some W) :
    a.raises = true := by
  cases a with
  | fetch o =>
    cases o with
    | raised error effect => rfl
    | ok => cases hf : s.fetch <;> simp [wasted, hf, Outcome.returns] at h
  | drain k o =>
    cases o with
    | raised error effect => rfl
    | ok =>
      cases hd : s.drains[k]? with
      | none => simp [wasted, hd] at h
      | some d => cases d <;> simp [wasted, hd, Outcome.returns] at h
  | _ => cases h

structure Orderly (cfg : Config) (s : State) (a : Act) : Prop where
  deletes   : cfg.deleteAfterRead = true
  succeeds  : a.raises = false
  collides  : s.collides a = false
  displaces : ∀ m, s.takes a = some m → s.displacedBy cfg m = []

theorem orderly_iff {cfg : Config} {s : State} {a : Act} :
    s.orderly cfg a = true ↔ s.Orderly cfg a := by
  simp only [orderly, Bool.and_eq_true, Bool.not_eq_true', List.all_eq_true, Option.mem_toList,
    List.isEmpty_iff]
  exact ⟨fun h => ⟨h.1.1.1, h.1.1.2, h.1.2, h.2⟩,
    fun h => ⟨⟨⟨h.deletes, h.succeeds⟩, h.collides⟩, h.displaces⟩⟩

/-- An orderly step is one the strict policy allows. -/
theorem Orderly.allowed {cfg : Config} {s : State} {a : Act} (h : s.Orderly cfg a) :
    s.Allowed cfg strict a where
  collides := h.collides
  takes m hm := by
    show (↑(s.displacedBy cfg m) : Multiset Stored) = 0
    rw [h.displaces m hm]
    rfl
  wasted W hW := absurd (wasted_raises hW) (by simp [h.succeeds])
  raises hr := absurd hr (by simp [h.succeeds])

/-! ## Arrivals are numbered -/

/-- The log in order of arrival. -/
def Numbered (s : State) : Prop := s.log.map Stored.id = List.range s.log.length

theorem Numbered.snoc {l : List Stored} (h : l.map Stored.id = List.range l.length) (pdu : String)
    (declared : Option Nat) :
    (l ++ [(⟨l.length, pdu, declared⟩ : Stored)]).map Stored.id
      = List.range (l ++ [(⟨l.length, pdu, declared⟩ : Stored)]).length := by
  rw [List.map_append, h, List.length_append, List.length_singleton, List.range_succ]
  rfl

theorem Numbered.nodup {s : State} (h : s.Numbered) : s.log.Nodup :=
  List.Nodup.of_map Stored.id (h ▸ List.nodup_range)

/-- What a command leaves of the log. -/
theorem sweep_log (cfg : Config) (k : Nat) (rest : List Slot) (collected : List DecodedSms)
    (s : State) : (sweep cfg k rest collected s).log = s.log := by
  induction rest generalizing collected s with
  | nil => rfl
  | cons x rest ih =>
    obtain ⟨r, hr, -, -⟩ := receive_spec cfg s x.2
    rw [sweep]
    split
    · rw [hr]; rfl
    · rw [ih, hr]

@[simp] theorem cmgd_log (s : State) (i : Nat) (m : Stored) (e : Bool) :
    (s.cmgd i m e).log = s.log := by cases e <;> rfl

theorem fetchStep_log {cfg : Config} {s s' : State} {o : Outcome}
    (hs : s.fetchStep cfg o = some s') : s'.log = s.log := by
  cases fetchStep_cases hs with
  | @taken index m _ hf =>
    obtain ⟨r, hr, -, -⟩ := receive_spec cfg s m
    rw [takeUp]
    split
    · rw [hr]
    · rw [hr]; rfl
  | deleted hf ho => exact cmgd_log _ _ _ _
  | lost hf ho => exact cmgd_log _ _ _ _
  | _ => rfl

theorem drainStep_log {cfg : Config} {s s' : State} {k : Nat} {o : Outcome}
    (hs : s.drainStep cfg k o = some s') : s'.log = s.log := by
  cases drainStep_cases hs with
  | listed hd => exact sweep_log _ _ _ _ _
  | refused hd => rfl
  | deleted hd ho => exact (sweep_log _ _ _ _ _).trans (cmgd_log _ _ _ _)
  | lost hd ho => exact cmgd_log _ _ _ _

theorem Numbered.step {cfg : Config} {s s' : State} {a : Act} (hs : s.step cfg a = some s')
    (h : s.Numbered) : s'.Numbered := by
  cases a with
  | arrive index pdu declared =>
    obtain ⟨t, ht, rfl⟩ := Option.map_eq_some_iff.mp hs
    rw [land] at ht
    split at ht
    · cases ht
    · obtain rfl := Option.some.inj ht; exact Numbered.snoc h pdu declared
  | direct pdu =>
    obtain rfl := Option.some.inj hs
    obtain ⟨r, hr, -, -⟩ := receive_spec cfg
      { s with log := s.log ++ [⟨s.log.length, pdu, none⟩] } ⟨s.log.length, pdu, none⟩
    rw [Numbered, onCmt, hr]
    exact Numbered.snoc h pdu none
  | take =>
    simp only [State.step] at hs
    split at hs
    · obtain rfl := Option.some.inj hs; exact h
    · cases hs
  | fetch o => rw [Numbered, fetchStep_log hs]; exact h
  | drain k o => rw [Numbered, drainStep_log hs]; exact h
  | notify index => obtain rfl := Option.some.inj hs; exact h
  | tick d => obtain rfl := Option.some.inj hs; exact h
  | flush => obtain rfl := Option.some.inj hs; exact h
  | call => obtain rfl := Option.some.inj hs; exact h

/-! ## Every stored message is noticed -/

/-- A slot is claimed, or its number waits in the queue or is about to be read, or a listing is
    due. -/
def Noticed (s : State) : Prop :=
  ∀ x ∈ s.slots, x ∈ s.claims ∨ x.1 ∈ s.newMessageIndexes ∨ s.fetch = .reading x.1
    ∨ Drain.listing ∈ s.drains

theorem mem_claims {s : State} {x : Slot} :
    x ∈ s.claims ↔ x ∈ s.fetch.pushed ++ s.fetch.listed
      ∨ ∃ d ∈ s.drains, x ∈ d.pushed ++ d.listed := by
  rw [claims, List.mem_append, List.mem_flatMap]

/-- All calls but one are still there after it moved on. -/
theorem mem_set_or {l : List Drain} {k : Nat} {d e : Drain} (hd : l[k]? = some d) (he : e ∈ l)
    (d' : Drain) : e = d ∨ e ∈ l.set k d' := by
  obtain ⟨j, hj⟩ := List.mem_iff_getElem?.mp he
  by_cases hjk : k = j
  · left
    rw [← hjk, hd] at hj
    exact (Option.some.inj hj).symm
  · right
    refine List.mem_iff_getElem?.mpr ⟨j, ?_⟩
    rw [List.getElem?_set_ne hjk]
    exact hj

theorem mem_set_self {l : List Drain} {k : Nat} {d : Drain} (hd : l[k]? = some d) (d' : Drain) :
    d' ∈ l.set k d' := by
  obtain ⟨hk, -⟩ := List.getElem?_eq_some_iff.mp hd
  exact List.mem_iff_getElem?.mpr ⟨k, by simp [hk]⟩

/-- Where the loop of `drain_inbox` is afterwards, when messages are deleted after reading: it
    claims the slots it still has to go through, and changes no other task. -/
theorem sweep_frame {cfg : Config} (hdel : cfg.deleteAfterRead = true) (k : Nat)
    (rest : List Slot) (collected : List DecodedSms) (s : State) :
    ∃ d : Drain, d.pushed ++ d.listed = rest
      ∧ (sweep cfg k rest collected s).drains = s.drains.set k d
      ∧ (sweep cfg k rest collected s).fetch = s.fetch
      ∧ (sweep cfg k rest collected s).slots = s.slots
      ∧ (sweep cfg k rest collected s).newMessageIndexes = s.newMessageIndexes := by
  cases rest with
  | nil => exact ⟨.done, rfl, rfl, rfl, rfl, rfl⟩
  | cons x rest =>
    obtain ⟨r, hr, -, -⟩ := receive_spec cfg s x.2
    rw [sweep, if_pos hdel, hr]
    exact ⟨.deleting x rest _, rfl, rfl, rfl, rfl, rfl⟩

theorem Noticed.fetch {cfg : Config} (hdel : cfg.deleteAfterRead = true) {s s' : State}
    {o : Outcome} (hs : s.fetchStep cfg o = some s') (ho : o = .ok) (howned : s.ledger.Owned)
    (h : s.Noticed) : s'.Noticed := by
  have hn : (s.slots.map Prod.fst).Nodup := howned.numbers
  subst ho
  intro x hx
  cases fetchStep_cases hs with
  | @vanished index _ hf hm =>
    rcases h x hx with hc | hq | hr | hl
    · rw [mem_claims, hf] at hc
      exact Or.inl (mem_claims.mpr (hc.imp (fun h => by cases h) id))
    · exact Or.inr (Or.inl hq)
    · -- the slot it reads holds nothing, so it is not this one
      rw [hf, Fetch.reading.injEq] at hr
      have hat := slotAt_eq hn hx
      rw [← hr, hm rfl] at hat
      cases hat
    · exact Or.inr (Or.inr (Or.inr hl))
  | @read index m hf hm =>
    by_cases hxi : x.1 = index
    · have hat := slotAt_eq hn hx
      rw [hxi, hm] at hat
      have hxm : x = (index, m) := Prod.ext hxi (Option.some.inj hat).symm
      refine Or.inl (mem_claims.mpr (Or.inl ?_))
      rw [hxm]
      cases m.agrees with
      | true => exact List.mem_singleton_self _
      | false => exact List.mem_singleton_self _
    · rcases h x hx with hc | hq | hr | hl
      · rw [mem_claims, hf] at hc
        exact Or.inl (mem_claims.mpr (hc.imp (fun h => by cases h) id))
      · exact Or.inr (Or.inl hq)
      · rw [hf, Fetch.reading.injEq] at hr
        exact absurd hr.symm hxi
      · exact Or.inr (Or.inr (Or.inr hl))
  | @again index first hf =>
    rw [s.reread_eq howned hf]
    rcases h x hx with hc | hq | hr | hl
    · rw [mem_claims, hf] at hc
      exact Or.inl (mem_claims.mpr hc)
    · exact Or.inr (Or.inl hq)
    · rw [hf] at hr; cases hr
    · exact Or.inr (Or.inr (Or.inr hl))
  | @taken index m _ hf =>
    obtain ⟨r, hr, -, -⟩ := receive_spec cfg s m
    rw [takeUp, if_pos hdel, hr] at hx ⊢
    rcases h x hx with hc | hq | hr | hl
    · rw [mem_claims, hf] at hc
      exact Or.inl (mem_claims.mpr hc)
    · exact Or.inr (Or.inl hq)
    · rw [hf] at hr; cases hr
    · exact Or.inr (Or.inr (Or.inr hl))
  | @deleted index m complete _ hf hret =>
    have hx' : x ∈ s.slots ∧ x.1 ≠ index := by
      have hmem := List.mem_filter.mp hx
      exact ⟨hmem.1, by simpa using hmem.2⟩
    rcases h x hx'.1 with hc | hq | hr | hl
    · rw [mem_claims, hf] at hc
      rcases hc with hc | hc
      · exact absurd (congrArg Prod.fst (List.mem_singleton.mp hc)) hx'.2
      · exact Or.inl (mem_claims.mpr (Or.inr hc))
    · exact Or.inr (Or.inl hq)
    · rw [hf] at hr; cases hr
    · exact Or.inr (Or.inr (Or.inr hl))
  | lost hf hret => cases hret

theorem Noticed.drain {cfg : Config} (hdel : cfg.deleteAfterRead = true) {s s' : State} {k : Nat}
    {o : Outcome} (hs : s.drainStep cfg k o = some s') (ho : o = .ok) (h : s.Noticed) :
    s'.Noticed := by
  subst ho
  intro x hx
  cases drainStep_cases hs with
  | listed hd =>
    obtain ⟨d, hrest, hdrains, -, hslots, -⟩ := sweep_frame hdel k s.slots []
      (s.setDrain k (.sweeping s.slots []))
    refine Or.inl (mem_claims.mpr (Or.inr ⟨d, ?_, ?_⟩))
    · rw [hdrains, setDrain, List.set_set]
      exact mem_set_self hd d
    · rw [hrest]; rw [hslots] at hx; exact hx
  | @deleted y rest collected _ hd hret =>
    obtain ⟨d, hrest, hdrains, hfetch, hslots, hqueue⟩ := sweep_frame hdel k rest collected
      ((s.cmgd y.1 y.2 Outcome.ok.effect).setDrain k (.sweeping rest collected))
    have hset : ((s.cmgd y.1 y.2 Outcome.ok.effect).setDrain k
        (.sweeping rest collected)).drains.set k d = s.drains.set k d := List.set_set _
    have hx' : x ∈ s.slots ∧ x.1 ≠ y.1 := by
      have hmem := List.mem_filter.mp (hslots ▸ hx)
      exact ⟨hmem.1, by simpa using hmem.2⟩
    have hcall : d ∈ s.drains.set k d := mem_set_self hd d
    rcases h x hx'.1 with hc | hq | hr | hl
    · refine Or.inl (mem_claims.mpr ?_)
      rw [hfetch, hdrains, hset]
      rcases mem_claims.mp hc with hc | ⟨e, he, hxe⟩
      · exact Or.inl hc
      · rcases mem_set_or hd he d with rfl | he
        · -- it was one of this call's: the one it deleted, or one it still has to go through
          rcases List.mem_cons.mp hxe with rfl | hxe
          · exact absurd rfl hx'.2
          · exact Or.inr ⟨d, hcall, hrest ▸ hxe⟩
        · exact Or.inr ⟨e, he, hxe⟩
    · exact Or.inr (Or.inl (hqueue ▸ hq))
    · exact Or.inr (Or.inr (Or.inl (hfetch.trans hr)))
    · refine Or.inr (Or.inr (Or.inr ?_))
      rw [hdrains, hset]
      exact (mem_set_or hd hl d).resolve_left fun heq => by cases heq
  | lost hd hret => cases hret

theorem Noticed.step {cfg : Config} {s s' : State} {a : Act} (hs : s.step cfg a = some s')
    (ha : s.Orderly cfg a) (howned : s.ledger.Owned) (h : s.Noticed) : s'.Noticed := by
  cases a with
  | arrive index pdu declared =>
    obtain ⟨t, ht, rfl⟩ := Option.map_eq_some_iff.mp hs
    rw [land] at ht
    split at ht
    · cases ht
    · obtain rfl := Option.some.inj ht
      intro x hx
      rcases List.mem_orderedInsert _ |>.mp hx with rfl | hx
      · exact Or.inr (Or.inl (List.mem_append_right _ (List.mem_singleton_self _)))
      · rcases h x hx with hc | hq | hr | hl
        · exact Or.inl hc
        · exact Or.inr (Or.inl (List.mem_append_left _ hq))
        · exact Or.inr (Or.inr (Or.inl hr))
        · exact Or.inr (Or.inr (Or.inr hl))
  | direct pdu =>
    obtain rfl := Option.some.inj hs
    obtain ⟨r, hr, -, -⟩ := receive_spec cfg
      { s with log := s.log ++ [⟨s.log.length, pdu, none⟩] } ⟨s.log.length, pdu, none⟩
    rw [onCmt, hr]
    exact h
  | notify index =>
    obtain rfl := Option.some.inj hs
    intro x hx
    rcases h x hx with hc | hq | hr | hl
    · exact Or.inl hc
    · exact Or.inr (Or.inl (List.mem_append_left _ hq))
    · exact Or.inr (Or.inr (Or.inl hr))
    · exact Or.inr (Or.inr (Or.inr hl))
  | tick d => obtain rfl := Option.some.inj hs; exact h
  | flush => obtain rfl := Option.some.inj hs; exact h
  | take =>
    simp only [State.step] at hs
    split at hs
    · rename_i index rest hf hq
      obtain rfl := Option.some.inj hs
      intro x hx
      rcases h x hx with hc | hin | hr | hl
      · rw [mem_claims, hf] at hc
        exact Or.inl (mem_claims.mpr (hc.imp (fun h => by cases h) id))
      · rw [hq] at hin
        rcases List.mem_cons.mp hin with heq | hin
        · exact Or.inr (Or.inr (Or.inl (by rw [heq])))
        · exact Or.inr (Or.inl hin)
      · rw [hf] at hr; cases hr
      · exact Or.inr (Or.inr (Or.inr hl))
    · cases hs
  | fetch o =>
    refine Noticed.fetch ha.deletes hs ?_ howned h
    cases o with
    | ok => rfl
    | raised error effect => cases ha.succeeds
  | call =>
    obtain rfl := Option.some.inj hs
    intro x hx
    exact Or.inr (Or.inr (Or.inr (List.mem_append_right _ (List.mem_singleton_self _))))
  | drain k o =>
    refine Noticed.drain ha.deletes hs ?_ h
    cases o with
    | ok => rfl
    | raised error effect => cases ha.succeeds

/-! ## The result -/

/-- The slots some task is about to delete. -/
def pushed (s : State) : List Slot := s.fetch.pushed ++ s.drains.flatMap Drain.pushed

/-- The stored messages that no task has taken up. -/
def unread (s : State) : List Stored := (s.slots.diff s.pushed).map Prod.snd

/-- The messages in memory: held by the reassembler, or in a local variable. -/
def pending (s : State) : List Stored :=
  s.reassembler.held ++ (readsOf s.fetch.waiting ++ readsOf (s.drains.flatMap Drain.waiting))

/-- No call is in progress, no notification waits, and no partial message is held. -/
def Settled (s : State) : Prop :=
  s.Resting ∧ s.newMessageIndexes = [] ∧ s.reassembler.held = []

theorem Starts.conserved {cfg : Config} {s : State} (h : s.Starts) :
    s.ledger.Conserved cfg.visible := by
  have hview : s.view = 0 := by rw [view, h.fetch, h.drains]; rfl
  have hkept : s.ledger.kept = 0 := by
    show (↑(readsOf s.emitted) + ↑s.reassembler.held : Multiset Stored) + s.view.2.2 = 0
    rw [hview, h.emitted, h.reassembler]
    rfl
  have hpushed : s.ledger.pushed = 0 := by
    show s.view.2.1 = 0
    rw [hview]
    rfl
  have hslots : s.ledger.slots.map Prod.snd = s.ledger.log :=
    Multiset.coe_eq_coe.mpr h.stored
  rw [Ledger.Conserved, hkept, hpushed, visibleIn, hslots]
  exact (zero_add _).trans (add_zero _).symm

/-- What orderly steps preserve. -/
structure Agree (cfg : Config) (s : State) : Prop where
  owned     : s.ledger.Owned
  conserved : s.ledger.Conserved cfg.visible
  numbered  : s.Numbered
  noticed   : s.Noticed

theorem Agree.step {cfg : Config} {s s' : State} {a : Act} (hs : s.step cfg a = some s')
    (ha : s.Orderly cfg a) (h : s.Agree cfg) : s'.Agree cfg := by
  have hmoves := step_moves ha.deletes hs ha.allowed h.owned
  exact ⟨hmoves.invariant Ledger.Owned.move h.owned,
    hmoves.invariant Ledger.Conserved.move h.conserved,
    h.numbered.step hs, h.noticed.step hs ha h.owned⟩

/-- Each decodable message is in one place. -/
theorem Agree.places {cfg : Config} {s : State} (h : s.Agree cfg) {m : Stored} (hm : m ∈ s.log)
    (hdec : cfg.decodable m.pdu = true) :
    (readsOf s.emitted).count m + s.pending.count m + s.unread.count m = 1 := by
  have hplaces := congrArg (Multiset.count m) (h.conserved.places h.owned)
  have hpushed : s.ledger.pushed = ↑s.pushed := by
    rw [pushed, ← Multiset.coe_add, ← pushed_sum]
    rfl
  have hkept : s.ledger.kept = ↑(readsOf s.emitted) + ↑s.pending := by
    rw [pending, ← Multiset.coe_add, ← Multiset.coe_add, ← waiting_sum, ← add_assoc]
    rfl
  have hunread : visibleIn cfg.visible (s.ledger.slots - s.ledger.pushed)
      = (↑s.unread : Multiset Stored).filter fun m => cfg.visible m = true := by
    have hdiff : s.ledger.slots - ↑s.pushed = ↑(s.slots.diff s.pushed) := by
      rw [lawful_beq_subsingleton instBEqProd (instBEqOfDecidableEq : BEq Slot)]
      exact Multiset.coe_sub s.slots s.pushed
    rw [hpushed, visibleIn, hdiff]
    rfl
  have hone : Multiset.count m (s.ledger.log) = 1 :=
    Multiset.count_eq_one_of_mem (Multiset.coe_nodup.mpr h.numbered.nodup)
      (Multiset.mem_coe.mpr hm)
  rw [hkept, hunread, Multiset.count_add, Multiset.count_add,
    Multiset.count_filter_of_pos (p := fun m => cfg.visible m = true) hdec,
    Multiset.count_filter_of_pos (p := fun m => cfg.visible m = true) hdec, hone,
    Multiset.coe_count, Multiset.coe_count, Multiset.coe_count] at hplaces
  exact hplaces

/-- A settled store is empty. -/
theorem Agree.slots_nil {cfg : Config} {s : State} (h : s.Agree cfg) (hset : s.Settled) :
    s.slots = [] := by
  obtain ⟨⟨hfetch, hdrains⟩, hqueue, -⟩ := hset
  refine List.eq_nil_iff_forall_not_mem.mpr fun x hx => ?_
  rcases h.noticed x hx with hc | hq | hr | hl
  · rcases mem_claims.mp hc with hc | ⟨d, hd, hc⟩
    · rw [hfetch] at hc; cases hc
    · rw [hdrains d hd] at hc; cases hc
  · rw [hqueue] at hq; cases hq
  · rw [hfetch] at hr; cases hr
  · cases hdrains _ hl

end State

/-- **Concurrent readers agree, as long as every step is orderly.**  A slot was freed only by a
    task that had read the message it held; each decodable message is handed over once, or is in
    memory once, or is in the store with no task having taken it up; and when everything has
    settled, the store is empty and each was handed over exactly once. -/
theorem readers_agree {cfg : Config} {s : State}
    (h : (session cfg).ReachableBy (fun s a => s.orderly cfg a = true) s) :
    (∀ f ∈ s.freed, f.1 = f.2)
    ∧ (∀ m ∈ s.log, cfg.decodable m.pdu = true →
        (readsOf s.emitted).count m + s.pending.count m + s.unread.count m = 1)
    ∧ (s.Settled → s.slots = []
        ∧ ∀ m ∈ s.log, cfg.decodable m.pdu = true → (readsOf s.emitted).count m = 1) := by
  have hagree := h.invariant (I := fun s => s.Agree cfg)
    (fun s (hs : s.Starts) => ⟨hs.owned, hs.conserved, hs.ids, fun x _ =>
      Or.inr (Or.inr (Or.inr (by rw [hs.drains]; exact List.mem_singleton_self _)))⟩)
    fun s a s' hi hg hst => hi.step hst (State.orderly_iff.mp hg)
  refine ⟨fun f hf => hagree.owned.freed f (Multiset.mem_coe.mpr hf),
    fun m hm hdec => hagree.places hm hdec, fun hset => ?_⟩
  have hslots := hagree.slots_nil hset
  refine ⟨hslots, fun m hm hdec => ?_⟩
  have hplaces := hagree.places hm hdec
  have hpending : s.pending = [] := by
    have hnone : s.drains.flatMap Drain.waiting = [] := by
      refine List.flatMap_eq_nil_iff.mpr fun d hd => ?_
      rw [hset.1.2 d hd]
      rfl
    rw [State.pending, hset.2.2, hset.1.1, hnone]
    rfl
  have hunread : s.unread = [] := by rw [State.unread, hslots, List.nil_diff]; rfl
  rw [hpending, hunread] at hplaces
  exact hplaces

/-! ### One slot, twice -/

/-- An empty store when the session begins. -/
def noneStored : State :=
  { slots := [], clock := 0, emitted := [], reassembler := {}, newMessageIndexes := [],
    fetch := .idle, drains := [.listing], freed := [], log := [] }

theorem noneStored_starts : noneStored.Starts :=
  ⟨List.nodup_nil, rfl, List.Perm.refl _, rfl, rfl, rfl, rfl, rfl, rfl⟩

/-- Two messages through the same slot, one after the other. -/
theorem readers_agree_refilled :
    ∃ s, (session twoConfig).run noneStored
        [.drain 0 .ok, .arrive 1 pduOne none, .take, .fetch .ok, .fetch .ok, .fetch .ok,
          .arrive 1 pduTwo none, .take, .fetch .ok, .fetch .ok, .fetch .ok] = some s
      ∧ s.log.length = 2
      ∧ (∀ f ∈ s.freed, f.1 = f.2)
      ∧ (s.Settled → s.slots = []
          ∧ ∀ m ∈ s.log, twoConfig.decodable m.pdu = true → (readsOf s.emitted).count m = 1) := by
  have hrun : ((session twoConfig).runBy (fun s a => s.orderly twoConfig a) noneStored
      [.drain 0 .ok, .arrive 1 pduOne none, .take, .fetch .ok, .fetch .ok, .fetch .ok,
        .arrive 1 pduTwo none, .take, .fetch .ok, .fetch .ok, .fetch .ok]).map
        (fun s => s.log.length) = some 2 := by decide +kernel
  obtain ⟨s, hs, hlen⟩ := Option.map_eq_some_iff.mp hrun
  have hagree := @readers_agree twoConfig _
    ⟨noneStored, noneStored_starts, Machine.runBy_path hs⟩
  exact ⟨s, Machine.run_of_runBy hs, hlen, hagree.1, hagree.2.2⟩

/-- **Two readers of one slot.**  A message arrives, `drain_inbox` lists it, `_fetch_index` reads
    it too; the drain deletes it and hands it over, the network refills the slot, and the fetch
    deletes the new message, which nobody read, and hands the old one over again. -/
theorem readers_collide :
    ¬ ∀ (cfg : Config) (s : State), cfg.deleteAfterRead = true →
      (session cfg).ReachableBy (fun _ a => a.raises = false) s →
      (∀ f ∈ s.freed, f.1 = f.2)
      ∧ ∀ m ∈ s.log, cfg.decodable m.pdu = true → (readsOf s.emitted).count m ≤ 1 := by
  intro hclaim
  have hrun : ((session twoConfig).runBy (fun _ a => a.raises == false) noneStored
      [.arrive 1 pduOne none, .drain 0 .ok, .take, .fetch .ok, .fetch .ok, .drain 0 .ok,
        .arrive 1 pduTwo none, .fetch .ok]).map
        (fun s => (s.freed, readsOf s.emitted))
      = some ([(⟨0, pduOne, none⟩, ⟨0, pduOne, none⟩), (⟨1, pduTwo, none⟩, ⟨0, pduOne, none⟩)],
          [⟨0, pduOne, none⟩, ⟨0, pduOne, none⟩]) := by decide +kernel
  obtain ⟨s, hs, heq⟩ := Option.map_eq_some_iff.mp hrun
  simp only [Prod.mk.injEq] at heq
  obtain ⟨hfreed, -⟩ := heq
  have hpath : (session twoConfig).Path (fun _ a => a.raises = false) noneStored s :=
    (Machine.runBy_path hs).mono fun _ _ hg => by simpa using hg
  have hmem : ((⟨1, pduTwo, none⟩ : Stored), (⟨0, pduOne, none⟩ : Stored)) ∈ s.freed := by
    rw [hfreed]
    exact List.mem_cons_of_mem _ List.mem_cons_self
  have hsame := (hclaim twoConfig s rfl ⟨noneStored, noneStored_starts, hpath⟩).1 _ hmem
  cases hsame

end Air780eHub.Modem
