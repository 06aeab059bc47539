/-
  No message lost to an AT error within one modem session.

  A message whose slot was freed is handed to `on_sms`, held by the reassembler, or in the local
  variable of a call in progress.  `drain_inbox` keeps completed messages in `collected` until the
  end of its loop and `_fetch_index` keeps one in `complete` until its delete returns; a delete
  that raises takes the variable with it.  So the statement is about the runs all of whose steps
  are `safe`, and `deleteFailure_loses` is a run in which one step is not.

  1. **The condition** `safe`, decided on the state before a step.
  2. **The invariant**: the ledger is owned and covered.  Where messages are not deleted after
     reading, nothing is ever freed.
  3. **The result** (`deleted_message_kept`), a run it applies to, and the run that loses a message.
-/
import Air780eHub.Modem.Moves

namespace Air780eHub.Modem

open Mailbox

namespace State

/-! ## The condition -/

/-- The step is safe for the PDUs that matter (`rel`): it does not read a slot that another task
    has read and not yet deleted; it displaces no segment from the reassembler but by one of the
    same PDU; and when it is a delete that raises, no PDU that waits in the local variable of its
    task is one whose slot is free by then, or that another task is about to delete. -/
def safe (cfg : Config) (rel : String → Bool) (s : State) (a : Act) : Bool :=
  !s.collides a
    && ((s.takes a).toList.all fun m =>
      (s.displacedBy cfg m).all fun d => !rel d.pdu || d.pdu == m.pdu)
    && ((s.wasted a).toList.all fun W =>
      W.all fun r => !rel r.pdu || (s.spentAfter a).all fun m => m.pdu != r.pdu)

/-- A safe step is one the ledger's policy allows. -/
theorem safe_allowed {cfg : Config} {rel : String → Bool} {s : State} {a : Act}
    (h : s.safe cfg rel a = true) :
    s.Allowed cfg (keep Stored.pdu fun p => rel p = true) a := by
  simp only [safe, Bool.and_eq_true, Bool.not_eq_true', List.all_eq_true, Bool.or_eq_true,
    beq_iff_eq, bne_iff_ne, Option.mem_toList] at h
  obtain ⟨⟨hc, ht⟩, hw⟩ := h
  refine ⟨hc, fun m hm d hd hrel => ?_, fun W hW L hL r hr hrel m hm => ?_, fun _ => trivial⟩
  · have hne : ¬ rel d.pdu = false := by simp [show rel d.pdu = true from hrel]
    exact (ht m hm d (Multiset.mem_coe.mp hd)).resolve_left hne
  · have hne : ¬ rel r.pdu = false := by simp [show rel r.pdu = true from hrel]
    rw [hL] at hm
    exact (hw W hW r (Multiset.mem_coe.mp hr)).resolve_left hne m (Multiset.mem_coe.mp hm)

/-! ## Where a message is -/

/-- A message read as this PDU is part of one that `on_sms` was called with. -/
def Surfaced (s : State) (pdu : String) : Prop := ∃ m ∈ readsOf s.emitted, m.pdu = pdu

/-- A segment read as this PDU is held by the reassembler. -/
def Held (s : State) (pdu : String) : Prop := ∃ m ∈ s.reassembler.held, m.pdu = pdu

/-- A message read as this PDU is in the local variable of a call in progress. -/
def Waiting (s : State) (pdu : String) : Prop :=
  ∃ m ∈ readsOf s.fetch.waiting ++ readsOf (s.drains.flatMap Drain.waiting), m.pdu = pdu

/-- No call of `_fetch_index` or `drain_inbox` is in progress. -/
def Resting (s : State) : Prop := s.fetch = .idle ∧ ∀ d ∈ s.drains, d = .done

theorem resting_of {s : State} (hf : s.fetch.isIdle = true)
    (hd : s.drains.all Drain.isDone = true) : s.Resting := by
  refine ⟨?_, fun d hmem => ?_⟩
  · cases h : s.fetch with
    | idle => rfl
    | _ => rw [h] at hf; cases hf
  · have hdone := List.all_eq_true.mp hd d hmem
    cases d with
    | done => rfl
    | _ => cases hdone

theorem Resting.not_waiting {s : State} (h : s.Resting) (pdu : String) : ¬ s.Waiting pdu := by
  rintro ⟨m, hm, -⟩
  have hnone : s.drains.flatMap Drain.waiting = [] := by
    refine List.flatMap_eq_nil_iff.mpr fun d hd => ?_
    rw [h.2 d hd]
    rfl
  rw [h.1, hnone] at hm
  exact absurd hm List.not_mem_nil

theorem waiting_sum (l : List Drain) :
    (l.map Drain.view).sum.2.2 = ↑(readsOf (l.flatMap Drain.waiting)) := by
  induction l with
  | nil => rfl
  | cons d l ih =>
    rw [List.flatMap_cons, readsOf_append, ← Multiset.coe_add, ← ih]
    rfl

/-- What coverage of the ledger says of a freed message. -/
theorem kept_of_covered {rel : String → Prop} {s : State}
    (hc : s.ledger.Covered Stored.pdu rel) {f : Stored × Stored} (hf : f ∈ s.freed)
    (hr : rel f.1.pdu) : s.Surfaced f.1.pdu ∨ s.Held f.1.pdu ∨ s.Waiting f.1.pdu := by
  have hspent : f.1 ∈ s.ledger.spent :=
    Multiset.mem_add.mpr (Or.inl (Multiset.mem_map_of_mem Prod.fst (Multiset.mem_coe.mpr hf)))
  obtain ⟨r, hr', he⟩ := hc f.1 hspent hr
  rcases Multiset.mem_add.mp hr' with hr' | hr'
  · rcases Multiset.mem_add.mp hr' with hr' | hr'
    · exact Or.inl ⟨r, hr', he⟩
    · exact Or.inr (Or.inl ⟨r, hr', he⟩)
  · refine Or.inr (Or.inr ⟨r, ?_, he⟩)
    have hsplit : s.ledger.waiting
        = ↑(readsOf s.fetch.waiting ++ readsOf (s.drains.flatMap Drain.waiting)) := by
      rw [← Multiset.coe_add, ← waiting_sum]
      rfl
    rw [hsplit] at hr'
    exact hr'

/-! ## The invariant -/

theorem Starts.owned {s : State} (h : s.Starts) : s.ledger.Owned := by
  refine ⟨h.numbers, ?_, ?_⟩
  · have hnone : s.claims = [] := by rw [claims, h.fetch, h.drains]; rfl
    have hzero : s.ledger.claims = 0 := by
      show s.view.2.1 + s.view.1 = 0
      rw [← s.claims_eq, hnone]
      rfl
    rw [hzero]
    exact Multiset.zero_le _
  · intro f hf
    have hf' : f ∈ s.freed := hf
    rw [h.freed] at hf'
    cases hf'

theorem Starts.covered {s : State} (h : s.Starts) (rel : String → Prop) :
    s.ledger.Covered Stored.pdu rel := by
  intro m hm
  have hspent : s.ledger.spent = 0 := by
    show Multiset.map Prod.fst (↑s.freed : Multiset (Stored × Stored))
      + Multiset.map Prod.snd s.view.2.1 = 0
    rw [view, h.freed, h.fetch, h.drains]
    rfl
  rw [hspent] at hm
  exact absurd hm (Multiset.notMem_zero m)

/-- A safe step keeps the ledger owned and covered. -/
theorem step_covered {cfg : Config} {rel : String → Bool} (hdel : cfg.deleteAfterRead = true)
    (hrel : ∀ p, rel p = true → cfg.decodable p = true) {s s' : State} {a : Act}
    (hs : s.step cfg a = some s') (hsafe : s.safe cfg rel a = true)
    (h : s.ledger.Owned ∧ s.ledger.Covered Stored.pdu fun p => rel p = true) :
    s'.ledger.Owned ∧ s'.ledger.Covered Stored.pdu fun p => rel p = true := by
  have hmoves := step_moves hdel hs (safe_allowed hsafe) h.1
  exact ⟨hmoves.invariant Ledger.Owned.move h.1,
    hmoves.invariant (Ledger.Covered.move fun m hm => hrel m.pdu hm) h.2⟩

/-! ### Messages that stay in the store -/

/-- No task is about to delete, and nothing was freed. -/
def Undeleting (s : State) : Prop :=
  s.freed = [] ∧ s.fetch.pushed = [] ∧ ∀ d ∈ s.drains, d.pushed = []

theorem Undeleting.setDrain {s : State} (h : s.Undeleting) {k : Nat} {d : Drain}
    (hd : d.pushed = []) : (s.setDrain k d).Undeleting := by
  refine ⟨h.1, h.2.1, fun e he => ?_⟩
  rcases List.mem_or_eq_of_mem_set he with he | rfl
  · exact h.2.2 e he
  · exact hd

theorem Undeleting.receive {cfg : Config} {s : State} (h : s.Undeleting) (m : Stored) :
    (s.receive cfg m).1.Undeleting := by
  obtain ⟨r, hr, -, -⟩ := receive_spec cfg s m
  rw [hr]
  exact h

theorem Undeleting.sweep {cfg : Config} (hkeep : cfg.deleteAfterRead = false) {k : Nat}
    {rest : List Slot} {collected : List DecodedSms} {s : State} (h : s.Undeleting) :
    (sweep cfg k rest collected s).Undeleting := by
  induction rest generalizing collected s with
  | nil => exact Undeleting.setDrain (s := s.flush cfg collected) h rfl
  | cons x rest ih =>
    rw [State.sweep, hkeep]
    exact ih (h.receive x.2)

/-- Where messages are not deleted after reading, no slot is ever freed. -/
theorem Undeleting.step {cfg : Config} (hkeep : cfg.deleteAfterRead = false) {s s' : State}
    {a : Act} (hs : s.step cfg a = some s') (h : s.Undeleting) : s'.Undeleting := by
  have hnodel : ∀ {k : Nat} {x : Slot} {rest : List Slot} {collected : List DecodedSms},
      s.drains[k]? = some (Drain.deleting x rest collected) → False := by
    intro k x rest collected hd
    have hpushed := h.2.2 _ (List.mem_of_getElem? hd)
    cases hpushed
  cases a with
  | arrive index pdu declared =>
    obtain ⟨t, ht, rfl⟩ := Option.map_eq_some_iff.mp hs
    rw [land] at ht
    split at ht
    · cases ht
    · obtain rfl := Option.some.inj ht; exact h
  | direct pdu =>
    obtain rfl := Option.some.inj hs
    exact Undeleting.receive (s := { s with log := s.log ++ [_] }) h _
  | notify index => obtain rfl := Option.some.inj hs; exact h
  | tick d => obtain rfl := Option.some.inj hs; exact h
  | flush => obtain rfl := Option.some.inj hs; exact h
  | take =>
    simp only [State.step] at hs
    split at hs
    · obtain rfl := Option.some.inj hs; exact ⟨h.1, rfl, h.2.2⟩
    · cases hs
  | fetch o =>
    cases fetchStep_cases hs with
    | vanished hf hm => exact ⟨h.1, rfl, h.2.2⟩
    | @read index m hf hm => exact ⟨h.1, by cases m.agrees <;> rfl, h.2.2⟩
    | again hf => exact ⟨h.1, rfl, h.2.2⟩
    | gone hf => exact ⟨h.1, rfl, h.2.2⟩
    | failed hf => exact ⟨h.1, rfl, h.2.2⟩
    | @taken index m _ hf =>
      have hr : (s.receive cfg m).1.Undeleting := h.receive m
      rw [takeUp, hkeep]
      exact ⟨hr.1, rfl, hr.2.2⟩
    | deleted hf ho => rw [Undeleting, hf] at h; cases h.2.1
    | lost hf ho => rw [Undeleting, hf] at h; cases h.2.1
  | call =>
    obtain rfl := Option.some.inj hs
    refine ⟨h.1, h.2.1, fun d hd => ?_⟩
    rcases List.mem_append.mp hd with hd | hd
    · exact h.2.2 d hd
    · rw [List.mem_singleton.mp hd]; rfl
  | drain k o =>
    cases drainStep_cases hs with
    | listed hd => exact Undeleting.sweep hkeep (h.setDrain rfl)
    | refused hd => exact h.setDrain rfl
    | deleted hd ho => exact (hnodel hd).elim
    | lost hd ho => exact (hnodel hd).elim

end State

/-! ## The result -/

/-- In every state that safe steps reach, whatever `rel` picks among the decodable PDUs: a freed
    message is handed over, held, or in a call in progress. -/
theorem freed_kept {cfg : Config} {rel : String → Bool}
    (hrel : ∀ p, rel p = true → cfg.decodable p = true) {s : State}
    (h : (session cfg).ReachableBy (fun s a => s.safe cfg rel a = true) s) :
    ∀ f ∈ s.freed, rel f.1.pdu = true →
      s.Surfaced f.1.pdu ∨ s.Held f.1.pdu ∨ s.Waiting f.1.pdu := by
  intro f hf hr
  cases hdel : cfg.deleteAfterRead with
  | true =>
    have hinv : s.ledger.Owned ∧ s.ledger.Covered Stored.pdu fun p => rel p = true :=
      h.invariant (fun s hs => ⟨hs.owned, hs.covered _⟩)
        fun s a s' hi hg hst => State.step_covered hdel hrel hst hg hi
    exact State.kept_of_covered hinv.2 hf hr
  | false =>
    have hinv : s.Undeleting :=
      h.invariant (fun s hs => ⟨hs.freed, by rw [hs.fetch]; rfl, by rw [hs.drains]; simp; rfl⟩)
        fun s a s' hi _ hst => hi.step hdel hst
    rw [hinv.1] at hf
    cases hf

/-- **No message is lost to an AT error, as long as every step is safe.**  Each decodable message
    whose slot was freed was handed to `on_sms`, is held by the reassembler, or is in the local
    variable of a call in progress; when no call is in progress, one of the first two. -/
theorem deleted_message_kept {cfg : Config} {s : State}
    (h : (session cfg).ReachableBy (fun s a => s.safe cfg cfg.decodable a = true) s) :
    (∀ f ∈ s.freed, cfg.decodable f.1.pdu = true →
      s.Surfaced f.1.pdu ∨ s.Held f.1.pdu ∨ s.Waiting f.1.pdu)
    ∧ (s.Resting → ∀ f ∈ s.freed, cfg.decodable f.1.pdu = true →
      s.Surfaced f.1.pdu ∨ s.Held f.1.pdu) := by
  have hkept := freed_kept (fun _ hp => hp) h
  refine ⟨hkept, fun hrest f hf hdec => ?_⟩
  rcases hkept f hf hdec with hs | hh | hw
  · exact Or.inl hs
  · exact Or.inr hh
  · exact absurd hw (hrest.not_waiting _)

/-! ### Two single messages -/

/-- An SMS-DELIVER from 10086, text "1". -/
def pduOne : String := "000405A10180F60000523090214365230131"

/-- The same with text "2". -/
def pduTwo : String := "000405A10180F60000523090214365230132"

/-- The decoder's answers for the two. -/
def decodeTwo (pdu : String) : Option DecodedSms :=
  if pdu = pduOne then
    some { kind := "deliver", address := "10086", text := "1", raw := pduOne,
           timestamp := some "2025-03-09T12:34:56+08:00" }
  else if pdu = pduTwo then
    some { kind := "deliver", address := "10086", text := "2", raw := pduTwo,
           timestamp := some "2025-03-09T12:34:56+08:00" }
  else none

/-- The defaults, with that decoder; the timeout is in seconds. -/
def twoConfig : Config := ⟨decodeTwo, 30, true⟩

/-- Both messages wait in the store when the session begins. -/
def twoStored : State where
  slots := [(1, ⟨0, pduOne, none⟩), (2, ⟨1, pduTwo, none⟩)]
  clock := 0
  emitted := []
  reassembler := {}
  newMessageIndexes := []
  fetch := .idle
  drains := [.listing]
  freed := []
  log := [⟨0, pduOne, none⟩, ⟨1, pduTwo, none⟩]

theorem twoStored_starts : twoStored.Starts where
  numbers := by decide
  ids := by decide
  stored := List.Perm.refl _
  emitted := rfl
  reassembler := rfl
  indexes := rfl
  fetch := rfl
  drains := rfl
  freed := rfl

/-- With no error both messages are handed over, so the result is about more than empty runs. -/
theorem deleted_message_kept_two :
    ∃ s, (session twoConfig).run twoStored [.drain 0 .ok, .drain 0 .ok, .drain 0 .ok] = some s
      ∧ s.freed.map Prod.fst = twoStored.log ∧ s.Resting
      ∧ ∀ f ∈ s.freed, twoConfig.decodable f.1.pdu = true →
          s.Surfaced f.1.pdu ∨ s.Held f.1.pdu := by
  have hrun : ((session twoConfig).runBy (fun s a => s.safe twoConfig twoConfig.decodable a)
      twoStored [.drain 0 .ok, .drain 0 .ok, .drain 0 .ok]).map
        (fun s => (s.freed.map Prod.fst, s.fetch.isIdle, s.drains.all Drain.isDone))
      = some (twoStored.log, true, true) := by decide +kernel
  obtain ⟨s, hs, heq⟩ := Option.map_eq_some_iff.mp hrun
  simp only [Prod.mk.injEq] at heq
  obtain ⟨hfreed, hfetch, hdrains⟩ := heq
  have hrest : s.Resting := State.resting_of hfetch hdrains
  exact ⟨s, Machine.run_of_runBy hs, hfreed, hrest,
    (@deleted_message_kept twoConfig _
      ⟨twoStored, twoStored_starts, Machine.runBy_path hs⟩).2 hrest⟩

/-- **A delete that raises loses the messages collected before it.**  `drain_inbox` frees the slot
    of the first message, the delete of the second times out, and the first message was never
    handed over and is nowhere in memory. -/
theorem deleteFailure_loses :
    ¬ ∀ (cfg : Config) (s : State), (session cfg).Reachable s → s.Resting →
      ∀ f ∈ s.freed, cfg.decodable f.1.pdu = true → s.Surfaced f.1.pdu ∨ s.Held f.1.pdu := by
  intro hclaim
  have hrun : ((session twoConfig).run twoStored
      [.drain 0 .ok, .drain 0 .ok, .drain 0 (.raised .timeout false)]).map
        (fun s => (s.freed, readsOf s.emitted, s.reassembler.held, s.fetch.isIdle,
          s.drains.all Drain.isDone))
      = some ([(⟨0, pduOne, none⟩, ⟨0, pduOne, none⟩)], [], [], true, true) := by decide +kernel
  obtain ⟨s, hs, heq⟩ := Option.map_eq_some_iff.mp hrun
  simp only [Prod.mk.injEq] at heq
  obtain ⟨hfreed, hemitted, hheld, hfetch, hdrains⟩ := heq
  have hrest : s.Resting := State.resting_of hfetch hdrains
  have hmem : (⟨0, pduOne, none⟩, ⟨0, pduOne, none⟩) ∈ s.freed := by
    rw [hfreed]; exact List.mem_cons_self
  rcases hclaim twoConfig s (Machine.run_reachable twoStored_starts hs) hrest _ hmem
    (by decide) with ⟨m, hm, -⟩ | ⟨m, hm, -⟩
  · rw [hemitted] at hm; cases hm
  · rw [hheld] at hm; cases hm

end Air780eHub.Modem
