/-
  Durable commands run at most once and answer with one result.

  Every function of the command code is shown to make `Progress`: the journal keeps its
  invariant, rows keep their results, and a result event it appends for a durable command is the
  result the command's row holds.  From that, along every run:

  1. the handler of a durable command is entered at most once, because entering it needs an id
     without a row (`startCommand_entered`) and leaves a row behind for good;
  2. a row that was given a result keeps it;
  3. all results appended for one durable command are the same payload.

  "Durable command" is meant by id: `DurableId received c` says that every frame ever received
  under the id `c` carried a result token.  Frames without one share neither rows nor results with
  it, and may be received in between.
-/
import Air780eHub.Agent.Commands

namespace Air780eHub.Commands

variable {E : Env}

/-- Every frame received under the id `c` carries a result token. -/
def DurableId (received : List Frame) (c : String) : Prop :=
  ∀ f ∈ received, f.get "cmd_id" = .str c → (f.get "result_token").truthy = true

/-- The events `more` that answer a durable command carry the result of its row. -/
def Answers (received : List Frame) (s : CommandStore) (more : List Event) : Prop :=
  ∀ e ∈ more, e.kind = "cmd_result" → ∀ c, e.payload.fields.get "cmd_id" = .str c →
    DurableId received c → ∃ r ∈ s.commandRuns, r.result = some e.payload

/-- What every function of the command code does to the store. -/
structure Progress (received : List Frame) (s s' : CommandStore) : Prop where
  journal : CommandStore.Journalled s'
  later   : CommandStore.Extends s s'
  answers : ∃ more, s'.history = s.history ++ more ∧ Answers received s' more

variable {received : List Frame} {s s' : CommandStore} {frame : Frame}

theorem Answers.mono {more : List Event} (h : Answers received s more)
    (hx : CommandStore.Extends s s') : Answers received s' more := by
  intro e he hk c hc hd
  obtain ⟨r, hr, hp⟩ := h e he hk c hc hd
  obtain ⟨r', hr', _, hl⟩ := hx.rows r hr
  exact ⟨r', hr', hl _ hp⟩

theorem Progress.refl (hs : s.Journalled) : Progress received s s :=
  ⟨hs, .refl s, [], by simp, by simp [Answers]⟩

theorem Progress.trans {s'' : CommandStore} (h : Progress received s s')
    (h' : Progress received s' s'') : Progress received s s'' := by
  obtain ⟨more, hm, ha⟩ := h.answers
  obtain ⟨more', hm', ha'⟩ := h'.answers
  refine ⟨h'.journal, h.later.trans h'.later, more ++ more', by rw [hm', hm]; simp, ?_⟩
  intro e he
  rcases List.mem_append.mp he with he | he
  · exact (ha.mono h'.later) e he
  · exact ha' e he

/-- A journal operation makes progress: what it appends is recorded in its rows. -/
theorem Progress.of_recorded (h : s'.Journalled ∧ s.Extends s' ∧
    ∃ more, s'.history = s.history ++ more ∧ s'.Recorded more) : Progress received s s' := by
  obtain ⟨hj, hx, more, hm, hr⟩ := h
  exact ⟨hj, hx, more, hm, fun e he _ _ _ _ => (hr e he).2⟩

/-- Appending an event that answers no durable command makes progress. -/
theorem Progress.of_append (hs : s.Journalled) {kind : String} {payload : Payload}
    (h : kind = "cmd_result" → ∀ c, payload.fields.get "cmd_id" = .str c →
      ¬ DurableId received c) : Progress received s (s.appendEvent kind payload) := by
  refine ⟨hs.appendEvent _ _, ⟨.refl CommandStore.Later.refl _, _, rfl⟩, _, rfl, ?_⟩
  intro e he hk c hc hd
  rw [List.mem_singleton] at he
  subst he
  exact absurd hd (h hk c hc)

/-- The queue may lose rows at any time. -/
theorem Progress.of_events (hs : s.Journalled) (t : EventTable) :
    Progress received s { s with events := t } :=
  ⟨⟨hs.keys, hs.settled, hs.named, hs.result⟩, ⟨.refl CommandStore.Later.refl _, [], by simp⟩, [],
    by simp, by simp [Answers]⟩

/-! ## The functions of the command code -/

theorem durable_named (h : durable frame = true) : frame.Named := by
  unfold durable at h
  unfold Frame.Named Frame.cmdId
  cases hc : frame.get "cmd_id" <;> simp [hc] at h ⊢

/-- A received frame that is not durable has no durable id. -/
theorem not_durable {c : String} (hf : frame ∈ received) (h : durable frame = false)
    (hc : frame.get "cmd_id" = .str c) : ¬ DurableId received c := by
  intro hd
  have ht := hd frame hf hc
  simp [durable, hc, ht] at h

theorem emit_progress (hs : s.Journalled) {kind : String} {payload : Payload}
    (h : kind = "cmd_result" → ∀ c, payload.fields.get "cmd_id" = .str c →
      ¬ DurableId received c) : Progress received s (emit E s kind payload) :=
  have hp := Progress.of_append hs h
  hp.trans (.of_events hp.journal _)

theorem finish_progress (hs : s.Journalled) (hf : frame.Named) {status : RunStatus}
    (hst : status ≠ .running) (data error : Value) :
    Progress received s (s.finishCommand frame status data error) :=
  .of_recorded (CommandStore.finishCommand_keeps hs hf hst)

theorem cmdResult_progress (hs : s.Journalled) (hf : frame ∈ received)
    (hd : durable frame = false) (ok : Bool) (data error : Value) :
    Progress received s (cmdResult E s (frame.get "cmd_id") ok data error) := by
  unfold cmdResult
  split
  · exact .refl hs
  · exact emit_progress hs fun _ c hc => not_durable hf hd hc

theorem fail_progress (hs : s.Journalled) (hf : frame ∈ received) {status : RunStatus}
    (hst : status ≠ .running) (error : String) :
    Progress received s (fail E s frame status error) := by
  unfold fail
  cases hd : durable frame with
  | true => exact finish_progress hs (durable_named hd) hst _ _
  | false => exact cmdResult_progress hs hf hd _ _ _

theorem failCommand_progress (hs : s.Journalled) (hf : frame ∈ received) (fault : Fault) :
    Progress received s (failCommand E s frame fault) := by
  cases fault with
  | offline text => exact fail_progress hs hf (by decide) text
  | valueError text => exact fail_progress hs hf (by decide) text
  | other text => exact fail_progress hs hf (by decide) text

theorem conclude_progress (hs : s.Journalled) (hf : frame ∈ received) (outcome : Outcome) :
    Progress received s (concludeCommand E s frame outcome) := by
  cases outcome with
  | returned data =>
    unfold concludeCommand
    cases hd : durable frame with
    | true => exact finish_progress hs (durable_named hd) (by decide) _ _
    | false => exact cmdResult_progress hs hf hd _ _ _
  | cancelled =>
    unfold concludeCommand
    cases hd : durable frame with
    | true => exact finish_progress hs (durable_named hd) (by decide) _ _
    | false => exact .refl hs
  | raised fault => exact failCommand_progress hs hf fault

theorem begin_progress (hs : s.Journalled) (hf : frame.Named) {c : Claimed}
    (h : s.beginCommand E.requestHash frame = (c, s')) : Progress received s s' :=
  .of_recorded (CommandStore.beginCommand_keeps hs hf h)

theorem reject_progress (hs : s.Journalled) {r : Rejection} (hf : r.1 ∈ received) :
    Progress received s (rejectCommand E s r) := by
  obtain ⟨frame, error⟩ := r
  unfold rejectCommand
  dsimp only
  cases hd : durable frame with
  | false => exact cmdResult_progress hs hf hd _ _ _
  | true =>
    have hn := durable_named hd
    rw [if_pos rfl]
    split
    · rename_i s₁ hb
      have hp : Progress received s s₁ := begin_progress hs hn hb
      exact hp.trans (finish_progress hp.journal hn (by decide) _ _)
    · rename_i c s₁ _ hb
      exact begin_progress hs hn hb

theorem rejectAll_progress {rs : List Rejection} (hs : s.Journalled)
    (hf : ∀ r ∈ rs, r.1 ∈ received) : Progress received s (rejectAll E s rs) := by
  induction rs generalizing s with
  | nil => exact .refl hs
  | cons r rs ih =>
    have hr := reject_progress (E := E) hs (hf r List.mem_cons_self)
    exact hr.trans (ih hr.journal fun x hx => hf x (List.mem_cons_of_mem _ hx))

theorem check_progress (hs : s.Journalled) (hd : durable frame = true) (hf : frame ∈ received)
    (gate : Gate) : Progress received s (checkCommand E s frame gate).1 := by
  have hn := durable_named hd
  unfold checkCommand
  split
  · exact failCommand_progress hs hf _
  · exact finish_progress hs hn (by decide) _ _
  · split
    · exact fail_progress hs hf (by decide) _
    · split
      · exact finish_progress hs hn (by decide) _ _
      · exact .refl hs

theorem open_progress (hs : s.Journalled) (hf : frame ∈ received) (gate : Gate) :
    Progress received s (openCommand E s frame gate).1 := by
  unfold openCommand
  split
  · exact .refl hs
  · exact fail_progress hs hf (by decide) _
  · cases hd : durable frame with
    | true => exact check_progress hs hd hf gate
    | false => exact .refl hs

theorem start_progress (hs : s.Journalled) (hf : frame ∈ received) (gate : Gate) :
    Progress received s (startCommand E s frame gate).1 := by
  unfold startCommand
  cases hd : durable frame with
  | false => exact open_progress hs hf gate
  | true =>
    have hn := durable_named hd
    rw [if_pos rfl]
    split
    · rename_i s₁ hb
      have hp : Progress received s s₁ := begin_progress hs hn hb
      exact hp.trans (open_progress hp.journal hf gate)
    · rename_i c s₁ _ hb
      exact begin_progress hs hn hb

/-- **Entering the handler of a durable command** needs an id without a row, and leaves one. -/
theorem startCommand_entered (hs : s.Journalled) (hf : frame ∈ received)
    (hd : durable frame = true) {gate : Gate}
    (h : startCommand E s frame gate = (s', .entered)) :
    (∀ r ∈ s.commandRuns, r.cmdId ≠ frame.cmdId) ∧ ∃ r ∈ s'.commandRuns, r.cmdId = frame.cmdId := by
  have hn := durable_named hd
  unfold startCommand at h
  rw [if_pos hd] at h
  split at h
  · rename_i s₁ hb
    have hp : Progress received s s₁ := begin_progress hs hn hb
    rcases CommandStore.beginCommand_spec hb with ⟨_, hnew, hs₁⟩ | ⟨hc, _⟩
    · refine ⟨hnew, ?_⟩
      have hrow : ∃ r ∈ s₁.commandRuns, r.cmdId = frame.cmdId := by
        rw [hs₁]
        exact ⟨_, List.mem_append_right _ List.mem_cons_self, rfl⟩
      obtain ⟨r, hr, hid⟩ := hrow
      have ho := open_progress (E := E) hp.journal hf gate
      rw [h] at ho
      obtain ⟨r', hr', hk, _⟩ := ho.later.rows r hr
      exact ⟨r', hr', hk.trans hid⟩
    · exact absurd rfl hc
  · simp at h

theorem recover_progress (hs : s.Journalled) (n : Nat) :
    Progress received s (s.recoverCommands n) := by
  unfold CommandStore.recoverCommands
  have hnamed : ∀ r ∈ (s.commandRuns.filter fun r => decide (r.status = .running)).take n,
      r.frame.Named := by
    intro r hr
    have hget := hs.named r (List.mem_of_mem_filter (List.mem_of_mem_take hr))
    rw [Frame.Named, hget, Frame.cmdId_eq hget]
  generalize (s.commandRuns.filter fun r => decide (r.status = .running)).take n = rows at hnamed
  induction rows generalizing s with
  | nil => exact .refl hs
  | cons r rows ih =>
    have hr : Progress received s (s.recoverCommand r) :=
      finish_progress hs (hnamed r List.mem_cons_self) (by decide) _ _
    exact hr.trans (ih hr.journal fun x hx => hnamed x (List.mem_cons_of_mem _ hx))

/-! ## The invariant of a run -/

/-- The frame asks for the command `c`. -/
def isFor (c : String) (f : Frame) : Bool := decide (f.get "cmd_id" = .str c)

/-- What holds in every reachable state. -/
structure Inv (s : State) : Prop where
  journal : s.store.Journalled
  queued  : ∀ f ∈ s.dispatcher.frames, f ∈ s.received
  entered : ∀ f ∈ s.entered, f ∈ s.received
  answers : Answers s.received s.store s.store.history
  /-- A durable command whose handler was entered has a row. -/
  rows    : ∀ c, DurableId s.received c → ∀ f ∈ s.entered, f.get "cmd_id" = .str c →
    ∃ r ∈ s.store.commandRuns, r.cmdId = c
  once    : ∀ c, DurableId s.received c → (s.entered.filter (isFor c)).length ≤ 1

/-- A durable id was durable before more frames were received. -/
theorem DurableId.of_append {c : String} {more : List Frame}
    (h : DurableId (received ++ more) c) : DurableId received c :=
  fun f hf => h f (List.mem_append_left _ hf)

theorem Answers.of_append {more : List Event} {frames : List Frame}
    (h : Answers received s more) : Answers (received ++ frames) s more :=
  fun e he hk c hc hd => h e he hk c hc hd.of_append

/-- What a step from an invariant state leaves. -/
structure Kept (s s' : State) : Prop where
  inv   : Inv s'
  later : s.store.Extends s'.store

/-- **Frame rule of the run.**  A step that enters no handler keeps the invariant when the store
    makes progress and the queued frames were received. -/
theorem Inv.of_progress {s s' : State} (h : Inv s) (more : List Frame)
    (hr : s'.received = s.received ++ more) (he : s'.entered = s.entered)
    (hp : Progress s'.received s.store s'.store)
    (hq : ∀ f ∈ s'.dispatcher.frames, f ∈ s'.received) : Kept s s' := by
  refine ⟨?_, hp.later⟩
  have hsub : s.received ⊆ s'.received := by rw [hr]; exact List.subset_append_left _ _
  have hdur : ∀ {c}, DurableId s'.received c → DurableId s.received c := by
    intro c hd
    rw [hr] at hd; exact hd.of_append
  constructor
  case journal => exact hp.journal
  case queued => exact hq
  case entered => rw [he]; exact fun f hf => hsub (h.entered f hf)
  case answers =>
    obtain ⟨new, hn, ha⟩ := hp.answers
    rw [hn]
    intro e hmem
    rcases List.mem_append.mp hmem with hmem | hmem
    · have hold : Answers s'.received s.store s.store.history := by
        rw [hr]; exact h.answers.of_append
      exact (hold.mono hp.later) e hmem
    · exact ha e hmem
  case rows =>
    intro c hd f hf hc
    rw [he] at hf
    obtain ⟨r, hrow, hid⟩ := h.rows c (hdur hd) f hf hc
    obtain ⟨r', hrow', hk, _⟩ := hp.later.rows r hrow
    exact ⟨r', hrow', hk.trans hid⟩
  case once =>
    intro c hd
    rw [he]; exact h.once c (hdur hd)

/-- Entering a handler: if its command is durable, it had no row, so it was not entered before. -/
theorem Inv.of_entered {s : State} (h : Inv s) {k : Option String} {frame : Frame}
    {rest : List Frame} {gate : Gate} {store : CommandStore}
    (hq : s.dispatcher.queue k = some ⟨frame :: rest, false⟩)
    (hst : startCommand E s.store frame gate = (store, .entered)) :
    Kept s { s with
      store
      dispatcher := s.dispatcher.setQueue k ⟨frame :: rest, true⟩
      entered    := s.entered ++ [frame] } := by
  have hf : frame ∈ s.received :=
    h.queued frame (Dispatcher.queue_frames hq List.mem_cons_self)
  have hp : Progress s.received s.store store := by
    have := start_progress (E := E) h.journal hf gate
    rwa [hst] at this
  have hkept : Kept s { s with store } := h.of_progress [] (by simp) rfl hp h.queued
  have hmid := hkept.inv
  -- a durable command enters with no row before and one after
  have hnew : ∀ c, DurableId s.received c → frame.get "cmd_id" = .str c →
      (∀ r ∈ s.store.commandRuns, r.cmdId ≠ c) ∧ ∃ r ∈ store.commandRuns, r.cmdId = c := by
    intro c hd hc
    have hdur : durable frame = true := by simp [durable, hc, hd frame hf hc]
    have := startCommand_entered h.journal hf hdur hst
    rwa [Frame.cmdId_eq hc] at this
  refine ⟨?_, hp.later⟩
  constructor
  case journal => exact hp.journal
  case queued =>
    intro f hf'
    rcases Dispatcher.of_mem_setQueue hf' with hf' | hf'
    · exact h.queued f hf'
    · exact h.queued f (Dispatcher.queue_frames hq hf')
  case entered =>
    intro f hf'
    rcases List.mem_append.mp hf' with hf' | hf'
    · exact h.entered f hf'
    · rw [List.mem_singleton] at hf'; rw [hf']; exact hf
  case answers => exact hmid.answers
  case rows =>
    intro c hd f hf' hc
    rcases List.mem_append.mp hf' with hf' | hf'
    · exact hmid.rows c hd f hf' hc
    · rw [List.mem_singleton] at hf'; subst hf'
      exact (hnew c hd hc).2
  case once =>
    intro c hd
    have hold := h.once c hd
    by_cases hc : frame.get "cmd_id" = .str c
    · have hnone : s.entered.filter (isFor c) = [] := by
        refine List.filter_eq_nil_iff.mpr fun f hf' hfor => ?_
        obtain ⟨r, hr, hid⟩ := h.rows c hd f hf' (by simpa [isFor] using hfor)
        exact (hnew c hd hc).1 r hr hid
      simp [List.filter_append, hnone, isFor, hc]
    · simpa [List.filter_append, isFor, hc] using hold

theorem inv_start {s s' : State} {k : Option String} {gate : Gate} (h : Inv s)
    (hs : start E s k gate = some s') : Kept s s' := by
  unfold start at hs
  split at hs
  case h_2 => cases hs
  case h_1 frame rest hq =>
    have hf : frame ∈ s.received :=
      h.queued frame (Dispatcher.queue_frames hq List.mem_cons_self)
    have hpop : ∀ f ∈ (s.dispatcher.popHead k ⟨frame :: rest, false⟩ false).frames,
        f ∈ s.received := fun f hmem => h.queued f (Dispatcher.popHead_spec hq f hmem)
    have hp := start_progress (E := E) h.journal hf gate
    split at hs
    · rename_i store hst
      cases hs
      exact h.of_entered hq hst
    · rename_i store hst
      cases hs
      rw [hst] at hp
      exact h.of_progress [] (by simp) rfl hp hpop
    · rename_i store hst
      cases hs
      rw [hst] at hp
      exact h.of_progress [] (by simp) rfl
        (hp.trans (reject_progress (r := (frame, failedText)) hp.journal hf)) hpop

theorem inv_conclude {s s' : State} {k : Option String} {outcome : Outcome} (h : Inv s)
    (hs : conclude E s k outcome = some s') : Kept s s' := by
  unfold conclude at hs
  split at hs
  case h_2 => cases hs
  case h_1 frame rest hq =>
    have hf : frame ∈ s.received :=
      h.queued frame (Dispatcher.queue_frames hq List.mem_cons_self)
    have hpop : ∀ b, ∀ f ∈ (s.dispatcher.popHead k ⟨frame :: rest, true⟩ b).frames,
        f ∈ s.received := fun b f hmem => h.queued f (Dispatcher.popHead_spec hq f hmem)
    have hp := conclude_progress (E := E) h.journal hf outcome
    dsimp only at hs
    split at hs
    · cases hs
      exact h.of_progress [] (by simp) rfl
        (hp.trans (reject_progress (r := (frame, cancelledText)) hp.journal hf)) (hpop true)
    · cases hs
      exact h.of_progress [] (by simp) rfl hp (hpop false)

theorem inv_discard {s : State} (h : Inv s) (stop : Bool) (reason : String) :
    Kept s (discard E s stop reason) := by
  unfold discard
  cases hd : s.dispatcher.discardQueued reason with
  | mk d rs =>
    obtain ⟨hkept, hback⟩ := Dispatcher.discardQueued_spec hd
    refine h.of_progress [] (by simp) rfl ?_ fun f hf => h.queued f (hkept f hf)
    exact rejectAll_progress h.journal fun r hr => h.queued r.1 (hback r hr)

theorem inv_submit {s : State} (h : Inv s) (frame : Frame) : Kept s (submit E s frame) := by
  unfold submit
  cases hd : s.dispatcher.submit frame with
  | mk d rs =>
    obtain ⟨hkept, hback⟩ := Dispatcher.submit_spec hd
    refine h.of_progress [frame] rfl rfl ?_ fun f hf => ?_
    · refine rejectAll_progress h.journal fun r hr => ?_
      rw [hback r hr]; simp
    · rcases hkept f hf with hf | rfl
      · exact List.mem_append_left _ (h.queued f hf)
      · simp

/-- **Every step preserves the invariant**, and no row loses its result in it. -/
theorem inv_step {s s' : State} {a : Action} (h : Inv s) (hs : step E s a = some s') :
    Kept s s' := by
  have hsame : ∀ {store}, Progress s.received s.store store → Kept s { s with store } :=
    fun hp => h.of_progress [] (by simp) rfl hp h.queued
  cases a with
  | reopen n =>
    simp only [step] at hs
    split at hs
    · cases hs
    · cases hs
      exact h.of_progress [] (by simp [reopen]) rfl (recover_progress h.journal n)
        h.queued
  | crash =>
    cases hs
    exact h.of_progress [] (by simp) rfl (.refl h.journal) fun f hf => by cases hf
  | submit frame =>
    simp only [step] at hs
    split at hs <;> cases hs
    exact inv_submit h frame
  | start k gate =>
    simp only [step] at hs
    split at hs
    · exact inv_start h hs
    · cases hs
  | conclude k outcome =>
    simp only [step] at hs
    split at hs
    · exact inv_conclude h hs
    · cases hs
  | disconnect =>
    simp only [step] at hs
    split at hs <;> cases hs
    exact inv_discard h _ _
  | stop =>
    simp only [step] at hs
    split at hs
    · split at hs <;> cases hs
      exact inv_discard h _ _
    · cases hs
  | stopped =>
    simp only [step] at hs
    split at hs
    · split at hs <;> cases hs
      exact h.of_progress [] (by simp) rfl (.refl h.journal) fun f hf => by cases hf
    · cases hs
  | emit kind payload =>
    simp only [step] at hs
    split at hs
    · split at hs
      · cases hs
      · rename_i hk
        cases hs
        exact hsame (emit_progress h.journal fun hk' => absurd hk' hk)
    · cases hs
  | ack seq =>
    simp only [step] at hs
    split at hs <;> cases hs
    exact hsame (.of_events h.journal _)
  | trim keep =>
    simp only [step] at hs
    split at hs <;> cases hs
    exact hsame (.of_events h.journal _)

theorem inv_init : Inv .init where
  journal := ⟨by simp [State.init], by simp [State.init], by simp [State.init],
    by simp [State.init]⟩
  queued  := fun f hf => by cases hf
  entered := fun f hf => by cases hf
  answers := fun e he => by cases he
  rows    := fun _ _ f hf => by cases hf
  once    := fun _ _ => Nat.zero_le _

theorem inv_reachable {s : State} (h : (machine E).Reachable s) : Inv s := by
  refine h.invariant (I := Inv) ?_ ?_
  · rintro s₀ rfl
    exact inv_init
  · intro s₀ a s₁ hi _ hs
    exact (inv_step hi hs).inv

/-- A result stays for the rest of the run. -/
theorem extends_path {s t : State} (h : Inv s) (hp : (machine E).Path Machine.Always s t) :
    s.store.Extends t.store :=
  hp.relation_of_invariant (I := Inv) (R := fun s t => s.store.Extends t.store)
    (fun s => .refl s.store) (fun _ _ _ => CommandStore.Extends.trans)
    (fun _ _ _ hi _ hs => (inv_step hi hs).inv) (fun _ _ _ hi _ hs => (inv_step hi hs).later) h

/-- **Durable commands run at most once.**  In every reachable state, for every id all of whose
    frames carried a result token: its handler was entered at most once, and all results ever
    appended for it are the same.  And a row that was given a result keeps it in every state
    reached from there. -/
theorem durable_command_at_most_once {s : State} (h : (machine E).Reachable s) :
    (∀ c, DurableId s.received c → (s.entered.filter (isFor c)).length ≤ 1) ∧
    (∀ t, (machine E).Path Machine.Always s t → ∀ c r p, s.store.command c = some r →
      r.result = some p → ∃ r', t.store.command c = some r' ∧ r'.result = some p) ∧
    (∀ c, DurableId s.received c → ∀ e ∈ s.store.history, ∀ e' ∈ s.store.history,
      e.kind = "cmd_result" → e'.kind = "cmd_result" →
      e.payload.fields.get "cmd_id" = .str c → e'.payload.fields.get "cmd_id" = .str c →
      e.payload = e'.payload) := by
  have hi := inv_reachable h
  refine ⟨hi.once, fun t hp c r p hc hres => ?_, fun c hd e he e' he' hk hk' hc hc' => ?_⟩
  · have ht := inv_reachable (Machine.ReachableBy.path h hp)
    obtain ⟨hr, rfl⟩ := CommandStore.command_some hc
    obtain ⟨r', hr', hkey, hl⟩ := (extends_path hi hp).rows r hr
    rw [← hkey]
    exact ⟨r', CommandStore.command_of_mem ht.journal hr', hl p hres⟩
  · exact hi.journal.result_unique (hi.answers e he hk c hc hd) (hi.answers e' he' hk' c hc' hd)
      hc hc'

/-- An Agent whose digest of a text is the text. -/
def demoEnv : Env := ⟨id, fun _ => "", 100⟩

/-- A durable USSD command for one device. -/
def ussd : Frame :=
  [("type", .str "ussd"), ("cmd_id", .str "op-1"), ("result_token", .str "t"),
   ("device", .str "d1")]

/-- The command is delivered twice and crashes in its handler; after the restart it is
    delivered again. -/
def crashRun : List Action :=
  [.submit ussd, .submit ussd, .start (some "d1") ⟨.ok false, some ("", "")⟩, .crash, .reopen 1,
   .submit ussd, .start (some "d1") ⟨.ok false, some ("", "")⟩]

theorem durable_command_at_most_once_crash :
    ∃ s, (machine demoEnv).run .init crashRun = some s ∧
      s.entered = [ussd] ∧ s.store.history.length = 2 ∧
      ∀ c, DurableId s.received c → (s.entered.filter (isFor c)).length ≤ 1 := by
  have hrun : ((machine demoEnv).run .init crashRun).map
      (fun s => (s.entered, s.store.history.length)) = some ([ussd], 2) := by decide +kernel
  obtain ⟨s, hs, hsum⟩ := Option.map_eq_some_iff.mp hrun
  simp only [Prod.mk.injEq] at hsum
  exact ⟨s, hs, hsum.1, hsum.2,
    (durable_command_at_most_once (Machine.run_reachable rfl hs)).1⟩

end Air780eHub.Commands
