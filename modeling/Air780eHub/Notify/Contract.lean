/-
  What the notification queue promises, over whole runs.

  Two conditions are needed.  The keys of the intents have to be distinct (`DistinctKeys`), and what
  a message is rendered from has to be text (`Renderable`): a title that is a number raises outside
  the sender, so nothing counts the attempt, and the row stays pending past its expiry.

  1. **Rendering**: `payloadFor_ok_iff`.
  2. **The end of an attempt**: by a settlement or a crash.
  3. **`Contract`**, which holds in every state of a run that meets the two conditions.
  4. **Where it does not hold**: two events with one key, and a channel whose title is a number.
-/
import Air780eHub.Notify.OnePush
import Air780eHub.Notify.Outbox
import Air780eHub.Notify.Settlement

namespace Air780eHub.Notify

open Relational Server Machine

variable {N : Notifier} {L : Library} {s s' : State} {a : Label}

/-! ## Rendering -/

/-- A value that is set is a string. -/
def Textual (v : Value) : Prop := v.truthy = true → ∃ s, v = .str s

theorem asText_ok_iff {v : Value} : (∃ s, asText v = .ok s) ↔ Textual v := by
  unfold asText Textual
  by_cases hv : v.truthy = true
  · rw [if_pos hv]
    cases v with
    | str s => exact ⟨fun _ _ => ⟨s, rfl⟩, fun _ => ⟨s, rfl⟩⟩
    | null | bool | int | float | arr | obj =>
      refine ⟨nofun, fun h => ?_⟩
      obtain ⟨s, hs⟩ := h hv
      cases hs
  · rw [if_neg hv]
    exact ⟨fun _ h => absurd h hv, fun _ => ⟨"", rfl⟩⟩

/-- With a string in reserve, what is chosen is a string when the first value is one or not set. -/
theorem textual_pyOr {v : Value} {t : String} : Textual (pyOr v (.str t)) ↔ Textual v := by
  unfold Textual pyOr
  by_cases hv : v.truthy = true
  · rw [if_pos hv]
  · rw [if_neg hv]
    exact ⟨fun _ h => absurd h hv, fun _ _ => ⟨t, rfl⟩⟩

/-- Two computations in a row succeed when both do. -/
theorem ok_bind_iff {ε α β : Type} {x : Except ε α} {f : α → Except ε β} :
    (∃ b, (x >>= f) = .ok b) ↔ ∃ a, x = .ok a ∧ ∃ b, f a = .ok b := by
  cases x with
  | error e =>
    refine ⟨fun ⟨b, h⟩ => ?_, fun ⟨a, h, _⟩ => ?_⟩
    · cases h
    · cases h
  | ok a =>
    refine ⟨fun ⟨b, h⟩ => ⟨a, rfl, b, h⟩, fun ⟨a', h, b, hb⟩ => ?_⟩
    cases h
    exact ⟨b, hb⟩

/-- A computation that goes on without fail succeeds when it does. -/
theorem ok_bind_pure_iff {ε α β : Type} {x : Except ε α} {f : α → β} :
    (∃ b, (x >>= fun a => .ok (f a)) = .ok b) ↔ ∃ a, x = .ok a := by
  rw [ok_bind_iff]
  exact ⟨fun ⟨a, h, _⟩ => ⟨a, h⟩, fun ⟨a, h⟩ => ⟨a, h, _, rfl⟩⟩

/-- A message the Server had to salvage. -/
def damaged (message : HubRow) (frame : Frame) : Bool :=
  columnTruthy (message.cells .truncated) || (frame.get "truncated").truthy

variable (L) in
/-- The values a message's text is taken from are strings. -/
def TextualBody (message : HubRow) (frame : Frame) : Prop :=
  if damaged message frame then
    Textual (orFrame L (message.cells .recoveredBody) (frame.get "recovered_text")) ∧
      Textual (orFrame L (message.cells .recoveredCode) (frame.get "code"))
  else Textual (orFrame L (message.cells .body) (frame.get "body"))

theorem notificationBody_ok_iff {message : HubRow} {frame : Frame} :
    (∃ s, notificationBody L message frame = .ok s) ↔ TextualBody L message frame := by
  unfold notificationBody salvaged TextualBody
  by_cases hd : damaged message frame = true
  · rw [if_pos hd, if_pos (show (columnTruthy _ || _) = true from hd), ← asText_ok_iff,
      ← asText_ok_iff]
    cases hb : asText (orFrame L (message.cells .recoveredBody) (frame.get "recovered_text")) with
    | error e => exact ⟨nofun, nofun⟩
    | ok b =>
      cases hc : asText (orFrame L (message.cells .recoveredCode) (frame.get "code")) with
      | error e => exact ⟨nofun, nofun⟩
      | ok c => exact ⟨fun _ => ⟨⟨b, rfl⟩, c, rfl⟩, fun _ => ⟨_, rfl⟩⟩
  · rw [if_neg hd, if_neg (show ¬ (columnTruthy _ || _) = true from hd)]
    exact asText_ok_iff

variable (L) in
/-- The card or the module of a message has a name. -/
def Named (hub : HubDb) (message : HubRow) : Prop :=
  (firstText L [cellOf (simOf hub message) .label, cellOf (simOf hub message) .phoneNumber,
    cellOf ((hub.rows .devices).find? fun d =>
      equals (d.cells .agentId) (message.cells .agentId) &&
      equals (d.cells .name) (message.cells .device)) .label] .null).truthy = true

theorem lastFour_ok_iff {v : Value} : (∃ s, lastFour v = .ok s) ↔ ∃ s, v = .str s := by
  cases v with
  | str s => exact ⟨fun _ => ⟨s, rfl⟩, fun _ => ⟨_, rfl⟩⟩
  | null | bool | int | float | arr | obj => exact ⟨nofun, nofun⟩

theorem cardName_ok_iff (hub : HubDb) (message : HubRow) (iccid device : Value) :
    (∃ v, cardName L hub message iccid device = .ok v) ↔
      (¬ Named L hub message → Textual iccid) := by
  unfold cardName Textual Named
  dsimp only
  generalize firstText L _ .null = name
  by_cases hn : name.truthy = true
  · rw [if_pos hn]
    exact ⟨fun _ h => absurd hn h, fun _ => ⟨_, rfl⟩⟩
  · rw [if_neg hn]
    by_cases hi : iccid.truthy = true
    · rw [if_pos hi]
      refine Iff.trans ?_ (lastFour_ok_iff.trans ⟨fun h _ _ => h, fun h => h hn hi⟩)
      cases lastFour iccid with
      | error e => exact ⟨nofun, nofun⟩
      | ok s => exact ⟨fun _ => ⟨s, rfl⟩, fun _ => ⟨_, rfl⟩⟩
    · rw [if_neg hi]
      exact ⟨fun _ _ h => absurd h hi, fun _ => ⟨_, rfl⟩⟩

theorem contextFor_ok_iff {hub : HubDb} {now : Int} {message : HubRow} {frame : Frame} :
    (∃ c, contextFor L hub now message frame = .ok c) ↔ TextualBody L message frame ∧
      (¬ Named L hub message →
        Textual (orFrame L (cellOf (simOf hub message) .iccid) (frame.get "iccid"))) := by
  have hcard := cardName_ok_iff (L := L) hub message
    (pyOr (orFrame L (cellOf (simOf hub message) .iccid) (frame.get "iccid")) (.str ""))
    (pyOr (orFrame L (message.cells .device) (frame.get "device")) (.str ""))
  rw [← notificationBody_ok_iff, ← textual_pyOr (t := ""), ← hcard]
  unfold contextFor
  rw [ok_bind_iff]
  refine ⟨fun ⟨b, hb, hc⟩ => ⟨⟨b, hb⟩, ok_bind_pure_iff.mp hc⟩, fun ⟨⟨b, hb⟩, hc⟩ => ?_⟩
  exact ⟨b, hb, ok_bind_pure_iff.mpr hc⟩

theorem renderPayload_ok_iff {channel : Channel} {context : List (String × String)}
    {rule : Option Rule} :
    (∃ p, renderPayload L channel context rule = .ok p) ↔ Textual (channel.config.get "title") := by
  unfold renderPayload Textual pyOr
  generalize channel.config.get "title" = title
  by_cases ht : title.truthy = true
  · rw [if_pos ht]
    cases title with
    | str s => exact ⟨fun _ _ => ⟨s, rfl⟩, fun _ => ⟨_, rfl⟩⟩
    | null | bool | int | float | arr | obj =>
      refine ⟨nofun, fun h => ?_⟩
      obtain ⟨s, hs⟩ := h ht
      cases hs
  · rw [if_neg ht]
    exact ⟨fun _ h => absurd h ht, fun _ => ⟨_, rfl⟩⟩

variable (N) in
/-- **What a push is rendered from is text**: the channel's title, the message's text and, for a
    card without a name, its ICCID. -/
def Renderable (hub : HubDb) (row : Claimed) (channel : Channel) : Prop :=
  columnText N.lib (row.intent.cells .kind) = "message" →
  ∀ message, refRow hub .messages (row.intent.cells .refId) = some message →
    Textual (channel.config.get "title") ∧
    TextualBody N.lib message (loadsFrame N.lib (row.intent.cells .frame)) ∧
    (¬ Named N.lib hub message → Textual (orFrame N.lib (cellOf (simOf hub message) .iccid)
      ((loadsFrame N.lib (row.intent.cells .frame)).get "iccid")))

/-- **`_payload_for` raises exactly where something else than text is rendered.** -/
theorem payloadFor_ok_iff {hub : HubDb} {rules : List Rule} {now : Int} {row : Claimed}
    {channel : Channel} :
    (∃ p, payloadFor N hub rules now row channel = .ok p) ↔ Renderable N hub row channel := by
  unfold payloadFor Renderable
  dsimp only
  by_cases hk : columnText N.lib (row.intent.cells .kind) = "message"
  · rw [if_neg (not_not_intro hk)]
    cases hm : refRow hub .messages (row.intent.cells .refId) with
    | none => exact ⟨fun _ _ => nofun, fun _ => ⟨none, rfl⟩⟩
    | some message =>
      dsimp only
      rw [ok_bind_iff]
      refine ⟨fun ⟨c, hc, hp⟩ _ m hm' => ?_, fun h => ?_⟩
      · obtain rfl := Option.some.inj hm'
        exact ⟨renderPayload_ok_iff.mp (ok_bind_pure_iff.mp hp), contextFor_ok_iff.mp ⟨c, hc⟩⟩
      · obtain ⟨ht, hc⟩ := h hk message rfl
        obtain ⟨c, hc⟩ := contextFor_ok_iff.mpr hc
        exact ⟨c, hc, ok_bind_pure_iff.mpr (renderPayload_ok_iff.mpr ht)⟩
  · rw [if_pos hk]
    refine ⟨fun _ h => absurd h hk, fun _ => ?_⟩
    split
    · exact ⟨none, rfl⟩
    · exact ⟨_, rfl⟩

/-! ## The end of an attempt -/

/-- What the end of an attempt leaves in its row. -/
def Ended (N : Notifier) (row : Claimed) (o : Outcome) (d : Delivery) : Prop :=
  match o with
  | .channelDisabled | .sourceGone => d.status = .failed ∧ d.attempts = row.attempts
  | .delivered _    => d.status = .ok ∧ d.attempts = row.attempts + 1
  | .failed e at_ _ => d.attempts = row.attempts + 1 ∧
      (d.status = .pending ↔ transient e = true ∧
        ((row.attempts + 1 : Nat) : Int) < N.retries + 1 ∧ at_ < row.expiresAt) ∧
      (d.status = .pending ∨ d.status = .failed ∨ d.status = .expired)

theorem ended_settled (N : Notifier) (row : Claimed) (o : Outcome) (d : Delivery) (now : Int) :
    Ended N row o (d.settled (settlement N row o) now) := by
  cases o with
  | channelDisabled | sourceGone | delivered => exact ⟨rfl, rfl⟩
  | failed e at_ next =>
    have hwhen : (transient e = true ∧ ((row.attempts + 1 : Nat) : Int) < N.retries + 1 ∧
        past row.expiresAt at_ = false) ↔ transient e = true ∧
        ((row.attempts + 1 : Nat) : Int) < N.retries + 1 ∧ at_ < row.expiresAt := by
      rw [past, decide_eq_false_iff_not, not_le]
    generalize hw : settlement N row (.failed e at_ next) = w
    show w.attempts = row.attempts + 1 ∧ (w.status = .pending ↔ _) ∧
      (w.status = .pending ∨ w.status = .failed ∨ w.status = .expired)
    rw [← hwhen]
    dsimp only [settlement] at hw
    split at hw
    · rename_i h
      subst hw
      exact ⟨rfl, iff_of_true rfl h, .inl rfl⟩
    · rename_i h
      split at hw
      · subst hw
        exact ⟨rfl, iff_of_false nofun h, .inr (.inr rfl)⟩
      · subst hw
        exact ⟨rfl, iff_of_false nofun h, .inr (.inl rfl)⟩

/-- **A push is rendered from text.** -/
def Renders (N : Notifier) (s : State) (a : Label) : Prop :=
  ∀ k row channel, a = .render k → s.inFlight[k]? = some ⟨row, .found channel⟩ →
    Renderable N s.hub.business row channel

/-- An attempt that is no longer in flight was settled, or it died with the worker. -/
theorem attempt_ends (hs : step N s a = some s') (hg : Renders N s a) {r : Claimed}
    (hr : r ∈ s.claimed) (hgone : r ∉ s'.claimed) : a = .crash ∨
      ∃ k o, a = .settle k ∧ s.inFlight[k]? = some ⟨r, .settling o⟩ ∧
        ∀ d ∈ s'.deliveries, d.id = r.id → Ended N r o d := by
  have hne : ∀ {t : State}, t.inFlight = [] → r ∉ t.claimed := fun ht => by
    rw [State.claimed, ht]
    exact List.not_mem_nil
  unfold step at hs
  split at hs
  · rw [claimed_of_worker (serve_keeps hs).1] at hgone
    exact absurd hr hgone
  · rw [claimed_of_worker (edit_keeps hs).2.2.1] at hgone
    exact absurd hr hgone
  · -- between the passes nothing is in flight
    unfold pass at hs
    split at hs
    · exact .inl rfl
    · split at hs
      · rename_i hw
        exact absurd hr (hne (by rw [State.inFlight, hw]))
      · cases hs
    · split at hs
      · rename_i hw
        exact absurd hr (hne (by rw [State.inFlight, hw]))
      · cases hs
    · split at hs
      · rename_i hw
        exact absurd hr (hne (by rw [State.inFlight, hw]))
      · cases hs
    · cases hs
  · exact absurd hr (hne (expand_inFlight hs).1)
  · rcases attempt_claimed hs with he | ⟨k, x, hk, hrest, hend⟩
    · rw [he] at hgone
      exact absurd hr hgone
    · -- the one that goes is `r`
      obtain ⟨y, hy, rfl⟩ := List.mem_map.mp hr
      have hyx : y = x := by
        by_contra hyx
        refine hgone ?_
        rw [State.claimed, hrest]
        exact List.mem_map_of_mem (show y ∈ place s.inFlight k none from mem_place_of_ne hy hk hyx)
      subst hyx
      rcases hend with ⟨ha, channel, e, hstage, he⟩ | ⟨ha, o, hstage, hd⟩
      · obtain ⟨row, stage⟩ := y
        obtain rfl : stage = .found channel := hstage
        obtain ⟨p, hp⟩ := payloadFor_ok_iff.mpr (hg k row channel ha hk)
        cases hp.symm.trans he
      · obtain ⟨row, stage⟩ := y
        obtain rfl : stage = .settling o := hstage
        refine .inr ⟨k, o, ha, hk, fun d hd' hid => ?_⟩
        rw [hd] at hd'
        rcases of_mem_updateWhere hd' with ⟨d₀, -, -, rfl⟩ | ⟨-, hp⟩
        · exact ended_settled N row o d₀ s.now
        · exact absurd (beq_iff_eq.mpr hid) (by rw [hp]; exact Bool.false_ne_true)

/-- An answer is what its attempt is settled by. -/
theorem answered {k : Nat} {sent : Sent} {random : Rat}
    (hs : step N s (.answer k sent random) = some s') : ∃ row, s.claimed[k]? = some row ∧
      s'.inFlight[k]? = some ⟨row, .settling (outcomeOf N s.now row random sent)⟩ := by
  have h : attempt N s (.answer k sent random) = some s' := hs
  unfold attempt at h
  dsimp only at h
  split at h
  · rename_i row payload hk
    cases h
    refine ⟨row, ?_, ?_⟩
    · rw [State.claimed, List.getElem?_map, hk]
      rfl
    · obtain ⟨hlt, -⟩ := List.getElem?_eq_some_iff.mp hk
      exact List.getElem?_set_self hlt
  · cases h

/-! ## The contract -/

/-- What holds of the queue in every state of a run. -/
structure Contract (N : Notifier) (s : State) : Prop where
  /-- What is applied once is committed once. -/
  committed : s.hub.ingested = s.committed.map fun e => e.1.key
  /-- A committed event that owes an intent has one, about its row. -/
  intents   : ∀ e ∈ s.committed, ∀ k, intentKind e.1.kind e.1.frame = some k →
    ∃ i r, e.2.refId k = some i ∧ r.cells .kind = text k ∧ r.cells .refId = integer i ∧
      (s.intents.filter fun r => r.cells .eventKey = text (e.1.eventKey ++ "|" ++ k)) = [r]
  /-- There are no other intents. -/
  owed      : owedOf s.hub.business = s.committed.flatMap owes
  replay    : ∀ x : Incoming, x.key ∈ s.hub.ingested →
    (arrive s x).intents = s.intents ∧ (arrive s x).committed = s.committed
  /-- A row has one attempt in flight. -/
  single    : (s.claimed.map Claimed.id).Nodup
  absorbing : ∀ t, N.machine.Path Always s t → ∀ d ∈ s.deliveries, d.status = .ok →
    ∀ d' ∈ t.deliveries, d'.id = d.id → d'.status = .ok
  /-- A row that was given up waits for the operator. -/
  givenUp   : ∀ i t, N.machine.Path (fun _ a => a ≠ .retry i) s t → ∀ d ∈ s.deliveries,
    d.id = i → d.status ≠ .pending → ∀ d' ∈ t.deliveries, d'.id = i → d'.status = d.status
  answered  : ∀ k sent random s', step N s (.answer k sent random) = some s' →
    ∃ row, s.claimed[k]? = some row ∧
      s'.inFlight[k]? = some ⟨row, .settling (outcomeOf N s.now row random sent)⟩
  /-- An attempt ends by its settlement, unless the worker dies. -/
  ended     : ∀ a s', Renders N s a → step N s a = some s' → ∀ r ∈ s.claimed, r ∉ s'.claimed →
    a = .crash ∨ ∃ k o, a = .settle k ∧ s.inFlight[k]? = some ⟨r, .settling o⟩ ∧
      ∀ d ∈ s'.deliveries, d.id = r.id → Ended N r o d

/-- The row of a later state is the row it was. -/
theorem Flight.later {P : Delivery → Delivery → Prop} {t : State} (h : Flight s)
    (hst : Stays P s t) {d d' : Delivery} (hd : d ∈ s.deliveries) (hd' : d' ∈ t.deliveries)
    (hid : d'.id = d.id) : P d d' := by
  obtain ⟨d₀, hd₀, he, hp⟩ := hst.rows d' hd' (hid ▸ h.bounded d hd)
  obtain rfl := eq_of_key_eq h.ids hd₀ hd (he.symm.trans hid)
  exact hp

/-- **The queue keeps its contract**: in every run in which the keys are distinct and what is
    rendered is text, whatever crashes and is edited in between. -/
theorem queue_contract (N : Notifier) {s : State}
    (h : N.machine.ReachableBy (fun s a => DistinctKeys s a ∧ Renders N s a) s) :
    Contract N s := by
  have hflight : Flight s := flight_reachable h
  have hintact : Intact s := by
    refine h.invariant (I := Intact) ?_ fun s a s' hI hg hs => Intact.step (N := N) hI hg.1 hs
    rintro s ⟨now, rfl⟩
    exact intact_initial now
  refine ⟨hintact.ingested, fun e he k hk => hintact.exactly_one he hk, hintact.owed,
    fun x hx => arrive_replay hx, hflight.distinct, fun t ht d hd hok d' hd' hid => ?_,
    fun i t ht d hd hi hnp d' hd' hid => ?_, fun k sent random s' hs => Notify.answered hs,
    fun a s' hg hs r hr hgone => attempt_ends hs hg hr hgone⟩
  · exact hflight.later (hflight.ok_run ht) hd hd' hid hok
  · exact hflight.later (hflight.final_run ht) hd hd' (hid.trans hi.symm) hi hnp

/-! ### Where it does not hold -/

/-- A message of an agent and a stream. -/
def smsOf (agentId streamId : String) : Incoming :=
  { codeSms with agentId := agentId, streamId := streamId }

/-- A message is queued, expanded and claimed, and when its push is rendered it has expired. -/
def claimedLate (config : Frame) : List Label :=
  [.addChannel ⟨0, true, config⟩, .addRule (catchAll 0), .arrive codeSms, .pump, .readSource,
   .readChannels, .readRules, .addNext, .finish, .claim, .lookUp 0, .clock 86400]

/-- **An intent is lost, and an attempt is not counted**: two agents with a separator in their names
    have one key, and a title that is a number leaves a row pending past its expiry. -/
theorem queue_contract_broken :
    (∃ s, plain.machine.Reachable s ∧ (∃ e ∈ s.committed, e.1.kind = "sms_in" ∧
      e.2.messageId = some 2) ∧ ∀ i ∈ intentsOf s.hub.business, i.refId ≠ integer 2) ∧
    ∃ s s', plain.machine.Reachable s ∧ step plain s (.render 0) = some s' ∧
      s.claimed.map Claimed.id = [1] ∧ s'.claimed = [] ∧
      ∃ d ∈ s'.deliveries, d.id = 1 ∧ d.status = .pending ∧ d.attempts = 0 ∧ d.expiresAt ≤ s.now := by
  constructor
  · have hrun : (plain.machine.run (.initial 0)
        [.arrive (smsOf "a" "b|c"), .arrive (smsOf "a|b" "c")]).map (fun s =>
        (s.committed.map fun e => (e.1.kind, e.2.messageId), intentsOf s.hub.business)) =
        some ([("sms_in", some 1), ("sms_in", some 2)],
          [⟨1, text "message", integer 1, text "a|b|c|1|message"⟩]) := by decide
    obtain ⟨s, hs, hfinal⟩ := Option.map_eq_some_iff.mp hrun
    obtain ⟨hcommitted, hintents⟩ := Prod.mk.inj hfinal
    refine ⟨s, run_reachable ⟨0, rfl⟩ hs, ?_, ?_⟩
    · have hmem : ("sms_in", some 2) ∈ s.committed.map fun e => (e.1.kind, e.2.messageId) := by
        rw [hcommitted]
        decide
      obtain ⟨e, he, hview⟩ := List.mem_map.mp hmem
      exact ⟨e, he, congrArg Prod.fst hview, congrArg Prod.snd hview⟩
    · rw [hintents]
      decide
  · have hrun : (plain.machine.run (.initial 0) (claimedLate [("title", .int 5)])).map (fun s =>
        (s.claimed.map Claimed.id, (step plain s (.render 0)).map fun s' =>
          (s'.claimed.isEmpty, s'.deliveries.any fun d => decide (d.id = 1 ∧ d.status = .pending ∧
            d.attempts = 0 ∧ d.expiresAt ≤ s.now)))) = some ([1], some (true, true)) := by decide
    obtain ⟨s, hs, hfinal⟩ := Option.map_eq_some_iff.mp hrun
    obtain ⟨hclaimed, hrender⟩ := Prod.mk.inj hfinal
    obtain ⟨s', hs', hview⟩ := Option.map_eq_some_iff.mp hrender
    obtain ⟨hgone, hrow⟩ := Prod.mk.inj hview
    obtain ⟨d, hd, hlate⟩ := List.any_eq_true.mp hrow
    exact ⟨s, s', run_reachable ⟨0, rfl⟩ hs, hs', hclaimed, List.isEmpty_iff.mp hgone, d, hd,
      of_decide_eq_true hlate⟩

/-- No event is there when one arrives, and nothing is rendered. -/
def arrivesFirst (s : State) : Label → Bool
  | .arrive _ => s.committed.isEmpty
  | .render _ => false
  | _         => true

/-- A message is claimed, with the contract kept. -/
theorem queue_contract_claimed :
    ∃ s, plain.machine.ReachableBy (fun s a => DistinctKeys s a ∧ Renders plain s a) s ∧
      Contract plain s ∧ s.committed.length = 1 ∧ s.claimed.map Claimed.id = [1] := by
  have hrun : (plain.machine.runBy arrivesFirst (.initial 0) (claimedLate [])).map (fun s =>
      (s.committed.length, s.claimed.map Claimed.id)) = some (1, [1]) := by decide
  obtain ⟨s, hs, hfinal⟩ := Option.map_eq_some_iff.mp hrun
  obtain ⟨hcommitted, hclaimed⟩ := Prod.mk.inj hfinal
  have hpath : plain.machine.Path (fun s a => DistinctKeys s a ∧ Renders plain s a)
      (.initial 0) s := by
    refine (runBy_path hs).mono fun s a hg => ⟨fun x ha _ e he => ?_, fun k row channel ha => ?_⟩
    · subst ha
      rw [List.isEmpty_iff.mp hg] at he
      cases he
    · subst ha
      cases hg
  exact ⟨s, ⟨_, ⟨0, rfl⟩, hpath⟩, queue_contract plain ⟨_, ⟨0, rfl⟩, hpath⟩, hcommitted, hclaimed⟩

end Air780eHub.Notify
