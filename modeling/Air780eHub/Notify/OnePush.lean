/-
  One push per message and channel.

  The unique index of `notify_deliveries` is on (intent, channel, rule).  A repeated expansion is
  the no-op `_expand_intents` says it is as long as the rule of a channel is the one it was at the
  first: an edit between a crash and the next expansion may make it another, and then the channel
  has two rows, and two pushes.

  1. **`Steady`**: when the rules are read, the rule of a channel that has a row is the row's.
  2. **The invariant** `Once`: what the worker holds agrees with the rows that are there.  An intent
     without a rule is a receipt or a call and goes to every channel, one with a rule a message.
  3. **`push_once`**: in runs whose reads are steady there is one row for an intent and a channel.
     `rulesEdited` is a run where there are two.
-/
import Air780eHub.Notify.Steps

namespace Air780eHub.Notify

open Relational Server Machine

variable (N : Notifier)

/-- **The rule of a channel is still the same**: when the rules are read for an intent that has a
    row on a channel, the first of the channel's enabled rules that match, if there is one, is the
    rule of that row. -/
def Steady (s : State) : Prop :=
  ∀ intent simId body channels rest, s.worker = .matching intent simId body channels rest →
    ∀ d ∈ s.deliveries, d.outboxId = intent.id →
      ∀ r ∈ s.rules, Fires N.lib channels simId body r → r.channelId = d.channelId →
        (∀ r' ∈ s.rules, Fires N.lib channels simId body r' → r'.channelId = d.channelId →
          r.before r' = true) →
        d.ruleId = some r.id

/-- Every read of the rules is steady. -/
def SteadyReads (s : State) (a : Label) : Prop := a = .readRules → Steady N s

/-! ## The invariant -/

/-- The intent is a message. -/
def IsMessage (kind : Option Cell) : Prop := columnText N.lib kind = "message"

/-- The row was read from the outbox. -/
def Known (s : State) (it : HubRow) : Prop :=
  ∃ i ∈ intentsOf s.hub.business, i.id = it.id ∧ i.kind = it.cells .kind

/-- The targets of an intent: one for a channel, with a rule exactly for a message, and with the
    rule of the row where the channel has one. -/
structure TargetsOk (s : State) (intent : HubRow) (targets : List Target) : Prop where
  distinct : (targets.map Prod.fst).Nodup
  ruled    : ∀ t ∈ targets, t.2.isSome = true ↔ IsMessage N (intent.cells .kind)
  agree    : ∀ t ∈ targets, ∀ d ∈ s.deliveries, d.outboxId = intent.id → d.channelId = t.1 →
    d.ruleId = t.2

/-- An audience of rules is a message's, an audience of all is not. -/
def AudienceOk (kind : Option Cell) : Audience → Prop
  | .nobody       => True
  | .rules _ _    => IsMessage N kind
  | .everyone _ _ => ¬ IsMessage N kind

/-- What the worker holds agrees with the tables. -/
def WorkerOk (s : State) : Worker → Prop
  | .idle                       => True
  | .expanding rest             => ∀ it ∈ rest, Known s it
  | .sourced it a rest          => AudienceOk N (it.cells .kind) a ∧ ∀ x ∈ it :: rest, Known s x
  | .matching it _ _ _ rest     => IsMessage N (it.cells .kind) ∧ ∀ x ∈ it :: rest, Known s x
  | .adding e rest              => TargetsOk N s e.intent e.targets ∧ ∀ x ∈ e.intent :: rest, Known s x
  | .delivering _               => True

/-- The ids of the channels, none of which is used twice. -/
structure ChannelIds (s : State) : Prop where
  ordered : (s.channels.map Channel.id).Pairwise (· < ·)
  bounded : ∀ c ∈ s.channels, c.id ≤ s.lastChannel

/-- The ids of the intents. -/
structure IntentIds (db : HubDb) : Prop where
  ordered : ((intentsOf db).map Intent.id).Pairwise (· < ·)
  bounded : ∀ i ∈ intentsOf db, i.id ≤ db.seq .notifyOutbox

/-- What holds in every state. -/
structure Once (s : State) : Prop where
  intents  : IntentIds s.hub.business
  channels : ChannelIds s
  owned    : ∀ d ∈ s.deliveries, ∃ i ∈ intentsOf s.hub.business, i.id = d.outboxId ∧
    (d.ruleId.isSome = true ↔ IsMessage N i.kind)
  worker   : WorkerOk N s s.worker
  unique   : (s.deliveries.map fun d => (d.outboxId, d.channelId)).Nodup

variable {N} {s s' : State} {a : Label}

/-! ### Ids -/

theorem IntentIds.of_same {db db' : HubDb} (h : IntentIds db) (hs : SameIntents db db') :
    IntentIds db' := by
  refine ⟨?_, fun i hi => ?_⟩
  · rw [hs.intents]
    exact h.ordered
  · rw [hs.intents] at hi
    rw [hs.seq]
    exact h.bounded i hi

theorem IntentIds.of_oneMore {db db' : HubDb} {i : Intent} (h : IntentIds db)
    (hs : OneMore db db' i) : IntentIds db' := by
  refine ⟨?_, fun j hj => ?_⟩
  · rw [hs.intents, List.map_append, List.map_singleton, List.pairwise_append]
    refine ⟨h.ordered, List.pairwise_singleton _ _, fun x hx y hy => ?_⟩
    obtain ⟨j, hj, rfl⟩ := List.mem_map.mp hx
    obtain rfl := List.mem_singleton.mp hy
    have := h.bounded j hj
    rw [hs.id]
    omega
  · rw [hs.intents] at hj
    rw [hs.seq]
    rcases List.mem_append.mp hj with hj | hj
    · have := h.bounded j hj
      omega
    · obtain rfl := List.mem_singleton.mp hj
      rw [hs.id]

theorem IntentIds.step (h : IntentIds s.hub.business) (hs : step N s a = some s') :
    IntentIds s'.hub.business := by
  rcases step_intents hs with hsame | ⟨-, i, hmore⟩
  · exact h.of_same hsame
  · exact h.of_oneMore hmore

/-- An intent stays in the outbox. -/
theorem intents_grow (hs : step N s a = some s') {i : Intent}
    (hi : i ∈ intentsOf s.hub.business) : i ∈ intentsOf s'.hub.business := by
  rcases step_intents hs with hsame | ⟨-, j, hmore⟩
  · rw [hsame.intents]
    exact hi
  · rw [hmore.intents]
    exact List.mem_append_left _ hi

theorem Known.step {it : HubRow} (h : Known s it) (hs : step N s a = some s') : Known s' it := by
  obtain ⟨i, hi, hid, hk⟩ := h
  exact ⟨i, intents_grow hs hi, hid, hk⟩

/-- Two intents of the outbox with one id are the same. -/
theorem IntentIds.unique {db : HubDb} (h : IntentIds db) {i j : Intent} (hi : i ∈ intentsOf db)
    (hj : j ∈ intentsOf db) (he : i.id = j.id) : i = j :=
  eq_of_key_eq (h.ordered.imp fun hlt => Nat.ne_of_lt hlt) hi hj he

theorem ChannelIds.of_eq (h : ChannelIds s) (hc : s'.channels = s.channels)
    (hl : s'.lastChannel = s.lastChannel) : ChannelIds s' := by
  refine ⟨?_, fun c hm => ?_⟩
  · rw [hc]
    exact h.ordered
  · rw [hc] at hm
    rw [hl]
    exact h.bounded c hm

theorem ChannelIds.edit (h : ChannelIds s) (hs : edit s a = some s') : ChannelIds s' := by
  unfold Notify.edit at hs
  split at hs
  · cases hs
    refine ⟨?_, fun c hc => ?_⟩
    · rw [List.map_append, List.map_singleton, List.pairwise_append]
      refine ⟨h.ordered, List.pairwise_singleton _ _, fun x hx y hy => ?_⟩
      obtain ⟨c, hc, rfl⟩ := List.mem_map.mp hx
      obtain rfl := List.mem_singleton.mp hy
      exact Nat.lt_succ_of_le (h.bounded c hc)
    · rcases List.mem_append.mp hc with hc | hc
      · exact Nat.le_succ_of_le (h.bounded c hc)
      · obtain rfl := List.mem_singleton.mp hc
        exact Nat.le_refl _
  · rename_i c
    cases hs
    have hids : (updateWhere (fun c' => c'.id == c.id) (fun _ => c) s.channels).map Channel.id =
        s.channels.map Channel.id :=
      map_updateWhere fun c' _ hp => (beq_iff_eq.mp hp).symm
    refine ⟨by rw [hids]; exact h.ordered, fun x hx => ?_⟩
    have hmem : x.id ∈ s.channels.map Channel.id := by
      rw [← hids]
      exact List.mem_map_of_mem hx
    obtain ⟨c', hc', he⟩ := List.mem_map.mp hmem
    rw [← he]
    exact h.bounded c' hc'
  · cases hs
    exact ⟨h.ordered.sublist (List.filter_sublist.map _),
      fun c hc => h.bounded c (List.mem_of_mem_filter hc)⟩
  · split at hs
    · cases hs; exact h.of_eq rfl rfl
    · cases hs
  · split at hs
    · cases hs; exact h.of_eq rfl rfl
    · cases hs
  · cases hs; exact h.of_eq rfl rfl
  · cases hs

theorem ChannelIds.step (h : ChannelIds s) (hs : step N s a = some s') : ChannelIds s' := by
  unfold Notify.step at hs
  split at hs
  · obtain ⟨-, hc, hl⟩ := serve_keeps hs
    exact h.of_eq hc hl
  · exact h.edit hs
  · obtain ⟨hk, -⟩ := pass_keeps hs
    exact h.of_eq hk.channels hk.lastChannel
  · obtain ⟨hk, -⟩ := expand_keeps hs
    exact h.of_eq hk.channels hk.lastChannel
  · obtain ⟨hk, -⟩ := attempt_keeps hs
    exact h.of_eq hk.channels hk.lastChannel

/-! ### The deliveries -/

/-- The rows belong to intents of their kind. -/
theorem Once.owned_step (h : Once N s) (hs : step N s a = some s') :
    ∀ d ∈ s'.deliveries, ∃ i ∈ intentsOf s'.hub.business, i.id = d.outboxId ∧
      (d.ruleId.isSome = true ↔ IsMessage N i.kind) := by
  intro d' hd'
  have hold : ∀ d ∈ s.deliveries, pushOf d' = pushOf d →
      ∃ i ∈ intentsOf s'.hub.business, i.id = d'.outboxId ∧
        (d'.ruleId.isSome = true ↔ IsMessage N i.kind) := by
    intro d hd hp
    obtain ⟨i, hi, hid, hr⟩ := h.owned d hd
    refine ⟨i, intents_grow hs hi, ?_, ?_⟩
    · rw [hid]
      exact (congrArg Push.outboxId hp).symm
    · rw [show d'.ruleId = d.ruleId from congrArg Push.ruleId hp]
      exact hr
  cases step_deliveries hs with
  | fewer hsub _ => exact hold d' (hsub.subset hd') rfl
  | written p f heq _ hf =>
    rw [heq] at hd'
    rcases of_mem_updateWhere hd' with ⟨d, hd, hp, rfl⟩ | ⟨hd, -⟩
    · exact hold d hd (hf d hd hp).1
    · exact hold d' hd rfl
  | added e target rest hadd hw hnew hi heq _ =>
    rw [heq] at hd'
    rcases List.mem_append.mp hd' with hd | hd
    · exact hold d' hd rfl
    · obtain rfl := List.mem_singleton.mp hd
      have hok := h.worker
      rw [hw] at hok
      obtain ⟨i, hmem, hid, hk⟩ := hok.2 e.intent List.mem_cons_self
      refine ⟨i, intents_grow hs hmem, hid, ?_⟩
      rw [hk]
      exact hok.1.ruled target List.mem_cons_self

/-- The added row is the only one for its intent and channel. -/
theorem Once.unique_step (h : Once N s) (hs : step N s a = some s') :
    (s'.deliveries.map fun d => (d.outboxId, d.channelId)).Nodup := by
  cases step_deliveries hs with
  | fewer hsub _ => exact h.unique.sublist (hsub.map _)
  | written p f heq _ hf =>
    rw [heq, map_updateWhere fun d hd hp => ?_]
    · exact h.unique
    · have hpush := (hf d hd hp).1
      exact Prod.ext (congrArg Push.outboxId hpush) (congrArg Push.channelId hpush)
  | added e target rest hadd hw hnew hi heq _ =>
    rw [heq, List.map_append, List.map_singleton, List.nodup_append]
    refine ⟨h.unique, List.nodup_singleton _, fun x hx y hy he => ?_⟩
    obtain ⟨d, hd, rfl⟩ := List.mem_map.mp hx
    obtain rfl := List.mem_singleton.mp hy
    have hok := h.worker
    rw [hw] at hok
    have ho : d.outboxId = e.intent.id := congrArg Prod.fst he
    have hc : d.channelId = target.1 := congrArg Prod.snd he
    have hr := hok.1.agree target List.mem_cons_self d hd ho hc
    -- a row with the same rule would have been found by the index
    exact hnew d hd (by rw [Delivery.target, ho, hc, hr])

/-! ### The worker -/

/-- The rows of a step that adds none are for what the rows before were. -/
theorem rows_of_not_addNext (hs : step N s a = some s') (ha : a ≠ .addNext) :
    ∀ d' ∈ s'.deliveries, ∃ d ∈ s.deliveries, pushOf d' = pushOf d := by
  intro d' hd'
  cases step_deliveries hs with
  | fewer hsub _ => exact ⟨d', hsub.subset hd', rfl⟩
  | written p f heq _ hf =>
    rw [heq] at hd'
    rcases of_mem_updateWhere hd' with ⟨d, hd, hp, rfl⟩ | ⟨hd, -⟩
    · exact ⟨d, hd, (hf d hd hp).1⟩
    · exact ⟨d', hd, rfl⟩
  | added e target rest hadd hw hnew hi heq hl => exact absurd hadd ha

/-- Targets stay what they should be while no row is added. -/
theorem TargetsOk.mono {intent : HubRow} {targets : List Target}
    (hrows : ∀ d' ∈ s'.deliveries, ∃ d ∈ s.deliveries, pushOf d' = pushOf d)
    (h : TargetsOk N s intent targets) : TargetsOk N s' intent targets := by
  refine ⟨h.distinct, h.ruled, fun t ht d' hd' ho hc => ?_⟩
  obtain ⟨d, hd, hp⟩ := hrows d' hd'
  have hpush : d'.outboxId = d.outboxId ∧ d'.channelId = d.channelId ∧ d'.ruleId = d.ruleId :=
    ⟨congrArg Push.outboxId hp, congrArg Push.channelId hp, congrArg Push.ruleId hp⟩
  rw [hpush.2.2]
  exact h.agree t ht d hd (hpush.1 ▸ ho) (hpush.2.1 ▸ hc)

/-- What the worker holds stays in agreement while others act. -/
theorem WorkerOk.mono (hknown : ∀ it, Known s it → Known s' it)
    (hrows : ∀ d' ∈ s'.deliveries, ∃ d ∈ s.deliveries, pushOf d' = pushOf d) {w : Worker}
    (h : WorkerOk N s w) : WorkerOk N s' w := by
  cases w with
  | idle => trivial
  | expanding rest => exact fun it hit => hknown it (h it hit)
  | sourced it a rest => exact ⟨h.1, fun x hx => hknown x (h.2 x hx)⟩
  | matching it simId body channels rest => exact ⟨h.1, fun x hx => hknown x (h.2 x hx)⟩
  | adding e rest => exact ⟨h.1.mono hrows, fun x hx => hknown x (h.2 x hx)⟩
  | delivering attempts => trivial

/-- An intent whose audience is nobody has no targets. -/
theorem targetsOk_nil (intent : HubRow) : TargetsOk N s intent [] :=
  ⟨List.nodup_nil, nofun, nofun⟩

theorem messageAudience_cases {hub : HubDb} {ref : Option Cell} {frame : Frame} {x : Audience}
    (h : messageAudience N.lib hub ref frame = .ok x) :
    x = .nobody ∨ ∃ simId body, x = .rules simId body := by
  unfold messageAudience at h
  split at h
  · cases h; exact .inl rfl
  · rename_i message _
    cases hs : suppressed N.lib message frame with
    | error f => rw [hs] at h; cases h
    | ok b =>
      rw [hs] at h
      cases b with
      | true => cases h; exact .inl rfl
      | false =>
        cases hb : notificationBody N.lib message frame with
        | error f =>
          have hh : (notificationBody N.lib message frame >>= fun body =>
            Except.ok (Audience.rules (message.cells .simId) body)) = .ok x := h
          rw [hb] at hh
          cases hh
        | ok body =>
          have hh : (notificationBody N.lib message frame >>= fun body =>
            Except.ok (Audience.rules (message.cells .simId) body)) = .ok x := h
          rw [hb] at hh
          cases hh
          exact .inr ⟨_, _, rfl⟩

theorem audience_of_ite {c : Bool} {m : Except Failure String} {title : String} {x : Audience}
    (h : (if c then m.map (Audience.everyone title) else .ok .nobody) = .ok x) :
    x = .nobody ∨ ∃ body, x = .everyone title body := by
  cases c with
  | false => cases h; exact .inl rfl
  | true =>
    cases m with
    | error f => cases h
    | ok body => cases h; exact .inr ⟨body, rfl⟩

/-- What `_targets_for` returns is for the kind of the intent. -/
theorem audience_ok {hub : HubDb} {it : HubRow} {x : Audience}
    (h : audience N.lib hub it = .ok x) : AudienceOk N (it.cells .kind) x := by
  unfold audience at h
  dsimp only at h
  split at h
  · rename_i hk
    rcases messageAudience_cases h with rfl | ⟨simId, body, rfl⟩
    · trivial
    · exact hk
  · rename_i hk
    rcases audience_of_ite h with rfl | ⟨body, rfl⟩
    · trivial
    · exact fun hm => absurd (hk.symm.trans hm) (by decide)
  · rename_i hk
    unfold callAudience at h
    split at h
    · rcases audience_of_ite (c := true) h with rfl | ⟨body, rfl⟩
      · trivial
      · exact fun hm => absurd (hk.symm.trans hm) (by decide)
    · cases h; trivial
  · cases h; trivial

/-- Every enabled channel is a target once, and no row of the intent has a rule. -/
theorem targetsOk_everyChannel (h : Once N s) {it : HubRow} (hk : Known s it)
    (hm : ¬ IsMessage N (it.cells .kind)) : TargetsOk N s it (everyChannel s.channels) := by
  have hrule : ∀ t ∈ everyChannel s.channels, t.2 = none := by
    intro t ht
    obtain ⟨c, -, rfl⟩ := List.mem_map.mp ht
    rfl
  refine ⟨?_, fun t ht => ?_, fun t ht d hd ho _ => ?_⟩
  · have hfst : (everyChannel s.channels).map Prod.fst =
        (enabledChannels s.channels).map Channel.id := by
      rw [everyChannel, List.map_map]
      rfl
    rw [hfst]
    exact (h.channels.ordered.sublist (List.filter_sublist.map _)).imp fun hlt => Nat.ne_of_lt hlt
  · rw [hrule t ht]
    exact iff_of_false Bool.false_ne_true hm
  · obtain ⟨i, hi, hid, hr⟩ := h.owned d hd
    obtain ⟨j, hj, hjd, hjk⟩ := hk
    obtain rfl := h.intents.unique hi hj (by rw [hid, ho, hjd])
    rw [hrule t ht]
    rw [hjk] at hr
    exact Option.not_isSome_iff_eq_none.mp fun hsome => hm (hr.mp hsome)

/-- The chosen rules are targets; a channel with a row of the intent has the row's rule. -/
theorem targetsOk_messageTargets {it : HubRow} {simId : Option Cell} {body : String}
    {channels : List Channel} {rest : List HubRow}
    (hw : s.worker = .matching it simId body channels rest) (hm : IsMessage N (it.cells .kind))
    (hsteady : Steady N s) : TargetsOk N s it (messageTargets N channels s.rules simId body) := by
  obtain ⟨hnodup, hspec⟩ := matchRules_spec N.lib channels s.rules simId body
  refine ⟨?_, fun t ht => ?_, fun t ht d hd ho hc => ?_⟩
  · have hfst : (messageTargets N channels s.rules simId body).map Prod.fst =
        (matchRules N.lib channels s.rules simId body).map fun x => x.1.channelId := by
      rw [messageTargets, List.map_map]
      exact List.map_congr_left fun x hx => (hspec x hx).2.1
    rw [hfst]
    exact hnodup
  · obtain ⟨x, -, rfl⟩ := List.mem_map.mp ht
    exact iff_of_true rfl hm
  · obtain ⟨x, hx, rfl⟩ := List.mem_map.mp ht
    obtain ⟨hrule, hid, hfires, hfirst⟩ := hspec x hx
    have hcx : d.channelId = x.1.channelId := hc.trans hid
    refine hsteady it simId body channels rest hw d hd ho x.1 hrule hfires hcx.symm ?_
    exact fun r hr hf hrc => hfirst r hr hf (hrc.trans hcx)

/-- The targets that are left after the first was added. -/
theorem targetsOk_addDelivery {it : HubRow} {target : Target} {targets : List Target}
    {expiresAt : Int} (h : TargetsOk N s it (target :: targets))
    (ha : s.addDelivery it.id target.1 target.2 expiresAt = some s') :
    TargetsOk N s' it targets := by
  have hdistinct := h.distinct
  rw [List.map_cons, List.nodup_cons] at hdistinct
  refine ⟨hdistinct.2, fun t ht => h.ruled t (List.mem_cons_of_mem _ ht), fun t ht d hd ho hc => ?_⟩
  rcases addDelivery_cases ha with ⟨-, rfl⟩ | ⟨-, -, rfl⟩
  · exact h.agree t (List.mem_cons_of_mem _ ht) d hd ho hc
  · rcases List.mem_append.mp hd with hd | hd
    · exact h.agree t (List.mem_cons_of_mem _ ht) d hd ho hc
    · -- the new row is on the channel that was first, and no later target is
      obtain rfl := List.mem_singleton.mp hd
      exact absurd (List.mem_map.mpr ⟨t, ht, hc.symm⟩) hdistinct.1

/-- The steps of an expansion keep the worker in agreement. -/
theorem Once.worker_expand (h : Once N s) (hs : step N s a = some s') (he : expand N s a = some s')
    (hg : SteadyReads N s a) : WorkerOk N s' s'.worker := by
  have hok := h.worker
  have hknown : ∀ it, Known s it → Known s' it := fun it hit => hit.step hs
  unfold expand at he
  split at he
  · split at he
    · rename_i it rest hw
      rw [hw] at hok
      split at he
      · rename_i x hx
        cases he
        exact ⟨audience_ok hx, fun y hy => hknown y (hok y hy)⟩
      · cases he
        exact ⟨targetsOk_nil it, fun y hy => hknown y (hok y hy)⟩
    · cases he
  · have hrows := rows_of_not_addNext hs nofun
    split at he
    · rename_i it rest hw
      rw [hw] at hok
      cases he
      exact ⟨targetsOk_nil it, fun y hy => hknown y (hok.2 y hy)⟩
    · rename_i it simId body rest hw
      rw [hw] at hok
      cases he
      exact ⟨hok.1, fun y hy => hknown y (hok.2 y hy)⟩
    · rename_i it title body rest hw
      rw [hw] at hok
      cases he
      refine ⟨?_, fun y hy => hknown y (hok.2 y hy)⟩
      exact (targetsOk_everyChannel h (hok.2 it List.mem_cons_self) hok.1).mono hrows
    · cases he
  · have hrows := rows_of_not_addNext hs nofun
    split at he
    · rename_i it simId body channels rest hw
      rw [hw] at hok
      cases he
      refine ⟨?_, fun y hy => hknown y (hok.2 y hy)⟩
      exact (targetsOk_messageTargets hw hok.1 (hg rfl)).mono hrows
    · cases he
  · split at he
    · rename_i it target targets expiresAt status title body rest hw
      rw [hw] at hok
      split at he
      · rename_i s₁ hadd
        cases he
        have htargets := targetsOk_addDelivery hok.1 hadd
        exact ⟨⟨htargets.distinct, htargets.ruled, htargets.agree⟩, fun y hy => hknown y (hok.2 y hy)⟩
      · cases he; trivial
    · cases he
  · split at he
    · rename_i it expiresAt status title body rest hw
      rw [hw] at hok
      cases he
      exact fun y hy => hknown y (hok.2 y (List.mem_cons_of_mem _ hy))
    · cases he
  · cases he

/-- The worker between expansion and attempts holds intents that are there. -/
theorem workerOk_pass (hp : pass s a = some s') : WorkerOk N s' s'.worker := by
  unfold pass at hp
  split at hp
  · cases hp; trivial
  · split at hp
    · cases hp
      intro it hit
      have hmem : it ∈ s.intents := List.mem_of_mem_filter (List.mem_of_mem_take hit)
      exact ⟨intentOf it, List.mem_map_of_mem hmem, rfl, rfl⟩
    · cases hp
  · split at hp
    · cases hp; trivial
    · cases hp
  · split at hp
    · cases hp; trivial
    · cases hp
  · cases hp

theorem attempt_worker (h : attempt N s a = some s') :
    ∃ attempts, s'.worker = .delivering attempts := by
  unfold attempt at h
  split at h
  · split at h
    · cases h; exact ⟨_, rfl⟩
    · cases h
  · split at h
    · split at h <;> cases h <;> exact ⟨_, rfl⟩
    · cases h
  · split at h
    · cases h; exact ⟨_, rfl⟩
    · cases h
  · split at h
    · cases h; exact ⟨_, rfl⟩
    · cases h
  · cases h

/-- **Every step keeps the worker in agreement**, when its reads are steady. -/
theorem Once.worker_step (h : Once N s) (hs : step N s a = some s') (hg : SteadyReads N s a) :
    WorkerOk N s' s'.worker := by
  have hknown : ∀ it, Known s it → Known s' it := fun it hit => hit.step hs
  have hother : a.actor ≠ .expansion → ∀ d' ∈ s'.deliveries, ∃ d ∈ s.deliveries,
      pushOf d' = pushOf d := fun hne => rows_of_not_addNext hs fun ha => hne (ha ▸ rfl)
  have he := hs
  unfold step at he
  split at he
  · rename_i hact
    rw [(serve_keeps he).1]
    exact h.worker.mono hknown (hother (by rw [hact]; nofun))
  · rename_i hact
    rw [(edit_keeps he).2.2.1]
    exact h.worker.mono hknown (hother (by rw [hact]; nofun))
  · exact workerOk_pass he
  · exact h.worker_expand hs he hg
  · obtain ⟨attempts, hw⟩ := attempt_worker he
    rw [hw]
    trivial

/-! ## One push -/

theorem once_initial (now : Int) : Once N (.initial now) where
  intents  := ⟨List.Pairwise.nil, fun _ hi => absurd hi List.not_mem_nil⟩
  channels := ⟨List.Pairwise.nil, fun _ hc => absurd hc List.not_mem_nil⟩
  owned _ hd := absurd hd List.not_mem_nil
  worker   := trivial
  unique   := List.nodup_nil

theorem Once.step (h : Once N s) (hs : Notify.step N s a = some s') (hg : SteadyReads N s a) :
    Once N s' where
  intents  := h.intents.step hs
  channels := h.channels.step hs
  owned    := h.owned_step hs
  worker   := h.worker_step hs hg
  unique   := h.unique_step hs

/-- **One push.**  In every run whose reads of the rules are steady, whatever crashes and is edited
    and however often an intent is expanded, there is one row for an intent and a channel. -/
theorem push_once (N : Notifier) {s : State} (h : N.machine.ReachableBy (SteadyReads N) s) :
    ∀ d ∈ s.deliveries, ∀ d' ∈ s.deliveries, d.outboxId = d'.outboxId →
      d.channelId = d'.channelId → d = d' := by
  have honce : Once N s := by
    refine h.invariant ?_ fun s a s' hI hg hs => Once.step hI hs hg
    rintro s ⟨now, rfl⟩
    exact once_initial now
  intro d hd d' hd' ho hc
  exact eq_of_key_eq honce.unique hd hd' (Prod.ext ho hc)

/-! ### A rule that is edited after a crash -/

/-- A library for runs in which no text is looked at. -/
def plainLibrary : Library where
  lower         := id
  search        := fun _ _ => none
  loads         := fun _ => some (.obj [])
  fromisoformat := fun _ => some 0
  isoformat     := fun _ => "2025-01-01T00:00:00+00:00"
  localTime     := id
  isWord        := Char.isAlphanum
  repr          := fun _ => ""
  realText      := fun _ => ""

/-- A notifier with the settings it has by default. -/
def plain : Notifier := ⟨plainLibrary, 2, [1, 3]⟩

/-- The first message of a module. -/
def codeSms : Incoming where
  env := { utcnow := "2025-01-01T00:00:00+00:00", fromisoformat := fun _ => none
           isoformat := fun _ => "", cutoff := fun _ => "", repr := fun _ => "" }
  agentId  := "edge"
  streamId := "s1"
  seq      := 1
  kind     := "sms_in"
  frame    := [("peer", .str "10086"), ("body", .str "1234")]

/-- A rule that wants every message for the first channel. -/
def catchAll (i : Nat) : Rule where
  id        := i
  simId     := none
  channelId := 1
  mode      := .all
  pattern   := ""
  template  := ""
  priority  := 0
  enabled   := true

/-- A channel with two rules, and a message whose push is queued. -/
def expandedOnce : List Label :=
  [.addChannel ⟨0, true, []⟩, .addRule (catchAll 0), .addRule (catchAll 0), .arrive codeSms, .pump,
   .readSource, .readChannels, .readRules, .addNext]

/-- The process dies before the intent is finished, the operator turns the first rule off, and the
    intent is expanded again. -/
def rulesEdited : List Label :=
  expandedOnce ++ [.crash, .putRule { catchAll 1 with enabled := false }, .pump, .readSource,
    .readChannels, .readRules, .addNext]

/-- **Two pushes**: the message has a row for each rule on its one channel. -/
theorem pushed_twice :
    ∃ s, plain.machine.Reachable s ∧ ∃ d ∈ s.deliveries, ∃ d' ∈ s.deliveries,
      d.outboxId = d'.outboxId ∧ d.channelId = d'.channelId ∧ d ≠ d' ∧
      ∃ i ∈ intentsOf s.hub.business, i.id = d.outboxId ∧ i.kind = text "message" := by
  have hrun : (plain.machine.run (.initial 0) rulesEdited).map (fun s =>
      (s.deliveries.map pushOf, intentsOf s.hub.business)) =
      some ([⟨1, 1, 1, some 1, 21600⟩, ⟨2, 1, 1, some 2, 21600⟩],
        [⟨1, text "message", integer 1, text "edge|s1|1|message"⟩]) := by decide
  obtain ⟨s, hs, hfinal⟩ := Option.map_eq_some_iff.mp hrun
  obtain ⟨hpushes, hintents⟩ := Prod.mk.inj hfinal
  obtain ⟨d, rest, hd, hpd, hrest⟩ := List.map_eq_cons_iff.mp hpushes
  obtain ⟨d', rest', hd', hpd', -⟩ := List.map_eq_cons_iff.mp hrest
  refine ⟨s, run_reachable ⟨0, rfl⟩ hs, d, ?_, d', ?_, ?_, ?_, ?_, ?_⟩
  · rw [hd]
    exact List.mem_cons_self
  · rw [hd, hd']
    exact List.mem_cons_of_mem _ List.mem_cons_self
  · exact (congrArg Push.outboxId hpd).trans (congrArg Push.outboxId hpd').symm
  · exact (congrArg Push.channelId hpd).trans (congrArg Push.channelId hpd').symm
  · rintro rfl
    exact absurd (hpd.symm.trans hpd') (by decide)
  · rw [hintents]
    exact ⟨_, List.mem_singleton_self _, (congrArg Push.outboxId hpd).symm, rfl⟩

/-- No row is there yet when the rules are read. -/
def readsFirst (s : State) : Label → Bool
  | .readRules => s.deliveries.isEmpty
  | _          => true

/-- The queued message has one row on its channel. -/
theorem push_once_expanded :
    ∃ s, plain.machine.ReachableBy (SteadyReads plain) s ∧
      (∀ d ∈ s.deliveries, ∀ d' ∈ s.deliveries, d.outboxId = d'.outboxId →
        d.channelId = d'.channelId → d = d') ∧
      s.deliveries.map pushOf = [⟨1, 1, 1, some 1, 21600⟩] := by
  have hrun : (plain.machine.runBy readsFirst (.initial 0) expandedOnce).map (fun s =>
      s.deliveries.map pushOf) = some [⟨1, 1, 1, some 1, 21600⟩] := by decide
  obtain ⟨s, hs, hfinal⟩ := Option.map_eq_some_iff.mp hrun
  have hpath : plain.machine.Path (SteadyReads plain) (.initial 0) s := by
    refine (runBy_path hs).mono fun s a hg ha => ?_
    subst ha
    intro intent simId body channels rest hw d hd
    rw [List.isEmpty_iff.mp hg] at hd
    cases hd
  exact ⟨s, ⟨_, ⟨0, rfl⟩, hpath⟩, push_once plain ⟨_, ⟨0, rfl⟩, hpath⟩, hfinal⟩

end Air780eHub.Notify
