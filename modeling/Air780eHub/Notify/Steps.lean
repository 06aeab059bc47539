/-
  What a step of the notification queue does to each part of the state.

  Every invariant of the queue is proved from the facts here; none of them unfolds `step` again.

  1. **The intents**: an arrival or a hook may add one, at the end and under a new id; the kind, the
     row and the key of an intent are never written again.
  2. **The operator's tables**: ids are never used again, so the channels are told apart by them.
  3. **The deliveries**: what a row is for never changes, and rows are only added by `addNext`.
     `Change` says when the status of a row changes.
  4. **The worker**: only its own steps and a crash move it.
-/
import Air780eHub.Notify.Model

namespace Air780eHub.Notify

open Relational Server

variable {N : Notifier} {s s' : State} {a : Label}

/-! ## The intents -/

/-- What an intent is for. -/
structure Intent where
  id       : Nat
  kind     : Option Cell
  refId    : Option Cell
  eventKey : Option Cell
deriving DecidableEq

/-- What a row of `notify_outbox` is for. -/
def intentOf (r : HubRow) : Intent := ⟨r.id, r.cells .kind, r.cells .refId, r.cells .eventKey⟩

/-- What the rows of `notify_outbox` are for. -/
def intentsOf (db : HubDb) : List Intent := (db.rows .notifyOutbox).map intentOf

/-- The intents are the same. -/
structure SameIntents (db db' : HubDb) : Prop where
  intents : intentsOf db' = intentsOf db
  seq     : db'.seq .notifyOutbox = db.seq .notifyOutbox

/-- There is one more intent, under a new id. -/
structure OneMore (db db' : HubDb) (i : Intent) : Prop where
  intents : intentsOf db' = intentsOf db ++ [i]
  id      : i.id = db.seq .notifyOutbox + 1
  seq     : db'.seq .notifyOutbox = db.seq .notifyOutbox + 1

theorem SameIntents.of_sameTable {db db' : HubDb} (h : SameTable .notifyOutbox db db') :
    SameIntents db db' :=
  ⟨congrArg (List.map intentOf) h.rows, h.seq⟩

theorem OneMore.of_added {db db' : HubDb} {cells : Column → Option Cell} (h : Added db db' cells) :
    OneMore db db' (intentOf ⟨db.seq .notifyOutbox + 1, cells⟩) := by
  refine ⟨?_, rfl, h.seq⟩
  rw [intentsOf, intentsOf, h.rows, List.map_append, List.map_singleton]

/-- The first application of an event: its transaction, and the update of `last_seq` after it. -/
theorem ingest_cases {x : Incoming} {db hub : Database HubDb} {r : Option AppliedEvent}
    (h : x.ingest db = .ok (r, hub)) :
    (r = none ∧ x.key ∈ db.ingested ∧ hub.ingested = db.ingested ∧
      SameTable .notifyOutbox db.business hub.business) ∨
    (∃ b applied, r = some applied ∧ x.key ∉ db.ingested ∧ hub.ingested = db.ingested ++ [x.key] ∧
      x.callback db.business = .ok (applied, b) ∧ SameTable .notifyOutbox b hub.business) := by
  have hnote : ∀ b, SameTable .notifyOutbox b (x.noteSeq.exec SCHEMA b) :=
    fun b => Statement.exec_leaves (show Table.notifyOutbox ≠ Table.agents from nofun) rfl b
  rcases Database.applyEvent_cases h with ⟨rfl, hk, hi⟩ | ⟨applied, b, rfl, hk, hb, rfl⟩
  · refine .inl ⟨rfl, hk, hi, ?_⟩
    unfold Incoming.ingest Database.applyEvent at h
    rw [if_pos hk] at h
    cases h
    exact hnote _
  · exact .inr ⟨b, applied, rfl, hk, rfl, hb, hnote b⟩

theorem eventKey_ne (x : Incoming) : x.eventKey ≠ "" := by
  intro h
  have hlen := congrArg (fun s : String => s.toList.length) h
  simp [Incoming.eventKey] at hlen

/-- An arrival adds at most one intent. -/
theorem arrive_intents (s : State) (x : Incoming) :
    SameIntents s.hub.business (arrive s x).hub.business ∨
      ∃ i, OneMore s.hub.business (arrive s x).hub.business i := by
  unfold arrive
  split
  · exact .inl ⟨rfl, rfl⟩
  · rename_i hub hi
    rcases ingest_cases hi with ⟨-, -, -, hsame⟩ | ⟨b, applied, hr, -⟩
    · exact .inl (.of_sameTable hsame)
    · cases hr
  · rename_i applied hub hi
    rcases ingest_cases hi with ⟨hr, -⟩ | ⟨b, applied', hr, -, -, hb, hsame⟩
    · cases hr
    · obtain ⟨-, -, ⟨-, h⟩ | ⟨k, i, -, -, -, ⟨-, h⟩ | ⟨-, h⟩⟩⟩ := apply_owed (eventKey_ne x) hb
      · exact .inl (.of_sameTable (h.trans hsame))
      · exact .inl (.of_sameTable (h.trans hsame))
      · exact .inr ⟨_, .of_added ⟨hsame.rows.trans h.rows, hsame.seq.trans h.seq⟩⟩

/-- A hook adds at most one intent, and none under a key that is there. -/
theorem runHook_intents (s : State) (e : Incoming × AppliedEvent) (kind : String) :
    SameIntents s.hub.business (runHook s e kind).hub.business ∨
      ∃ i, OneMore s.hub.business (runHook s e kind).hub.business i := by
  unfold runHook
  split
  · exact .inl ⟨rfl, rfl⟩
  · rename_i u hub hq
    cases hr : e.2.refId kind with
    | none =>
      rw [hr] at hq
      cases hq
      exact .inl ⟨rfl, rfl⟩
    | some i =>
      rw [hr] at hq
      obtain ⟨x, db₁, he, hp⟩ := of_bind_ok hq
      cases hp
      by_cases hknown : Queued s.hub.business (e.2.notifyKey kind)
      · rw [enqueueNotification_known hknown] at he
        cases he
        exact .inl ⟨rfl, rfl⟩
      · rw [enqueueNotification_new hknown] at he
        cases he
        exact .inr ⟨_, .of_added (added_append _ _)⟩

/-- An update that does not write what an intent is for. -/
theorem sameIntents_update {p : HubRow → Bool} {set : HubRow → Assignments Column Cell}
    (hset : ∀ r, intentOf ⟨r.id, assign (set r) r.cells⟩ = intentOf r) (db : HubDb) :
    SameIntents db ((Statement.update .notifyOutbox p set).exec SCHEMA db) := by
  unfold Statement.exec
  dsimp only
  cases hu : SCHEMA.update .notifyOutbox p set db with
  | error e => exact ⟨rfl, rfl⟩
  | ok y =>
    obtain ⟨u, db'⟩ := y
    obtain ⟨rfl, -⟩ := update_inv hu
    refine ⟨?_, rfl⟩
    show List.map intentOf ((db.updated .notifyOutbox p set).rows .notifyOutbox) = _
    rw [rows_updated_self, List.map_map]
    refine List.map_congr_left fun r _ => ?_
    unfold Function.comp written
    split
    · exact hset r
    · rfl

/-- Finishing an intent leaves what it is for. -/
theorem finishIntent_intents (s : State) (i : Nat) (status title body : String) :
    SameIntents s.hub.business (s.finishIntent N i status title body).hub.business :=
  sameIntents_update (fun _ => rfl) _

/-! ## What each kind of step keeps -/

/-- What the worker leaves alone. -/
structure Keeps (s s' : State) : Prop where
  channels     : s'.channels = s.channels
  lastChannel  : s'.lastChannel = s.lastChannel
  committed    : s'.committed = s.committed
  ingested     : s'.hub.ingested = s.hub.ingested

theorem edit_keeps (h : edit s a = some s') :
    s'.hub = s.hub ∧ s'.committed = s.committed ∧ s'.worker = s.worker ∧
      s'.lastDelivery = s.lastDelivery ∧ s'.deliveries.Sublist s.deliveries := by
  unfold edit at h
  split at h
  · cases h; exact ⟨rfl, rfl, rfl, rfl, .refl _⟩
  · cases h; exact ⟨rfl, rfl, rfl, rfl, .refl _⟩
  · cases h; exact ⟨rfl, rfl, rfl, rfl, List.filter_sublist⟩
  · split at h
    · cases h; exact ⟨rfl, rfl, rfl, rfl, .refl _⟩
    · cases h
  · split at h
    · cases h; exact ⟨rfl, rfl, rfl, rfl, .refl _⟩
    · cases h
  · cases h; exact ⟨rfl, rfl, rfl, rfl, List.filter_sublist⟩
  · cases h

theorem pass_keeps (h : pass s a = some s') :
    Keeps s s' ∧ s'.hub = s.hub ∧ s'.lastDelivery = s.lastDelivery := by
  unfold pass at h
  split at h
  · cases h; exact ⟨⟨rfl, rfl, rfl, rfl⟩, rfl, rfl⟩
  · split at h
    · cases h; exact ⟨⟨rfl, rfl, rfl, rfl⟩, rfl, rfl⟩
    · cases h
  · split at h
    · cases h; exact ⟨⟨rfl, rfl, rfl, rfl⟩, rfl, rfl⟩
    · cases h
  · split at h
    · cases h; exact ⟨⟨rfl, rfl, rfl, rfl⟩, rfl, rfl⟩
    · cases h
  · cases h

/-- A delivery is added, or one for its target is there. -/
theorem addDelivery_cases {i c : Nat} {r : Option Nat} {expiresAt : Int}
    (h : s.addDelivery i c r expiresAt = some s') :
    let d := newDelivery (s.lastDelivery + 1) i c r s.now expiresAt
    ((∃ d' ∈ s.deliveries, d'.target = d.target) ∧ s' = s) ∨
    ((∀ d' ∈ s.deliveries, d'.target ≠ d.target) ∧ (∃ x ∈ s.intents, x.id = i) ∧
      s' = { s with deliveries := s.deliveries ++ [d], lastDelivery := s.lastDelivery + 1 }) := by
  unfold State.addDelivery at h
  dsimp only at h ⊢
  split at h
  · rename_i hany
    cases h
    exact .inl ⟨by simpa using List.any_eq_true.mp hany, rfl⟩
  · rename_i hnone
    split at h
    · rename_i hfk
      cases h
      simp only [Bool.and_eq_true, List.any_eq_true, beq_iff_eq] at hfk
      refine .inr ⟨fun d' hd' he => hnone ?_, hfk.1.1, rfl⟩
      exact List.any_eq_true.mpr ⟨d', hd', beq_iff_eq.mpr he⟩
    · cases h

theorem addDelivery_keeps {i c : Nat} {r : Option Nat} {expiresAt : Int}
    (h : s.addDelivery i c r expiresAt = some s') : Keeps s s' ∧ s'.hub = s.hub := by
  rcases addDelivery_cases h with ⟨-, rfl⟩ | ⟨-, -, rfl⟩
  · exact ⟨⟨rfl, rfl, rfl, rfl⟩, rfl⟩
  · exact ⟨⟨rfl, rfl, rfl, rfl⟩, rfl⟩

/-- The statements of an expansion keep what intents are for. -/
theorem expand_keeps (h : expand N s a = some s') :
    Keeps s s' ∧ SameIntents s.hub.business s'.hub.business := by
  unfold expand at h
  split at h
  · split at h
    · split at h <;> cases h <;> exact ⟨⟨rfl, rfl, rfl, rfl⟩, rfl, rfl⟩
    · cases h
  · split at h <;> cases h <;> exact ⟨⟨rfl, rfl, rfl, rfl⟩, rfl, rfl⟩
  · split at h
    · cases h; exact ⟨⟨rfl, rfl, rfl, rfl⟩, rfl, rfl⟩
    · cases h
  · split at h
    · split at h
      · rename_i s₁ hadd
        obtain ⟨hk, hhub⟩ := addDelivery_keeps hadd
        cases h
        refine ⟨⟨hk.channels, hk.lastChannel, hk.committed, hk.ingested⟩, ?_⟩
        show SameIntents s.hub.business s₁.hub.business
        rw [hhub]
        exact ⟨rfl, rfl⟩
      · cases h; exact ⟨⟨rfl, rfl, rfl, rfl⟩, rfl, rfl⟩
    · cases h
  · split at h
    · cases h
      exact ⟨⟨rfl, rfl, rfl, rfl⟩, finishIntent_intents _ _ _ _ _⟩
    · cases h
  · cases h

/-- The statements of an attempt only write its delivery. -/
theorem attempt_keeps (h : attempt N s a = some s') : Keeps s s' ∧ s'.hub = s.hub := by
  unfold attempt at h
  split at h
  · split at h <;> cases h; exact ⟨⟨rfl, rfl, rfl, rfl⟩, rfl⟩
  · split at h
    · split at h <;> cases h <;> exact ⟨⟨rfl, rfl, rfl, rfl⟩, rfl⟩
    · cases h
  · split at h <;> cases h; exact ⟨⟨rfl, rfl, rfl, rfl⟩, rfl⟩
  · split at h <;> cases h; exact ⟨⟨rfl, rfl, rfl, rfl⟩, rfl⟩
  · cases h

/-! ## The deliveries -/

/-- What a delivery is for. -/
structure Push where
  id        : Nat
  outboxId  : Nat
  channelId : Nat
  ruleId    : Option Nat
  expiresAt : Int
deriving DecidableEq

/-- What a row of `notify_deliveries` is for. -/
def pushOf (d : Delivery) : Push := ⟨d.id, d.outboxId, d.channelId, d.ruleId, d.expiresAt⟩

/-- When the status or the attempts of a delivery change: its attempt is over, or the operator puts
    a given-up row back. -/
inductive Change (N : Notifier) (s : State) (a : Label) (d d' : Delivery) : Prop
  | keeps (hs : d'.status = d.status) (ha : d'.attempts = d.attempts)
  | settles (k : Nat) (row : Claimed) (o : Outcome) (ha : a = .settle k)
      (hk : s.inFlight[k]? = some ⟨row, .settling o⟩) (hi : d.id = row.id)
      (h : d' = d.settled (settlement N row o) s.now)
  | retried (ha : a = .retry d.id) (hd : d.status = .failed ∨ d.status = .expired)
      (hs : d'.status = .pending) (hn : d'.attempts = d.attempts)

/-- What a step does to the deliveries. -/
inductive DeliveryEffect (N : Notifier) (s : State) (a : Label) (s' : State) : Prop
  | fewer (h : s'.deliveries.Sublist s.deliveries) (hl : s'.lastDelivery = s.lastDelivery)
  | written (p : Delivery → Bool) (f : Delivery → Delivery)
      (h : s'.deliveries = updateWhere p f s.deliveries) (hl : s'.lastDelivery = s.lastDelivery)
      (hf : ∀ d ∈ s.deliveries, p d = true → pushOf (f d) = pushOf d ∧ Change N s a d (f d))
  | added (e : Expansion) (target : Target) (rest : List HubRow) (ha : a = .addNext)
      (hw : s.worker = .adding { e with targets := target :: e.targets } rest)
      (hnew : ∀ d ∈ s.deliveries, d.target ≠ (e.intent.id, target.1, target.2.getD 0))
      (hi : ∃ x ∈ s.intents, x.id = e.intent.id)
      (h : s'.deliveries = s.deliveries ++
        [newDelivery (s.lastDelivery + 1) e.intent.id target.1 target.2 s.now e.expiresAt])
      (hl : s'.lastDelivery = s.lastDelivery + 1)

theorem DeliveryEffect.same (h : s'.deliveries = s.deliveries)
    (hl : s'.lastDelivery = s.lastDelivery) : DeliveryEffect N s a s' :=
  .fewer (by rw [h]) hl

theorem expand_deliveries (h : expand N s a = some s') : DeliveryEffect N s a s' := by
  unfold expand at h
  split at h
  · split at h
    · split at h <;> cases h <;> exact .same rfl rfl
    · cases h
  · split at h <;> cases h <;> exact .same rfl rfl
  · split at h
    · cases h; exact .same rfl rfl
    · cases h
  · split at h
    · rename_i intent target targets expiresAt status title body rest hw
      split at h
      · rename_i s₁ hadd
        cases h
        rcases addDelivery_cases hadd with ⟨-, rfl⟩ | ⟨hnew, hi, rfl⟩
        · exact .same rfl rfl
        · exact .added ⟨intent, targets, expiresAt, status, title, body⟩ target rest rfl hw hnew
            hi rfl rfl
      · cases h; exact .same rfl rfl
    · cases h
  · split at h
    · cases h; exact .same rfl rfl
    · cases h
  · cases h

theorem attempt_deliveries (h : attempt N s a = some s') : DeliveryEffect N s a s' := by
  unfold attempt at h
  split at h
  · split at h
    · cases h; exact .same rfl rfl
    · cases h
  · split at h
    · split at h <;> cases h <;> exact .same rfl rfl
    · cases h
  · split at h
    · cases h; exact .same rfl rfl
    · cases h
  · split at h
    · rename_i k _ row outcome hk
      cases h
      refine .written _ _ rfl rfl fun d _ hp => ⟨rfl, ?_⟩
      exact .settles k row outcome rfl hk (beq_iff_eq.mp hp) rfl
    · cases h
  · cases h

theorem pass_deliveries (h : pass s a = some s') : DeliveryEffect N s a s' := by
  unfold pass at h
  split at h
  · cases h; exact .same rfl rfl
  · split at h
    · cases h; exact .same rfl rfl
    · cases h
  · split at h
    · cases h
      exact .written _ _ rfl rfl fun d _ _ => ⟨rfl, .keeps rfl rfl⟩
    · cases h
  · split at h
    · cases h; exact .same rfl rfl
    · cases h
  · cases h

theorem serve_deliveries (h : serve s a = some s') : DeliveryEffect N s a s' := by
  unfold serve at h
  split at h
  · cases h
    unfold arrive
    split <;> exact .same rfl rfl
  · split at h
    · obtain ⟨e, -, rfl⟩ := Option.map_eq_some_iff.mp h
      unfold runHook
      split <;> exact .same rfl rfl
    · cases h
  · split at h
    · cases h
    · cases h
      exact .fewer List.filter_sublist rfl
  · cases h; exact .same rfl rfl
  · cases h
    refine .written _ _ rfl rfl fun d _ hp => ?_
    obtain rfl := beq_iff_eq.mp hp
    unfold Delivery.retried
    split
    · rename_i hd
      exact ⟨rfl, .retried rfl hd rfl rfl⟩
    · exact ⟨rfl, .keeps rfl rfl⟩
  · cases h

/-- **What a step does to the deliveries.** -/
theorem step_deliveries (h : step N s a = some s') : DeliveryEffect N s a s' := by
  unfold step at h
  split at h
  · exact serve_deliveries h
  · obtain ⟨-, -, -, hl, hd⟩ := edit_keeps h
    exact .fewer hd hl
  · exact pass_deliveries h
  · exact expand_deliveries h
  · exact attempt_deliveries h

/-- A row that is there after a step was there before, or is the one that was added. -/
theorem DeliveryEffect.row (h : DeliveryEffect N s a s') {d' : Delivery} (hd : d' ∈ s'.deliveries) :
    (∃ d ∈ s.deliveries, pushOf d' = pushOf d ∧ Change N s a d d') ∨ d'.id = s.lastDelivery + 1 := by
  cases h with
  | fewer h hl => exact .inl ⟨d', h.subset hd, rfl, .keeps rfl rfl⟩
  | written p f h hl hf =>
    rw [h] at hd
    rcases of_mem_updateWhere hd with ⟨d, hmem, hp, rfl⟩ | ⟨hmem, -⟩
    · obtain ⟨hpush, hc⟩ := hf d hmem hp
      exact .inl ⟨d, hmem, hpush, hc⟩
    · exact .inl ⟨d', hmem, rfl, .keeps rfl rfl⟩
  | added e target rest ha hw hnew hi h hl =>
    rw [h] at hd
    rcases List.mem_append.mp hd with hd | hd
    · exact .inl ⟨d', hd, rfl, .keeps rfl rfl⟩
    · obtain rfl := List.mem_singleton.mp hd
      exact .inr rfl

/-! ## The intents and the worker, over all steps -/

theorem serve_intents (h : serve s a = some s') :
    SameIntents s.hub.business s'.hub.business ∨
      ((∃ x, a = .arrive x) ∨ (∃ k kind, a = .hook k kind)) ∧
        ∃ i, OneMore s.hub.business s'.hub.business i := by
  unfold serve at h
  split at h
  · rename_i x
    cases h
    rcases arrive_intents s x with h | h
    · exact .inl h
    · exact .inr ⟨.inl ⟨x, rfl⟩, h⟩
  · rename_i k kind
    split at h
    · obtain ⟨e, -, rfl⟩ := Option.map_eq_some_iff.mp h
      rcases runHook_intents s e kind with h | h
      · exact .inl h
      · exact .inr ⟨.inr ⟨k, kind, rfl⟩, h⟩
    · cases h
  · split at h
    · cases h
    · rename_i hq
      cases h
      exact .inl (.of_sameTable (Statement.exec_leaves (fun he => hq he.symm) rfl _))
  · cases h; exact .inl ⟨rfl, rfl⟩
  · cases h; exact .inl ⟨rfl, rfl⟩
  · cases h

/-- **What a step does to the intents.** -/
theorem step_intents (h : step N s a = some s') :
    SameIntents s.hub.business s'.hub.business ∨
      ((∃ x, a = .arrive x) ∨ (∃ k kind, a = .hook k kind)) ∧
        ∃ i, OneMore s.hub.business s'.hub.business i := by
  unfold step at h
  split at h
  · exact serve_intents h
  · rw [(edit_keeps h).1]
    exact .inl ⟨rfl, rfl⟩
  · rw [(pass_keeps h).2.1]
    exact .inl ⟨rfl, rfl⟩
  · exact .inl (expand_keeps h).2
  · rw [(attempt_keeps h).2]
    exact .inl ⟨rfl, rfl⟩

/-- The rest of the Server leaves the worker and the channels alone. -/
theorem serve_keeps (h : serve s a = some s') : s'.worker = s.worker ∧
    s'.channels = s.channels ∧ s'.lastChannel = s.lastChannel := by
  unfold serve at h
  split at h
  · cases h
    unfold arrive
    split <;> exact ⟨rfl, rfl, rfl⟩
  · split at h
    · obtain ⟨e, -, rfl⟩ := Option.map_eq_some_iff.mp h
      unfold runHook
      split <;> exact ⟨rfl, rfl, rfl⟩
    · cases h
  · split at h
    · cases h
    · cases h; exact ⟨rfl, rfl, rfl⟩
  · cases h; exact ⟨rfl, rfl, rfl⟩
  · cases h; exact ⟨rfl, rfl, rfl⟩
  · cases h

end Air780eHub.Notify
