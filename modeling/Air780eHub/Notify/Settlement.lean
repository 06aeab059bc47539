/-
  The life of a delivery: claimed, attempted once, settled.

  A claim selects pending rows, and the pass that made it attempts them to the end before the next
  one claims.  So a row has at most one attempt in flight and stays pending meanwhile, which is why
  `settle_delivery` may write by id without a look at the row.

  1. **Attempts in flight** after a step.
  2. **`Flight`**: distinct rows, each pending and as it was claimed.
  3. **A step on a row**: `ok` stays, a row that was given up stays until the operator puts it back.
-/
import Air780eHub.Notify.Steps

namespace Air780eHub.Notify

open Relational Server Machine

variable {N : Notifier} {s s' : State} {a : Label}

/-! ## Attempts in flight -/

/-- The rows that are being attempted. -/
def State.claimed (s : State) : List Claimed := s.inFlight.map Attempt.row

theorem claimed_of_worker (h : s'.worker = s.worker) : s'.claimed = s.claimed := by
  rw [State.claimed, State.claimed, State.inFlight, State.inFlight, h]

/-- An expansion begins and ends without attempts. -/
theorem expand_inFlight (h : expand N s a = some s') : s.inFlight = [] ∧ s'.inFlight = [] := by
  unfold expand at h
  split at h
  · split at h
    · rename_i hw
      have hs : s.inFlight = [] := by rw [State.inFlight, hw]
      split at h <;> cases h <;> exact ⟨hs, rfl⟩
    · cases h
  · split at h
    · rename_i hw; cases h; exact ⟨by rw [State.inFlight, hw], rfl⟩
    · rename_i hw; cases h; exact ⟨by rw [State.inFlight, hw], rfl⟩
    · rename_i hw; cases h; exact ⟨by rw [State.inFlight, hw], rfl⟩
    · cases h
  · split at h
    · rename_i hw; cases h; exact ⟨by rw [State.inFlight, hw], rfl⟩
    · cases h
  · split at h
    · rename_i hw
      have hs : s.inFlight = [] := by rw [State.inFlight, hw]
      split at h <;> cases h <;> exact ⟨hs, rfl⟩
    · cases h
  · split at h
    · rename_i hw; cases h; exact ⟨by rw [State.inFlight, hw], rfl⟩
    · cases h
  · cases h

/-- An attempt that goes on keeps its row. -/
theorem map_row_place {attempts : List Attempt} {k : Nat} {x y : Attempt}
    (hk : attempts[k]? = some x) (hrow : y.row = x.row) :
    (place attempts k (some y)).map Attempt.row = attempts.map Attempt.row := by
  obtain ⟨hlt, rfl⟩ := List.getElem?_eq_some_iff.mp hk
  show (attempts.set k y).map Attempt.row = _
  rw [List.map_set, hrow, ← List.getElem_map Attempt.row (h := by simpa using hlt)]
  exact List.set_getElem_self _

/-- What a step of an attempt does to the rows in flight: they stay, or the `k`-th goes. -/
theorem attempt_claimed (h : attempt N s a = some s') :
    s'.claimed = s.claimed ∨ ∃ k x, s.inFlight[k]? = some x ∧ s'.inFlight = s.inFlight.eraseIdx k ∧
      ((a = .render k ∧ ∃ channel e, x.stage = .found channel ∧
          payloadFor N s.hub.business s.rules s.now x.row channel = .error e) ∨
        (a = .settle k ∧ ∃ o, x.stage = .settling o ∧
          s'.deliveries = updateWhere (fun d => d.id == x.row.id)
            (fun d => d.settled (settlement N x.row o) s.now) s.deliveries)) := by
  unfold attempt at h
  split at h
  · split at h
    · rename_i hk
      cases h
      exact .inl (map_row_place hk rfl)
    · cases h
  · split at h
    · rename_i k _ row channel hk
      split at h
      · cases h; exact .inl (map_row_place hk rfl)
      · cases h; exact .inl (map_row_place hk rfl)
      · rename_i e he
        cases h
        exact .inr ⟨k, _, hk, rfl, .inl ⟨rfl, channel, e, rfl, he⟩⟩
    · cases h
  · split at h
    · rename_i hk
      cases h
      exact .inl (map_row_place hk rfl)
    · cases h
  · split at h
    · rename_i k _ row o hk
      cases h
      exact .inr ⟨k, _, hk, rfl, .inr ⟨rfl, o, rfl, rfl⟩⟩
    · cases h
  · cases h

/-- **What a step does to the rows in flight**: they are claimed all at once, and go one by one. -/
theorem step_claimed (h : step N s a = some s') :
    s'.claimed.Sublist s.claimed ∨
      (a = .claim ∧ s.worker = .expanding [] ∧ s' = s.claim) := by
  unfold step at h
  split at h
  · rw [claimed_of_worker (serve_keeps h).1]
    exact .inl (.refl _)
  · rw [claimed_of_worker (edit_keeps h).2.2.1]
    exact .inl (.refl _)
  · unfold pass at h
    split at h
    · cases h; exact .inl (List.nil_sublist _)
    · split at h
      · cases h; exact .inl (List.nil_sublist _)
      · cases h
    · split at h
      · rename_i hw
        cases h
        exact .inr ⟨rfl, hw, rfl⟩
      · cases h
    · split at h
      · cases h; exact .inl (List.nil_sublist _)
      · cases h
    · cases h
  · rw [State.claimed, (expand_inFlight h).2]
    exact .inl (List.nil_sublist _)
  · rcases attempt_claimed h with he | ⟨k, x, -, he, -⟩
    · rw [he]
      exact .inl (.refl _)
    · rw [State.claimed, he]
      exact .inl ((List.eraseIdx_sublist _ _).map _)

/-! ## The invariant -/

/-- The rows in flight are distinct, pending and as they were claimed. -/
structure Flight (s : State) : Prop where
  ids      : (s.deliveries.map Delivery.id).Nodup
  bounded  : ∀ d ∈ s.deliveries, d.id ≤ s.lastDelivery
  distinct : (s.claimed.map Claimed.id).Nodup
  below    : ∀ r ∈ s.claimed, r.id ≤ s.lastDelivery
  current  : ∀ r ∈ s.claimed, ∀ d ∈ s.deliveries, d.id = r.id →
    d.status = .pending ∧ d.attempts = r.attempts ∧ d.expiresAt = r.expiresAt

/-- The ids of the deliveries stay distinct. -/
theorem Flight.ids_step (h : Flight s) (hs : step N s a = some s') :
    (s'.deliveries.map Delivery.id).Nodup ∧ (∀ d ∈ s'.deliveries, d.id ≤ s'.lastDelivery) ∧
      s.lastDelivery ≤ s'.lastDelivery := by
  cases step_deliveries hs with
  | fewer hsub hl =>
    rw [hl]
    exact ⟨h.ids.sublist (hsub.map _), fun d hd => h.bounded d (hsub.subset hd), le_rfl⟩
  | written p f heq hl hf =>
    have hids : s'.deliveries.map Delivery.id = s.deliveries.map Delivery.id := by
      rw [heq]
      exact map_updateWhere fun d hd hp => congrArg Push.id (hf d hd hp).1
    rw [hl]
    refine ⟨by rw [hids]; exact h.ids, fun d hd => ?_, le_rfl⟩
    have hmem : d.id ∈ s.deliveries.map Delivery.id := by
      rw [← hids]
      exact List.mem_map_of_mem hd
    obtain ⟨d₀, hd₀, he⟩ := List.mem_map.mp hmem
    rw [← he]
    exact h.bounded d₀ hd₀
  | added e target rest ha hw hnew hi heq hl =>
    rw [heq, hl]
    refine ⟨?_, fun d hd => ?_, Nat.le_succ _⟩
    · rw [List.map_append, List.map_singleton, List.nodup_append]
      refine ⟨h.ids, List.nodup_singleton _, fun x hx y hy he => ?_⟩
      obtain ⟨d, hd, rfl⟩ := List.mem_map.mp hx
      obtain rfl := List.mem_singleton.mp hy
      have hle := h.bounded d hd
      have hid : d.id = s.lastDelivery + 1 := he
      omega
    · rcases List.mem_append.mp hd with hd | hd
      · exact Nat.le_succ_of_le (h.bounded d hd)
      · obtain rfl := List.mem_singleton.mp hd
        exact le_rfl

/-- A row that stays in flight is not the one a step settles. -/
theorem Flight.not_settled (h : Flight s) (hs : step N s a = some s') {k : Nat} {row : Claimed}
    {o : Outcome} (ha : a = .settle k) (hk : s.inFlight[k]? = some ⟨row, .settling o⟩) :
    ∀ r ∈ s'.claimed, r.id ≠ row.id := by
  subst ha
  have hatt : attempt N s (.settle k) = some s' := hs
  unfold attempt at hatt
  dsimp only at hatt
  rw [hk] at hatt
  cases hatt
  intro r hr
  obtain ⟨x, hx, rfl⟩ := List.mem_map.mp hr
  have hnodup : (s.inFlight.map fun x => x.row.id).Nodup := by
    have hd := h.distinct
    rwa [State.claimed, List.map_map] at hd
  have hne := ne_of_mem_eraseIdx hnodup hk hx
  exact hne

/-- The rows that stay in flight stay pending and as they were claimed. -/
theorem Flight.current_step (h : Flight s) (hs : step N s a = some s')
    (hsub : s'.claimed.Sublist s.claimed) : ∀ r ∈ s'.claimed, ∀ d ∈ s'.deliveries, d.id = r.id →
      d.status = .pending ∧ d.attempts = r.attempts ∧ d.expiresAt = r.expiresAt := by
  intro r hr d' hd' hid
  have hr₀ := hsub.subset hr
  rcases (step_deliveries hs).row hd' with ⟨d, hd, hpush, hc⟩ | hnew
  · have hid₀ : d.id = r.id := (congrArg Push.id hpush).symm.trans hid
    obtain ⟨hpending, hattempts, hexpires⟩ := h.current r hr₀ d hd hid₀
    have hexp : d'.expiresAt = d.expiresAt := congrArg Push.expiresAt hpush
    cases hc with
    | keeps hst hat => exact ⟨hst.trans hpending, hat.trans hattempts, hexp.trans hexpires⟩
    | settles k row o ha hk hi _ =>
      exact absurd (hid₀.symm.trans hi) (h.not_settled hs ha hk r hr)
    | retried ha hgiven _ _ =>
      rw [hpending] at hgiven
      exact hgiven.elim nofun nofun
  · have hle := h.below r hr₀
    omega

/-- What a `filterMap` keeps has the keys it came from, in their order. -/
theorem filterMap_map_sublist {α β γ : Type} {f : α → Option β} {g : α → γ} {h : β → γ}
    (hf : ∀ x y, f x = some y → h y = g x) (xs : List α) :
    ((xs.filterMap f).map h).Sublist (xs.map g) := by
  induction xs with
  | nil => exact .refl _
  | cons x xs ih =>
    rw [List.map_cons]
    cases hx : f x with
    | none =>
      rw [List.filterMap_cons_none hx]
      exact ih.cons _
    | some y =>
      rw [List.filterMap_cons_some hx, List.map_cons, hf x y hx]
      exact ih.cons_cons _

/-- What is claimed are distinct pending rows. -/
theorem claimable_spec (h : Flight s) :
    (s.claimable.map Claimed.id).Nodup ∧ ∀ r ∈ s.claimable, ∃ d ∈ s.deliveries, d.id = r.id ∧
      d.status = .pending ∧ d.attempts = r.attempts ∧ d.expiresAt = r.expiresAt := by
  unfold State.claimable
  generalize hrows : (List.insertionSort Delivery.sooner (s.deliveries.filter fun d =>
    d.due s.now && s.intents.any fun r => r.id == d.outboxId)).take CLAIM_BATCH = rows
  have hmem : ∀ d ∈ rows, d ∈ s.deliveries ∧ d.status = .pending := by
    intro d hd
    rw [← hrows] at hd
    have hd' := List.mem_filter.mp ((List.mem_insertionSort _).mp (List.mem_of_mem_take hd))
    simp only [Delivery.due, Bool.and_eq_true, decide_eq_true_eq] at hd'
    exact ⟨hd'.1, hd'.2.1.1.1⟩
  have hnodup : (rows.map Delivery.id).Nodup := by
    rw [← hrows]
    refine List.Nodup.sublist ((List.take_sublist _ _).map _) ?_
    refine (((List.perm_insertionSort _ _).map _).nodup_iff).mpr ?_
    exact h.ids.sublist (List.filter_sublist.map _)
  refine ⟨hnodup.sublist (filterMap_map_sublist (fun d r hr => ?_) rows), fun r hr => ?_⟩
  · obtain ⟨intent, -, rfl⟩ := Option.map_eq_some_iff.mp hr
    rfl
  · obtain ⟨d, hd, hr⟩ := List.mem_filterMap.mp hr
    obtain ⟨intent, -, rfl⟩ := Option.map_eq_some_iff.mp hr
    exact ⟨d, (hmem d hd).1, rfl, (hmem d hd).2, rfl, rfl⟩

/-- A claim puts the rows it selected in flight. -/
theorem Flight.claim (h : Flight s) : Flight s.claim := by
  obtain ⟨hnodup, hspec⟩ := claimable_spec h
  have hclaimed : s.claim.claimed = s.claimable := by
    show ((s.claimable).map fun r => (⟨r, .waiting⟩ : Attempt)).map Attempt.row = _
    rw [List.map_map]
    exact List.map_id _
  have hids : s.claim.deliveries.map Delivery.id = s.deliveries.map Delivery.id :=
    map_updateWhere fun _ _ _ => rfl
  refine ⟨by rw [hids]; exact h.ids, fun d hd => ?_, by rw [hclaimed]; exact hnodup,
    fun r hr => ?_, fun r hr d' hd' hid => ?_⟩
  · have hmem : d.id ∈ s.deliveries.map Delivery.id := by
      rw [← hids]
      exact List.mem_map_of_mem hd
    obtain ⟨d₀, hd₀, he⟩ := List.mem_map.mp hmem
    rw [← he]
    exact h.bounded d₀ hd₀
  · rw [hclaimed] at hr
    obtain ⟨d, hd, hid, -⟩ := hspec r hr
    rw [← hid]
    exact h.bounded d hd
  · rw [hclaimed] at hr
    obtain ⟨d, hd, hidd, hst⟩ := hspec r hr
    -- the lease is all a claim writes
    rcases of_mem_updateWhere hd' with ⟨d₀, hd₀, -, rfl⟩ | ⟨hd₀, -⟩
    · obtain rfl := eq_of_key_eq h.ids hd₀ hd (hid.trans hidd.symm)
      exact hst
    · obtain rfl := eq_of_key_eq h.ids hd₀ hd (hid.trans hidd.symm)
      exact hst

theorem Flight.step (h : Flight s) (hs : Notify.step N s a = some s') : Flight s' := by
  obtain ⟨hids, hbounded, hle⟩ := h.ids_step hs
  rcases step_claimed hs with hsub | ⟨-, -, rfl⟩
  · refine ⟨hids, hbounded, h.distinct.sublist (hsub.map _), fun r hr => ?_, h.current_step hs hsub⟩
    exact (h.below r (hsub.subset hr)).trans hle
  · exact h.claim

theorem flight_initial (now : Int) : Flight (.initial now) :=
  ⟨List.nodup_nil, fun _ hd => absurd hd List.not_mem_nil, List.nodup_nil,
    fun _ hr => absurd hr List.not_mem_nil, nofun⟩

theorem flight_reachable {G : State → Label → Prop} (h : N.machine.ReachableBy G s) : Flight s := by
  refine h.invariant (I := Flight) ?_ fun s a s' hI _ hs => Flight.step (N := N) hI hs
  rintro s ⟨now, rfl⟩
  exact flight_initial now

/-! ## A step on a row -/

/-- What becomes of the rows that are there: they keep a status `P` speaks of, or are gone. -/
structure Stays (P : Delivery → Delivery → Prop) (s t : State) : Prop where
  later : s.lastDelivery ≤ t.lastDelivery
  rows  : ∀ d' ∈ t.deliveries, d'.id ≤ s.lastDelivery → ∃ d ∈ s.deliveries, d'.id = d.id ∧ P d d'

theorem Stays.trans {P : Delivery → Delivery → Prop}
    (hP : ∀ a b c, b.id = a.id → P a b → P b c → P a c) {r s t : State} (h : Stays P r s)
    (h' : Stays P s t) : Stays P r t := by
  refine ⟨h.later.trans h'.later, fun d'' hd'' hle => ?_⟩
  obtain ⟨d', hd', he', hp'⟩ := h'.rows d'' hd'' (hle.trans h.later)
  obtain ⟨d, hd, he, hp⟩ := h.rows d' hd' (he' ▸ hle)
  exact ⟨d, hd, he'.trans he, hP d d' d'' he hp hp'⟩

/-- A step relates each row to what it was by a change. -/
theorem Flight.stays (h : Flight s) (hs : Notify.step N s a = some s') :
    Stays (fun d d' => Change N s a d d') s s' := by
  obtain ⟨-, -, hle⟩ := h.ids_step hs
  refine ⟨hle, fun d' hd' hid => ?_⟩
  rcases (step_deliveries hs).row hd' with ⟨d, hd, hpush, hc⟩ | hnew
  · exact ⟨d, hd, congrArg Push.id hpush, hc⟩
  · omega

/-- A row that is not pending only changes when the operator puts it back. -/
theorem Flight.final (h : Flight s) {d d' : Delivery} (hd : d ∈ s.deliveries)
    (hc : Change N s a d d') (hnp : d.status ≠ .pending) : d'.status = d.status ∨
      (a = .retry d.id ∧ (d.status = .failed ∨ d.status = .expired)) := by
  cases hc with
  | keeps hst _ => exact .inl hst
  | settles k row o ha hk hi _ =>
    have hmem : row ∈ s.claimed :=
      List.mem_map.mpr ⟨⟨row, .settling o⟩, List.mem_of_getElem? hk, rfl⟩
    exact absurd (h.current row hmem d hd hi).1 hnp
  | retried ha hgiven _ _ => exact .inr ⟨ha, hgiven⟩

/-- `ok` is absorbing, over any run. -/
theorem Flight.ok_run {t : State} (hp : N.machine.Path Always s t) (h : Flight s) :
    Stays (fun d d' => d.status = .ok → d'.status = .ok) s t := by
  refine hp.relation_of_invariant (I := Flight) ?_ ?_ (fun s a s' hI _ hs => Flight.step (N := N) hI hs)
    ?_ h
  · exact fun s => ⟨le_rfl, fun d hd _ => ⟨d, hd, rfl, id⟩⟩
  · exact fun r s t => Stays.trans fun a b c _ hab hbc hok => hbc (hab hok)
  · intro s a s' hI _ hs
    obtain ⟨hle, hrows⟩ := hI.stays hs
    refine ⟨hle, fun d' hd' hid => ?_⟩
    obtain ⟨d, hd, he, hc⟩ := hrows d' hd' hid
    refine ⟨d, hd, he, fun hok => ?_⟩
    rcases hI.final hd hc (by rw [hok]; exact nofun) with hst | ⟨-, hgiven⟩
    · exact hst.trans hok
    · rw [hok] at hgiven
      exact hgiven.elim nofun nofun

/-- A row that was given up stays so, over a run in which the operator does not put it back. -/
theorem Flight.final_run {i : Nat} {t : State}
    (hp : N.machine.Path (fun _ a => a ≠ .retry i) s t) (h : Flight s) :
    Stays (fun d d' => d.id = i → d.status ≠ .pending → d'.status = d.status) s t := by
  refine hp.relation_of_invariant (I := Flight) ?_ ?_ (fun s a s' hI _ hs => Flight.step (N := N) hI hs)
    ?_ h
  · exact fun s => ⟨le_rfl, fun d hd _ => ⟨d, hd, rfl, fun _ _ => rfl⟩⟩
  · refine fun r s t => Stays.trans fun a b c hid hab hbc hi hnp => ?_
    have hb := hab hi hnp
    exact (hbc (hid.trans hi) (by rw [hb]; exact hnp)).trans hb
  · intro s a s' hI hg hs
    obtain ⟨hle, hrows⟩ := hI.stays hs
    refine ⟨hle, fun d' hd' hid => ?_⟩
    obtain ⟨d, hd, he, hc⟩ := hrows d' hd' hid
    refine ⟨d, hd, he, fun hdi hnp => ?_⟩
    rcases hI.final hd hc hnp with hst | ⟨ha, -⟩
    · exact hst
    · exact absurd (by rw [ha, hdi]) hg

end Air780eHub.Notify
