/-
  Every committed event has its intent.

  The intent is written in the transaction of the event and found again by its key, the text
  "agent|stream|seq|kind".  Two events of different identity may have the same text, since an agent
  or a stream may have the separator in its name; the second is then taken for a replay and its
  intent is lost.  Where no two events that owe an intent of one kind share their text, the outbox
  holds exactly the intents that are owed, in the order of the commits.

  1. **Keys**: the kind is read off a key, and with it the event's text.
  2. **`Intact`**: the outbox is the list of what the committed events owe.
  3. **Exactly one**: `Intact.exactly_one`.
-/
import Air780eHub.Notify.Steps

namespace Air780eHub.Notify

open Relational Server Machine

variable {N : Notifier} {s s' : State} {a : Label}

/-! ## Keys -/

/-- What comes before and after the last separator. -/
theorem split_last {α : Type} {sep : α} {a b c d : List α} (hb : sep ∉ b) (hd : sep ∉ d)
    (h : a ++ sep :: b = c ++ sep :: d) : a = c ∧ b = d := by
  induction a generalizing c with
  | nil =>
    cases c with
    | nil =>
      rw [List.nil_append, List.nil_append] at h
      exact ⟨rfl, (List.cons.inj h).2⟩
    | cons y c =>
      rw [List.nil_append, List.cons_append] at h
      refine absurd ?_ hb
      rw [(List.cons.inj h).2]
      exact List.mem_append_right _ List.mem_cons_self
  | cons x a ih =>
    cases c with
    | nil =>
      rw [List.nil_append, List.cons_append] at h
      refine absurd ?_ hd
      rw [← (List.cons.inj h).2]
      exact List.mem_append_right _ List.mem_cons_self
    | cons y c =>
      rw [List.cons_append, List.cons_append] at h
      obtain ⟨hx, ht⟩ := List.cons.inj h
      obtain ⟨ha, hbd⟩ := ih ht
      exact ⟨by rw [hx, ha], hbd⟩

/-- The key of an intent says its kind and the text of its event. -/
theorem notifyKey_inj {u v k l : String} (hk : k ∈ INTENT_KINDS) (hl : l ∈ INTENT_KINDS)
    (h : u ++ "|" ++ k = v ++ "|" ++ l) : u = v ∧ k = l := by
  have hfree : ∀ k ∈ INTENT_KINDS, '|' ∉ k.toList := by decide
  have hlist : u.toList ++ '|' :: k.toList = v.toList ++ '|' :: l.toList := by
    have ht := congrArg String.toList h
    simpa [String.toList_append] using ht
  obtain ⟨huv, hkl⟩ := split_last (hfree k hk) (hfree l hl) hlist
  exact ⟨String.toList_inj.mp huv, String.toList_inj.mp hkl⟩

/-! ## What is owed -/

/-- What an intent says, beside its id. -/
structure Owed where
  kind     : Option Cell
  refId    : Option Cell
  eventKey : Option Cell
deriving DecidableEq

/-- The intents of a database without their ids. -/
def owedOf (db : HubDb) : List Owed := (intentsOf db).map fun i => ⟨i.kind, i.refId, i.eventKey⟩

/-- What a committed event owes. -/
def owes (e : Incoming × AppliedEvent) : List Owed :=
  match intentKind e.1.kind e.1.frame with
  | none   => []
  | some k => [⟨text k, (e.2.refId k).map .integer, text (e.1.eventKey ++ "|" ++ k)⟩]

/-- **The keys are distinct**: an event that is applied for the first time and owes an intent has
    another text than the earlier ones that owe an intent of its kind. -/
def DistinctKeys (s : State) (a : Label) : Prop :=
  ∀ x, a = .arrive x → x.key ∉ s.hub.ingested → ∀ e ∈ s.committed, ∀ k,
    intentKind e.1.kind e.1.frame = some k → intentKind x.kind x.frame = some k →
    e.1.eventKey ≠ x.eventKey

/-- The outbox is the list of what the committed events owe. -/
structure Intact (s : State) : Prop where
  ingested : s.hub.ingested = s.committed.map fun e => e.1.key
  keyed    : ∀ e ∈ s.committed, e.2.eventKey = some e.1.eventKey
  kinds    : ∀ e ∈ s.committed, Owes e.2 (intentKind e.1.kind e.1.frame)
  owed     : owedOf s.hub.business = s.committed.flatMap owes
  distinct : ((s.committed.flatMap owes).map Owed.eventKey).Nodup

theorem mem_owes {e : Incoming × AppliedEvent} {o : Owed} (ho : o ∈ owes e) :
    ∃ k, intentKind e.1.kind e.1.frame = some k ∧ o = ⟨text k, (e.2.refId k).map .integer,
      text (e.1.eventKey ++ "|" ++ k)⟩ := by
  unfold owes at ho
  split at ho
  · cases ho
  · rename_i k hk
    exact ⟨k, hk, List.mem_singleton.mp ho⟩

/-- A key that is queued is the key of a committed event that owes an intent. -/
theorem Intact.of_queued (h : Intact s) {key : String} (hq : Queued s.hub.business (some key)) :
    ∃ e ∈ s.committed, ∃ k, intentKind e.1.kind e.1.frame = some k ∧ k ∈ INTENT_KINDS ∧
      e.1.eventKey ++ "|" ++ k = key := by
  obtain ⟨r, hr, hk⟩ := queued_some.mp hq
  have hmem : (⟨r.cells .kind, r.cells .refId, r.cells .eventKey⟩ : Owed) ∈
      s.committed.flatMap owes := by
    rw [← h.owed]
    exact List.mem_map.mpr ⟨intentOf r, List.mem_map_of_mem hr, rfl⟩
  obtain ⟨e, he, ho⟩ := List.mem_flatMap.mp hmem
  obtain ⟨k, hkind, heq⟩ := mem_owes ho
  have hek : r.cells .eventKey = text (e.1.eventKey ++ "|" ++ k) := congrArg Owed.eventKey heq
  have howes := h.kinds e he
  rw [hkind] at howes
  rw [hk] at hek
  exact ⟨e, he, k, hkind, howes.1, (Cell.text.inj (Option.some.inj hek)).symm⟩

/-- What a committed event owes has its row. -/
theorem Intact.row (h : Intact s) {e : Incoming × AppliedEvent} (he : e ∈ s.committed)
    {k : String} (hk : intentKind e.1.kind e.1.frame = some k) :
    ∃ r ∈ s.intents, r.cells .kind = text k ∧ r.cells .refId = (e.2.refId k).map .integer ∧
      r.cells .eventKey = text (e.1.eventKey ++ "|" ++ k) := by
  have hmem : (⟨text k, (e.2.refId k).map .integer, text (e.1.eventKey ++ "|" ++ k)⟩ : Owed) ∈
      owedOf s.hub.business := by
    rw [h.owed]
    refine List.mem_flatMap.mpr ⟨e, he, ?_⟩
    rw [owes, hk]
    exact List.mem_singleton_self _
  obtain ⟨i, hi, heq⟩ := List.mem_map.mp hmem
  obtain ⟨r, hr, rfl⟩ := List.mem_map.mp hi
  exact ⟨r, hr, congrArg Owed.kind heq, congrArg Owed.refId heq, congrArg Owed.eventKey heq⟩

theorem owedOf_same {db db' : HubDb} (h : SameIntents db db') : owedOf db' = owedOf db := by
  rw [owedOf, h.intents, owedOf]

/-! ### Events -/

/-- What is committed when one more event is. -/
theorem Intact.commit (h : Intact s) {x : Incoming} {applied : AppliedEvent}
    {hub : Database HubDb} (hfresh : hub.ingested = s.hub.ingested ++ [x.key])
    (hkey : applied.eventKey = some x.eventKey) (howes : Owes applied (intentKind x.kind x.frame))
    (howed : owedOf hub.business = owedOf s.hub.business ++ owes (x, applied))
    (hnew : ∀ o ∈ owes (x, applied), ∀ o' ∈ s.committed.flatMap owes, o'.eventKey ≠ o.eventKey) :
    Intact { s with hub := hub, committed := s.committed ++ [(x, applied)] } := by
  refine ⟨?_, fun e he => ?_, fun e he => ?_, ?_, ?_⟩
  · show hub.ingested = (s.committed ++ [(x, applied)]).map _
    rw [hfresh, h.ingested, List.map_append, List.map_singleton]
  · rcases List.mem_append.mp he with he | he
    · exact h.keyed e he
    · obtain rfl := List.mem_singleton.mp he
      exact hkey
  · rcases List.mem_append.mp he with he | he
    · exact h.kinds e he
    · obtain rfl := List.mem_singleton.mp he
      exact howes
  · show owedOf hub.business = (s.committed ++ [(x, applied)]).flatMap owes
    rw [howed, h.owed, List.flatMap_append, List.flatMap_singleton]
  · show (((s.committed ++ [(x, applied)]).flatMap owes).map Owed.eventKey).Nodup
    rw [List.flatMap_append, List.flatMap_singleton, List.map_append, List.nodup_append]
    refine ⟨h.distinct, ?_, fun u hu v hv => ?_⟩
    · unfold owes
      split
      · exact List.nodup_nil
      · exact List.nodup_singleton _
    · obtain ⟨o', ho', rfl⟩ := List.mem_map.mp hu
      obtain ⟨o, ho, rfl⟩ := List.mem_map.mp hv
      exact hnew o ho o' ho'

/-- A first application adds the intent it owes. -/
theorem Intact.arrive (h : Intact s) {x : Incoming} (hg : DistinctKeys s (.arrive x)) :
    Intact (Notify.arrive s x) := by
  unfold Notify.arrive
  split
  · exact h
  · rename_i hub hi
    rcases ingest_cases hi with ⟨-, -, hing, hsame⟩ | ⟨b, applied, hr, -⟩
    · refine ⟨hing.trans h.ingested, h.keyed, h.kinds, ?_, h.distinct⟩
      exact (owedOf_same (.of_sameTable hsame)).trans h.owed
    · cases hr
  · rename_i applied hub hi
    rcases ingest_cases hi with ⟨hr, -⟩ | ⟨b, applied', hr, hk, hing, hb, hsame⟩
    · cases hr
    · obtain rfl := Option.some.inj hr
      obtain ⟨hkey, howes, ⟨hnone, hb'⟩ | ⟨k, i, hkind, hmem, href, hcase⟩⟩ :=
        apply_owed (eventKey_ne x) hb
      · have hempty : owes (x, applied) = [] := by rw [owes, hnone]
        refine h.commit hing hkey howes ?_ ?_
        · rw [hempty, List.append_nil]
          exact owedOf_same (.of_sameTable (hb'.trans hsame))
        · rw [hempty]
          exact fun o ho => absurd ho List.not_mem_nil
      · have hone : owes (x, applied) = [⟨text k, integer i, text (x.eventKey ++ "|" ++ k)⟩] := by
          rw [owes, hkind]
          show [(⟨text k, (applied.refId k).map .integer, _⟩ : Owed)] = _
          rw [href]
          rfl
        -- no earlier event has the text of this one
        have hnot : ¬ Queued s.hub.business (some (x.eventKey ++ "|" ++ k)) := by
          intro hq
          obtain ⟨e, he, k', hk', hmem', heq⟩ := h.of_queued hq
          obtain ⟨htext, rfl⟩ := notifyKey_inj hmem' hmem heq
          exact hg x rfl hk e he k' hk' hkind htext
        rcases hcase with ⟨hq, -⟩ | ⟨-, hadd⟩
        · exact absurd hq hnot
        · refine h.commit hing hkey howes ?_ fun o ho o' ho' he => ?_
          · have hmore : OneMore s.hub.business hub.business _ :=
              .of_added ⟨hsame.rows.trans hadd.rows, hsame.seq.trans hadd.seq⟩
            rw [hone, owedOf, hmore.intents, List.map_append]
            rfl
          · rw [hone] at ho
            obtain rfl := List.mem_singleton.mp ho
            rw [← h.owed] at ho'
            obtain ⟨j, hj, rfl⟩ := List.mem_map.mp ho'
            obtain ⟨r, hr, rfl⟩ := List.mem_map.mp hj
            exact hnot (queued_some.mpr ⟨r, hr, he⟩)

/-- A hook finds the intent of its event. -/
theorem Intact.hook (h : Intact s) {e : Incoming × AppliedEvent} (he : e ∈ s.committed)
    {kind : String} (hkind : kind ∈ INTENT_KINDS) : Intact (runHook s e kind) := by
  unfold runHook
  split
  · exact h
  · rename_i u hub hq
    cases hr : e.2.refId kind with
    | none =>
      rw [hr] at hq
      cases hq
      exact h
    | some i =>
      rw [hr] at hq
      obtain ⟨x, db₁, hx, hp⟩ := of_bind_ok hq
      cases hp
      have howes := h.kinds e he
      cases hk : intentKind e.1.kind e.1.frame with
      | none =>
        rw [hk] at howes
        rw [howes kind hkind] at hr
        cases hr
      | some k =>
        rw [hk] at howes
        have hkk : kind = k := by
          by_contra hne
          rw [howes.2.2 kind hkind hne] at hr
          cases hr
        subst hkk
        have hnk : e.2.notifyKey kind = some (e.1.eventKey ++ "|" ++ kind) := by
          rw [AppliedEvent.notifyKey, h.keyed e he]
          rfl
        obtain ⟨r, hmem, -, -, hkey⟩ := h.row he hk
        rw [hnk, enqueueNotification_known (queued_some.mpr ⟨r, hmem, hkey⟩)] at hx
        cases hx
        exact h

/-- What keeps the intents and the committed events keeps the outbox intact. -/
theorem Intact.of_same (h : Intact s) (hs : SameIntents s.hub.business s'.hub.business)
    (hc : s'.committed = s.committed) (hi : s'.hub.ingested = s.hub.ingested) : Intact s' := by
  refine ⟨?_, ?_, ?_, ?_, ?_⟩
  · rw [hi, hc]
    exact h.ingested
  · rw [hc]
    exact h.keyed
  · rw [hc]
    exact h.kinds
  · rw [owedOf_same hs, hc]
    exact h.owed
  · rw [hc]
    exact h.distinct

theorem Intact.step (h : Intact s) (hg : DistinctKeys s a) (hs : Notify.step N s a = some s') :
    Intact s' := by
  unfold Notify.step at hs
  split at hs
  · unfold serve at hs
    split at hs
    · cases hs
      exact h.arrive hg
    · split at hs
      · rename_i k kind hkind
        obtain ⟨e, he, rfl⟩ := Option.map_eq_some_iff.mp hs
        exact h.hook (List.mem_of_getElem? he) hkind
      · cases hs
    · split at hs
      · cases hs
      · rename_i hq
        cases hs
        exact h.of_same
          (.of_sameTable (Statement.exec_leaves (fun he => hq he.symm) rfl _)) rfl rfl
    · cases hs; exact h.of_same ⟨rfl, rfl⟩ rfl rfl
    · cases hs; exact h.of_same ⟨rfl, rfl⟩ rfl rfl
    · cases hs
  · obtain ⟨hhub, hc, -⟩ := edit_keeps hs
    exact h.of_same (by rw [hhub]; exact ⟨rfl, rfl⟩) hc (by rw [hhub])
  · obtain ⟨hk, hhub, -⟩ := pass_keeps hs
    exact h.of_same (by rw [hhub]; exact ⟨rfl, rfl⟩) hk.committed hk.ingested
  · obtain ⟨hk, hsame⟩ := expand_keeps hs
    exact h.of_same hsame hk.committed hk.ingested
  · obtain ⟨hk, hhub⟩ := attempt_keeps hs
    exact h.of_same (by rw [hhub]; exact ⟨rfl, rfl⟩) hk.committed hk.ingested

theorem intact_initial (now : Int) : Intact (.initial now) :=
  ⟨rfl, fun _ he => absurd he List.not_mem_nil, fun _ he => absurd he List.not_mem_nil, rfl,
    List.nodup_nil⟩

/-! ## Exactly one -/

/-- A committed event that owes an intent has one row, of its kind and about its own row. -/
theorem Intact.exactly_one (h : Intact s) {e : Incoming × AppliedEvent} (he : e ∈ s.committed)
    {k : String} (hk : intentKind e.1.kind e.1.frame = some k) :
    ∃ i r, e.2.refId k = some i ∧ r.cells .kind = text k ∧ r.cells .refId = integer i ∧
      (s.intents.filter fun r => r.cells .eventKey = text (e.1.eventKey ++ "|" ++ k)) = [r] := by
  have howes := h.kinds e he
  rw [hk] at howes
  obtain ⟨i, hi⟩ := howes.2.1
  obtain ⟨r, hr, hkind, href, hkey⟩ := h.row he hk
  have hmap : (owedOf s.hub.business).map Owed.eventKey =
      s.intents.map fun r => r.cells .eventKey := by
    rw [owedOf, intentsOf, List.map_map, List.map_map]
    rfl
  have hnodup : (s.intents.map fun r => r.cells .eventKey).Nodup := by
    rw [← hmap, h.owed]
    exact h.distinct
  have hfilter := filter_key_eq hnodup hr
  rw [hkey] at hfilter
  rw [hi] at href
  exact ⟨i, r, hi, hkind, href, hfilter⟩

/-- A replay adds no intent. -/
theorem arrive_replay {x : Incoming} (hx : x.key ∈ s.hub.ingested) :
    (arrive s x).intents = s.intents ∧ (arrive s x).committed = s.committed := by
  unfold arrive
  split
  · exact ⟨rfl, rfl⟩
  · rename_i hub hi
    rcases ingest_cases hi with ⟨-, -, -, hsame⟩ | ⟨b, applied, hr, -⟩
    · exact ⟨hsame.rows, rfl⟩
    · cases hr
  · rename_i applied hub hi
    rcases ingest_cases hi with ⟨hr, -⟩ | ⟨b, applied', -, hk, -⟩
    · cases hr
    · exact absurd hx hk

end Air780eHub.Notify
