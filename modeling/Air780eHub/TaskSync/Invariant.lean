/-
  The invariant of task configuration sync.

  Syncs are numbered by the order in which they began (`rank`).  Everything rests on one picture:

      applied by the Agent  |  in its control queue  |  on its connection  |  next to be sent
            ranks ascend from left to right, and all of them are below the connection's BOUND

  so once the sync that began LAST has been applied, whatever the Agent can still read on its
  connection is that same sync again.

  1. `rank`, `Genuine` : a frame belongs to a sync that began, and its revision is that of its list.
  2. `Inv` : the ids are fresh, each connection's bound, the picture above (`track`), what the row
     says, what the receipts say, what the Agent's store holds.
  3. One lemma per step.  Most steps leave every connection `Quiet`.
-/
import Air780eHub.Lib.Table
import Air780eHub.TaskSync.Model

namespace Air780eHub.TaskSync

variable (E : Env)

/-! ## The order of the syncs -/

/-- The place of a sync in the order in which they began. -/
def rank (begun : List (String × String)) (syncId : String) : Nat :=
  (begun.map Prod.fst).idxOf syncId

theorem rank_append {begun : List (String × String)} {syncId : String}
    (h : syncId ∈ begun.map Prod.fst) (x : String × String) :
    rank (begun ++ [x]) syncId = rank begun syncId := by
  unfold rank
  rw [List.map_append]
  exact List.idxOf_append_of_mem h

theorem rank_last {begun : List (String × String)} {fresh : String}
    (h : fresh ∉ begun.map Prod.fst) (revision : String) :
    rank (begun ++ [(fresh, revision)]) fresh = begun.length := by
  unfold rank
  rw [List.map_append, List.idxOf_append_of_notMem h]
  simp

theorem rank_lt_iff {begun : List (String × String)} {syncId : String} :
    rank begun syncId < begun.length ↔ syncId ∈ begun.map Prod.fst := by
  have hlen : begun.length = (begun.map Prod.fst).length := by
    rw [List.length_map]
  unfold rank
  rw [hlen]
  exact List.idxOf_lt_length_iff

theorem rank_inj {begun : List (String × String)} {a b : String}
    (ha : a ∈ begun.map Prod.fst) (h : rank begun a = rank begun b) : a = b :=
  (List.idxOf_inj ha).mp h

/-- The frame belongs to a sync that began, and its revision is that of its list. -/
structure Genuine (begun : List (String × String)) (f : Sync) : Prop where
  known    : (f.syncId, f.revision) ∈ begun
  revision : E.taskRevision f.tasks = f.revision

variable {E}

theorem Genuine.mem {begun : List (String × String)} {f : Sync} (h : Genuine E begun f) :
    f.syncId ∈ begun.map Prod.fst :=
  List.mem_map.mpr ⟨_, h.known, rfl⟩

theorem Genuine.append {begun : List (String × String)} {f : Sync} (h : Genuine E begun f)
    (x : String × String) : Genuine E (begun ++ [x]) f :=
  ⟨List.mem_append.mpr (Or.inl h.known), h.revision⟩

/-! ## The invariant -/

/-- Every frame ever sent on the connection ranks below its bound. -/
def Conn.bound (begun : List (String × String)) (c : Conn) : Nat :=
  if c.syncId = "" then c.openedAt else rank begun c.syncId + 1

variable (E) in
/-- What a push holds. -/
def PushInv (begun : List (String × String)) (c : Conn) : Prop :=
  match c.push with
  | .idle | .checked       => True
  | .prepared p            => Genuine E begun p.sync ∧ c.bound begun ≤ rank begun p.syncId + 1
  | .sending p | .failing p => Genuine E begun p.sync ∧ c.syncId = p.syncId

variable (E) in
/-- One connection. -/
structure ConnInv (begun : List (String × String)) (c : Conn) : Prop where
  bound_le : c.bound begun ≤ begun.length
  push     : PushInv E begun c

/-- The row against the syncs begun and applied: it names no sync, or the one that began last. -/
def RowInv (begun : List (String × String)) (applied : List Sync) (row : Option AgentRow) : Prop :=
  ∀ r, row = some r →
    (r.tasksSyncId = "" ∧ r.tasksSyncStatus ≠ .applied) ∨
    (begun.getLast? = some (r.tasksSyncId, r.tasksRevision) ∧
      (r.tasksSyncStatus = .applied → ∃ a ∈ applied, a.syncId = r.tasksSyncId))

/-- What the Agent can still read on its connection. -/
def State.incoming (s : State) : List Sync :=
  match s.session with
  | some i => (s.conns i).wire
  | none   => []

/-- What the Agent applied, has queued and can still read, in order. -/
def State.track (s : State) : List Sync := s.applied ++ (s.queue ++ s.incoming)

variable (E) in
/-- **The invariant of task sync.** -/
structure Inv (s : State) : Prop where
  nodup    : (s.begun.map Prod.fst).Nodup
  nonempty : "" ∉ s.begun.map Prod.fst
  conns    : ∀ i, ConnInv E s.begun (s.conns i)
  genuine  : ∀ f ∈ s.track, Genuine E s.begun f
  ordered  : s.track.Pairwise fun a b => rank s.begun a.syncId ≤ rank s.begun b.syncId
  below    : ∀ i, s.session = some i →
    ∀ f ∈ s.track, rank s.begun f.syncId < (s.conns i).bound s.begun
  row      : RowInv s.begun s.applied s.row
  receipts : ∀ r ∈ s.receipts, r.get "ok" = .bool true →
    ∃ a ∈ s.applied, r.get "sync_id" = .str a.syncId
  store    : ∀ a, s.applied.getLast? = some a →
    s.store.revision = some a.revision ∧ s.store.Holds a.tasks

/-! ## What leaves a connection as it was -/

/-- The connection's id, mark and wire are as before; a push went on to a point where it holds
    nothing, or is where it was. -/
structure Quiet (c c' : Conn) : Prop where
  syncId   : c'.syncId = c.syncId
  openedAt : c'.openedAt = c.openedAt
  wire     : c'.wire = c.wire
  push     : c'.push = c.push ∨ c'.push = .idle ∨ c'.push = .checked

theorem Quiet.refl (c : Conn) : Quiet c c := ⟨rfl, rfl, rfl, Or.inl rfl⟩

theorem Quiet.bound {c c' : Conn} (h : Quiet c c') (begun : List (String × String)) :
    c'.bound begun = c.bound begun := by
  unfold Conn.bound
  rw [h.syncId, h.openedAt]

theorem ConnInv.quiet {begun : List (String × String)} {c c' : Conn} (h : ConnInv E begun c)
    (hq : Quiet c c') : ConnInv E begun c' := by
  refine ⟨hq.bound begun ▸ h.bound_le, ?_⟩
  have hpush := h.push
  unfold PushInv at hpush ⊢
  rcases hq.push with hp | hp | hp
  · rw [hp, hq.bound, hq.syncId]; exact hpush
  · rw [hp]; trivial
  · rw [hp]; trivial

/-- A sync that begins does not move the others. -/
theorem Conn.bound_append {begun : List (String × String)} {c : Conn}
    (h : c.bound begun ≤ begun.length) (x : String × String) :
    c.bound (begun ++ [x]) = c.bound begun := by
  unfold Conn.bound at h ⊢
  split
  · rfl
  · rename_i hne
    rw [if_neg hne] at h
    rw [rank_append (rank_lt_iff.mp (by omega))]

theorem ConnInv.append {begun : List (String × String)} {c : Conn} (h : ConnInv E begun c)
    (x : String × String) : ConnInv E (begun ++ [x]) c := by
  refine ⟨?_, ?_⟩
  · rw [Conn.bound_append h.bound_le, List.length_append]
    have := h.bound_le
    omega
  · have hpush := h.push
    unfold PushInv at hpush ⊢
    split
    · trivial
    · trivial
    · rename_i p hp
      rw [hp] at hpush
      refine ⟨hpush.1.append x, ?_⟩
      have hrank : rank (begun ++ [x]) p.syncId = rank begun p.syncId :=
        rank_append hpush.1.mem x
      rw [Conn.bound_append h.bound_le, hrank]
      exact hpush.2
    · rename_i p hp
      rw [hp] at hpush
      exact ⟨hpush.1.append x, hpush.2⟩
    · rename_i p hp
      rw [hp] at hpush
      exact ⟨hpush.1.append x, hpush.2⟩

/-! ## Steps that touch only connections or only the row -/

section Steps

variable {s s' : State}

theorem Inv.rows (h : Inv E s) {row : Option AgentRow} (hr : RowInv s.begun s.applied row) :
    Inv E { s with row } :=
  ⟨h.nodup, h.nonempty, h.conns, h.genuine, h.ordered, h.below, hr, h.receipts, h.store⟩

/-- Every connection is quiet. -/
theorem Inv.quiet (h : Inv E s) {conns : Nat → Conn} (hq : ∀ i, Quiet (s.conns i) (conns i))
    (owner : Option Nat) : Inv E { s with conns, owner } := by
  have htrack : State.track { s with conns, owner } = s.track := by
    unfold State.track State.incoming
    dsimp only
    split
    · rw [(hq _).wire]
    · rfl
  constructor
  case nodup => exact h.nodup
  case nonempty => exact h.nonempty
  case conns => exact fun i => (h.conns i).quiet (hq i)
  case genuine => rw [htrack]; exact h.genuine
  case ordered => rw [htrack]; exact h.ordered
  case below =>
    intro i hi
    rw [htrack]
    exact (hq i).bound s.begun ▸ h.below i hi
  case row => exact h.row
  case receipts => exact h.receipts
  case store => exact h.store

/-- One connection is replaced by a quiet one. -/
theorem Inv.setQuiet (h : Inv E s) {i : Nat} {c : Conn} (hq : Quiet (s.conns i) c)
    (owner : Option Nat) : Inv E { s.setConn i c with owner } := by
  refine h.quiet (fun j => ?_) owner
  by_cases hj : j = i
  · rw [hj, State.setConn_self]; exact hq
  · rw [State.setConn_other s c hj]; exact Quiet.refl _

/-- A new phase is quiet. -/
theorem Quiet.phase (c : Conn) (phase : Phase) : Quiet c { c with phase } :=
  ⟨rfl, rfl, rfl, Or.inl rfl⟩

/-- A push that lets go of the lock is quiet. -/
theorem Quiet.idle (c : Conn) : Quiet c { c with push := .idle } :=
  ⟨rfl, rfl, rfl, Or.inr (Or.inl rfl)⟩

/-- A push that takes the lock is quiet. -/
theorem Quiet.checked (c : Conn) : Quiet c { c with push := .checked } :=
  ⟨rfl, rfl, rfl, Or.inr (Or.inr rfl)⟩

theorem inv_hello {i : Nat} (h : Inv E s) (hs : hello s i = some s') : Inv E s' := by
  unfold hello at hs
  split at hs
  · cases hs
    split
    · exact h.setQuiet (Quiet.phase _ _) s.owner
    · exact h.setQuiet (Quiet.phase _ _) (some i)
  · cases hs

theorem inv_persist {i : Nat} (h : Inv E s) (hs : persist s i = some s') : Inv E s' := by
  unfold persist at hs
  split at hs
  · cases hs
    refine h.rows fun r hr => ?_
    cases hrow : s.row with
    | none =>
      rw [hrow] at hr
      cases hr
      exact Or.inl ⟨rfl, nofun⟩
    | some r₀ =>
      rw [hrow] at hr
      exact h.row r (hrow.trans hr)
  · cases hs

theorem inv_becomeReady {i : Nat} (h : Inv E s) (hs : becomeReady s i = some s') : Inv E s' := by
  unfold becomeReady at hs
  split at hs
  · cases hs; exact h.setQuiet (Quiet.phase _ _) s.owner
  · cases hs

theorem inv_disconnect {i : Nat} (h : Inv E s) (hs : disconnect s i = some s') : Inv E s' := by
  unfold disconnect at hs
  split at hs
  · cases hs; exact h.setQuiet (Quiet.phase _ _) s.owner
  · cases hs; exact h.setQuiet (Quiet.phase _ _) s.owner
  · cases hs; exact h.setQuiet (Quiet.phase _ _) s.owner
  · cases hs
  · cases hs

theorem inv_release {i : Nat} (h : Inv E s) (hs : release s i = some s') : Inv E s' := by
  unfold release at hs
  split at hs
  · cases hs; exact h.setQuiet (Quiet.phase _ _) _
  · cases hs

theorem inv_restart (h : Inv E s) : Inv E (restart s) := by
  have hq : ∀ j, Quiet (s.conns j) { s.conns j with phase := .closed, push := .idle } :=
    fun _ => ⟨rfl, rfl, rfl, Or.inr (Or.inl rfl)⟩
  exact h.quiet hq none

theorem inv_pushStart {i : Nat} (h : Inv E s) (hs : pushStart s i = some s') : Inv E s' := by
  unfold pushStart at hs
  split at hs
  · split at hs
    · cases hs; exact h.setQuiet (Quiet.checked _) s.owner
    · cases hs
  · cases hs

theorem inv_pushAbort (h : Inv E s) (i : Nat) : Inv E (pushAbort s i) :=
  h.setQuiet (Quiet.idle _) s.owner

/-! ## `push_tasks` -/

/-- What the Agent can still read after the wire of `i` was set. -/
theorem incoming_setConn {i : Nat} {c : Conn} :
    (s.setConn i c).incoming = if s.session = some i then c.wire else s.incoming := by
  unfold State.incoming
  show (match s.session with
    | some j => ((s.setConn i c).conns j).wire
    | none   => []) = _
  cases hs : s.session with
  | none => exact (if_neg nofun).symm
  | some j =>
    by_cases hji : j = i
    · rw [hji, if_pos rfl]
      exact congrArg Conn.wire (State.setConn_self s i c)
    · rw [if_neg fun heq => hji (Option.some.inj heq)]
      exact congrArg Conn.wire (State.setConn_other s c hji)

/-- The track is the same when the wire is. -/
theorem track_setConn {i : Nat} {c : Conn} (hwire : c.wire = (s.conns i).wire) :
    (s.setConn i c).track = s.track := by
  have hin : (s.setConn i c).incoming = s.incoming := by
    rw [incoming_setConn]
    split
    · rename_i hi
      unfold State.incoming
      rw [hi]; exact hwire
    · rfl
  show s.applied ++ (s.queue ++ (s.setConn i c).incoming) = _
  rw [hin]; rfl

/-- A connection is replaced by one with the same wire and no smaller bound. -/
theorem Inv.setConn (h : Inv E s) {i : Nat} {c : Conn} (hc : ConnInv E s.begun c)
    (hwire : c.wire = (s.conns i).wire)
    (hbound : (s.conns i).bound s.begun ≤ c.bound s.begun) : Inv E (s.setConn i c) := by
  have htrack : (s.setConn i c).track = s.track := track_setConn hwire
  constructor
  case nodup => exact h.nodup
  case nonempty => exact h.nonempty
  case conns =>
    intro j
    by_cases hj : j = i
    · rw [hj, State.setConn_self]; exact hc
    · rw [State.setConn_other s c hj]; exact h.conns j
  case genuine => rw [htrack]; exact h.genuine
  case ordered => rw [htrack]; exact h.ordered
  case below =>
    intro j hj f hf
    rw [htrack] at hf
    have hlt := h.below j hj f hf
    by_cases hji : j = i
    · rw [hji, State.setConn_self]
      rw [hji] at hlt
      exact Nat.lt_of_lt_of_le hlt hbound
    · rw [State.setConn_other s c hji]; exact hlt
  case row => exact h.row
  case receipts => exact h.receipts
  case store => exact h.store

theorem unused_iff {fresh : String} (h : s.unused fresh = true) :
    fresh ≠ "" ∧ fresh ∉ s.begun.map Prod.fst := by
  simpa [State.unused] using h

/-- A sync begins. -/
theorem Inv.begin (h : Inv E s) {fresh : String} (hfresh : s.unused fresh = true)
    {revision : String} {row : Option AgentRow}
    (hr : RowInv (s.begun ++ [(fresh, revision)]) s.applied row) :
    Inv E { s with row := row, begun := s.begun ++ [(fresh, revision)] } := by
  obtain ⟨hne, hnew⟩ := unused_iff hfresh
  have hrank : ∀ f ∈ s.track, rank (s.begun ++ [(fresh, revision)]) f.syncId =
      rank s.begun f.syncId := fun f hf => rank_append (h.genuine f hf).mem _
  constructor
  case nodup =>
    rw [List.map_append]
    exact List.nodup_append.mpr ⟨h.nodup, List.nodup_singleton _, fun a ha b hb heq => by
      rw [heq, List.mem_singleton.mp hb] at ha
      exact hnew ha⟩
  case nonempty =>
    rw [List.map_append]
    intro hmem
    rcases List.mem_append.mp hmem with hmem | hmem
    · exact h.nonempty hmem
    · exact hne (List.mem_singleton.mp hmem).symm
  case conns => exact fun i => (h.conns i).append _
  case genuine => exact fun f hf => (h.genuine f hf).append _
  case ordered =>
    refine h.ordered.imp_of_mem fun {a b} ha hb hle => ?_
    rw [hrank a ha, hrank b hb]; exact hle
  case below =>
    intro i hi f hf
    have hbound := Conn.bound_append (h.conns i).bound_le (fresh, revision)
    show _ < Conn.bound (s.begun ++ [(fresh, revision)]) (s.conns i)
    rw [hrank f hf, hbound]
    exact h.below i hi f hf
  case row => exact hr
  case receipts => exact h.receipts
  case store => exact h.store

/-- The row of a sync that just began. -/
theorem RowInv.begin {begun : List (String × String)} {applied : List Sync}
    {fresh revision : String} {sentAt : Option String} (row : Option AgentRow) :
    RowInv (begun ++ [(fresh, revision)]) applied
      (row.map fun r => beginTaskSync r revision fresh sentAt) := by
  intro r hr
  obtain ⟨r₀, _, rfl⟩ := Option.map_eq_some_iff.mp hr
  exact Or.inr ⟨List.getLast?_concat, nofun⟩

theorem inv_pushPrepare {i : Nat} {fresh now : String} (h : Inv E s)
    (hs : pushPrepare E s i fresh now = some s') : Inv E s' := by
  unfold pushPrepare at hs
  split at hs
  case h_2 => cases hs
  case h_1 hpush =>
    split at hs
    case isFalse => cases hs
    case isTrue hfresh =>
      obtain ⟨hne, hnew⟩ := unused_iff hfresh
      have hle := (h.conns i).bound_le
      split at hs
      rename_i row p hprep
      cases hs
      obtain ⟨htasks, hrev, hnewsync | hsame⟩ := prepareTaskSync_cases hprep
      · obtain ⟨hsid, rfl⟩ := hnewsync
        rw [if_pos hsid]
        have hrow : RowInv (s.begun ++ [(fresh, p.revision)]) s.applied
            (s.row.map fun r => beginTaskSync r p.revision fresh (some now)) := RowInv.begin s.row
        have hbegun := h.begin hfresh hrow
        have hbound := Conn.bound_append hle (fresh, p.revision)
        refine hbegun.setConn (i := i) (c := { s.conns i with push := .prepared p }) ?_ rfl
          (Nat.le_refl _)
        refine ⟨(hbegun.conns i).bound_le, ⟨?_, ?_⟩, ?_⟩
        · show (p.syncId, p.revision) ∈ _
          rw [hsid]
          exact List.mem_append.mpr (Or.inr (List.mem_singleton.mpr rfl))
        · show E.taskRevision p.tasks = p.revision
          rw [htasks, hrev]
        · show Conn.bound _ (s.conns i) ≤ _
          rw [hsid, hbound, rank_last hnew]
          omega
      · obtain ⟨hsid0, hsid, r, sentAt, hrow, hrsid, hrrev, rfl⟩ := hsame
        have hbound : (s.conns i).bound s.begun = rank s.begun p.syncId + 1 := by
          rw [hsid]; exact if_neg hsid0
        have hmem : p.syncId ∈ s.begun.map Prod.fst := rank_lt_iff.mp (by omega)
        have hold : p.syncId ≠ fresh := fun heq => hnew (heq ▸ hmem)
        rw [if_neg hold]
        have hlast : s.begun.getLast? = some (p.syncId, p.revision) := by
          rcases h.row r hrow with ⟨hr, _⟩ | ⟨hr, _⟩
          · rw [hrsid] at hr; exact absurd hr hsid0
          · rw [hr, hrsid, hrrev, hsid]
        have hrows : RowInv s.begun s.applied (some { r with tasksSyncSentAt := sentAt }) := by
          intro r' hr'
          cases hr'
          exact h.row r hrow
        refine (h.rows hrows).setConn (i := i) (c := { s.conns i with push := .prepared p }) ?_ rfl
          (Nat.le_refl _)
        refine ⟨hle, ⟨?_, ?_⟩, Nat.le_of_eq hbound⟩
        · exact List.mem_of_getLast? hlast
        · show E.taskRevision p.tasks = p.revision
          rw [htasks, hrev]

theorem inv_pushOffline {fresh : String} (h : Inv E s)
    (hs : pushOffline E s fresh = some s') : Inv E s' := by
  unfold pushOffline at hs
  split at hs
  case isFalse => cases hs
  case isTrue hfresh =>
    obtain ⟨hne, hnew⟩ := unused_iff hfresh
    split at hs
    rename_i row p hprep
    cases hs
    obtain ⟨hrev, ⟨r, hrow, rfl⟩ | rfl⟩ := prepareTaskSync_offline hprep
    · have hsid : (some (beginTaskSync r p.revision fresh none)).map AgentRow.tasksSyncId =
          some fresh := rfl
      rw [if_pos hsid]
      exact h.begin hfresh (RowInv.begin (some r))
    · rw [if_neg]
      · exact h
      · intro heq
        obtain ⟨r, hr, hsid⟩ := Option.map_eq_some_iff.mp heq
        rcases h.row r hr with ⟨h0, _⟩ | ⟨hlast, _⟩
        · exact hne (hsid ▸ h0)
        · exact hnew (List.mem_map.mpr ⟨_, List.mem_of_getLast? hlast, hsid⟩)

theorem inv_pushRecheck {i : Nat} (h : Inv E s) (hs : pushRecheck s i = some s') : Inv E s' := by
  unfold pushRecheck at hs
  split at hs
  case h_2 => cases hs
  case h_1 p hp =>
    cases hs
    split
    · have hpush := (h.conns i).push
      unfold PushInv at hpush
      rw [hp] at hpush
      obtain ⟨hgen, hle⟩ := hpush
      have hmem : p.syncId ∈ s.begun.map Prod.fst := hgen.mem
      have hne : p.syncId ≠ "" := fun heq => h.nonempty (heq ▸ hmem)
      have hbound : ∀ push, Conn.bound s.begun { s.conns i with syncId := p.syncId, push } =
          rank s.begun p.syncId + 1 := fun _ => if_neg hne
      refine h.setConn ⟨?_, ?_⟩ rfl ?_
      · rw [hbound]; exact rank_lt_iff.mpr hmem
      · unfold PushInv
        dsimp only
        split
        · trivial
        · trivial
        · rename_i q hq
          split at hq <;> cases hq
        · rename_i q hq
          split at hq
          · cases hq; exact ⟨hgen, rfl⟩
          · cases hq
        · rename_i q hq
          split at hq <;> cases hq
      · rw [hbound]; exact hle
    · exact h.setQuiet (Quiet.idle _) s.owner

/-- A frame is put on the wire of the connection whose id it carries. -/
theorem Inv.arrive (h : Inv E s) {i : Nat} {p : Prepared} {push : Push}
    (hgen : Genuine E s.begun p.sync) (hsid : (s.conns i).syncId = p.syncId)
    (hc : ConnInv E s.begun { s.conns i with wire := (s.conns i).wire ++ [p.sync], push }) :
    Inv E (s.setConn i { s.conns i with wire := (s.conns i).wire ++ [p.sync], push }) := by
  have hne : (s.conns i).syncId ≠ "" := fun heq => h.nonempty (heq ▸ hsid ▸ hgen.mem)
  have hbound : (s.conns i).bound s.begun = rank s.begun p.syncId + 1 := by
    rw [← hsid]; exact if_neg hne
  have hconns : ∀ j, (s.setConn i { s.conns i with
      wire := (s.conns i).wire ++ [p.sync], push }).conns j =
      if j = i then { s.conns i with wire := (s.conns i).wire ++ [p.sync], push }
      else s.conns j := fun _ => rfl
  have hbounds : ∀ j, ((s.setConn i { s.conns i with
      wire := (s.conns i).wire ++ [p.sync], push }).conns j).bound s.begun =
      (s.conns j).bound s.begun := by
    intro j
    rw [hconns]
    split
    · rename_i hji; rw [hji]; rfl
    · rfl
  have htrack : (s.setConn i { s.conns i with
      wire := (s.conns i).wire ++ [p.sync], push }).track =
      if s.session = some i then s.track ++ [p.sync] else s.track := by
    show s.applied ++ (s.queue ++ State.incoming _) = _
    rw [incoming_setConn]
    split
    · rename_i hi
      unfold State.track State.incoming
      rw [hi]
      simp only [List.append_assoc]
    · rfl
  have hsub : ∀ f ∈ (s.setConn i { s.conns i with
      wire := (s.conns i).wire ++ [p.sync], push }).track,
      f ∈ s.track ∨ (s.session = some i ∧ f = p.sync) := by
    intro f hf
    rw [htrack] at hf
    split at hf
    · rename_i hi
      rcases List.mem_append.mp hf with hf | hf
      · exact Or.inl hf
      · exact Or.inr ⟨hi, List.mem_singleton.mp hf⟩
    · exact Or.inl hf
  constructor
  case nodup => exact h.nodup
  case nonempty => exact h.nonempty
  case conns =>
    intro j
    rw [hconns]
    split
    · exact hc
    · exact h.conns j
  case genuine =>
    intro f hf
    rcases hsub f hf with hf | ⟨_, rfl⟩
    · exact h.genuine f hf
    · exact hgen
  case ordered =>
    rw [htrack]
    split
    · rename_i hi
      refine List.pairwise_append.mpr ⟨h.ordered, List.pairwise_singleton _ _, ?_⟩
      -- whatever the Agent has or will have read ranks below the bound, which is this sync's
      intro a ha b hb
      have hlt := h.below i hi a ha
      rw [List.mem_singleton.mp hb]
      show rank s.begun a.syncId ≤ rank s.begun p.syncId
      omega
    · exact h.ordered
  case below =>
    intro j hj f hf
    show _ < Conn.bound s.begun _
    rw [hbounds j]
    rcases hsub f hf with hf | ⟨hi, rfl⟩
    · exact h.below j hj f hf
    · have hji : j = i := Option.some.inj (hj.symm.trans hi)
      rw [hji, hbound]
      exact Nat.lt_succ_self _
  case row => exact h.row
  case receipts => exact h.receipts
  case store => exact h.store

theorem inv_pushSend {i : Nat} {arrives ok : Bool} (h : Inv E s)
    (hs : pushSend s i arrives ok = some s') : Inv E s' := by
  unfold pushSend at hs
  split at hs
  case h_2 => cases hs
  case h_1 p hp =>
    cases hs
    have hpush := (h.conns i).push
    unfold PushInv at hpush
    rw [hp] at hpush
    obtain ⟨hgen, hsid⟩ := hpush
    have hc : ∀ wire, ConnInv E s.begun
        { s.conns i with wire, push := if ok then .idle else .failing p } := by
      intro wire
      refine ⟨(h.conns i).bound_le, ?_⟩
      unfold PushInv
      cases ok with
      | true => trivial
      | false => exact ⟨hgen, hsid⟩
    cases arrives with
    | true => exact h.arrive hgen hsid (hc _)
    | false => exact h.setConn (hc _) rfl (Nat.le_refl _)

/-! ## Receipts -/

theorem inv_pushFail {i : Nat} {now : String} (h : Inv E s)
    (hs : pushFail s i now = some s') : Inv E s' := by
  unfold pushFail at hs
  split at hs
  case h_2 => cases hs
  case h_1 p hp =>
    cases hs
    refine (h.setQuiet (Quiet.idle _) s.owner).rows fun r hr => ?_
    obtain ⟨r₀, hr₀, rfl⟩ := Option.map_eq_some_iff.mp hr
    obtain ⟨hrev, hsid, hst⟩ := finish_cases r₀ p.revision p.syncId false pushFailed now
    have hkeep : (finishTaskSync r₀ p.revision p.syncId false pushFailed now).tasksSyncStatus =
        .applied → r₀.tasksSyncStatus = .applied := by
      intro happ
      rcases hst happ with h' | ⟨hfalse, _⟩
      · exact h'
      · cases hfalse
    rw [hrev, hsid]
    rcases h.row r₀ hr₀ with ⟨h0, hne⟩ | ⟨hlast, happ⟩
    · exact Or.inl ⟨h0, fun h' => hne (hkeep h')⟩
    · exact Or.inr ⟨hlast, fun h' => happ (hkeep h')⟩

theorem inv_deliver {k : Nat} {now : String} (h : Inv E s)
    (hs : deliver s k now = some s') : Inv E s' := by
  obtain ⟨frame, hframe, rfl⟩ := Option.map_eq_some_iff.mp hs
  refine h.rows fun r hr => ?_
  obtain ⟨r₀, hr₀, rfl⟩ := Option.map_eq_some_iff.mp hr
  obtain ⟨hrev, hsid, hst⟩ := applyTasksApplied_cases r₀ frame now
  have hreceipt := h.receipts frame (List.mem_of_getElem? hframe)
  -- a success receipt that names the row's sync is of a sync the Agent applied
  have hkeep : (applyTasksApplied r₀ frame now).tasksSyncStatus = .applied →
      r₀.tasksSyncStatus = .applied ∨ ∃ a ∈ s.applied, a.syncId = r₀.tasksSyncId := by
    intro happ
    rcases hst happ with h' | ⟨hok, _, hsid'⟩
    · exact Or.inl h'
    · obtain ⟨a, ha, hsid''⟩ := hreceipt hok
      rw [hsid'] at hsid''
      exact Or.inr ⟨a, ha, (Value.str.inj hsid'').symm⟩
  rw [hrev, hsid]
  rcases h.row r₀ hr₀ with ⟨h0, hne⟩ | ⟨hlast, happ⟩
  · refine Or.inl ⟨h0, fun h' => ?_⟩
    rcases hkeep h' with h' | ⟨a, ha, hsid'⟩
    · exact hne h'
    · have hmem := (h.genuine a (List.mem_append.mpr (Or.inl ha))).mem
      rw [hsid', h0] at hmem
      exact h.nonempty hmem
  · refine Or.inr ⟨hlast, fun h' => ?_⟩
    rcases hkeep h' with h' | h'
    · exact happ h'
    · exact h'

/-! ## The Agent -/

/-- What the Agent can still read is shortened, and its session stays or ends. -/
theorem Inv.shorten (h : Inv E s) (hnodup : s'.begun = s.begun) (hconns : ∀ i,
      ConnInv E s.begun (s'.conns i) ∧ (s'.conns i).bound s.begun = (s.conns i).bound s.begun)
    (hsession : ∀ i, s'.session = some i → s.session = some i)
    (htrack : s'.track.Sublist s.track) (happlied : s'.applied = s.applied)
    (hrow : s'.row = s.row) (hreceipts : s'.receipts = s.receipts) (hstore : s'.store = s.store) :
    Inv E s' := by
  constructor
  case nodup => rw [hnodup]; exact h.nodup
  case nonempty => rw [hnodup]; exact h.nonempty
  case conns => rw [hnodup]; exact fun i => (hconns i).1
  case genuine => rw [hnodup]; exact fun f hf => h.genuine f (htrack.subset hf)
  case ordered => rw [hnodup]; exact h.ordered.sublist htrack
  case below =>
    intro i hi f hf
    rw [hnodup, (hconns i).2]
    exact h.below i (hsession i hi) f (htrack.subset hf)
  case row => rw [hnodup, happlied, hrow]; exact h.row
  case receipts => rw [happlied, hreceipts]; exact h.receipts
  case store => rw [happlied, hstore]; exact h.store

theorem inv_drop (h : Inv E s) : Inv E (drop s) := by
  refine h.shorten rfl (fun i => ⟨h.conns i, rfl⟩) nofun ?_ rfl rfl rfl rfl
  show (s.applied ++ ([] ++ [])).Sublist (s.applied ++ (s.queue ++ s.incoming))
  exact (List.nil_sublist _).append_left _

theorem inv_receive {accepted : Bool} (h : Inv E s) (hs : receive s accepted = some s') :
    Inv E s' := by
  unfold receive at hs
  split at hs
  case h_1 => cases hs
  case h_2 i hi =>
    split at hs
    case h_1 => cases hs
    case h_2 f rest hwire =>
      have hin : s.incoming = f :: rest := by
        unfold State.incoming
        rw [hi]; exact hwire
      have hconns : ∀ j, ConnInv E s.begun ((s.setConn i { s.conns i with wire := rest }).conns j) ∧
          ((s.setConn i { s.conns i with wire := rest }).conns j).bound s.begun =
            (s.conns j).bound s.begun := by
        intro j
        by_cases hj : j = i
        · rw [hj, State.setConn_self]
          exact ⟨⟨(h.conns i).bound_le, (h.conns i).push⟩, rfl⟩
        · rw [State.setConn_other _ _ hj]
          exact ⟨h.conns j, rfl⟩
      cases accepted with
      | true =>
        cases hs
        refine h.shorten rfl hconns (fun _ hj => hj) ?_ rfl rfl rfl rfl
        have hin' : (s.setConn i { s.conns i with wire := rest }).incoming = rest := by
          rw [incoming_setConn, if_pos hi]
        show (s.applied ++ ((s.queue ++ [f]) ++
          (s.setConn i { s.conns i with wire := rest }).incoming)).Sublist
            (s.applied ++ (s.queue ++ s.incoming))
        rw [hin, hin', List.append_assoc, List.singleton_append]
      | false =>
        cases hs
        refine h.shorten rfl hconns nofun ?_ rfl rfl rfl rfl
        show (s.applied ++ ([] ++ [])).Sublist (s.applied ++ (s.queue ++ s.incoming))
        exact (List.nil_sublist _).append_left _

theorem inv_connect (h : Inv E s) (hs : connect s = some s') : Inv E s' := by
  unfold connect at hs
  split at hs
  case h_1 => cases hs
  case h_2 hnone =>
    cases hs
    have hin : s.incoming = [] := by
      unfold State.incoming
      rw [hnone]
    have htrack : State.track { s.setConn s.opened (.open s.begun.length) with
        session := some s.opened, opened := s.opened + 1 } = s.track := by
      show s.applied ++ (s.queue ++ ((s.setConn s.opened (.open s.begun.length)).conns
        s.opened).wire) = s.applied ++ (s.queue ++ s.incoming)
      rw [State.setConn_self, hin]; rfl
    constructor
    case nodup => exact h.nodup
    case nonempty => exact h.nonempty
    case conns =>
      intro i
      show ConnInv E s.begun ((s.setConn s.opened (.open s.begun.length)).conns i)
      by_cases hi : i = s.opened
      · rw [hi, State.setConn_self]
        exact ⟨Nat.le_refl _, trivial⟩
      · rw [State.setConn_other _ _ hi]; exact h.conns i
    case genuine => rw [htrack]; exact h.genuine
    case ordered => rw [htrack]; exact h.ordered
    case below =>
      intro i hi f hf
      cases hi
      rw [htrack] at hf
      show _ < Conn.bound s.begun ((s.setConn s.opened (.open s.begun.length)).conns s.opened)
      rw [State.setConn_self]
      exact rank_lt_iff.mpr (h.genuine f hf).mem
    case row => exact h.row
    case receipts => exact h.receipts
    case store => exact h.store

theorem TaskStore.Holds.noteRun {st : TaskStore} {tasks : List Value} (h : st.Holds tasks)
    (id : Int) (last next : Option String) :
    TaskStore.Holds { st with tasks := st.tasks.map fun r =>
      if r.id = id then { r with lastRunAt := last, nextRunAt := next } else r } tasks := by
  intro n columns
  rw [← h n columns]
  constructor
  · rintro ⟨row, hrow, rfl, rfl⟩
    obtain ⟨r, hr, rfl⟩ := List.mem_map.mp hrow
    refine ⟨r, hr, ?_⟩
    split <;> exact ⟨rfl, rfl⟩
  · rintro ⟨row, hrow, rfl, rfl⟩
    refine ⟨_, List.mem_map.mpr ⟨row, hrow, rfl⟩, ?_⟩
    split <;> exact ⟨rfl, rfl⟩

theorem inv_noteRun (h : Inv E s) (id : Int) (last next : Option String) :
    Inv E (noteRun s id last next) :=
  ⟨h.nodup, h.nonempty, h.conns, h.genuine, h.ordered, h.below, h.row, h.receipts,
    fun a ha => ⟨(h.store a ha).1, (h.store a ha).2.noteRun id last next⟩⟩

theorem inv_execute {fault : Bool} (h : Inv E s) (hs : execute E s fault = some s') :
    Inv E s' := by
  unfold execute at hs
  split at hs
  case h_1 => cases hs
  case h_2 f rest hqueue =>
    split at hs
    rename_i store out hcmd
    cases hs
    have htrack : s.track = (s.applied ++ [f]) ++ (rest ++ s.incoming) := by
      unfold State.track
      rw [hqueue, List.append_assoc]; rfl
    rcases cmdSyncTasks_spec hcmd with ⟨_, hrev, hrep, rfl⟩ | ⟨rfl, hout⟩
    · -- the list is applied: the frame moves from the queue to the applied ones
      rw [if_pos (by rfl)]
      constructor
      case nodup => exact h.nodup
      case nonempty => exact h.nonempty
      case conns => exact h.conns
      case genuine => exact fun g hg => h.genuine g (htrack ▸ hg)
      case ordered =>
        have hord := h.ordered
        rw [htrack] at hord
        exact hord
      case below => exact fun i hi g hg => h.below i hi g (htrack ▸ hg)
      case row =>
        intro r hr
        rcases h.row r hr with h0 | ⟨hlast, happ⟩
        · exact Or.inl h0
        · refine Or.inr ⟨hlast, fun hst => ?_⟩
          obtain ⟨a, ha, hsid⟩ := happ hst
          exact ⟨a, List.mem_append.mpr (Or.inl ha), hsid⟩
      case receipts =>
        intro r hr hok
        rcases List.mem_append.mp hr with hr | hr
        · obtain ⟨a, ha, hsid⟩ := h.receipts r hr hok
          exact ⟨a, List.mem_append.mpr (Or.inl ha), hsid⟩
        · obtain rfl := List.mem_singleton.mp hr
          exact ⟨f, List.mem_append.mpr (Or.inr (List.mem_singleton.mpr rfl)), rfl⟩
      case store =>
        intro a ha
        obtain rfl : f = a := Option.some.inj (List.getLast?_concat.symm.trans ha)
        exact ⟨hrev, replaceTasks_holds E hrep⟩
    · -- nothing is applied: the frame is gone, and the receipt if any reports a failure
      have hfail : ∀ r, out = some r → r.get "ok" = .bool false := by
        intro r hr
        obtain ⟨code, rfl⟩ := hout r hr
        rfl
      have hnot : ¬succeeded out = true := by
        cases hout : out with
        | none => exact nofun
        | some r => simp [succeeded, hfail r hout]
      rw [if_neg hnot]
      have hsub : (s.applied ++ (rest ++ s.incoming)).Sublist s.track := by
        unfold State.track
        rw [hqueue]
        exact ((List.sublist_cons_self f rest).append_right _).append_left _
      constructor
      case nodup => exact h.nodup
      case nonempty => exact h.nonempty
      case conns => exact h.conns
      case genuine => exact fun g hg => h.genuine g (hsub.subset hg)
      case ordered => exact h.ordered.sublist hsub
      case below => exact fun i hi g hg => h.below i hi g (hsub.subset hg)
      case row => exact h.row
      case receipts =>
        intro r hr hok
        rcases List.mem_append.mp hr with hr | hr
        · exact h.receipts r hr hok
        · rw [hfail r (Option.mem_toList.mp hr)] at hok
          cases hok
      case store => exact h.store

/-! ## The whole run -/

/-- **Every step preserves the invariant.** -/
theorem inv_step {a : Action} (h : Inv E s) (hs : step E s a = some s') : Inv E s' := by
  cases a with
  | edit tasks =>
    cases hs
    exact ⟨h.nodup, h.nonempty, h.conns, h.genuine, h.ordered, h.below, h.row, h.receipts, h.store⟩
  | hello i => exact inv_hello h hs
  | persist i => exact inv_persist h hs
  | becomeReady i => exact inv_becomeReady h hs
  | disconnect i => exact inv_disconnect h hs
  | release i => exact inv_release h hs
  | restart => cases hs; exact inv_restart h
  | pushStart i => exact inv_pushStart h hs
  | pushPrepare i fresh now => exact inv_pushPrepare h hs
  | pushOffline fresh => exact inv_pushOffline h hs
  | pushRecheck i => exact inv_pushRecheck h hs
  | pushSend i arrives ok => exact inv_pushSend h hs
  | pushFail i now => exact inv_pushFail h hs
  | pushAbort i => cases hs; exact inv_pushAbort h i
  | deliver k now => exact inv_deliver h hs
  | connect => exact inv_connect h hs
  | drop => cases hs; exact inv_drop h
  | receive accepted => exact inv_receive h hs
  | execute fault => exact inv_execute h hs
  | noteRun id last next => cases hs; exact inv_noteRun h id last next

theorem inv_init (tasks : List Value) : Inv E (.init tasks) where
  nodup    := List.nodup_nil
  nonempty := nofun
  conns    := fun _ => ⟨Nat.le_refl _, trivial⟩
  genuine  := nofun
  ordered  := .nil
  below    := nofun
  row      := nofun
  receipts := nofun
  store    := nofun

theorem inv_reachable (h : (machine E).Reachable s) : Inv E s := by
  refine h.invariant (I := Inv E) ?_ ?_
  · rintro s₀ ⟨tasks, rfl⟩
    exact inv_init tasks
  · intro s₀ a s₁ hi _ hs
    exact inv_step hi hs

end Steps

end Air780eHub.TaskSync
