/-
  The list of threads against the threads themselves.

  `conversations` groups the messages by card and correspondent and counts each group with queries
  of its own; a thread is then read, and marked read, through the `MessageScope` that names it.  The
  two are the same condition except for the empty correspondent: the list has a thread for it, and
  the scope, which tests its peer for truth, drops the clause and names the whole card.

  1. **`conversations`**.
  2. **The scope of a thread**: what it covers, with and without a correspondent.
  3. **`Reads`**: the row of the list says what the reads through its scope say.
  4. **`reads_iff`**: when every row does.
-/
import Air780eHub.Messages.Scope

namespace Air780eHub.Messages

open Select

/-! ## The list -/

/-- `{summary,recent,unread}_filter`: `is_binary = :is_binary` for a known content. -/
def shown (content : Option String) (m : Message) : Bool :=
  if content = some "text" ∨ content = some "data" then
    m.isBinary == (if content = some "data" then 1 else 0)
  else true

/-- A row of `WITH summary AS (…)`. -/
structure Summary where
  simId        : Option Int
  peer         : String
  lastTs       : String
  messageCount : Nat

/-- The messages of a thread under a content filter. -/
def inThread (content : Option String) (thread : Option Int × String) (m : Message) : Bool :=
  decide (m.thread = thread) && shown content m

/-- `SELECT m.sim_id, m.peer, MAX(m.ts), COUNT(*) … GROUP BY m.sim_id, m.peer
    ORDER BY last_ts DESC LIMIT :limit`. -/
def summary (messages : List Message) (limit : Nat) (content : Option String) : List Summary :=
  let groups := groupKeys Message.thread (messages.filter (shown content))
  let rows := groups.map fun thread =>
    let group := messages.filter (inThread content thread)
    (⟨thread.1, thread.2, (group.map Message.ts).foldr max "", group.length⟩ : Summary)
  (rows.insertionSort fun a b => b.lastTs ≤ a.lastTs).take limit

/-- A row of `conversations()`. -/
structure Thread where
  simId             : Option Int
  peer              : String
  device            : String
  lastId            : Nat
  lastBody          : String
  lastIsBinary      : Int
  lastTruncated     : Int
  lastRecoveredBody : Option String
  lastDirection     : String
  lastStatus        : String
  lastTs            : String
  messageCount      : Nat
  unreadCount       : Nat
  simLabel          : Option String
  simIccid          : Option String

/-- `latest.id = (SELECT recent.id … ORDER BY recent.ts DESC, recent.id DESC LIMIT 1)`. -/
def isLatest (messages : List Message) (content : Option String) (s : Summary) (m : Message) :
    Bool :=
  (((messages.filter (inThread content (s.simId, s.peer))).insertionSort newerFirst).head?.map
    Message.id) == some m.id

/-- The columns `conversations` selects of a thread, its newest message and its card. -/
def selectThread (messages : List Message) (content : Option String)
    (row : (Summary × Message) × Option Sim) : Thread :=
  let (s, m) := row.1
  { simId := s.simId, peer := s.peer, device := m.device, lastId := m.id, lastBody := m.body
    lastIsBinary := m.isBinary, lastTruncated := m.truncated, lastRecoveredBody := m.recoveredBody
    lastDirection := m.direction, lastStatus := m.status, lastTs := s.lastTs
    messageCount := s.messageCount
    unreadCount := (messages.filter fun u =>
      inThread content (s.simId, s.peer) u && u.unread).length
    simLabel := row.2.map Sim.label, simIccid := row.2.map Sim.iccid }

/-- `Database.conversations`. -/
def Tables.conversations (db : Tables) (limit : Nat := 200) (content : Option String := none) :
    List Thread :=
  let latest := join (isLatest db.messages content) (summary db.messages limit content) db.messages
  let rows := leftJoin (fun (r : Summary × Message) s => r.1.simId == some s.id) latest db.sims
  (rows.insertionSort fun a b => b.1.1.lastTs ≤ a.1.1.lastTs).map (selectThread db.messages content)

/-! ## The scope of a thread -/

/-- The scope that names a thread under a content filter. -/
def Thread.scope (t : Thread) (content : Option String) : MessageScope :=
  { sim := t.simId.elim .unassigned .card, peer := some t.peer, content }

/-- A request names the scope of a thread with its card, or with `sim_scope=unassigned`. -/
theorem messageScope_thread (t : Thread) (content : Option String) :
    messageScope t.simId t.simId.isNone none (some t.peer) none content = .ok (t.scope content) := by
  rw [messageScope, Thread.scope]
  cases t.simId <;> rfl

variable {db : Tables} {content : Option String} {t : Thread}

theorem all_contentClauses (content : Option String) (m : Message) :
    ((contentClauses content).all fun clause => clause m) = shown content m := by
  unfold contentClauses shown
  by_cases ht : content = some "text"
  · subst ht
    simp
  · by_cases hd : content = some "data"
    · subst hd
      simp
    · simp [ht, hd]

theorem all_simClauses (i : Option Int) (m : Message) :
    (((i.elim .unassigned .card : SimScope).clauses).all fun clause => clause m) =
      decide (m.simId = i) := by
  cases i with
  | none =>
    rw [Bool.eq_iff_iff]
    simp [SimScope.clauses]
  | some i =>
    rw [Bool.eq_iff_iff]
    simp [SimScope.clauses]

/-- **What the scope of a thread covers**: the messages of its card that have its correspondent,
    or any where that is empty. -/
theorem covers_scope (t : Thread) (content : Option String) (m : Message) :
    (t.scope content).covers m =
      (decide (m.simId = t.simId) && (decide (t.peer = "") || m.peer == t.peer) &&
        shown content m) := by
  have hpeer : ((clause (some t.peer) fun p m => m.peer == p).all fun clause => clause m) =
      (decide (t.peer = "") || m.peer == t.peer) := by
    by_cases h : t.peer = "" <;> simp [clause, h]
  have hnone : ∀ f, clause none f = [] := fun _ => rfl
  simp only [MessageScope.covers, MessageScope.clauses, Thread.scope, List.all_append, hnone,
    List.all_nil, Bool.and_true, hpeer, all_contentClauses, all_simClauses]

/-- The scope covers its thread. -/
theorem covers_of_inThread {m : Message} (h : inThread content (t.simId, t.peer) m = true) :
    (t.scope content).covers m = true := by
  simp only [inThread, Message.thread, Prod.mk.injEq, Bool.and_eq_true, decide_eq_true_eq] at h
  rw [covers_scope]
  simp [h]

/-- A correspondent with a name: the scope covers its thread and nothing else. -/
theorem covers_eq (h : t.peer ≠ "") (m : Message) :
    (t.scope content).covers m = inThread content (t.simId, t.peer) m := by
  rw [covers_scope]
  simp [inThread, Message.thread, h, Bool.decide_and, beq_eq_decide]

/-! ## The rows of the list -/

/-- What a row of the list says of its thread. -/
structure Listed (db : Tables) (content : Option String) (t : Thread) : Prop where
  lastId : (((db.messages.filter (inThread content (t.simId, t.peer))).insertionSort
    newerFirst).head?.map Message.id) = some t.lastId
  messageCount : t.messageCount = (db.messages.filter (inThread content (t.simId, t.peer))).length
  unreadCount : t.unreadCount = (db.messages.filter fun m =>
    inThread content (t.simId, t.peer) m && m.unread).length

/-- Every row of the list says so of its thread. -/
theorem listed_of_mem {limit : Nat} (h : t ∈ db.conversations limit content) :
    Listed db content t := by
  obtain ⟨⟨⟨s, m⟩, card⟩, hrow, rfl⟩ := List.mem_map.mp h
  have hjoin := mem_of_mem_leftJoin ((List.mem_insertionSort _).mp hrow)
  obtain ⟨hs, -, hlatest⟩ := mem_join.mp hjoin
  have hs' := (List.mem_insertionSort _).mp (List.mem_of_mem_take hs)
  obtain ⟨thread, -, rfl⟩ := List.mem_map.mp hs'
  exact ⟨beq_iff_eq.mp hlatest, rfl, rfl⟩

/-- A thread with a message the filter shows is in the list, when the list is long enough. -/
theorem exists_listed (db : Tables) (content : Option String) {m : Message} (hm : m ∈ db.messages) (hshown : shown content m = true) :
    ∃ limit, ∃ t ∈ db.conversations limit content, t.simId = m.simId ∧ t.peer = m.peer := by
  have hkey : m.thread ∈ groupKeys Message.thread (db.messages.filter (shown content)) :=
    mem_groupKeys.mpr ⟨m, List.mem_filter.mpr ⟨hm, hshown⟩, rfl⟩
  have hin : m ∈ db.messages.filter (inThread content m.thread) := by
    refine List.mem_filter.mpr ⟨hm, ?_⟩
    rw [inThread, hshown, decide_eq_true rfl]
    rfl
  generalize hgroup : db.messages.filter (inThread content m.thread) = group at hin
  let s : Summary := ⟨m.simId, m.peer, (group.map Message.ts).foldr max "", group.length⟩
  have hs : s ∈ summary db.messages
      (groupKeys Message.thread (db.messages.filter (shown content))).length content := by
    rw [summary, List.take_of_length_le (by rw [List.length_insertionSort, List.length_map])]
    refine (List.mem_insertionSort _).mpr (List.mem_map.mpr ⟨m.thread, hkey, ?_⟩)
    show Summary.mk _ _ _ _ = s
    rw [hgroup]
    rfl
  -- the newest message of the thread
  have hne : group.insertionSort newerFirst ≠ [] := by
    intro hnil
    have hmem := (List.mem_insertionSort newerFirst).mpr hin
    rw [hnil] at hmem
    exact absurd hmem List.not_mem_nil
  obtain ⟨newest, rest, hsort⟩ := List.exists_cons_of_ne_nil hne
  have hnewest : newest ∈ db.messages := by
    have hmem : newest ∈ group :=
      (List.mem_insertionSort newerFirst).mp (by rw [hsort]; exact List.mem_cons_self)
    rw [← hgroup] at hmem
    exact (List.mem_filter.mp hmem).1
  have hlatest : isLatest db.messages content s newest = true := by
    show ((((db.messages.filter (inThread content m.thread)).insertionSort newerFirst).head?.map
      Message.id) == some newest.id) = true
    rw [hgroup, hsort]
    exact beq_self_eq_true _
  have hjoin : (s, newest) ∈ join (isLatest db.messages content) _ db.messages :=
    mem_join.mpr ⟨hs, hnewest, hlatest⟩
  obtain ⟨card, hrow⟩ := exists_mem_leftJoin (fun r (s : Sim) => r.1.simId == some s.id) hjoin
    db.sims
  exact ⟨_, _, List.mem_map.mpr ⟨_, (List.mem_insertionSort _).mpr hrow, rfl⟩, rfl, rfl⟩

/-! ## The list and the reads -/

/-- A row of the list agrees with the reads through the scope that names its thread, and marking
    that scope read changes the unread messages it reads and no message of another thread. -/
structure Reads (db : Tables) (content : Option String) (t : Thread) : Prop where
  lastId : (db.read (t.scope content) none).head?.map (·.message.id) = some t.lastId
  messageCount : (db.read (t.scope content) none).length = t.messageCount
  unreadCount : ((db.read (t.scope content) none).filter (·.message.unread)).length = t.unreadCount
  marked : ∀ now, (db.markRead (t.scope content) none now).1.messages = db.messages.map fun m =>
    if m ∈ ((db.read (t.scope content) none).map (·.message)).filter Message.unread
    then m.markedRead now else m
  others : ∀ now, ∀ m ∈ db.messages, m.thread ≠ (t.simId, t.peer) →
    m ∈ (db.markRead (t.scope content) none now).1.messages

/-- Marking a scope read changes the unread messages its read returns. -/
theorem markRead_read (db : Tables) (scope : MessageScope) (now : String) :
    (db.markRead scope none now).1.messages = db.messages.map fun m =>
      if m ∈ ((db.read scope none).map (·.message)).filter Message.unread
      then m.markedRead now else m := by
  refine List.map_congr_left fun m hm => ?_
  have hiff : scope.marks none m = true ↔
      m ∈ ((db.read scope none).map (·.message)).filter Message.unread := by
    rw [List.mem_filter, read_messages, List.mem_insertionSort, List.mem_filter]
    simp [MessageScope.marks, hm]
  simp only [hiff]

/-- A row of the list agrees where its scope covers its thread and nothing else. -/
theorem reads_of_covers (hl : Listed db content t)
    (h : ∀ m ∈ db.messages, (t.scope content).covers m = inThread content (t.simId, t.peer) m) :
    Reads db content t := by
  have hfilter : db.messages.filter (t.scope content).covers =
      db.messages.filter (inThread content (t.simId, t.peer)) := List.filter_congr h
  have hread := read_messages db (t.scope content)
  rw [hfilter] at hread
  refine ⟨?_, ?_, ?_, markRead_read db _, fun now m hm hother => ?_⟩
  · rw [← hl.lastId, ← hread, List.head?_map, Option.map_map]
    rfl
  · rw [hl.messageCount, ← List.length_map (f := MessageView.message), hread,
      List.length_insertionSort]
  · rw [hl.unreadCount, ← List.length_map (f := MessageView.message)]
    have hmap : ((db.read (t.scope content) none).filter (·.message.unread)).map
        MessageView.message =
        ((db.read (t.scope content) none).map MessageView.message).filter Message.unread := by
      rw [List.filter_map]
      rfl
    rw [hmap, hread, ((List.perm_insertionSort _ _).filter _).length_eq, List.filter_filter]
    exact congrArg List.length (List.filter_congr fun m _ => Bool.and_comm _ _)
  · have hspared : (t.scope content).marks none m = false := by
      rw [MessageScope.marks, h m hm, inThread, decide_eq_false hother]
      rfl
    exact List.mem_map.mpr ⟨m, hm, if_neg (by rw [hspared]; decide)⟩

/-- No card has messages of an empty and of another correspondent, among those the filter shows. -/
def EmptyPeerAlone (db : Tables) (content : Option String) : Prop :=
  ∀ m ∈ db.messages, ∀ n ∈ db.messages, shown content m = true → shown content n = true →
    m.simId = n.simId → m.peer = "" → n.peer = ""

/-- **The list and the reads agree exactly when no card has a thread without a correspondent
    beside another.** -/
theorem reads_iff (db : Tables) (content : Option String) :
    (∀ limit, ∀ t ∈ db.conversations limit content, Reads db content t) ↔
      EmptyPeerAlone db content := by
  constructor
  · intro h m hm n hn hsm hsn hsim hpeer
    obtain ⟨limit, t, ht, htsim, htpeer⟩ := exists_listed db content hm hsm
    have hcount := (h limit t ht).messageCount
    rw [(listed_of_mem ht).messageCount, ← List.length_map (f := MessageView.message),
      read_messages, List.length_insertionSort] at hcount
    have hcovered : (t.scope content).covers n = true := by
      rw [covers_scope, htsim, htpeer, hpeer, hsn, hsim]
      simp
    have hin := filter_eq_of_length_eq (fun a => covers_of_inThread) hcount.symm n hn hcovered
    simp only [inThread, Message.thread, Prod.mk.injEq, Bool.and_eq_true, decide_eq_true_eq] at hin
    rw [hin.1.2, htpeer, hpeer]
  · intro h limit t ht
    have hl := listed_of_mem ht
    refine reads_of_covers hl fun m hm => ?_
    by_cases hpeer : t.peer = ""
    · -- the thread has a message, so the others of its card have no correspondent either
      obtain ⟨newest, hhead, -⟩ := Option.map_eq_some_iff.mp hl.lastId
      have hmem := (List.mem_insertionSort _).mp (List.mem_of_mem_head? hhead)
      obtain ⟨hnewest, hin⟩ := List.mem_filter.mp hmem
      simp only [inThread, Message.thread, Prod.mk.injEq, Bool.and_eq_true,
        decide_eq_true_eq] at hin
      rw [covers_scope, inThread, hpeer]
      by_cases hm' : m.simId = t.simId ∧ shown content m = true
      · have hempty : m.peer = "" := h newest hnewest m hm hin.2 hm'.2 (hin.1.1.trans hm'.1.symm)
          (hin.1.2.trans hpeer)
        simp [Message.thread, hm', hempty]
      · rw [Bool.eq_iff_iff]
        simp only [Message.thread, Prod.mk.injEq, Bool.and_eq_true, decide_eq_true_eq]
        exact ⟨fun hx => absurd ⟨hx.1.1, hx.2⟩ hm', fun hx => absurd ⟨hx.1.1, hx.2⟩ hm'⟩
    · exact covers_eq hpeer m

/-- Two unread messages without a card, one of them without a correspondent. -/
def withoutPeer : Tables where
  messages :=
    [⟨1, "m1", none, "in", "", "a", "2026-01-01T00:00:00+00:00", "received", none, 0, 0, none, none⟩,
     ⟨2, "m1", none, "in", "10086", "b", "2026-01-01T00:01:00+00:00", "received", none, 0, 0, none,
      none⟩]
  sims := []
  messageIds := by decide
  simIds := by decide

/-- The thread without a correspondent has one message, and its scope reads both. -/
theorem reads_withoutPeer :
    ¬ ∀ limit, ∀ t ∈ withoutPeer.conversations limit none, Reads withoutPeer none t := by
  intro h
  obtain ⟨limit, t, ht, hsim, hpeer⟩ := exists_listed withoutPeer none
    (m := ⟨1, "m1", none, "in", "", "a", "2026-01-01T00:00:00+00:00", "received", none, 0, 0, none,
      none⟩) (by decide) (by decide)
  have hread := (h limit t ht).messageCount
  rw [(listed_of_mem ht).messageCount, hsim, hpeer, ← List.length_map (f := MessageView.message),
    read_messages, List.length_insertionSort, List.filter_congr fun m _ => covers_scope t none m,
    hsim, hpeer] at hread
  exact absurd hread (by decide)

end Air780eHub.Messages
