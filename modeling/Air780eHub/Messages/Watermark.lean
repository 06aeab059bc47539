/-
  The read mark of an open thread (`messages.ts`, `pages/Messages.tsx`, `POST /messages/read`).

  A transcript is in the order of the messages' times, and the mark it is read up to is an id: the
  id of the message that is last by time.  A text that the network delivers late keeps its own time,
  so it has the larger id and the earlier place.
  1. **`mergeThreadPages`**, the transcript.
  2. **`readEffect`**, and the Server's answer to what it sends (`readThread`).
  3. **`ReadThrough`**, and when a run of the effect achieves it (`readThrough_iff`).
-/
import Mathlib.Data.List.Sort
import Air780eHub.Messages.Scope

namespace Air780eHub.Messages

/-! ## The transcript -/

/-- One turn of the loop over the pages: `byId` keeps the first copy of an id. -/
def keepFirst (kept : List Message) (m : Message) : List Message :=
  if kept.any (·.id == m.id) then kept else kept ++ [m]

/-- `byId`, in the order in which its ids are first seen. -/
def byId (messages : List Message) : List Message := messages.foldl keepFirst []

/-- The comparison of the sort; what `Date.parse` cannot read is NaN, and compares by id. -/
def compareMessages (dateParse : String → Option Int) (a b : Message) : Int :=
  match dateParse a.ts, dateParse b.ts with
  | some s, some t => if s - t = 0 then (a.id : Int) - b.id else s - t
  | _, _           => (a.id : Int) - b.id

/-- `mergeThreadPages`. -/
def mergeThreadPages (dateParse : String → Option Int) (pages : List (List Message)) :
    List Message :=
  (byId pages.flatten).insertionSort fun a b => compareMessages dateParse a b ≤ 0

theorem mem_foldl_keepFirst {m : Message} {rest kept : List Message}
    (h : m ∈ rest.foldl keepFirst kept) : m ∈ kept ∨ m ∈ rest := by
  induction rest generalizing kept with
  | nil => exact Or.inl h
  | cons x rest ih =>
    rcases ih h with hkept | hrest
    · unfold keepFirst at hkept
      split at hkept
      · exact Or.inl hkept
      · rcases List.mem_append.mp hkept with hkept | hx
        · exact Or.inl hkept
        · exact Or.inr (List.mem_cons.mpr (Or.inl (List.mem_singleton.mp hx)))
    · exact Or.inr (List.mem_cons_of_mem x hrest)

/-- Earlier in time, or not later in id at one time. -/
def earlier (dateParse : String → Option Int) (a b : Message) : Prop :=
  (dateParse a.ts).getD 0 < (dateParse b.ts).getD 0 ∨
    (dateParse a.ts).getD 0 = (dateParse b.ts).getD 0 ∧ a.id ≤ b.id

instance (dateParse : String → Option Int) : DecidableRel (earlier dateParse) :=
  fun _ _ => inferInstanceAs (Decidable (_ ∨ _))

instance (dateParse : String → Option Int) : Std.Total (earlier dateParse) where
  total a b := by
    unfold earlier
    omega

instance (dateParse : String → Option Int) : IsTrans Message (earlier dateParse) where
  trans a b c := by
    unfold earlier
    omega

theorem compareMessages_le {dateParse : String → Option Int} {a b : Message}
    (ha : dateParse a.ts ≠ none) (hb : dateParse b.ts ≠ none) :
    compareMessages dateParse a b ≤ 0 ↔ earlier dateParse a b := by
  obtain ⟨s, hs⟩ := Option.ne_none_iff_exists'.mp ha
  obtain ⟨t, ht⟩ := Option.ne_none_iff_exists'.mp hb
  unfold compareMessages earlier
  rw [hs, ht]
  show (if s - t = 0 then (a.id : Int) - b.id else s - t) ≤ 0 ↔ s < t ∨ s = t ∧ a.id ≤ b.id
  split <;> omega

/-- **The transcript is in the order of time, then of id**, where the times can be read. -/
theorem mergeThreadPages_sorted {dateParse : String → Option Int} {pages : List (List Message)}
    (hread : ∀ m ∈ pages.flatten, dateParse m.ts ≠ none) :
    (mergeThreadPages dateParse pages).Pairwise (earlier dateParse) := by
  have hmem : ∀ m ∈ byId pages.flatten, dateParse m.ts ≠ none := by
    intro m hm
    exact hread m ((mem_foldl_keepFirst hm).resolve_left List.not_mem_nil)
  have hsame := List.map_insertionSort (fun a b => compareMessages dateParse a b ≤ 0)
    (earlier dateParse) id (byId pages.flatten)
    fun a ha b hb => compareMessages_le (hmem a ha) (hmem b hb)
  rw [List.map_id, List.map_id] at hsame
  unfold mergeThreadPages
  rw [hsame]
  exact List.pairwise_insertionSort _ _

/-- The transcript shows nothing that no page has. -/
theorem mem_mergeThreadPages {dateParse : String → Option Int} {pages : List (List Message)}
    {m : Message} (h : m ∈ mergeThreadPages dateParse pages) : ∃ page ∈ pages, m ∈ page :=
  by
  have hkept : m ∈ byId pages.flatten := (List.mem_insertionSort _).mp h
  exact List.mem_flatten.mp ((mem_foldl_keepFirst hkept).resolve_left List.not_mem_nil)

/-! ## The effect -/

/-- `MessageContent`. -/
inductive Content
  | all | text | data
deriving DecidableEq

/-- `kind`. -/
def Content.kind : Content → Option String
  | .all  => none
  | .text => some "text"
  | .data => some "data"

/-- What the effect depends on, beside the transcript; `thread` is a card, if any, and a peer. -/
structure ThreadView where
  thread     : Option (Option Int × String)
  content    : Content
  foreground : Bool
  atBottom   : Bool
  frozen     : Nat
  reported   : Nat

/-- `ReadBody`, as `api.messages.markRead` fills it in. -/
structure ReadBody where
  simId     : Option Int
  simScope  : Option String
  peer      : String
  throughId : Nat
  content   : Option String
deriving DecidableEq

/-- `api.messages.markRead(scope, peer, through, content)`. -/
def markReadBody (scope : Option Int) (peer : String) (through : Nat) (content : Option String) :
    ReadBody where
  simId     := scope
  simScope  := if scope = none then some "unassigned" else none
  peer      := peer
  throughId := through
  content   := content

/-- `newestId`, with 0 where there is none. -/
def newestId (messages : List Message) : Nat := (messages.getLast?.map Message.id).getD 0

/-- `seen`. -/
def ThreadView.seen (v : ThreadView) (messages : List Message) : Nat :=
  if v.atBottom then newestId messages else v.frozen

/-- `!message.read_at`. -/
def unreadCopy (m : Message) : Bool := m.readAt.all (· == "")

/-- The read effect: what it sends, and the mark it has reported then. -/
def ThreadView.readEffect (v : ThreadView) (messages : List Message) :
    ThreadView × Option ReadBody :=
  match v.thread with
  | none              => (v, none)
  | some (scope, peer) =>
    if v.foreground = false then (v, none)
    else
      let watermark := if v.seen messages ≠ 0 then v.seen messages else newestId messages
      if watermark = 0 ∨ watermark ≤ v.reported then (v, none)
      else if messages.any fun m =>
          m.direction == "in" && unreadCopy m && decide (m.id ≤ watermark) then
        ({ v with reported := watermark },
          some (markReadBody scope peer watermark v.content.kind))
      else (v, none)

/-- `ReadBody.scope`. -/
def ReadBody.scope (body : ReadBody) : MessageScope where
  sim     := body.simId.elim .unassigned .card
  peer    := some body.peer
  content := body.content

/-- `POST /messages/read`: the fields are checked, then the rows are marked. -/
def postRead (db : Tables) (body : ReadBody) (now : String) : Except Nat (Tables × Nat) :=
  if body.peer.length < 1 ∨ 32 < body.peer.length ∨ body.throughId < 1 then .error 422
  else if body.simScope = some "unassigned" ∧ body.simId.isSome then .error 422
  else .ok (db.markRead body.scope (some body.throughId) now)

/-- One run of the effect, with the answer to what it sends; a failed receipt can be sent again. -/
def readThread (v : ThreadView) (messages : List Message) (db : Tables) (now : String) :
    ThreadView × Tables :=
  match v.readEffect messages with
  | (v, none)      => (v, db)
  | (v, some body) =>
    match postRead db body now with
    | .ok (db, _) => (v, db)
    | .error _    => ({ v with reported := 0 }, db)

/-! ## What is read -/

/-- A row as it is some time after a copy of it was read. -/
structure Later (m row : Message) : Prop where
  thread    : row.thread = m.thread
  direction : row.direction = m.direction
  isBinary  : row.isBinary = m.isBinary
  read      : m.readAt ≠ none → row.readAt ≠ none

/-- The scope a thread is listed and marked by. -/
def ThreadView.scope (v : ThreadView) (thread : Option Int × String) : MessageScope where
  sim     := thread.1.elim .unassigned .card
  peer    := some thread.2
  content := v.content.kind

/-- A shown message is a copy of a row of the thread, if the row is still there. -/
def Served (db : Tables) (scope : MessageScope) (m : Message) : Prop :=
  scope.covers m = true ∧ ∀ row ∈ db.messages, row.id = m.id → Later m row

/-- Every incoming message that is shown is read, and no message with a larger id than the shown
ones is touched. -/
def ReadThrough (db after : Tables) (messages : List Message) : Prop :=
  (∀ m ∈ messages, m.direction = "in" → ∀ row ∈ after.messages, row.id = m.id → row.readAt ≠ none) ∧
  (∀ row ∈ db.messages, row.readAt = none → (∀ m ∈ messages, m.id < row.id) → row ∈ after.messages)

/-- A message is shown, incoming, and not read as a row. -/
def ShownUnread (db : Tables) (messages : List Message) (m : Message) : Prop :=
  m ∈ messages ∧ m.direction = "in" ∧ ∃ row ∈ db.messages, row.id = m.id ∧ row.readAt = none

/-- A row itself is a copy of it. -/
theorem served_of_mem {db : Tables} {scope : MessageScope} {m : Message} (hm : m ∈ db.messages)
    (hcovers : scope.covers m = true) : Served db scope m := by
  refine ⟨hcovers, fun row hrow hid => ?_⟩
  rw [List.inj_on_of_nodup_map db.messageIds hrow hm hid]
  exact ⟨rfl, rfl, rfl, id⟩

/-- What a thread's scope looks at is the card, the peer and the kind. -/
theorem covers_of_later (v : ThreadView) (thread : Option Int × String) {m row : Message}
    (h : Later m row) : (v.scope thread).covers row = (v.scope thread).covers m := by
  obtain ⟨hsim, hpeer⟩ := Prod.mk.inj (show (row.simId, row.peer) = (m.simId, m.peer) from h.thread)
  have hbinary := h.isBinary
  obtain ⟨sim, peer⟩ := thread
  unfold MessageScope.covers MessageScope.clauses ThreadView.scope SimScope.clauses clause
    contentClauses
  cases sim <;> cases v.content <;> by_cases hempty : peer = "" <;>
    simp [Content.kind, hempty, hsim, hpeer, hbinary]

/-- What an update by id leaves of a row. -/
def afterMark (scope : MessageScope) (through : Nat) (now : String) (row : Message) : Message :=
  if scope.marks (some through) row then row.markedRead now else row

theorem afterMark_id (scope : MessageScope) (through : Nat) (now : String) (row : Message) :
    (afterMark scope through now row).id = row.id := by
  unfold afterMark
  split <;> rfl

/-- An incoming row of the scope is read afterwards, or comes after the mark. -/
theorem afterMark_read {scope : MessageScope} {through : Nat} {now : String} {row : Message}
    (hcovers : scope.covers row = true) (hin : row.direction = "in") :
    (afterMark scope through now row).readAt ≠ none ↔ (row.readAt = none → row.id ≤ through) := by
  have hmarks : scope.marks (some through) row = true ↔ row.readAt = none ∧ row.id ≤ through := by
    unfold MessageScope.marks Message.unread
    rw [hcovers, hin]
    simp
  unfold afterMark
  by_cases hmark : scope.marks (some through) row = true
  · rw [if_pos hmark]
    constructor
    · intro _ _
      exact (hmarks.mp hmark).2
    · intro _
      exact Option.some_ne_none now
  · rw [if_neg hmark]
    rw [hmarks, not_and] at hmark
    constructor
    · intro hread hnone
      exact absurd hnone hread
    · intro hle hnone
      exact hmark hnone (hle hnone)

/-- What is not shown yet has an id after the mark. -/
theorem afterMark_of_lt {scope : MessageScope} {through : Nat} {now : String} {row : Message}
    (h : through < row.id) : afterMark scope through now row = row := by
  refine if_neg fun hmark => ?_
  rw [MessageScope.marks, Bool.and_eq_true_iff] at hmark
  have hle : row.id ≤ through := of_decide_eq_true hmark.2
  omega

theorem mem_markRead {db : Tables} {scope : MessageScope} {through : Nat} {now : String}
    {m : Message} : m ∈ (db.markRead scope (some through) now).1.messages ↔
      ∃ row ∈ db.messages, afterMark scope through now row = m := List.mem_map

theorem newestId_mem {messages : List Message} (h : newestId messages ≠ 0) :
    ∃ m ∈ messages, m.id = newestId messages := by
  unfold newestId at h ⊢
  cases hlast : messages.getLast? with
  | none   => exact absurd (by rw [hlast]; rfl) h
  | some m => exact ⟨m, List.mem_of_getLast? hlast, rfl⟩

/-- A table that stays as it is serves a transcript with nothing unread in it. -/
theorem readThrough_unchanged {db : Tables} {messages : List Message} :
    ReadThrough db db messages ↔ ∀ m, ¬ ShownUnread db messages m := by
  constructor
  · rintro ⟨hread, -⟩ m ⟨hm, hin, row, hrow, hid, hnone⟩
    exact hread m hm hin row hrow hid hnone
  · intro hall
    refine ⟨?_, fun row hrow _ _ => hrow⟩
    intro m hm hin row hrow hid hnone
    exact hall m ⟨hm, hin, row, hrow, hid, hnone⟩

/-- **Marking up to an id** serves a transcript when nothing unread in it has a larger one. -/
theorem readThrough_marked {v : ThreadView} {thread : Option Int × String} {db : Tables}
    {messages : List Message} {through : Nat} {now : String}
    (hserved : ∀ m ∈ messages, Served db (v.scope thread) m)
    (hshown : ∃ m ∈ messages, m.id = through) :
    ReadThrough db (db.markRead (v.scope thread) (some through) now).1 messages ↔
      ∀ m, ShownUnread db messages m → m.id ≤ through := by
  have hread : ∀ m ∈ messages, m.direction = "in" → ∀ row ∈ db.messages, row.id = m.id →
      ((afterMark (v.scope thread) through now row).readAt ≠ none ↔
        (row.readAt = none → row.id ≤ through)) := by
    intro m hm hin row hrow hid
    obtain ⟨hcovers, hlater⟩ := hserved m hm
    have hl := hlater row hrow hid
    exact afterMark_read ((covers_of_later v thread hl).trans hcovers) (hl.direction.trans hin)
  constructor
  · rintro ⟨hall, -⟩ m ⟨hm, hin, row, hrow, hid, hnone⟩
    have hafter := hall m hm hin _ (mem_markRead.mpr ⟨row, hrow, rfl⟩)
      ((afterMark_id _ _ _ row).trans hid)
    exact hid ▸ (hread m hm hin row hrow hid).mp hafter hnone
  · intro hall
    constructor
    · intro m hm hin after hafter hid
      obtain ⟨row, hrow, rfl⟩ := mem_markRead.mp hafter
      rw [afterMark_id] at hid
      refine (hread m hm hin row hrow hid).mpr ?_
      intro hnone
      exact hid ▸ hall m ⟨hm, hin, row, hrow, hid, hnone⟩
    · intro row hrow _ hlate
      obtain ⟨m, hm, hid⟩ := hshown
      exact mem_markRead.mpr ⟨row, hrow, afterMark_of_lt (hid ▸ hlate m hm)⟩

/-- The effect at the tail, in the foreground. -/
theorem readEffect_tail {v : ThreadView} {thread : Option Int × String} {messages : List Message}
    (hthread : v.thread = some thread) (hforeground : v.foreground = true)
    (hbottom : v.atBottom = true) :
    v.readEffect messages =
      if newestId messages = 0 ∨ newestId messages ≤ v.reported then (v, none)
      else if messages.any fun m =>
          m.direction == "in" && unreadCopy m && decide (m.id ≤ newestId messages) then
        ({ v with reported := newestId messages },
          some (markReadBody thread.1 thread.2 (newestId messages) v.content.kind))
      else (v, none) := by
  have hseen : (if v.seen messages ≠ 0 then v.seen messages else newestId messages) =
      newestId messages := by
    rw [ThreadView.seen, if_pos hbottom]
    split <;> rfl
  unfold ThreadView.readEffect
  rw [hthread, hforeground, hseen]
  rfl

/-- **The read effect at the tail**, in the foreground: it achieves its purpose exactly when no
shown message that is unread has an id after the last one's, the last one's is not reported yet, and
the peer is one the Server takes. -/
theorem readThrough_iff {v : ThreadView} {thread : Option Int × String} {messages : List Message}
    {db : Tables} {now : String}
    (hthread : v.thread = some thread) (hforeground : v.foreground = true)
    (hbottom : v.atBottom = true) (hserved : ∀ m ∈ messages, Served db (v.scope thread) m) :
    ReadThrough db (readThread v messages db now).2 messages ↔
      ∀ m, ShownUnread db messages m →
        m.id ≤ newestId messages ∧ v.reported < newestId messages ∧
          1 ≤ thread.2.length ∧ thread.2.length ≤ 32 := by
  have hcopy : ∀ m, ShownUnread db messages m → m.direction = "in" ∧ unreadCopy m = true := by
    rintro m ⟨hm, hin, row, hrow, hid, hnone⟩
    have hunread : m.readAt = none := by
      by_contra hread
      exact ((hserved m hm).2 row hrow hid).read hread hnone
    exact ⟨hin, by rw [unreadCopy, hunread]; rfl⟩
  unfold readThread
  rw [readEffect_tail hthread hforeground hbottom]
  by_cases hreported : newestId messages = 0 ∨ newestId messages ≤ v.reported
  · -- nothing is sent: the mark is reported
    rw [if_pos hreported]
    refine readThrough_unchanged.trans (forall_congr' fun m => imp_congr_right fun _ => ?_)
    rw [false_iff]
    omega
  · rw [if_neg hreported]
    by_cases hany : (messages.any fun m =>
        m.direction == "in" && unreadCopy m && decide (m.id ≤ newestId messages)) = true
    · rw [if_pos hany]
      dsimp only
      unfold postRead markReadBody
      by_cases hpeer : thread.2.length < 1 ∨ 32 < thread.2.length ∨ newestId messages < 1
      · rw [if_pos hpeer]
        refine readThrough_unchanged.trans (forall_congr' fun m => imp_congr_right fun _ => ?_)
        rw [false_iff]
        omega
      · rw [if_neg hpeer, if_neg (by cases thread.1 <;> simp)]
        have hshown : ∃ m ∈ messages, m.id = newestId messages := newestId_mem (by omega)
        refine (readThrough_marked hserved hshown).trans
          (forall_congr' fun m => imp_congr_right fun _ => ?_)
        omega
    · -- nothing is sent: no copy up to the mark is unread
      rw [if_neg hany]
      refine readThrough_unchanged.trans (forall_congr' fun m => imp_congr_right fun hunread => ?_)
      obtain ⟨hin, hu⟩ := hcopy m hunread
      rw [false_iff]
      rintro ⟨hle, -⟩
      refine hany (List.any_eq_true.mpr ⟨m, hunread.1, ?_⟩)
      rw [hin, hu, decide_eq_true hle]
      rfl

/-- **The read mark** covers what is on screen and nothing more exactly when nothing unread on
screen has an id after that of the last message by time. -/
theorem watermark_covers (dateParse : String → Option Int) (v : ThreadView)
    (thread : Option Int × String) (pages : List (List Message)) (db : Tables) (now : String)
    (hthread : v.thread = some thread) (hforeground : v.foreground = true)
    (hbottom : v.atBottom = true)
    (hserved : ∀ page ∈ pages, ∀ m ∈ page, Served db (v.scope thread) m) :
    ReadThrough db (readThread v (mergeThreadPages dateParse pages) db now).2
        (mergeThreadPages dateParse pages) ↔
      ∀ m, ShownUnread db (mergeThreadPages dateParse pages) m →
        m.id ≤ newestId (mergeThreadPages dateParse pages) ∧
        v.reported < newestId (mergeThreadPages dateParse pages) ∧
        1 ≤ thread.2.length ∧ thread.2.length ≤ 32 := by
  refine readThrough_iff hthread hforeground hbottom ?_
  intro m hm
  obtain ⟨page, hpage, hmem⟩ := mem_mergeThreadPages hm
  exact hserved page hpage m hmem

/-- An unread message without a card. -/
def received (id : Nat) (ts : String) : Message where
  id            := id
  device        := "modem-1"
  simId         := none
  direction     := "in"
  peer          := "10086"
  body          := ""
  ts            := ts
  status        := "received"
  readAt        := none
  isBinary      := 0
  truncated     := 0
  recoveredBody := none
  recoveredCode := none

/-- Two messages of one peer. -/
def twoReceived (first second : String) : Tables where
  messages   := [received 1 first, received 2 second]
  sims       := []
  messageIds := by simp [received]
  simIds     := List.nodup_nil

/-- Their thread, followed in the foreground. -/
def openThread : ThreadView where
  thread     := some (none, "10086")
  content    := .all
  foreground := true
  atBottom   := true
  frozen     := 0
  reported   := 0

/-- Two times of a morning, as milliseconds of the day. -/
def clockTimes (ts : String) : Option Int :=
  if ts = "11:00" then some 39600000 else if ts = "12:00" then some 43200000 else none

theorem watermark_covers_in_order :
    ReadThrough (twoReceived "11:00" "12:00")
      (readThread openThread (mergeThreadPages clockTimes
        [[received 2 "12:00", received 1 "11:00"]]) (twoReceived "11:00" "12:00") "12:01").2
      (mergeThreadPages clockTimes [[received 2 "12:00", received 1 "11:00"]]) := by
  refine (watermark_covers clockTimes openThread (none, "10086") _ _ _ rfl rfl rfl ?_).mpr ?_
  · have hmem : ∀ page ∈ [[received 2 "12:00", received 1 "11:00"]], ∀ m ∈ page,
        m ∈ (twoReceived "11:00" "12:00").messages ∧
          (openThread.scope (none, "10086")).covers m = true := by
      decide
    exact fun page hpage m hm => served_of_mem (hmem page hpage m hm).1 (hmem page hpage m hm).2
  · have hle : ∀ m ∈ mergeThreadPages clockTimes [[received 2 "12:00", received 1 "11:00"]],
        m.id ≤ 2 := by
      decide
    exact fun m hm => ⟨hle m hm.1, by decide, by decide, by decide⟩

/-- A message that comes late and is shown first is not read with the one it is shown before. -/
theorem watermark_misses_late : ¬ ReadThrough (twoReceived "12:00" "11:00")
    (readThread openThread (mergeThreadPages clockTimes
      [[received 1 "12:00", received 2 "11:00"]]) (twoReceived "12:00" "11:00") "12:01").2
    (mergeThreadPages clockTimes [[received 1 "12:00", received 2 "11:00"]]) := by
  rintro ⟨hread, -⟩
  have hrow := hread (received 2 "11:00") (by decide) rfl (received 2 "11:00") (by decide) rfl
  exact hrow rfl

end Air780eHub.Messages
