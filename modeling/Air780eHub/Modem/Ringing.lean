/-
  Incoming calls (`Air780E._on_ring`, `_on_clip`, `_report_call`).

  A call that rings is a train of RING and +CLIP lines, and is to be reported once, with its number.
  The report waits for the number, so that a call is pending first and reported by a task of its
  own.  Times are nanoseconds of the monotonic clock.
  1. **The handlers.**
  2. **Trains**: the machine of lines less than `RING_REPEAT_GAP` apart and of the report tasks,
     each of which runs at any time after it has slept.
  3. **`OneRecord`** in every train whose lines find the call pending or the last RING recent; any
     other line after the report is a second record (`second_record`).
-/
import Air780eHub.Lib.Machine
import Air780eHub.Wire.Value

namespace Air780eHub.Modem

/-! ## The handlers -/

def RING_REPEAT_GAP : Int := 12000000000

def CLIP_GRACE : Int := 1000000000

structure IncomingCall where
  number : String
  ts     : String
deriving DecidableEq

/-- What the handlers share: `call` is the pending call, `seen` when a ring was last seen, `tasks`
when each report task that has not run has slept enough, and `reported` the calls handed on. -/
structure CallHandler where
  call     : Option IncomingCall
  seen     : Int
  tasks    : List Int
  reported : List IncomingCall

/-- `re.match(r'\s*"?([+0-9*#]+)"?', params)`, its group or an empty text. -/
def clipNumber (params : String) : String :=
  let rest := params.toList.dropWhile pyIsSpace
  let rest := if rest.head? = some '"' then rest.tail else rest
  String.ofList (rest.takeWhile fun c => c.isDigit || c == '+' || c == '*' || c == '#')

namespace CallHandler

variable (h : CallHandler)

/-- A new pending call, and the task that reports it. -/
def openCall (now : Int) (number ts : String) : CallHandler :=
  { h with call := some { number, ts }, tasks := h.tasks ++ [now + CLIP_GRACE] }

/-- `_on_ring`. -/
def onRing (now : Int) (ts : String) : CallHandler :=
  let recent := now - h.seen < RING_REPEAT_GAP
  let h := { h with seen := now }
  if recent then h else h.openCall now "" ts

/-- `_on_clip`. -/
def onClip (now : Int) (ts params : String) : CallHandler :=
  let number := clipNumber params
  match h.call with
  | some call => if number ≠ "" then { h with call := some { call with number } } else h
  | none      =>
    if now - h.seen < RING_REPEAT_GAP then h
    else { h with seen := now }.openCall now number ts

/-- `_report_call`, once it has slept. -/
def reportCall : CallHandler :=
  { h with call := none, tasks := h.tasks.tail, reported := h.reported ++ h.call.toList }

end CallHandler

/-! ## Trains -/

inductive CallEvent
  | ring (now : Int) (ts : String)
  | clip (now : Int) (ts params : String)
  | report (now : Int)

/-- The handlers and what they are measured by: the last number that was presented, and what it was
at each report. -/
structure Train where
  handler   : CallHandler
  clock     : Int
  lastLine  : Option Int
  presented : String
  expected  : List String

/-- A line may come: time does not go back, and the line before it is less than the gap ago. -/
def Train.mayCome (s : Train) (now : Int) : Bool :=
  decide (s.clock ≤ now) && s.lastLine.all fun t => decide (now - t < RING_REPEAT_GAP)

def Train.step (s : Train) : CallEvent → Option Train
  | .ring now ts =>
    if s.mayCome now then
      some { s with handler := s.handler.onRing now ts, clock := now, lastLine := some now }
    else none
  | .clip now ts params =>
    if s.mayCome now then
      some { s with
        handler   := s.handler.onClip now ts params
        clock     := now
        lastLine  := some now
        presented := if clipNumber params ≠ "" then clipNumber params else s.presented }
    else none
  | .report now =>
    if s.clock ≤ now ∧ s.handler.tasks.head?.any fun due => decide (due ≤ now) then
      some { s with
        handler  := s.handler.reportCall
        clock    := now
        expected := s.expected ++ s.handler.call.toList.map fun _ => s.presented }
    else none

/-- An idle handler, before any line. -/
structure Train.Idle (s : Train) : Prop where
  call      : s.handler.call = none
  seen      : RING_REPEAT_GAP ≤ s.clock - s.handler.seen
  tasks     : s.handler.tasks = []
  reported  : s.handler.reported = []
  lastLine  : s.lastLine = none
  presented : s.presented = ""
  expected  : s.expected = []

def ringing : Machine Train CallEvent where
  Start := Train.Idle
  step  := Train.step

/-! ## One record -/

/-- A line is the first one, or finds the last ring recent, or finds the call pending; a RING may
find it pending only while it has no number. -/
def Continues (s : Train) : CallEvent → Prop
  | .ring now _   => s.lastLine = none ∨ now - s.handler.seen < RING_REPEAT_GAP ∨
      s.handler.call.any (·.number == "") = true
  | .clip now _ _ => s.lastLine = none ∨ now - s.handler.seen < RING_REPEAT_GAP ∨
      s.handler.call.isSome = true
  | .report _     => True

/-- No call is reported twice, each with the last number that was presented before its report, and
a train that nothing is pending of has been reported. -/
structure OneRecord (s : Train) : Prop where
  atMostOne : s.handler.reported.length ≤ 1
  number    : s.handler.reported.map IncomingCall.number = s.expected
  one       : s.lastLine ≠ none → s.handler.tasks = [] → s.handler.reported.length = 1

/-- How far a train is. -/
inductive Phase (s : Train) : Prop
  | idle (h : s.Idle)
  | pending (call : IncomingCall) (hcall : s.handler.call = some call)
      (hnumber : call.number = s.presented) (htasks : s.handler.tasks ≠ [])
      (hreported : s.handler.reported = []) (hexpected : s.expected = [])
      (hline : s.lastLine ≠ none)
  | reported (call : IncomingCall) (hcall : s.handler.call = none)
      (hreported : s.handler.reported = [call]) (hexpected : s.expected = [call.number])
      (hline : s.lastLine ≠ none)

theorem Phase.oneRecord {s : Train} (h : Phase s) : OneRecord s := by
  cases h with
  | idle h =>
    refine ⟨by rw [h.reported]; exact Nat.zero_le 1, by rw [h.reported, h.expected]; rfl, ?_⟩
    intro hline
    exact absurd h.lastLine hline
  | pending call hcall hnumber htasks hreported hexpected hline =>
    refine ⟨by rw [hreported]; exact Nat.zero_le 1, by rw [hreported, hexpected]; rfl, ?_⟩
    intro _ hnone
    exact absurd hnone htasks
  | reported call hcall hreported hexpected hline =>
    exact ⟨by rw [hreported]; exact Nat.le_refl 1, by rw [hreported, hexpected]; rfl,
      fun _ _ => by rw [hreported]; rfl⟩

theorem openCall_tasks (h : CallHandler) (now : Int) (number ts : String) :
    (h.openCall now number ts).tasks ≠ [] := by simp [CallHandler.openCall]

section Lines

variable {h : CallHandler} {now : Int} (ts params : String)

theorem onRing_recent (hrecent : now - h.seen < RING_REPEAT_GAP) :
    h.onRing now ts = { h with seen := now } := if_pos hrecent

/-- A line that is not recent opens a call. -/
theorem onRing_stale (hstale : ¬ now - h.seen < RING_REPEAT_GAP) :
    h.onRing now ts = { h with seen := now }.openCall now "" ts := if_neg hstale

theorem onClip_recent (hcall : h.call = none) (hrecent : now - h.seen < RING_REPEAT_GAP) :
    h.onClip now ts params = h := by
  unfold CallHandler.onClip
  rw [hcall]
  exact if_pos hrecent

theorem onClip_stale (hcall : h.call = none) (hstale : ¬ now - h.seen < RING_REPEAT_GAP) :
    h.onClip now ts params = { h with seen := now }.openCall now (clipNumber params) ts := by
  unfold CallHandler.onClip
  rw [hcall]
  exact if_neg hstale

/-- A number that comes while a call is pending is its number. -/
theorem onClip_pending {call : IncomingCall} (hcall : h.call = some call) :
    h.onClip now ts params = { h with call := some { call with
      number := if clipNumber params ≠ "" then clipNumber params else call.number } } := by
  unfold CallHandler.onClip
  rw [hcall]
  dsimp only
  split
  · rfl
  · rw [← hcall]

end Lines

/-- What a step does, with what it asks for. -/
theorem Train.step_ring {s s' : Train} {now : Int} {ts : String}
    (h : s.step (.ring now ts) = some s') : s.clock ≤ now ∧
      s' = { s with handler := s.handler.onRing now ts, clock := now, lastLine := some now } := by
  unfold Train.step at h
  dsimp only at h
  split at h
  · rename_i hmay
    rw [Train.mayCome, Bool.and_eq_true_iff] at hmay
    exact ⟨of_decide_eq_true hmay.1, (Option.some.inj h).symm⟩
  · cases h

theorem Train.step_clip {s s' : Train} {now : Int} {ts params : String}
    (h : s.step (.clip now ts params) = some s') : s.clock ≤ now ∧
      s' = { s with
        handler   := s.handler.onClip now ts params
        clock     := now
        lastLine  := some now
        presented := if clipNumber params ≠ "" then clipNumber params else s.presented } := by
  unfold Train.step at h
  dsimp only at h
  split at h
  · rename_i hmay
    rw [Train.mayCome, Bool.and_eq_true_iff] at hmay
    exact ⟨of_decide_eq_true hmay.1, (Option.some.inj h).symm⟩
  · cases h

theorem Train.step_report {s s' : Train} {now : Int} (h : s.step (.report now) = some s') :
    s.handler.tasks ≠ [] ∧ s' = { s with
      handler  := s.handler.reportCall
      clock    := now
      expected := s.expected ++ s.handler.call.toList.map fun _ => s.presented } := by
  unfold Train.step at h
  dsimp only at h
  split at h
  · rename_i hdue
    refine ⟨?_, (Option.some.inj h).symm⟩
    intro hnil
    rw [hnil] at hdue
    exact absurd hdue.2 Bool.false_ne_true
  · cases h

theorem phase_ring {s s' : Train} {now : Int} {ts : String} (h : Phase s)
    (hg : Continues s (.ring now ts)) (hs : s.step (.ring now ts) = some s') : Phase s' := by
  obtain ⟨hclock, rfl⟩ := Train.step_ring hs
  cases h with
  | idle h =>
    have hseen := h.seen
    have hopen := onRing_stale ts
      (show ¬ now - s.handler.seen < RING_REPEAT_GAP by omega)
    refine .pending ⟨"", ts⟩ (by rw [hopen]; rfl) h.presented.symm ?_ ?_ h.expected
      (Option.some_ne_none now)
    · rw [hopen]
      exact openCall_tasks _ _ _ _
    · rw [hopen]
      exact h.reported
  | pending call hcall hnumber htasks hreported hexpected hline =>
    by_cases hrecent : now - s.handler.seen < RING_REPEAT_GAP
    · have hkept := onRing_recent ts hrecent
      refine .pending call ?_ hnumber ?_ ?_ hexpected (Option.some_ne_none now)
      · rw [hkept]
        exact hcall
      · rw [hkept]
        exact htasks
      · rw [hkept]
        exact hreported
    · -- the call that is put in its place has no number either
      have hempty : call.number = "" := by
        have hany := (hg.resolve_left hline).resolve_left hrecent
        rw [hcall] at hany
        exact beq_iff_eq.mp hany
      have hopen := onRing_stale ts hrecent
      refine .pending ⟨"", ts⟩ (by rw [hopen]; rfl) (hempty.symm.trans hnumber) ?_ ?_ hexpected
        (Option.some_ne_none now)
      · rw [hopen]
        exact openCall_tasks _ _ _ _
      · rw [hopen]
        exact hreported
  | reported call hcall hreported hexpected hline =>
    have hrecent : now - s.handler.seen < RING_REPEAT_GAP := by
      refine (hg.resolve_left hline).resolve_right ?_
      rw [hcall]
      exact Bool.false_ne_true
    have hkept := onRing_recent ts hrecent
    refine .reported call ?_ ?_ hexpected (Option.some_ne_none now)
    · rw [hkept]
      exact hcall
    · rw [hkept]
      exact hreported

theorem phase_clip {s s' : Train} {now : Int} {ts params : String} (h : Phase s)
    (hg : Continues s (.clip now ts params)) (hs : s.step (.clip now ts params) = some s') :
    Phase s' := by
  obtain ⟨hclock, rfl⟩ := Train.step_clip hs
  cases h with
  | idle h =>
    have hseen := h.seen
    have hopen := onClip_stale ts params h.call
      (show ¬ now - s.handler.seen < RING_REPEAT_GAP by omega)
    refine .pending ⟨clipNumber params, ts⟩ (by rw [hopen]; rfl) ?_ ?_ ?_ h.expected
      (Option.some_ne_none now)
    · show clipNumber params = if clipNumber params ≠ "" then clipNumber params else s.presented
      rw [h.presented]
      split
      · rfl
      · rename_i hempty
        exact not_not.mp hempty
    · rw [hopen]
      exact openCall_tasks _ _ _ _
    · rw [hopen]
      exact h.reported
  | pending call hcall hnumber htasks hreported hexpected hline =>
    have hkept := @onClip_pending _ now ts params _ hcall
    refine .pending _ (by rw [hkept]) ?_ (by rw [hkept]; exact htasks)
      (by rw [hkept]; exact hreported) hexpected (Option.some_ne_none now)
    rw [hnumber]
  | reported call hcall hreported hexpected hline =>
    have hrecent : now - s.handler.seen < RING_REPEAT_GAP := by
      refine (hg.resolve_left hline).resolve_right ?_
      rw [hcall]
      exact Bool.false_ne_true
    have hkept := onClip_recent ts params hcall hrecent
    refine .reported call ?_ ?_ hexpected (Option.some_ne_none now)
    · rw [hkept]
      exact hcall
    · rw [hkept]
      exact hreported

theorem phase_report {s s' : Train} {now : Int} (h : Phase s)
    (hs : s.step (.report now) = some s') : Phase s' := by
  obtain ⟨hdue, rfl⟩ := Train.step_report hs
  cases h with
  | idle h => exact absurd h.tasks hdue
  | pending call hcall hnumber htasks hreported hexpected hline =>
    refine .reported call rfl ?_ ?_ hline
    · show s.handler.reported ++ s.handler.call.toList = [call]
      rw [hreported, hcall]
      rfl
    · show s.expected ++ s.handler.call.toList.map (fun _ => s.presented) = [call.number]
      rw [hexpected, hcall, hnumber]
      rfl
  | reported call hcall hreported hexpected hline =>
    -- a task that finds no call hands nothing on
    refine .reported call rfl ?_ ?_ hline
    · show s.handler.reported ++ s.handler.call.toList = [call]
      rw [hreported, hcall]
      rfl
    · show s.expected ++ s.handler.call.toList.map (fun _ => s.presented) = [call.number]
      rw [hexpected, hcall]
      rfl

theorem phase_step {s s' : Train} {e : CallEvent} (h : Phase s) (hg : Continues s e)
    (hs : s.step e = some s') : Phase s' := by
  cases e with
  | ring now ts        => exact phase_ring h hg hs
  | clip now ts params => exact phase_clip h hg hs
  | report now         => exact phase_report h hs

/-- **One ringing call, one record**, in every train whose lines continue the call. -/
theorem ringing_one_record {s : Train} (h : ringing.ReachableBy Continues s) : OneRecord s := by
  have hphase : Phase s :=
    h.invariant (fun s hs => .idle hs) fun s e s' hp hg hs => phase_step hp hg hs
  exact hphase.oneRecord

/-- An idle handler, as it is made, at a moment of the monotonic clock. -/
def idleTrain (clock : Int) : Train where
  handler   := { call := none, seen := -RING_REPEAT_GAP, tasks := [], reported := [] }
  clock     := clock
  lastLine  := none
  presented := ""
  expected  := []

theorem idleTrain_idle {clock : Int} (h : 0 ≤ clock) : (idleTrain clock).Idle := by
  refine ⟨rfl, ?_, rfl, rfl, rfl, rfl, rfl⟩
  show RING_REPEAT_GAP ≤ clock - -RING_REPEAT_GAP
  omega

instance (s : Train) : (e : CallEvent) → Decidable (Continues s e)
  | .ring _ _   => inferInstanceAs (Decidable (_ ∨ _ ∨ _))
  | .clip _ _ _ => inferInstanceAs (Decidable (_ ∨ _ ∨ _))
  | .report _   => inferInstanceAs (Decidable True)

/-- A call that rings twice, with its number after the first ring. -/
def ringTwice : List CallEvent :=
  [.ring 20000000000 "10:00:20", .clip 20100000000 "10:00:20" "\"10086\",129",
    .report 21000000000, .ring 26000000000 "10:00:26"]

theorem ringing_one_record_twice : ∃ s, ringing.runBy (fun s e => decide (Continues s e))
    (idleTrain 0) ringTwice = some s ∧ s.handler.reported = [⟨"10086", "10:00:20"⟩] ∧
      OneRecord s := by
  obtain ⟨s, hs, hreported⟩ : ∃ s, ringing.runBy (fun s e => decide (Continues s e))
      (idleTrain 0) ringTwice = some s ∧ s.handler.reported = [⟨"10086", "10:00:20"⟩] :=
    ⟨_, rfl, by decide⟩
  have hpath := (Machine.runBy_path hs).mono fun s e h => of_decide_eq_true h
  exact ⟨s, hs, hreported, ringing_one_record ⟨_, idleTrain_idle (Int.le_refl 0), hpath⟩⟩

/-- A call of which only +CLIP lines come is reported again twelve seconds after its first one,
however close they are. -/
theorem ringing_clips_twice : ∃ s, ringing.run (idleTrain 0)
    [.clip 20000000000 "10:00:20" "\"10086\",129", .report 21000000000,
      .clip 26000000000 "10:00:26" "\"10086\",129", .clip 32000000000 "10:00:32" "\"10086\",129",
      .report 33000000000] = some s ∧ (idleTrain 0).Idle ∧ ¬ OneRecord s := by
  refine ⟨_, rfl, idleTrain_idle (Int.le_refl 0), ?_⟩
  intro hone
  exact absurd hone.atMostOne (by decide)

/-- **Any other line after the report is a second record.** -/
theorem second_record {s s' s'' : Train} {e : CallEvent} {now : Int}
    (hcall : s.handler.call = none) (hreported : s.handler.reported.length = 1)
    (hg : ¬ Continues s e) (hs : s.step e = some s') (hs' : s'.step (.report now) = some s'') :
    s''.handler.reported.length = 2 := by
  obtain ⟨-, rfl⟩ := Train.step_report hs'
  have hopened : s'.handler.call.isSome = true ∧
      s'.handler.reported = s.handler.reported := by
    cases e with
    | ring t ts =>
      obtain ⟨-, rfl⟩ := Train.step_ring hs
      have hstale : ¬ t - s.handler.seen < RING_REPEAT_GAP := fun h => hg (Or.inr (Or.inl h))
      rw [onRing_stale ts hstale]
      exact ⟨rfl, rfl⟩
    | clip t ts params =>
      obtain ⟨-, rfl⟩ := Train.step_clip hs
      have hstale : ¬ t - s.handler.seen < RING_REPEAT_GAP := fun h => hg (Or.inr (Or.inl h))
      rw [onClip_stale ts params hcall hstale]
      exact ⟨rfl, rfl⟩
    | report t => exact absurd trivial hg
  obtain ⟨call, hopen⟩ := Option.isSome_iff_exists.mp hopened.1
  show (s'.handler.reported ++ s'.handler.call.toList).length = 2
  rw [hopened.2, hopen, List.length_append, hreported]
  rfl

/-- RING lines only. -/
def OnlyRings (_ : Train) : CallEvent → Prop
  | .clip _ _ _ => False
  | _           => True

/-- In a train of RING lines the last line is the last ring. -/
theorem rings_continue {s s' : Train} {e : CallEvent}
    (hseen : ∀ t ∈ s.lastLine, s.handler.seen = t) (hg : OnlyRings s e)
    (hs : s.step e = some s') :
    Continues s e ∧ ∀ t ∈ s'.lastLine, s'.handler.seen = t := by
  cases e with
  | ring now ts =>
    obtain ⟨-, heq⟩ := Train.step_ring hs
    constructor
    · cases hline : s.lastLine with
      | none   => exact Or.inl hline
      | some t =>
        refine Or.inr (Or.inl ?_)
        rw [hseen t hline]
        unfold Train.step at hs
        dsimp only at hs
        split at hs
        · rename_i hmay
          rw [Train.mayCome, Bool.and_eq_true_iff, hline] at hmay
          exact of_decide_eq_true hmay.2
        · cases hs
    · subst heq
      rintro t ⟨⟩
      show (s.handler.onRing now ts).seen = now
      unfold CallHandler.onRing
      dsimp only
      split <;> rfl
  | clip now ts params => exact absurd hg id
  | report now =>
    obtain ⟨-, rfl⟩ := Train.step_report hs
    exact ⟨trivial, hseen⟩

/-- **Trains of RING lines** are reported once, however long they are. -/
theorem rings_one_record {s : Train} (h : ringing.ReachableBy OnlyRings s) : OneRecord s := by
  have hboth : Phase s ∧ ∀ t ∈ s.lastLine, s.handler.seen = t := by
    refine Machine.ReachableBy.invariant
      (I := fun s => Phase s ∧ ∀ t ∈ s.lastLine, s.handler.seen = t) ?_ ?_ h
    · intro s hs
      refine ⟨.idle hs, ?_⟩
      intro t ht
      rw [hs.lastLine] at ht
      cases ht
    · rintro s e s' ⟨hphase, hseen⟩ hg hs
      obtain ⟨hcont, hseen'⟩ := rings_continue hseen hg hs
      exact ⟨phase_step hphase hcont hs, hseen'⟩
  exact hboth.1.oneRecord

end Air780eHub.Modem
