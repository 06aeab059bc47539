/-
  The command queues: every frame is executed once or handed back once.

  1. **Queues.**  What holds of each queue by itself (`QueueOk`).
  2. **Moves**: what a submission, the end of an execution, a worker's next round, a disconnect and
     a stop do to the books and the queues.
  3. **`accounted`** in every run that cancels nothing that frames wait for; one step that does
     strands a frame (`strands`).
  4. **Without the numbers** the pool is the dispatcher of `Agent/Dispatcher`.
-/
import Air780eHub.Agent.Books

namespace Air780eHub.Workers

open Dispatcher (key)

/-! ## Queues -/

/-- A queue by itself: its frames are of its key and in the order of their submission, after
whatever of the key was executed; and a task without a turn to come has nothing to do. -/
structure QueueOk (L : Limits) (arrived started : List Ticket) (k : Option String)
    (q : CommandQueue) : Prop where
  length    : q.frames.length ≤ L.maxPerDevice
  cancelled : q.cancelled = true → q.frames = []
  running   : q.running = true → q.frames ≠ []
  keys      : ∀ t ∈ q.frames, key t.frame = k
  genuine   : ∀ t ∈ q.frames, arrived[t.number]? = some t
  sorted    : q.frames.Pairwise fun t u => t.number < u.number
  later     : ∀ t ∈ q.waiting, ∀ u ∈ started, key u.frame = k → u.number < t.number

/-- The invariant. -/
structure Inv (L : Limits) (s : Pool) : Prop where
  books    : Books L s
  queues   : ∀ e ∈ s.queues.entries, QueueOk L s.arrived s.started e.1 e.2
  stopped  : ∀ e ∈ s.queues.entries, e.2.cancelled = true → s.stopped = true
  numbered : ∀ (n : Nat) (t : Ticket), s.arrived[n]? = some t → t.number = n
  started  : ∀ t ∈ s.started, s.arrived[t.number]? = some t
  ended    : ∀ e ∈ s.ended, s.arrived[e.1.number]? = some e.1
  rejected : ∀ r ∈ s.rejected, s.arrived[r.1.number]? = some r.1
  order    : s.started.Pairwise fun t u => key t.frame = key u.frame → t.number < u.number

theorem CommandQueue.kept_le {q : CommandQueue} (h : q.running = true → q.frames ≠ []) :
    q.kept ≤ q.frames.length := by
  unfold CommandQueue.kept
  split
  · rename_i hrun
    exact List.length_pos_of_ne_nil (h hrun)
  · exact Nat.zero_le _

theorem CommandQueue.mem_of_waiting {q : CommandQueue} {t : Ticket} (h : t ∈ q.waiting) :
    t ∈ q.frames := List.mem_of_mem_drop h

theorem CommandQueue.mem_of_executing {q : CommandQueue} {t : Ticket} (h : t ∈ q.executing) :
    t ∈ q.frames := List.mem_of_mem_take h

/-- A submission leaves the earlier ones as they are. -/
theorem arrived_append {arrived : List Ticket} {n : Nat} {t : Ticket} (u : Ticket)
    (h : arrived[n]? = some t) : (arrived ++ [u])[n]? = some t := by
  obtain ⟨hlt, -⟩ := List.getElem?_eq_some_iff.mp h
  rw [List.getElem?_append_left hlt]
  exact h

theorem QueueOk.arrive {L : Limits} {arrived started : List Ticket} {k : Option String}
    {q : CommandQueue} (h : QueueOk L arrived started k q) (u : Ticket) :
    QueueOk L (arrived ++ [u]) started k q :=
  { h with genuine := fun t ht => arrived_append u (h.genuine t ht) }

/-- A queue without frames. -/
theorem queueOk_nil (L : Limits) (arrived started : List Ticket) (k : Option String) (c : Bool) :
    QueueOk L arrived started k ⟨[], false, c⟩ := by
  refine ⟨Nat.zero_le _, fun _ => rfl, nofun, nofun, nofun, List.Pairwise.nil, nofun⟩

namespace Inv

variable {L : Limits} {s : Pool} {k : Option String}

/-- What a new submission is, and what it does not touch. -/
theorem arrive_numbered (h : Inv L s) (frame : Frame) :
    ∀ (n : Nat) (t : Ticket), (s.arrived ++ [⟨s.arrived.length, frame⟩])[n]? = some t →
      t.number = n := by
  intro n t ht
  by_cases hlt : n < s.arrived.length
  · rw [List.getElem?_append_left hlt] at ht
    exact h.numbered n t ht
  · rw [List.getElem?_append_right (by omega)] at ht
    obtain ⟨hn, rfl⟩ := List.getElem?_eq_some_iff.mp ht
    rw [List.length_singleton] at hn
    rw [List.getElem_singleton]
    show s.arrived.length = n
    omega

theorem turnAway (h : Inv L s) (frame : Frame) (reason : String) :
    Inv L ((s.arrive frame).2.reject (s.arrive frame).1 reason) := by
  refine ⟨h.books.turnAway rfl reason, fun e he => (h.queues e he).arrive _, h.stopped,
    h.arrive_numbered frame, fun t ht => arrived_append _ (h.started t ht),
    fun e he => arrived_append _ (h.ended e he), ?_, h.order⟩
  intro r hr
  rcases List.mem_append.mp hr with hr | hr
  · exact arrived_append _ (h.rejected r hr)
  · rw [List.mem_singleton.mp hr]
    show (s.arrived ++ [_])[s.arrived.length]? = _
    rw [List.getElem?_append_right (Nat.le_refl _), Nat.sub_self]
    rfl

theorem enqueue (h : Inv L s) (frame : Frame) {q : CommandQueue} (hlive : s.stopped = false)
    (hq : s.queues.get? (key frame) = some q ∨ s.queues.get? (key frame) = none ∧
      q = ⟨[], false, false⟩ ∧ s.queues.entries.length < L.maxWorkers)
    (hlen : q.frames.length < L.maxPerDevice) (hroom : s.total < L.maxPending) :
    Inv L ((s.arrive frame).2.enqueue (s.arrive frame).1 q) := by
  have hok : QueueOk L s.arrived s.started (key frame) q := by
    rcases hq with hold | ⟨-, rfl, -⟩
    · exact h.queues _ (Dict.mem_of_get? hold)
    · exact queueOk_nil L _ _ _ false
  have hnot : q.cancelled = false := by
    rcases hq with hold | ⟨-, rfl, -⟩
    · by_contra hc
      have hstop := h.stopped _ (Dict.mem_of_get? hold) (Bool.of_not_eq_false hc)
      rw [hlive] at hstop
      cases hstop
    · rfl
  have hkept := CommandQueue.kept_le hok.running
  have hnumber : ∀ {t : Ticket}, s.arrived[t.number]? = some t → t.number < s.arrived.length :=
    fun ht => (List.getElem?_eq_some_iff.mp ht).1
  refine ⟨h.books.enqueue rfl hq hkept hroom, ?_, ?_, h.arrive_numbered frame,
    fun t ht => arrived_append _ (h.started t ht), fun e he => arrived_append _ (h.ended e he),
    fun r hr => arrived_append _ (h.rejected r hr), h.order⟩
  · intro e he
    rcases Dict.of_mem_set he with rfl | ⟨-, he⟩
    · refine ⟨?_, ?_, ?_, ?_, ?_, ?_, ?_⟩
      · show (q.frames ++ [_]).length ≤ _
        rw [List.length_append, List.length_singleton]
        omega
      · intro hc
        exact absurd (hnot.symm.trans hc) Bool.false_ne_true
      · intro _
        exact List.append_ne_nil_of_right_ne_nil _ (List.cons_ne_nil _ _)
      · intro t ht
        rcases List.mem_append.mp ht with ht | ht
        · exact hok.keys t ht
        · rw [List.mem_singleton.mp ht]
      · intro t ht
        rcases List.mem_append.mp ht with ht | ht
        · exact arrived_append _ (hok.genuine t ht)
        · rw [List.mem_singleton.mp ht]
          show (s.arrived ++ [_])[s.arrived.length]? = _
          rw [List.getElem?_append_right (Nat.le_refl _), Nat.sub_self]
          rfl
      · refine List.pairwise_append.mpr ⟨hok.sorted, List.pairwise_singleton _ _, ?_⟩
        intro t ht u hu
        rw [List.mem_singleton.mp hu]
        exact hnumber (hok.genuine t ht)
      · intro t ht u hu hkey
        have hwait : t ∈ q.waiting ++ [⟨s.arrived.length, frame⟩] := by
          have hdrop : (q.frames ++ [(⟨s.arrived.length, frame⟩ : Ticket)]).drop q.kept =
              q.waiting ++ [⟨s.arrived.length, frame⟩] := List.drop_append_of_le_length hkept
          rw [← hdrop]
          exact ht
        rcases List.mem_append.mp hwait with ht | ht
        · exact hok.later t ht u hu hkey
        · rw [List.mem_singleton.mp ht]
          exact hnumber (h.started u hu)
    · exact (h.queues e he).arrive _
  · intro e he hc
    rcases Dict.of_mem_set he with rfl | ⟨-, he⟩
    · exact absurd (hnot.symm.trans hc) Bool.false_ne_true
    · exact h.stopped e he hc

/-- A worker goes on with its queue. -/
theorem goOn (h : Inv L s) {q : CommandQueue} (hq : s.queues.get? k = some q)
    (hidle : q.running = false) : Inv L (s.goOn k q) := by
  obtain ⟨frames, running, c⟩ := q
  obtain rfl : running = false := hidle
  have hok := h.queues _ (Dict.mem_of_get? hq)
  cases frames with
  | nil =>
    exact ⟨h.books.goOn_nil hq, fun e he => h.queues e (Dict.of_mem_erase he),
      fun e he => h.stopped e (Dict.of_mem_erase he), h.numbered, h.started, h.ended, h.rejected,
      h.order⟩
  | cons t rest =>
    have hkey : key t.frame = k := hok.keys t List.mem_cons_self
    have hsorted := List.pairwise_cons.mp hok.sorted
    refine ⟨h.books.goOn_cons hq, ?_, ?_, h.numbered, ?_, h.ended, h.rejected, ?_⟩
    · intro e he
      rcases Dict.of_mem_set he with rfl | ⟨hne, he⟩
      · refine ⟨hok.length, hok.cancelled, fun _ => List.cons_ne_nil t rest, hok.keys, hok.genuine,
          hok.sorted, ?_⟩
        intro u hu v hv hvk
        rcases List.mem_append.mp hv with hv | hv
        · exact hok.later u (List.mem_cons_of_mem t hu) v hv hvk
        · rw [List.mem_singleton.mp hv]
          exact hsorted.1 u hu
      · have hold := h.queues e he
        refine { hold with later := ?_ }
        intro u hu v hv hvk
        rcases List.mem_append.mp hv with hv | hv
        · exact hold.later u hu v hv hvk
        · -- the frame is of another queue
          rw [List.mem_singleton.mp hv, hkey] at hvk
          exact absurd hvk.symm hne
    · intro e he hc
      rcases Dict.of_mem_set he with rfl | ⟨-, he⟩
      · exact h.stopped (k, ⟨t :: rest, false, c⟩) (Dict.mem_of_get? hq) hc
      · exact h.stopped e he hc
    · intro u hu
      rcases List.mem_append.mp hu with hu | hu
      · exact h.started u hu
      · rw [List.mem_singleton.mp hu]
        exact hok.genuine t List.mem_cons_self
    · refine List.pairwise_append.mpr ⟨h.order, List.pairwise_singleton _ _, ?_⟩
      intro u hu v hv hkeys
      rw [List.mem_singleton.mp hv] at hkeys ⊢
      exact hok.later t List.mem_cons_self u hu (hkeys.trans hkey)

/-- An execution ends. -/
theorem popHead (h : Inv L s) {t : Ticket} {rest : List Ticket} {c : Bool} {ending : Ending}
    {back : List (Ticket × String)} (hq : s.queues.get? k = some ⟨t :: rest, true, c⟩)
    (hback : back.map Prod.fst = if ending = .returned then [] else [t]) :
    Inv L ({ s with rejected := s.rejected ++ back }.popHead k t rest ending) := by
  have hok := h.queues _ (Dict.mem_of_get? hq)
  have hhead : s.arrived[t.number]? = some t := hok.genuine t List.mem_cons_self
  refine ⟨h.books.popHead hq hback, ?_, ?_, h.numbered, h.started, ?_, ?_, h.order⟩
  · intro e he
    rcases Dict.of_mem_set he with rfl | ⟨-, he⟩
    · exact ⟨Nat.le_of_succ_le hok.length, nofun, nofun,
        fun u hu => hok.keys u (List.mem_cons_of_mem t hu),
        fun u hu => hok.genuine u (List.mem_cons_of_mem t hu), (List.pairwise_cons.mp hok.sorted).2,
        hok.later⟩
    · exact h.queues e he
  · intro e he hc
    rcases Dict.of_mem_set he with rfl | ⟨-, he⟩
    · cases hc
    · exact h.stopped e he hc
  · intro e he
    rcases List.mem_append.mp he with he | he
    · exact h.ended e he
    · rw [List.mem_singleton.mp he]
      exact hhead
  · intro r hr
    rcases List.mem_append.mp hr with hr | hr
    · exact h.rejected r hr
    · have hfst := List.mem_map_of_mem (f := Prod.fst) hr
      rw [hback] at hfst
      split at hfst
      · exact absurd hfst List.not_mem_nil
      · rw [List.mem_singleton.mp hfst]
        exact hhead

theorem mem_mapValues {d : Dict (Option String) CommandQueue} {f : CommandQueue → CommandQueue}
    {e : Option String × CommandQueue} (h : e ∈ (d.mapValues f).entries) :
    ∃ q, (e.1, q) ∈ d.entries ∧ e.2 = f q := by
  obtain ⟨x, hx, rfl⟩ := List.mem_map.mp h
  exact ⟨x.2, hx, rfl⟩

/-- What is left of a queue that is cut down to its running frame. -/
theorem queueOk_executing {arrived started : List Ticket} {q : CommandQueue}
    (h : QueueOk L arrived started k q) :
    QueueOk L arrived started k { q with frames := q.executing } := by
  have hsub : q.executing.Sublist q.frames := List.take_sublist _ _
  refine ⟨Nat.le_trans hsub.length_le h.length, ?_, ?_, fun t ht => h.keys t (hsub.subset ht),
    fun t ht => h.genuine t (hsub.subset ht), h.sorted.sublist hsub, ?_⟩
  · intro hc
    rw [CommandQueue.executing, h.cancelled hc, List.take_nil]
  · intro hrun hnil
    have hlen := congrArg List.length hnil
    have hpos := List.length_pos_of_ne_nil (h.running hrun)
    have hkept : q.kept = 1 := if_pos hrun
    rw [CommandQueue.executing, List.length_take, hkept] at hlen
    exact absurd hlen (by simp only [List.length_nil]; omega)
  · rw [(Books.executing_left q).2]
    exact fun t ht => absurd ht List.not_mem_nil

theorem discardQueued (h : Inv L s) (reason : String) : Inv L (s.discardQueued reason) := by
  refine ⟨h.books.discardQueued reason, ?_, ?_, h.numbered, h.started, h.ended, ?_, h.order⟩
  · intro e he
    obtain ⟨q, hq, heq⟩ := mem_mapValues he
    rw [heq]
    exact queueOk_executing (h.queues _ hq)
  · intro e he hc
    obtain ⟨q, hq, heq⟩ := mem_mapValues he
    rw [heq] at hc
    exact h.stopped _ hq hc
  · intro r hr
    rcases List.mem_append.mp hr with hr | hr
    · exact h.rejected r hr
    · obtain ⟨t, ht, rfl⟩ := List.mem_map.mp hr
      obtain ⟨e, he, ht⟩ := List.mem_flatMap.mp ht
      exact (h.queues e he).genuine t
        (CommandQueue.mem_of_waiting (List.mem_reverse.mp ht))

theorem stop (h : Inv L s) : Inv L s.stop := by
  unfold Pool.stop
  split
  · exact h
  · have hstopped : Inv L { s with stopped := true } :=
      ⟨⟨h.books.pending, h.books.maxPending, h.books.maxWorkers, h.books.ledger, h.books.failed,
        h.books.began⟩, h.queues, fun _ _ _ => rfl, h.numbered, h.started, h.ended, h.rejected,
        h.order⟩
    have hd := hstopped.discardQueued "agent is stopping; command was not started"
    refine ⟨hd.books.mark _ (fun q => by split <;> rfl) (fun q => by split <;> rfl), ?_,
      fun _ _ _ => rfl, hd.numbered, hd.started, hd.ended, hd.rejected, hd.order⟩
    intro e he
    obtain ⟨q, hq, heq⟩ := mem_mapValues he
    have hok := hd.queues _ hq
    rw [heq]
    split
    · exact hok
    · -- nothing is left of a queue whose task has had no turn
      rename_i hidle
      obtain ⟨q₀, -, rfl⟩ := mem_mapValues hq
      have hnil : q₀.executing = [] := by
        have hkept : q₀.kept = 0 := if_neg hidle
        rw [CommandQueue.executing, hkept, List.take_zero]
      exact { hok with cancelled := fun _ => hnil }

theorem stopDone (h : Inv L s) (hdone : ∀ e ∈ s.queues.entries, e.2.cancelled = true) :
    Inv L s.stopDone :=
  ⟨h.books.stopDone fun e he => (h.queues e he).cancelled (hdone e he), nofun, nofun, h.numbered,
    h.started, h.ended, h.rejected, h.order⟩

/-- A submission. -/
theorem submit (h : Inv L s) (frame : Frame) : Inv L (s.submit L frame).1 := by
  unfold Pool.submit
  dsimp only
  split
  · exact h.turnAway frame _
  · rename_i hlive
    split
    · exact h.turnAway frame _
    · rename_i hfree
      rw [not_or, not_or] at hfree
      obtain ⟨hroom, hlen, hworkers⟩ := hfree
      have htotal := h.books.pending
      have hpending : (s.arrive frame).2.pending = s.pending := rfl
      have hgot : (s.arrive frame).2.queues.get? (key frame) = s.queues.get? (key frame) := rfl
      refine h.enqueue frame (Bool.eq_false_iff.mpr hlive) ?_ ?_ (by omega)
      · rw [hgot]
        cases hq : s.queues.get? (key frame) with
        | some q => exact Or.inl rfl
        | none   =>
          refine Or.inr ⟨rfl, rfl, ?_⟩
          rw [hgot, hq] at hworkers
          have hlt := fun hle => hworkers ⟨rfl, hle⟩
          exact Nat.lt_of_not_le hlt
      · rw [hgot] at hlen ⊢
        cases hq : s.queues.get? (key frame) with
        | some q =>
          rw [hq] at hlen
          have hlt := fun hle => hlen (decide_eq_true hle)
          exact Nat.lt_of_not_le hlt
        | none   => exact L.perDevicePos

/-- The end of an execution, and what its worker does then. -/
theorem finish (h : Inv L s) {t : Ticket} {rest : List Ticket} {c : Bool} {ending : Ending}
    (hq : s.queues.get? k = some ⟨t :: rest, true, c⟩)
    (hlast : ending = .cancelled → rest = []) : Inv L (s.finish k t rest ending) := by
  have hafter : ∀ {s : Pool},
      (s.popHead k t rest ending).queues.get? k = some ⟨rest, false, false⟩ := Dict.get?_set
  cases ending with
  | returned =>
    have hpop : Inv L ({ s with rejected := s.rejected ++ [] }.popHead k t rest .returned) :=
      h.popHead hq rfl
    rw [List.append_nil] at hpop
    exact hpop.goOn hafter rfl
  | raised    => exact (h.popHead hq rfl).goOn hafter rfl
  | cancelled =>
    -- the worker ends, as one does whose queue is empty
    obtain rfl := hlast rfl
    exact (h.popHead hq rfl).goOn hafter rfl

/-- **One step** that cancels nothing that frames wait for. -/
theorem step (h : Inv L s) {a : Act} {s' : Pool} (hg : CancelsNone s a)
    (hs : s.step L a = some s') : Inv L s' := by
  unfold Pool.step at hs
  cases a with
  | submit frame =>
    obtain rfl := Option.some.inj hs
    exact h.submit frame
  | turn k =>
    dsimp only at hs
    split at hs
    · rename_i q hq
      split at hs
      · cases hs
      · rename_i hidle
        obtain rfl := Option.some.inj hs
        rw [Bool.or_eq_true, not_or, Bool.not_eq_true] at hidle
        exact h.goOn hq hidle.1
    · cases hs
  | finish k ending =>
    dsimp only at hs
    split at hs
    · rename_i t rest c hq
      obtain rfl := Option.some.inj hs
      refine h.finish hq ?_
      rintro rfl
      have hle : (t :: rest).length ≤ 1 := hg _ hq
      exact List.eq_nil_of_length_eq_zero (by rw [List.length_cons] at hle; omega)
    · cases hs
  | cancel k => exact absurd hg id
  | discard reason =>
    obtain rfl := Option.some.inj hs
    exact h.discardQueued reason
  | stop =>
    obtain rfl := Option.some.inj hs
    exact h.stop
  | stopDone =>
    dsimp only at hs
    split at hs
    · rename_i hdone
      obtain rfl := Option.some.inj hs
      exact h.stopDone hdone.2
    · cases hs

end Inv

theorem inv_new (L : Limits) : Inv L .new :=
  ⟨⟨rfl, Nat.zero_le _, Nat.zero_le _, fun _ => rfl, fun _ => Nat.le_refl _, fun _ => rfl⟩, nofun,
    nofun, nofun, nofun, nofun, nofun, List.Pairwise.nil⟩

/-- **Runs.** -/
theorem inv_of_run {L : Limits} {s : Pool} (h : (pool L).ReachableBy CancelsNone s) : Inv L s :=
  h.invariant (fun _ hstart => hstart ▸ inv_new L) fun _ _ _ hi hg hs => hi.step hg hs

/-! ## What the books say -/

theorem holds_eq_count (n : Nat) (l : List Ticket) : holds n l = (l.map Ticket.number).count n := by
  rw [List.count, List.countP_map]
  rfl

/-- A number that no list holds twice. -/
theorem nodup_of_holds {l : List Ticket} (h : ∀ n, holds n l ≤ 1) :
    (l.map Ticket.number).Nodup := by
  rw [List.nodup_iff_count_le_one]
  intro n
  rw [← holds_eq_count]
  exact h n

theorem eq_of_single {l : List Ticket} {t u : Ticket} (h : l.length ≤ 1) (ht : t ∈ l) (hu : u ∈ l) :
    t = u := by
  cases l with
  | nil => exact absurd ht List.not_mem_nil
  | cons a l =>
    rw [List.length_cons] at h
    obtain rfl := List.eq_nil_of_length_eq_zero (show l.length = 0 by omega)
    rw [List.mem_singleton.mp ht, List.mem_singleton.mp hu]

theorem failedOf_le (s : Pool) (n : Nat) : s.failedOf n ≤ s.overOf n :=
  (List.filter_sublist.map Prod.fst).countP_le

namespace Inv

variable {L : Limits} {s : Pool}

/-- A number stands for one submission. -/
theorem unique {t u : Ticket} (ht : s.arrived[t.number]? = some t)
    (hu : s.arrived[u.number]? = some u) (hn : u.number = t.number) : u = t := by
  rw [hn, ht] at hu
  exact (Option.some.inj hu).symm

theorem mem_of_holds {t : Ticket} {l : List Ticket} (ht : s.arrived[t.number]? = some t)
    (hl : ∀ u ∈ l, s.arrived[u.number]? = some u) (hpos : 0 < holds t.number l) : t ∈ l := by
  obtain ⟨u, hu, hn⟩ := holds_pos.mp hpos
  exact unique ht (hl u hu) hn ▸ hu

theorem genuine (h : Inv L s) {t : Ticket} (ht : t ∈ s.arrived) : s.arrived[t.number]? = some t := by
  obtain ⟨i, hi⟩ := List.mem_iff_getElem?.mp ht
  rw [h.numbered i t hi]
  exact hi

theorem executing (h : Inv L s) {t : Ticket} (ht : s.arrived[t.number]? = some t)
    (hpos : 0 < s.executingOf t.number) : ∃ e ∈ s.queues.entries, t ∈ e.2.executing := by
  obtain ⟨e, he, hholds⟩ := Dict.exists_of_sumOf_pos hpos
  exact ⟨e, he, mem_of_holds ht
    (fun u hu => (h.queues e he).genuine u (CommandQueue.mem_of_executing hu)) hholds⟩

theorem waiting (h : Inv L s) {t : Ticket} (ht : s.arrived[t.number]? = some t)
    (hpos : 0 < s.waitingOf t.number) : ∃ e ∈ s.queues.entries, t ∈ e.2.frames := by
  obtain ⟨e, he, hholds⟩ := Dict.exists_of_sumOf_pos hpos
  exact ⟨e, he, CommandQueue.mem_of_waiting (mem_of_holds ht
    (fun u hu => (h.queues e he).genuine u (CommandQueue.mem_of_waiting hu)) hholds)⟩

theorem isOver (h : Inv L s) {t : Ticket} (ht : s.arrived[t.number]? = some t)
    (hpos : 0 < s.overOf t.number) : s.Over t := by
  have hmem : t ∈ s.ended.map Prod.fst := by
    refine mem_of_holds ht ?_ hpos
    intro u hu
    obtain ⟨e, he, rfl⟩ := List.mem_map.mp hu
    exact h.ended e he
  obtain ⟨⟨u, ending⟩, he, rfl⟩ := List.mem_map.mp hmem
  exact ⟨ending, he⟩

theorem failedEnding (h : Inv L s) {t : Ticket} (ht : s.arrived[t.number]? = some t)
    (hpos : 0 < s.failedOf t.number) : ∃ ending, (t, ending) ∈ s.ended ∧ ending ≠ .returned := by
  have hmem : t ∈ (s.ended.filter fun e => e.2 != .returned).map Prod.fst := by
    refine mem_of_holds ht ?_ hpos
    intro u hu
    obtain ⟨e, he, rfl⟩ := List.mem_map.mp hu
    exact h.ended e (List.mem_of_mem_filter he)
  obtain ⟨⟨u, ending⟩, he, rfl⟩ := List.mem_map.mp hmem
  obtain ⟨hended, hne⟩ := List.mem_filter.mp he
  exact ⟨ending, hended, bne_iff_ne.mp hne⟩

theorem handedBack (h : Inv L s) {t : Ticket} (ht : s.arrived[t.number]? = some t)
    (hpos : 0 < s.rejectedOf t.number) : ∃ reason, (t, reason) ∈ s.rejected := by
  have hmem : t ∈ s.rejected.map Prod.fst := by
    refine mem_of_holds ht ?_ hpos
    intro u hu
    obtain ⟨r, hr, rfl⟩ := List.mem_map.mp hu
    exact h.rejected r hr
  obtain ⟨⟨u, reason⟩, hr, rfl⟩ := List.mem_map.mp hmem
  exact ⟨reason, hr⟩

/-- What began and is not over is the running frame of its queue. -/
theorem running (h : Inv L s) {t : Ticket} (ht : t ∈ s.started) (hover : ¬ s.Over t) :
    ∃ e ∈ s.queues.entries, t ∈ e.2.executing := by
  have hgenuine := h.started t ht
  refine h.executing hgenuine ?_
  have hbegan := h.books.began t.number
  have hstarted : 0 < holds t.number s.started := holds_pos.mpr ⟨t, ht, rfl⟩
  have hzero : s.overOf t.number = 0 := by
    by_contra hne
    exact hover (h.isOver hgenuine (Nat.pos_of_ne_zero hne))
  omega

/-- One at a time. -/
theorem single (h : Inv L s) {t u : Ticket} (ht : t ∈ s.started) (hu : u ∈ s.started)
    (htover : ¬ s.Over t) (huover : ¬ s.Over u) (hkey : key t.frame = key u.frame) : t = u := by
  obtain ⟨e, he, hte⟩ := h.running ht htover
  obtain ⟨e', he', hue⟩ := h.running hu huover
  have hsame : e.1 = e'.1 := by
    rw [← (h.queues e he).keys t (CommandQueue.mem_of_executing hte), hkey]
    exact (h.queues e' he').keys u (CommandQueue.mem_of_executing hue)
  have hget := Dict.mem_iff_get?.mp he
  have hget' := Dict.mem_iff_get?.mp he'
  rw [hsame, hget'] at hget
  rw [Option.some.inj hget] at hue
  have hle : e.2.executing.length ≤ 1 := by
    rw [CommandQueue.executing, List.length_take, CommandQueue.kept]
    split <;> omega
  exact eq_of_single hle hte hue

/-- Nothing gets lost. -/
theorem disposed (h : Inv L s) {t : Ticket} (ht : t ∈ s.arrived) :
    (∃ e ∈ s.queues.entries, t ∈ e.2.frames) ∨ (t ∈ s.started ∧ s.Over t) ∨
      ∃ reason, (t, reason) ∈ s.rejected := by
  have hgenuine := h.genuine ht
  have hlt : t.number < s.arrived.length := (List.getElem?_eq_some_iff.mp hgenuine).1
  have hledger := h.books.ledger t.number
  rw [if_pos hlt] at hledger
  have hbegan := h.books.began t.number
  by_cases hwaiting : 0 < s.waitingOf t.number
  · exact Or.inl (h.waiting hgenuine hwaiting)
  by_cases hexecuting : 0 < s.executingOf t.number
  · obtain ⟨e, he, hte⟩ := h.executing hgenuine hexecuting
    exact Or.inl ⟨e, he, CommandQueue.mem_of_executing hte⟩
  by_cases hover : 0 < s.overOf t.number
  · have hstarted := mem_of_holds hgenuine h.started (by omega)
    exact Or.inr (Or.inl ⟨hstarted, h.isOver hgenuine hover⟩)
  · exact Or.inr (Or.inr (h.handedBack hgenuine (by omega)))

/-- What is both executed and handed back did not return. -/
theorem notBoth (h : Inv L s) {t : Ticket} (ht : t ∈ s.started) {reason : String}
    (hr : (t, reason) ∈ s.rejected) : ∃ ending, (t, ending) ∈ s.ended ∧ ending ≠ .returned := by
  have hgenuine := h.started t ht
  refine h.failedEnding hgenuine ?_
  have hledger := h.books.ledger t.number
  have hbegan := h.books.began t.number
  have hstarted : 0 < holds t.number s.started := holds_pos.mpr ⟨t, ht, rfl⟩
  have hrejected : 0 < s.rejectedOf t.number :=
    holds_pos.mpr ⟨t, List.mem_map_of_mem (f := Prod.fst) hr, rfl⟩
  split at hledger <;> omega

theorem startedOnce (h : Inv L s) : (s.started.map Ticket.number).Nodup := by
  refine nodup_of_holds fun n => ?_
  have hledger := h.books.ledger n
  have hbegan := h.books.began n
  have hfailed := h.books.failed n
  split at hledger <;> omega

theorem rejectedOnce (h : Inv L s) : (s.rejected.map fun r => r.1.number).Nodup := by
  have hnodup : ((s.rejected.map Prod.fst).map Ticket.number).Nodup := by
    refine nodup_of_holds fun n => ?_
    have hledger := h.books.ledger n
    have hover := failedOf_le s n
    have hrejected : holds n (s.rejected.map Prod.fst) = s.rejectedOf n := rfl
    split at hledger <;> omega
  rw [List.map_map] at hnodup
  exact hnodup

end Inv

/-! ## Every run -/

/-- **The books are right** in every run in which nothing is cancelled while frames wait for it. -/
theorem accounted (L : Limits) (s : Pool) (h : (pool L).ReachableBy CancelsNone s) :
    Accounted L s := by
  have hinv := inv_of_run h
  refine ⟨hinv.order, fun t ht u hu => hinv.single ht hu, hinv.books.pending,
    hinv.books.maxPending, fun e he => (hinv.queues e he).length, hinv.books.maxWorkers,
    hinv.startedOnce, hinv.rejectedOnce, fun t ht _ => hinv.notBoth ht,
    fun t => hinv.disposed, ?_⟩
  intro e he hne
  by_contra hc
  exact hne ((hinv.queues e he).cancelled (Bool.of_not_eq_false hc))

/-- The guard as a test. -/
def cancelsNone (s : Pool) : Act → Bool
  | .finish k .cancelled => match s.queues.get? k with
    | some q => decide (q.frames.length ≤ 1)
    | none   => true
  | .cancel _            => false
  | _                    => true

theorem cancelsNone_iff {s : Pool} {a : Act} (h : cancelsNone s a = true) : CancelsNone s a := by
  cases a with
  | finish k ending =>
    cases ending with
    | cancelled =>
      intro q hq
      replace h : (match s.queues.get? k with
        | some q => decide (q.frames.length ≤ 1)
        | none   => true) = true := h
      rw [Option.mem_def.mp hq] at h
      exact of_decide_eq_true h
    | _ => trivial
  | cancel k => exact absurd h Bool.false_ne_true
  | _ => trivial

/-- Two frames of a device, of which one is executed; a disconnect, and a third frame that a stop
cuts short; a fourth. -/
def cutShort : List Act :=
  [.submit [("device", .str "m")], .submit [("device", .str "m")], .turn (some "m"),
    .discard "disconnected", .finish (some "m") .returned, .submit [("device", .str "m")],
    .turn (some "m"), .stop, .submit [("device", .str "m")], .finish (some "m") .cancelled,
    .stopDone]

theorem accounted_cutShort : ∃ s, (pool defaults).runBy cancelsNone .new cutShort = some s ∧
    s.started.map Ticket.number = [0, 2] ∧ s.rejected.map (fun r => r.1.number) = [1, 3, 2] ∧
    Accounted defaults s := by
  have hrun : ((pool defaults).runBy cancelsNone .new cutShort).map (fun s =>
      (s.started.map Ticket.number, s.rejected.map fun r => r.1.number)) =
        some ([0, 2], [1, 3, 2]) := by decide
  obtain ⟨s, hs, hfinal⟩ := Option.map_eq_some_iff.mp hrun
  obtain ⟨hstarted, hrejected⟩ := Prod.mk.inj hfinal
  have hpath := (Machine.runBy_path hs).mono fun _ _ => cancelsNone_iff
  exact ⟨s, hs, hstarted, hrejected, accounted defaults s ⟨_, rfl, hpath⟩⟩

/-- **A cancelled execution** takes the frames behind it along: its queue goes, they are counted
on. -/
theorem strands {L : Limits} {s : Pool} {k : Option String} {t : Ticket} {rest : List Ticket}
    {c : Bool} (h : Inv L s) (hq : s.queues.get? k = some ⟨t :: rest, true, c⟩) (hne : rest ≠ []) :
    ¬ Accounted L (s.finish k t rest .cancelled) := by
  intro hacc
  have hpending : s.pending - 1 = (s.finish k t rest .cancelled).total := hacc.pending
  have hset := Dict.sumOf_set_old (f := fun q : CommandQueue => q.frames.length)
    (v := ⟨rest, false, false⟩) hq
  have herase := Dict.sumOf_erase (f := fun q : CommandQueue => q.frames.length)
    (Dict.get?_set (k := k) (v := (⟨rest, false, false⟩ : CommandQueue)) (d := s.queues))
  have htotal : (s.finish k t rest .cancelled).total =
      ((s.queues.set k ⟨rest, false, false⟩).erase k).sumOf fun q => q.frames.length := rfl
  have hbooks : s.pending = (s.queues.sumOf fun q => q.frames.length : Nat) := h.books.pending
  have hlen := List.length_pos_of_ne_nil hne
  rw [List.length_cons] at hset
  omega

/-- A worker that is cancelled before its first turn leaves its frames behind. -/
theorem cancel_unserved {L : Limits} {s : Pool} {k : Option String} {q : CommandQueue}
    (hne : q.frames ≠ []) :
    ¬ Accounted L { s with queues := s.queues.set k { q with cancelled := true } } :=
  fun hacc => absurd (hacc.served _ Dict.mem_set hne) Bool.noConfusion

/-- Two frames of a device, and the execution of the first is cancelled: the second is in no queue,
was not executed and was not handed back. -/
theorem cancelled_head_strands : ∃ s, (pool defaults).run .new
      [.submit [("device", .str "m")], .submit [("device", .str "m")], .turn (some "m"),
       .finish (some "m") .cancelled] = some s ∧
    s.pending = 1 ∧ s.queues.entries = [] ∧ s.arrived.map Ticket.number = [0, 1] ∧
    s.started.map Ticket.number = [0] ∧ s.rejected.map (fun r => r.1.number) = [0] ∧
    ¬ Accounted defaults s := by
  refine ⟨_, rfl, rfl, rfl, rfl, rfl, rfl, ?_⟩
  intro hacc
  exact absurd hacc.pending (by decide)

/-! ## Without the numbers -/

def CommandQueue.plain (q : CommandQueue) : DeviceQueue := ⟨q.frames.map Ticket.frame, q.running⟩

def Pool.plain (s : Pool) : Dispatcher :=
  ⟨s.queues.entries.map fun e => (e.1, e.2.plain), s.pending.toNat, s.stopped⟩

/-- What was handed back, without the numbers. -/
def Pool.plainRejected (s : Pool) : List Rejection := s.rejected.map fun r => (r.1.frame, r.2)

theorem plain_queue (s : Pool) (k : Option String) :
    s.plain.queue k = (s.queues.get? k).map CommandQueue.plain := by
  unfold Dispatcher.queue Pool.plain Dict.get?
  dsimp only
  induction s.queues.entries with
  | nil => rfl
  | cons e l ih =>
    rw [List.map_cons, List.find?_cons, Dict.lookupIn]
    by_cases hk : e.1 = k
    · rw [if_pos hk, decide_eq_true hk]
      rfl
    · rw [if_neg hk, decide_eq_false hk]
      exact ih

/-- Replacing a queue under a key that there is. -/
theorem plain_set_old {l : List (Option String × CommandQueue)} {k : Option String}
    {q w : CommandQueue} (hn : (l.map Prod.fst).Nodup) (h : Dict.lookupIn k l = some w) :
    (Dict.setIn k q l).map (fun e => (e.1, e.2.plain)) =
      (l.map fun e => (e.1, e.2.plain)).map fun x => if x.1 = k then (k, q.plain) else x := by
  induction l with
  | nil => cases h
  | cons e l ih =>
    rw [List.map_cons, List.nodup_cons] at hn
    rw [Dict.setIn, List.map_cons, List.map_cons]
    by_cases hk : e.1 = k
    · rw [if_pos hk, if_pos hk, List.map_cons]
      refine congrArg _ ?_
      -- no other entry has the key
      rw [List.map_map]
      refine List.map_congr_left fun e' he' => (if_neg ?_).symm
      intro hk'
      rw [hk, ← hk'] at hn
      exact hn.1 (List.mem_map_of_mem (f := Prod.fst) he')
    · rw [if_neg hk, if_neg hk, List.map_cons]
      rw [Dict.lookupIn, if_neg hk] at h
      exact congrArg _ (ih hn.2 h)

theorem plain_set_new {l : List (Option String × CommandQueue)} {k : Option String}
    {q : CommandQueue} (h : Dict.lookupIn k l = none) :
    Dict.setIn k q l = l ++ [(k, q)] := by
  induction l with
  | nil => rfl
  | cons e l ih =>
    rw [Dict.lookupIn] at h
    rw [Dict.setIn]
    split at h
    · cases h
    · rename_i hk
      rw [if_neg hk, ih h]
      rfl

/-- The test for room is the same. -/
theorem plain_full (s : Pool) (k : Option String) :
    (defaults.maxPending ≤ s.pending ∨
      ((s.queues.get? k).any fun q => decide (defaults.maxPerDevice ≤ q.frames.length)) = true ∨
      (s.queues.get? k = none ∧ defaults.maxWorkers ≤ s.queues.entries.length)) ↔
    MAX_PENDING_COMMANDS ≤ s.plain.pending ∨
      ((s.plain.queue k).elim false fun q => decide (MAX_DEVICE_COMMANDS ≤ q.frames.length)) = true ∨
      ((s.plain.queue k).isNone = true ∧ MAX_COMMAND_WORKERS ≤ s.plain.queues.length) := by
  have hpending : (defaults.maxPending : Int) ≤ s.pending ↔
      MAX_PENDING_COMMANDS ≤ s.plain.pending := by
    have hpos : 0 < MAX_PENDING_COMMANDS := by decide
    show ((MAX_PENDING_COMMANDS : Nat) : Int) ≤ s.pending ↔ MAX_PENDING_COMMANDS ≤ s.pending.toNat
    omega
  have hworkers : s.plain.queues.length = s.queues.entries.length := List.length_map _
  refine or_congr hpending (or_congr ?_ ?_)
  · rw [plain_queue]
    cases s.queues.get? k with
    | none   => exact Iff.rfl
    | some q =>
      show decide (MAX_DEVICE_COMMANDS ≤ q.frames.length) = true ↔
        decide (MAX_DEVICE_COMMANDS ≤ (q.frames.map Ticket.frame).length) = true
      rw [List.length_map]
  · rw [hworkers, plain_queue, Option.isNone_map, Option.isNone_iff_eq_none]
    exact Iff.rfl

/-- A frame that joins a queue. -/
theorem plain_enqueue {s : Pool} (h : 0 ≤ s.pending) (t : Ticket) :
    (s.enqueue t ((s.queues.get? (key t.frame)).getD ⟨[], false, false⟩)).plain =
      match s.plain.queue (key t.frame) with
      | some q => { s.plain.setQueue (key t.frame) { q with frames := q.frames ++ [t.frame] } with
          pending := s.plain.pending + 1 }
      | none   => { s.plain with
          queues  := s.plain.queues ++ [(key t.frame, ⟨[t.frame], false⟩)]
          pending := s.plain.pending + 1 } := by
  have hpending : (s.pending + 1).toNat = s.pending.toNat + 1 := Int.toNat_add_nat h 1
  rw [plain_queue]
  cases hq : s.queues.get? (key t.frame) with
  | some q =>
    have hqueues := plain_set_old (q := { q with frames := q.frames ++ [t] }) s.queues.nodup hq
    have hplain : ({ q with frames := q.frames ++ [t] } : CommandQueue).plain =
        { q.plain with frames := q.plain.frames ++ [t.frame] } := by
      unfold CommandQueue.plain
      rw [List.map_append]
      rfl
    rw [hplain] at hqueues
    exact Dispatcher.mk.injEq .. ▸ ⟨hqueues, hpending, rfl⟩
  | none   =>
    have hqueues : (s.queues.set (key t.frame) ⟨[] ++ [t], false, false⟩).entries =
        s.queues.entries ++ [(key t.frame, ⟨[] ++ [t], false, false⟩)] := plain_set_new hq
    have hmap := congrArg (List.map fun e : Option String × CommandQueue => (e.1, e.2.plain)) hqueues
    rw [List.map_append] at hmap
    exact Dispatcher.mk.injEq .. ▸ ⟨hmap, hpending, rfl⟩

/-- **`submit`** is that of the dispatcher. -/
theorem plain_submit {s : Pool} (h : Books defaults s) (frame : Frame) :
    (s.submit defaults frame).1.plain = (s.plain.submit frame).1 ∧
      (s.submit defaults frame).1.plainRejected =
        s.plainRejected ++ (s.plain.submit frame).2 := by
  have hreject : ∀ reason, ((s.arrive frame).2.reject (s.arrive frame).1 reason).plainRejected =
      s.plainRejected ++ [(frame, reason)] := fun _ => List.map_append
  have hpending : 0 ≤ s.pending := by
    rw [h.pending]
    exact Int.natCast_nonneg _
  unfold Pool.submit Dispatcher.submit
  dsimp only
  by_cases hstop : s.stopped = true
  · have hstop' : s.plain.stopped = true := hstop
    rw [if_pos hstop', if_pos (show (s.arrive frame).2.stopped = true from hstop)]
    exact ⟨rfl, hreject _⟩
  · have hstop' : ¬ s.plain.stopped = true := hstop
    rw [if_neg hstop', if_neg (show ¬ (s.arrive frame).2.stopped = true from hstop)]
    have hfull := plain_full (s.arrive frame).2 (key frame)
    have hplain : (s.arrive frame).2.plain = s.plain := rfl
    rw [hplain] at hfull
    by_cases hroom : MAX_PENDING_COMMANDS ≤ s.plain.pending ∨
        ((s.plain.queue (key frame)).elim false fun q =>
          decide (MAX_DEVICE_COMMANDS ≤ q.frames.length)) = true ∨
        ((s.plain.queue (key frame)).isNone = true ∧ MAX_COMMAND_WORKERS ≤ s.plain.queues.length)
    · rw [if_pos hroom]
      have hroom' := hfull.mpr hroom
      rw [if_pos hroom']
      exact ⟨rfl, hreject _⟩
    · rw [if_neg hroom]
      have hroom' := mt hfull.mp hroom
      rw [if_neg hroom']
      refine ⟨?_, ?_⟩
      · refine (plain_enqueue (s := (s.arrive frame).2) hpending (s.arrive frame).1).trans ?_
        have hsame : (s.arrive frame).2.plain.queue (key (s.arrive frame).1.frame) =
            s.plain.queue (key frame) := rfl
        rw [hsame]
        cases s.plain.queue (key frame) with
        | some q => rfl
        | none   => rfl
      · cases s.plain.queue (key frame) with
        | some q => exact (List.append_nil _).symm
        | none   => exact (List.append_nil _).symm

/-- **`discard_queued`** is that of the dispatcher. -/
theorem plain_discardQueued (s : Pool) (reason : String) :
    (s.discardQueued reason).plain = (s.plain.discardQueued reason).1 ∧
      (s.discardQueued reason).plainRejected =
        s.plainRejected ++ (s.plain.discardQueued reason).2 := by
  have hdropped : (s.queues.entries.flatMap fun e => e.2.waiting.reverse).map Ticket.frame =
      s.plain.queues.flatMap fun q =>
        (q.2.frames.drop (Dispatcher.DeviceQueue.kept q.2)).reverse := by
    unfold Pool.plain
    dsimp only
    rw [List.map_flatMap, List.flatMap_map]
    refine congrArg (List.flatMap · _) (funext fun e => ?_)
    show (e.2.frames.drop e.2.kept).reverse.map Ticket.frame =
      ((e.2.frames.map Ticket.frame).drop e.2.kept).reverse
    rw [List.map_reverse, List.map_drop]
  have hqueues : (s.discardQueued reason).queues.entries.map (fun e => (e.1, e.2.plain)) =
      s.plain.queues.map fun q =>
        (q.1, { q.2 with frames := q.2.frames.take (Dispatcher.DeviceQueue.kept q.2) }) := by
    show (s.queues.entries.map _).map _ = (s.queues.entries.map _).map _
    rw [List.map_map, List.map_map]
    refine List.map_congr_left fun e _ => congrArg (Prod.mk e.1) ?_
    show (⟨(e.2.frames.take e.2.kept).map Ticket.frame, e.2.running⟩ : DeviceQueue) =
      ⟨(e.2.frames.map Ticket.frame).take e.2.kept, e.2.running⟩
    rw [List.map_take]
  have hlength := congrArg List.length hdropped
  rw [List.length_map] at hlength
  constructor
  · refine Dispatcher.mk.injEq .. ▸ ⟨hqueues, ?_, rfl⟩
    show (s.pending - ((s.queues.entries.flatMap fun e => e.2.waiting.reverse).length : Int)).toNat =
      s.pending.toNat - _
    rw [← hlength]
    omega
  · show (s.rejected ++ _).map _ = _
    rw [List.map_append, List.map_map]
    refine congrArg (s.plainRejected ++ ·) ?_
    show _ = List.map _ (s.plain.queues.flatMap _)
    rw [← hdropped, List.map_map]
    rfl

end Air780eHub.Workers
