/-
  The intervals of a range are its maximal runs (`signalHistory.ts`).

  1. **`Reported`**: the state at a time by the samples, as the latest of them by then says, the
     last one in the list among several of one time; `stateAt` computes it.
  2. **`byTime`, `ordered`**: under each time the last sample of that time, in the order of times,
     so that what is in force between two of them is `stateAt` (`valueAt_ordered`).
  3. **The loops.**  `walk` keeps a tiling of the range up to its cursor that shows `stateAt`
     (`walk_spec`), each step by `append` (`append_spec`).
  4. **The summary** counts the spans of a tiling, which are the runs of `stateAt`.
-/
import Air780eHub.Signal.History

namespace Air780eHub.Signal

open Timeline

variable {getTime : String → Option Int} {samples : List RegistrationSample}

/-! ## What the samples say -/

/-- The sample at `i` is the latest by `t`: each other one by `t` is of an earlier time, or of the
same time and not behind it in the list. -/
def IsLatest (getTime : String → Option Int) (samples : List RegistrationSample) (t : Int) (i : Nat)
    (sample : RegistrationSample) (time : Int) : Prop :=
  samples[i]? = some sample ∧ getTime sample.ts = some time ∧ time ≤ t ∧
    ∀ j other otherTime, samples[j]? = some other → getTime other.ts = some otherTime →
      otherTime ≤ t → otherTime < time ∨ otherTime = time ∧ j ≤ i

/-- The state at `t`: that of the latest sample by `t`, or unknown if there is none. -/
def Reported (getTime : String → Option Int) (samples : List RegistrationSample) (t : Int)
    (state : RegistrationState) : Prop :=
  (∃ i sample time, IsLatest getTime samples t i sample time ∧ state = registrationState sample) ∨
    (∀ sample ∈ samples, ∀ time, getTime sample.ts = some time → t < time) ∧ state = .unknown

theorem reported_unique {t : Int} {state state' : RegistrationState}
    (h : Reported getTime samples t state) (h' : Reported getTime samples t state') :
    state = state' := by
  rcases h with ⟨i, sample, time, ⟨hget, htime, hle, hmax⟩, rfl⟩ | ⟨hnone, rfl⟩
  · rcases h' with ⟨i', sample', time', ⟨hget', htime', hle', hmax'⟩, rfl⟩ | ⟨hnone', -⟩
    · have hii : i = i' := by
        have hforth := hmax i' sample' time' hget' htime' hle'
        have hback := hmax' i sample time hget htime hle
        omega
      rw [hii, hget'] at hget
      rw [Option.some.inj hget]
    · have hlt := hnone' sample (List.mem_of_getElem? hget) time htime
      omega
  · rcases h' with ⟨i', sample', time', ⟨hget', htime', hle', -⟩, -⟩ | ⟨-, rfl⟩
    · have hlt := hnone sample' (List.mem_of_getElem? hget') time' htime'
      omega
    · rfl

/-- The latest sample by `t`, with its time. -/
def latest (getTime : String → Option Int) (t : Int) :
    List RegistrationSample → Option (Int × RegistrationSample)
  | []             => none
  | sample :: rest => match getTime sample.ts, latest getTime t rest with
    | some time, some best =>
      if time ≤ t ∧ best.1 < time then some (time, sample) else some best
    | some time, none      => if time ≤ t then some (time, sample) else none
    | none, best           => best

/-- The state at `t` by the samples. -/
def stateAt (getTime : String → Option Int) (samples : List RegistrationSample) (t : Int) :
    RegistrationState :=
  match latest getTime t samples with
  | some best => registrationState best.2
  | none      => .unknown

/-- A sample in front that is not by `t`, or of no later time, changes nothing. -/
theorem isLatest_cons {t time : Int} {i : Nat} {sample first : RegistrationSample}
    (h : IsLatest getTime samples t i sample time)
    (hfirst : ∀ firstTime, getTime first.ts = some firstTime → firstTime ≤ t → firstTime ≤ time) :
    IsLatest getTime (first :: samples) t (i + 1) sample time := by
  obtain ⟨hget, htime, hle, hmax⟩ := h
  refine ⟨hget, htime, hle, fun j other otherTime hother hotherTime hotherLe => ?_⟩
  match j with
  | 0     =>
    obtain rfl := Option.some.inj hother
    have hfirst := hfirst otherTime hotherTime hotherLe
    omega
  | j + 1 =>
    have hrest := hmax j other otherTime hother hotherTime hotherLe
    omega

/-- A sample in front is the latest where those behind it are of earlier times. -/
theorem isLatest_first {t time : Int} {first : RegistrationSample}
    (htime : getTime first.ts = some time) (hle : time ≤ t)
    (hrest : ∀ sample ∈ samples, ∀ otherTime, getTime sample.ts = some otherTime →
      otherTime ≤ t → otherTime < time) : IsLatest getTime (first :: samples) t 0 first time := by
  refine ⟨rfl, htime, hle, fun j other otherTime hother hotherTime hotherLe => ?_⟩
  match j with
  | 0     =>
    obtain rfl := Option.some.inj hother
    exact Or.inr ⟨Option.some.inj (hotherTime.symm.trans htime), Nat.le_refl 0⟩
  | j + 1 =>
    exact Or.inl (hrest other (List.mem_of_getElem? hother) otherTime hotherTime hotherLe)

theorem IsLatest.time_le {t time : Int} {i : Nat} {sample : RegistrationSample}
    (h : IsLatest getTime samples t i sample time) {other : RegistrationSample}
    (hother : other ∈ samples) {otherTime : Int} (hotherTime : getTime other.ts = some otherTime)
    (hle : otherTime ≤ t) : otherTime ≤ time := by
  obtain ⟨j, hj⟩ := List.mem_iff_getElem?.mp hother
  have hmax := h.2.2.2 j other otherTime hj hotherTime hle
  omega

theorem latest_spec {t : Int} :
    (∀ best, latest getTime t samples = some best →
      ∃ i, IsLatest getTime samples t i best.2 best.1) ∧
    (latest getTime t samples = none →
      ∀ sample ∈ samples, ∀ time, getTime sample.ts = some time → t < time) := by
  induction samples with
  | nil => exact ⟨nofun, fun _ sample hsample => absurd hsample List.not_mem_nil⟩
  | cons first rest ih =>
    obtain ⟨hsome, hnone⟩ := ih
    rw [latest]
    split
    · rename_i time best htime hbest
      obtain ⟨i, hi⟩ := hsome best hbest
      split
      · rename_i hlt
        refine ⟨fun best' hbest' => ⟨0, ?_⟩, nofun⟩
        obtain rfl := Option.some.inj hbest'
        refine isLatest_first htime hlt.1 fun sample hsample otherTime hother hle => ?_
        have hback := hi.time_le hsample hother hle
        omega
      · rename_i hge
        refine ⟨fun best' hbest' => ⟨i + 1, ?_⟩, nofun⟩
        obtain rfl := Option.some.inj hbest'
        refine isLatest_cons hi fun firstTime hfirst hle => ?_
        obtain rfl := Option.some.inj (htime.symm.trans hfirst)
        omega
    · rename_i time htime hbest
      split
      · rename_i hle
        refine ⟨fun best' hbest' => ⟨0, ?_⟩, nofun⟩
        obtain rfl := Option.some.inj hbest'
        refine isLatest_first htime hle fun sample hsample otherTime hother hle' => ?_
        have hlt := hnone hbest sample hsample otherTime hother
        omega
      · rename_i hgt
        refine ⟨nofun, fun _ => List.forall_mem_cons.mpr ⟨fun otherTime hother => ?_, hnone hbest⟩⟩
        obtain rfl := Option.some.inj (htime.symm.trans hother)
        omega
    · rename_i htime
      refine ⟨fun best hbest => ?_, fun hbest => ?_⟩
      · obtain ⟨i, hi⟩ := hsome best hbest
        exact ⟨i + 1, isLatest_cons hi fun firstTime hfirst => nomatch htime.symm.trans hfirst⟩
      · exact List.forall_mem_cons.mpr
          ⟨fun time hfirst => (nomatch htime.symm.trans hfirst), hnone hbest⟩

/-- `stateAt` is the state that the samples report. -/
theorem reported_stateAt (t : Int) : Reported getTime samples t (stateAt getTime samples t) := by
  unfold stateAt
  split
  · rename_i best hbest
    obtain ⟨i, hi⟩ := latest_spec.1 best hbest
    exact Or.inl ⟨i, best.2, best.1, hi, rfl⟩
  · rename_i hnone
    exact Or.inr ⟨latest_spec.2 hnone, rfl⟩

/-! ## The samples in the order of their times -/

theorem getElem?_snoc {l : List RegistrationSample} {a b : RegistrationSample} {j : Nat}
    (h : (l ++ [a])[j]? = some b) : l[j]? = some b ∨ j = l.length ∧ b = a := by
  rcases Nat.lt_or_ge j l.length with hlt | hge
  · rw [List.getElem?_append_left hlt] at h
    exact Or.inl h
  · rw [List.getElem?_append_right hge] at h
    obtain ⟨hlt, hb⟩ := List.getElem?_eq_some_iff.mp h
    rw [List.length_singleton] at hlt
    refine Or.inr ⟨by omega, ?_⟩
    rw [← hb, List.getElem_singleton]

theorem byTime_snoc (sample : RegistrationSample) (rangeEnd : Int) :
    byTime getTime (samples ++ [sample]) rangeEnd =
      setSample getTime rangeEnd (byTime getTime samples rangeEnd) sample := by
  unfold byTime
  rw [List.foldl_append]
  rfl

/-- Under a time is the last of the samples of that time. -/
theorem byTime_get? {rangeEnd time : Int} {state : RegistrationState}
    (h : (byTime getTime samples rangeEnd).get? time = some state) :
    time ≤ rangeEnd ∧ ∃ i sample, samples[i]? = some sample ∧ getTime sample.ts = some time ∧
      state = registrationState sample ∧ ∀ (j : Nat) (other : RegistrationSample),
        samples[j]? = some other → getTime other.ts = some time → j ≤ i := by
  induction samples using List.reverseRecOn with
  | nil => cases h
  | append_singleton samples last ih =>
    -- what is under another time than that of the last sample was there before
    have hkeep : (byTime getTime samples rangeEnd).get? time = some state →
        (time ≤ rangeEnd → getTime last.ts ≠ some time) →
        time ≤ rangeEnd ∧ ∃ i sample, (samples ++ [last])[i]? = some sample ∧
          getTime sample.ts = some time ∧ state = registrationState sample ∧
          ∀ (j : Nat) (other : RegistrationSample),
            (samples ++ [last])[j]? = some other → getTime other.ts = some time → j ≤ i := by
      intro hget hlast
      obtain ⟨hle, i, sample, hi, htime, hstate, hmax⟩ := ih hget
      obtain ⟨hlt, -⟩ := List.getElem?_eq_some_iff.mp hi
      refine ⟨hle, i, sample, (List.getElem?_append_left hlt).trans hi, htime, hstate,
        fun j other hj hother => ?_⟩
      rcases getElem?_snoc hj with hj | ⟨-, rfl⟩
      · exact hmax j other hj hother
      · exact absurd hother (hlast hle)
    rw [byTime_snoc, setSample] at h
    split at h
    · rename_i lastTime hlast
      split at h
      · rename_i hle
        by_cases heq : time = lastTime
        · rw [heq, Dict.get?_set] at h
          refine ⟨heq ▸ hle, samples.length, last, List.getElem?_concat_length, heq ▸ hlast,
            (Option.some.inj h).symm, fun j other hj _ => ?_⟩
          obtain ⟨hlt, -⟩ := List.getElem?_eq_some_iff.mp hj
          rw [List.length_append, List.length_singleton] at hlt
          omega
        · rw [Dict.get?_set_ne heq] at h
          exact hkeep h fun _ hback => heq (Option.some.inj (hback.symm.trans hlast))
      · rename_i hgt
        refine hkeep h fun hle hback => hgt ?_
        rwa [← Option.some.inj (hback.symm.trans hlast)]
    · rename_i hlast
      exact hkeep h fun _ hback => nomatch hback.symm.trans hlast

/-- Each sample up to the end of the range has its time in `byTime`. -/
theorem mem_byTime {rangeEnd time : Int} {sample : RegistrationSample} (hmem : sample ∈ samples)
    (htime : getTime sample.ts = some time) (hle : time ≤ rangeEnd) :
    ∃ state, (byTime getTime samples rangeEnd).get? time = some state := by
  induction samples using List.reverseRecOn with
  | nil => exact absurd hmem List.not_mem_nil
  | append_singleton samples last ih =>
    rw [byTime_snoc, setSample]
    rcases List.mem_append.mp hmem with hmem | hmem
    · obtain ⟨state, hstate⟩ := ih hmem
      split
      · rename_i lastTime hlast
        split
        · by_cases heq : time = lastTime
          · rw [heq]
            exact ⟨_, Dict.get?_set⟩
          · exact ⟨state, (Dict.get?_set_ne heq).trans hstate⟩
        · exact ⟨state, hstate⟩
      · exact ⟨state, hstate⟩
    · obtain rfl := List.mem_singleton.mp hmem
      rw [htime]
      dsimp only
      rw [if_pos hle]
      exact ⟨_, Dict.get?_set⟩

theorem mem_ordered {rangeEnd time : Int} {state : RegistrationState} :
    (time, state) ∈ ordered getTime samples rangeEnd ↔
      (byTime getTime samples rangeEnd).get? time = some state := by
  unfold ordered
  rw [List.mem_insertionSort, Dict.mem_iff_get?]

/-- The times are distinct, so that each is later than the one before it. -/
theorem ordered_sorted (getTime : String → Option Int) (samples : List RegistrationSample)
    (rangeEnd : Int) :
    (ordered getTime samples rangeEnd).Pairwise fun a b => a.1 < b.1 := by
  have hperm : (ordered getTime samples rangeEnd).Perm (byTime getTime samples rangeEnd).entries :=
    List.perm_insertionSort _ _
  have hle : (ordered getTime samples rangeEnd).Pairwise fun a b => a.1 ≤ b.1 :=
    List.pairwise_insertionSort _ _
  have hne : (ordered getTime samples rangeEnd).Pairwise fun a b => a.1 ≠ b.1 := by
    rw [← List.pairwise_map (R := (· ≠ ·))]
    exact (hperm.map Prod.fst).nodup_iff.mpr (byTime getTime samples rangeEnd).nodup
  exact (hle.and hne).imp fun h => lt_of_le_of_ne h.1 h.2

/-- **Between two times of `ordered` is the state that the samples report.** -/
theorem valueAt_ordered {rangeEnd t : Int} (ht : t ≤ rangeEnd) :
    valueAt .unknown (ordered getTime samples rangeEnd) t = stateAt getTime samples t := by
  suffices h : Reported getTime samples t
      (valueAt .unknown (ordered getTime samples rangeEnd) t) from
    reported_unique h (reported_stateAt t)
  have hsorted := ordered_sorted getTime samples rangeEnd
  rcases latest_or_none hsorted t with ⟨c, hc, hle, hmax⟩ | hnone
  · rw [valueAt_latest hsorted hc hle hmax]
    obtain ⟨-, i, sample, hi, htime, hstate, hlast⟩ := byTime_get? (mem_ordered.mp hc)
    refine Or.inl ⟨i, sample, c.1, ⟨hi, htime, hle, ?_⟩, hstate⟩
    intro j other otherTime hj hother hotherLe
    obtain ⟨state, hget⟩ := mem_byTime (List.mem_of_getElem? hj) hother (by omega : _ ≤ rangeEnd)
    rcases Int.lt_or_eq_of_le (hmax _ (mem_ordered.mpr hget) hotherLe) with hlt | heq
    · exact Or.inl hlt
    · obtain rfl : otherTime = c.1 := heq
      exact Or.inr ⟨rfl, hlast j other hj hother⟩
  · rw [valueAt_before hnone]
    refine Or.inr ⟨fun sample hsample time htime => ?_, rfl⟩
    by_contra hle
    obtain ⟨state, hget⟩ := mem_byTime hsample htime (by omega : _ ≤ rangeEnd)
    exact hle (hnone _ (mem_ordered.mpr hget))

/-! ## The loops -/

/-- What the first loop leaves: the state at the start, and what comes behind it. -/
theorem atStart_spec {rangeStart : Int} (state : RegistrationState)
    {changes : List (Int × RegistrationState)}
    (hsorted : changes.Pairwise fun a b => a.1 < b.1) :
    (∀ c ∈ (atStart rangeStart state changes).2, rangeStart < c.1) ∧
      (atStart rangeStart state changes).2.Pairwise (fun a b => a.1 < b.1) ∧
      ∀ t, rangeStart ≤ t → valueAt (atStart rangeStart state changes).1
        (atStart rangeStart state changes).2 t = valueAt state changes t := by
  induction changes generalizing state with
  | nil => exact ⟨fun c hc => absurd hc List.not_mem_nil, .nil, fun t _ => rfl⟩
  | cons c rest ih =>
    obtain ⟨hc, hrest⟩ := List.pairwise_cons.mp hsorted
    rw [atStart]
    split
    · rename_i hle
      obtain ⟨hbehind, hpair, hvalue⟩ := ih c.2 hrest
      refine ⟨hbehind, hpair, fun t ht => ?_⟩
      rw [hvalue t ht, valueAt, if_pos (by omega)]
    · rename_i hgt
      refine ⟨List.forall_mem_cons.mpr ⟨by omega, fun d hd => ?_⟩, hsorted, fun t _ => rfl⟩
      have hlt := hc d hd
      omega

section Loops

variable {f : Int → RegistrationState} {lo hi cursor : Int} {intervals : List RegistrationInterval}

/-- **One interval more** goes on with the tiling. -/
theorem append_spec (htiles : Tiles lo cursor intervals) (hshows : Shows f intervals)
    (hlt : cursor < hi) {state : RegistrationState}
    (hstate : ∀ t, cursor ≤ t → t < hi → f t = state) :
    Tiles lo hi (append intervals cursor hi state) ∧
      Shows f (append intervals cursor hi state) := by
  unfold append
  rw [if_neg (by omega)]
  cases hlast : intervals.getLast? with
  | none =>
    exact ⟨htiles.snoc hlt (by rw [hlast]; exact nofun), shows_snoc hshows hstate⟩
  | some previous =>
    dsimp only
    obtain ⟨front, rfl⟩ := List.getLast?_eq_some_iff.mp hlast
    obtain ⟨hstop, hstretch⟩ := htiles.stretch hlt
    split
    · rename_i hsame
      rw [List.dropLast_concat]
      refine ⟨hstretch, shows_snoc (fun s hs => hshows s (List.mem_append_left _ hs)) ?_⟩
      -- the last interval up to where it ended, and what is added
      intro t hge ht
      rcases Int.lt_or_le t cursor with hbefore | hbehind
      · exact hshows previous (List.mem_append_right _ List.mem_cons_self) t hge (by omega)
      · exact (hstate t hbehind ht).trans hsame.1.symm
    · rename_i hdiff
      refine ⟨htiles.snoc hlt fun last hlast' => ?_, shows_snoc hshows hstate⟩
      rw [hlast] at hlast'
      obtain rfl := Option.some.inj hlast'
      exact fun hsame => hdiff ⟨hsame, hstop⟩

/-- **The second loop**: what is left of the samples, from a tiling up to the cursor. -/
theorem walk_spec {rest : List (Int × RegistrationState)} {state : RegistrationState}
    (htiles : Tiles lo cursor intervals) (hshows : Shows f intervals) (hlt : cursor < hi)
    (hbehind : ∀ c ∈ rest, cursor < c.1) (hsorted : rest.Pairwise fun a b => a.1 < b.1)
    (hvalue : ∀ t, cursor ≤ t → t < hi → f t = valueAt state rest t) :
    Tiles lo hi (walk hi rest cursor state intervals) ∧
      Shows f (walk hi rest cursor state intervals) := by
  induction rest generalizing cursor state intervals with
  | nil => exact append_spec htiles hshows hlt hvalue
  | cons c rest ih =>
    obtain ⟨hc, hrest⟩ := List.pairwise_cons.mp hsorted
    have hlt' := hbehind c List.mem_cons_self
    have hupto : ∀ t, cursor ≤ t → t < c.1 → t < hi → f t = state := by
      intro t hge ht hhi
      rw [hvalue t hge hhi, valueAt, if_neg (by omega)]
    rw [walk]
    split
    · exact append_spec htiles hshows hlt fun t hge ht => hupto t hge (by omega) ht
    · rename_i hinside
      obtain ⟨htiles', hshows'⟩ :=
        append_spec htiles hshows hlt' fun t hge ht => hupto t hge ht (by omega)
      refine ih htiles' hshows' (by omega) hc hrest fun t hge ht => ?_
      rw [hvalue t (by omega) ht, valueAt, if_pos hge]

end Loops

/-- **The intervals of a range** tile it and show what the samples report. -/
theorem buildRegistrationIntervals_spec (getTime : String → Option Int)
    (samples : List RegistrationSample) {rangeStart rangeEnd : Int} (h : rangeStart < rangeEnd) :
    Tiles rangeStart rangeEnd (buildRegistrationIntervals getTime samples rangeStart rangeEnd) ∧
      Shows (stateAt getTime samples)
        (buildRegistrationIntervals getTime samples rangeStart rangeEnd) := by
  obtain ⟨hbehind, hpair, hvalue⟩ := atStart_spec .unknown
    (ordered_sorted getTime samples rangeEnd)
  unfold buildRegistrationIntervals
  rw [if_neg (by omega)]
  refine walk_spec (.nil rangeStart) (fun s hs => absurd hs List.not_mem_nil) h hbehind hpair ?_
  intro t hge ht
  rw [hvalue t hge, valueAt_ordered (by omega)]

/-! ## The summary -/

/-- Each interval adds to what its state has. -/
theorem foldl_addInterval {intervals : List RegistrationInterval}
    (hproper : ∀ i ∈ intervals, i.start ≤ i.stop) (summary : RegistrationSummary) :
    intervals.foldl addInterval summary =
      { unregisteredCount :=
          summary.unregisteredCount + intervals.countP fun i => i.state = .unregistered
        unregisteredMs := summary.unregisteredMs + totalOf .unregistered intervals
        offlineCount := summary.offlineCount + intervals.countP fun i => i.state = .offline
        offlineMs := summary.offlineMs + totalOf .offline intervals
        unknownMs := summary.unknownMs + totalOf .unknown intervals } := by
  induction intervals generalizing summary with
  | nil => simp [totalOf]
  | cons i intervals ih =>
    obtain ⟨hi, hrest⟩ := List.forall_mem_cons.mp hproper
    have hmax : max 0 (i.stop - i.start) = i.stop - i.start := by omega
    rw [List.foldl_cons, ih hrest]
    unfold addInterval totalOf
    cases hstate : i.state <;> simp [hstate, hmax] <;> omega

theorem sum_states (g : RegistrationState → Int) :
    ∑ state, g state = g .registered + g .unregistered + g .offline + g .unknown := by
  have huniv : (Finset.univ : Finset RegistrationState) =
      {.registered, .unregistered, .offline, .unknown} := rfl
  rw [huniv, Finset.sum_insert (by decide), Finset.sum_insert (by decide),
    Finset.sum_insert (by decide), Finset.sum_singleton]
  omega

/-- **The intervals are the maximal runs of the registration state, and the summary measures
them.**  They tile the range and show the state that the samples report at each time; the three
durations and the registered time make up the range, and the counts are the numbers of runs. -/
theorem registration_history {rangeStart rangeEnd : Int} (h : rangeStart < rangeEnd) :
    let state := stateAt getTime samples
    let intervals := buildRegistrationIntervals getTime samples rangeStart rangeEnd
    let summary := summarizeRegistration intervals
    (∀ t v, Reported getTime samples t v ↔ v = state t) ∧
      Tiles rangeStart rangeEnd intervals ∧ Shows state intervals ∧
      summary.unregisteredMs = heldFor state .unregistered rangeStart rangeEnd ∧
      summary.offlineMs = heldFor state .offline rangeStart rangeEnd ∧
      summary.unknownMs = heldFor state .unknown rangeStart rangeEnd ∧
      summary.unregisteredMs + summary.offlineMs + summary.unknownMs +
        heldFor state .registered rangeStart rangeEnd = rangeEnd - rangeStart ∧
      summary.unregisteredCount = runsOf state .unregistered rangeStart rangeEnd ∧
      summary.offlineCount = runsOf state .offline rangeStart rangeEnd := by
  intro state intervals summary
  obtain ⟨htiles, hshows⟩ := buildRegistrationIntervals_spec getTime samples h
  have hheld : ∀ v, totalOf v intervals = heldFor state v rangeStart rangeEnd :=
    fun v => (heldFor_eq htiles hshows).symm
  have hruns : ∀ v, intervals.countP (fun i => i.state = v) = runsOf state v rangeStart rangeEnd :=
    fun v => (runsOf_eq htiles hshows).symm
  have hsum := sum_heldFor state (le_of_lt h)
  rw [sum_states] at hsum
  have hsummary := foldl_addInterval (fun i hi => le_of_lt (htiles.proper i hi)) ⟨0, 0, 0, 0, 0⟩
  rw [hruns, hruns, hheld, hheld, hheld, Nat.zero_add, Nat.zero_add, Int.zero_add, Int.zero_add,
    Int.zero_add] at hsummary
  have hsummary' : summary = _ := hsummary
  rw [hsummary']
  refine ⟨fun t v => ?_, htiles, hshows, rfl, rfl, rfl, by dsimp only; omega, rfl, rfl⟩
  constructor
  · exact fun hv => reported_unique hv (reported_stateAt t)
  · rintro rfl
    exact reported_stateAt t

/-- Two dates and an invalid one. -/
def threeDates (ts : String) : Option Int :=
  if ts = "1970-01-01T00:00:00.005Z" then some 5
  else if ts = "1970-01-01T00:00:00.008Z" then some 8 else none

def outage : List RegistrationSample :=
  [⟨"1970-01-01T00:00:00.008Z", 1, 1⟩, ⟨"now", 0, 0⟩, ⟨"1970-01-01T00:00:00.005Z", 1, 0⟩]

/-- An outage of three milliseconds in a range of ten. -/
theorem registration_history_outage :
    Tiles 0 10 (buildRegistrationIntervals threeDates outage 0 10) ∧
      (summarizeRegistration (buildRegistrationIntervals threeDates outage 0 10)).unregisteredMs =
        heldFor (stateAt threeDates outage) .unregistered 0 10 :=
  ⟨(registration_history (by decide)).2.1, (registration_history (by decide)).2.2.2.1⟩

example : buildRegistrationIntervals threeDates outage 0 10 =
    [⟨0, 5, .unknown⟩, ⟨5, 8, .unregistered⟩, ⟨8, 10, .registered⟩] := by decide

end Air780eHub.Signal
