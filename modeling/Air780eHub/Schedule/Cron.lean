/-
  Cron expressions (`schedule.py`): `parse_cron` and `next_cron`.

  1. **Fields.**  One of the five fields is an ascending list of values within the field's range;
     the structure carries both facts.
  2. **The parser**, over lists of characters.  Every error it raises is a ScheduleError.
  3. **`next_cron`**: from the minute after `after` on, day by day, at most `SEARCH_LIMIT_DAYS` days.
  4. **What the search finds.**  `Fires` says which wall clocks an expression names.  `search_spec`
     is the whole behaviour of the search: the first firing from the floor on, or a ScheduleError
     when the days searched hold none, or an OverflowError when the calendar ends first.
-/
import Mathlib.Data.List.Sort
import Air780eHub.Lib.Raising
import Air780eHub.Wire.Value
import Air780eHub.Schedule.Numbers

namespace Air780eHub.Schedule

/-! ## Fields -/

/-- The values a field admits, between `low` and `high`, in ascending order. -/
structure Field (low high : Nat) where
  values  : List Nat
  sorted  : values.Pairwise (· < ·)
  bounded : ∀ v ∈ values, low ≤ v ∧ v ≤ high

/-- The values of a range that satisfy `p`. -/
def Field.ofPred (low high : Nat) (p : Nat → Bool) : Field low high where
  values  := (List.range (high + 1)).filter fun v => decide (low ≤ v) && p v
  sorted  := List.pairwise_lt_range.filter _
  bounded := by
    intro v hv
    obtain ⟨hr, hp⟩ := List.mem_filter.mp hv
    have hlt := List.mem_range.mp hr
    have hlow := of_decide_eq_true (Bool.and_eq_true_iff.mp hp).1
    omega

@[simp] theorem Field.mem_ofPred {low high v : Nat} {p : Nat → Bool} :
    v ∈ (Field.ofPred low high p).values ↔ low ≤ v ∧ v ≤ high ∧ p v = true := by
  simp only [ofPred, List.mem_filter, List.mem_range, Bool.and_eq_true, decide_eq_true_eq]
  constructor
  · rintro ⟨hr, hl, hp⟩
    exact ⟨hl, by omega, hp⟩
  · rintro ⟨hl, hh, hp⟩
    exact ⟨by omega, hl, hp⟩

/-- A parsed expression. -/
structure Cron where
  minutes : Field 0 59
  hours   : Field 0 23
  doms    : Field 1 31
  months  : Field 1 12
  dows    : Field 0 6
  domAny  : Bool
  dowAny  : Bool

/-- `Cron.day_matches`. -/
def Cron.dayMatches (c : Cron) (day : Int) : Bool :=
  if month day ∉ c.months.values then false
  else if c.domAny ∧ c.dowAny then true
  else if c.domAny then cronWeekday day ∈ c.dows.values
  else if c.dowAny then dayOfMonth day ∈ c.doms.values
  else dayOfMonth day ∈ c.doms.values ∨ cronWeekday day ∈ c.dows.values

/-! ## The parser -/

/-- Cut a text at every character that satisfies `p`. -/
def splitBy (p : Char → Bool) : List Char → List (List Char)
  | []      => [[]]
  | c :: cs =>
    if p c then [] :: splitBy p cs
    else (c :: (splitBy p cs).headD []) :: (splitBy p cs).tail

/-- `text.split()`. -/
def splitSpace (text : List Char) : List (List Char) :=
  (splitBy pyIsSpace text).filter fun word => !word.isEmpty

/-- `text.partition(c)` without the separator. -/
def partition (c : Char) (text : List Char) : List Char × List Char :=
  (text.takeWhile (· ≠ c), (text.dropWhile (· ≠ c)).tail)

/-- The body of a part, before its step. -/
def partBody (part : List Char) : List Char :=
  if '/' ∈ part then (partition '/' part).1 else part

/-- The step of a part; `none` where it is not a positive number. -/
def partStep (part : List Char) : Option Int :=
  if '/' ∈ part then (pyInt (partition '/' part).2).filter fun n => 1 ≤ n else some 1

/-- Start and end of a part; `none` where one of them is not a number. -/
def partBounds (body : List Char) (step : Int) (low high : Nat) : Option (Int × Int) :=
  if body = ['*'] ∨ body = [] then some (low, high)
  else if '-' ∈ body then
    match pyInt (partition '-' body).1, pyInt (partition '-' body).2 with
    | some a, some b => some (a, b)
    | _, _           => none
  else (pyInt body).map fun n => (n, if 1 < step then (high : Int) else n)

/-- One part of a field: the values of `range(start, end + 1, step)`. -/
def parsePart (low high : Nat) (part : List Char) : Except Failure (List Nat) :=
  match partStep part with
  | none      => .error .scheduleError
  | some step => match partBounds (partBody part) step low high with
    | none        => .error .scheduleError
    | some (a, b) =>
      if b < a then .error .scheduleError
      else if a < low ∨ high < b then .error .scheduleError
      else .ok ((List.range (high + 1)).filter fun v => a ≤ v ∧ v ≤ b ∧ (v - a) % step = 0)

/-- `_parse_field`. -/
def parseField (low high : Nat) (raw : List Char) : Except Failure (Field low high × Bool) :=
  if raw = [] then .error .scheduleError
  else if raw = ['*'] then .ok (.ofPred low high fun _ => true, true)
  else match (splitBy (· == ',') raw).mapM (parsePart low high) with
    | .error e => .error e
    | .ok sets => .ok (.ofPred low high fun v => sets.any (v ∈ ·), false)

/-- Both 0 and 7 mean Sunday. -/
def sundays (f : Field 0 7) : Field 0 6 :=
  .ofPred 0 6 fun v => v ∈ f.values ∨ (v = 0 ∧ 7 ∈ f.values)

/-- `parse_cron`. -/
def parseCron (expression : List Char) : Except Failure Cron :=
  match splitSpace expression with
  | [minute, hour, dom, month, dow] => do
    let minutes ← parseField 0 59 minute
    let hours ← parseField 0 23 hour
    let doms ← parseField 1 31 dom
    let months ← parseField 1 12 month
    let dows ← parseField 0 7 dow
    return ⟨minutes.1, hours.1, doms.1, months.1, sundays dows.1, doms.2, dows.2⟩
  | _ => .error .scheduleError

theorem parsePart_error {low high : Nat} {part : List Char} {e : Failure}
    (h : parsePart low high part = .error e) : e = .scheduleError := by
  rw [parsePart] at h
  split at h
  · exact (Except.error.inj h).symm
  · split at h
    · exact (Except.error.inj h).symm
    · split at h
      · exact (Except.error.inj h).symm
      · split at h
        · exact (Except.error.inj h).symm
        · injection h

/-- What every part raises, the whole list raises. -/
theorem mapM_error {α β : Type} {f : α → Except Failure β} {P : Failure → Prop}
    (hf : ∀ a e, f a = .error e → P e) {as : List α} {e : Failure}
    (h : as.mapM f = .error e) : P e := by
  induction as with
  | nil => injection h
  | cons a as ih =>
    rw [List.mapM_cons] at h
    cases ha : f a with
    | error e' =>
      rw [ha] at h
      obtain rfl := Except.error.inj h
      exact hf a e' ha
    | ok b =>
      rw [ha] at h
      cases has : as.mapM f with
      | error e' =>
        rw [has] at h
        obtain rfl := Except.error.inj h
        exact ih has
      | ok bs => rw [has] at h; injection h

theorem parseField_error {low high : Nat} {raw : List Char} {e : Failure}
    (h : parseField low high raw = .error e) : e = .scheduleError := by
  rw [parseField] at h
  split at h
  · exact (Except.error.inj h).symm
  · split at h
    · injection h
    · split at h
      · rename_i e' hm
        rw [← Except.error.inj h]
        exact mapM_error (P := (· = .scheduleError)) (fun _ _ => parsePart_error) hm
      · injection h

/-- Errors of a bind come from one of its two halves. -/
theorem bind_error {α β : Type} {x : Except Failure α} {f : α → Except Failure β} {e : Failure}
    (h : (x >>= f) = .error e) : x = .error e ∨ ∃ a, x = .ok a ∧ f a = .error e := by
  cases x with
  | error e' => exact .inl (by rw [← Except.error.inj h])
  | ok a => exact .inr ⟨a, rfl, h⟩

/-- **Every error of the parser is a ScheduleError.** -/
theorem parseCron_error {expression : List Char} {e : Failure}
    (h : parseCron expression = .error e) : e = .scheduleError := by
  rw [parseCron] at h
  split at h
  · rcases bind_error h with h | ⟨minutes, -, h⟩
    · exact parseField_error h
    rcases bind_error h with h | ⟨hours, -, h⟩
    · exact parseField_error h
    rcases bind_error h with h | ⟨doms, -, h⟩
    · exact parseField_error h
    rcases bind_error h with h | ⟨months, -, h⟩
    · exact parseField_error h
    rcases bind_error h with h | ⟨dows, -, h⟩
    · exact parseField_error h
    injection h
  · exact (Except.error.inj h).symm

theorem partStep_pos {part : List Char} {step : Int} (h : partStep part = some step) : 1 ≤ step := by
  rw [partStep] at h
  split at h
  · exact of_decide_eq_true (Option.filter_eq_some_iff.mp h).2
  · exact (Option.some.inj h).le

/-- A part is accepted when its bounds are in order and in range. -/
theorem parsePart_eq_ok {low high : Nat} {part : List Char} {vs : List Nat} :
    parsePart low high part = .ok vs ↔
      ∃ step a b, partStep part = some step ∧ partBounds (partBody part) step low high = some (a, b)
        ∧ (low : Int) ≤ a ∧ a ≤ b ∧ b ≤ high
        ∧ vs = (List.range (high + 1)).filter fun v : Nat => a ≤ v ∧ v ≤ b ∧ (v - a) % step = 0 := by
  rw [parsePart]
  constructor
  · intro h
    split at h
    · injection h
    · rename_i step hstep
      split at h
      · injection h
      · rename_i a b hbounds
        split at h
        · injection h
        · split at h
          · injection h
          · exact ⟨step, a, b, hstep, hbounds, by omega, by omega, by omega, (Except.ok.inj h).symm⟩
  · rintro ⟨step, a, b, hstep, hbounds, hlow, hle, hhigh, rfl⟩
    simp only [hstep, hbounds]
    rw [if_neg (by omega), if_neg (by omega)]

/-- A field is `*`, or a list of parts that are all accepted. -/
theorem parseField_eq_ok {low high : Nat} {raw : List Char} {f : Field low high} {any : Bool} :
    parseField low high raw = .ok (f, any) ↔
      (raw = ['*'] ∧ any = true ∧ f = .ofPred low high fun _ => true)
        ∨ (raw ≠ [] ∧ raw ≠ ['*'] ∧ any = false
            ∧ ∃ sets, (splitBy (· == ',') raw).mapM (parsePart low high) = .ok sets
              ∧ f = .ofPred low high fun v => sets.any (v ∈ ·)) := by
  rw [parseField]
  by_cases hempty : raw = []
  · rw [if_pos hempty, hempty]
    simp
  · rw [if_neg hempty]
    by_cases hstar : raw = ['*']
    · rw [if_pos hstar]
      simp [hstar, eq_comm, and_comm]
    · rw [if_neg hstar]
      cases hm : (splitBy (· == ',') raw).mapM (parsePart low high) with
      | error e => simp [hstar]
      | ok sets => simp [hempty, hstar, eq_comm, and_comm]

/-- An expression is accepted when its five fields are. -/
theorem parseCron_eq_ok {expression : List Char} {c : Cron} :
    parseCron expression = .ok c ↔
      ∃ minute hour dom month dow, splitSpace expression = [minute, hour, dom, month, dow]
        ∧ ∃ minutes hours doms months dows,
          parseField 0 59 minute = .ok minutes ∧ parseField 0 23 hour = .ok hours
            ∧ parseField 1 31 dom = .ok doms ∧ parseField 1 12 month = .ok months
            ∧ parseField 0 7 dow = .ok dows
            ∧ c = ⟨minutes.1, hours.1, doms.1, months.1, sundays dows.1, doms.2, dows.2⟩ := by
  rw [parseCron]
  split
  · rename_i minute hour dom month dow hfields
    constructor
    · intro h
      obtain ⟨minutes, h₁, h⟩ := of_except_bind_ok h
      obtain ⟨hours, h₂, h⟩ := of_except_bind_ok h
      obtain ⟨doms, h₃, h⟩ := of_except_bind_ok h
      obtain ⟨months, h₄, h⟩ := of_except_bind_ok h
      obtain ⟨dows, h₅, h⟩ := of_except_bind_ok h
      exact ⟨minute, hour, dom, month, dow, hfields, minutes, hours, doms, months, dows,
        h₁, h₂, h₃, h₄, h₅, (Except.ok.inj h).symm⟩
    · rintro ⟨_, _, _, _, _, heq, minutes, hours, doms, months, dows, h₁, h₂, h₃, h₄, h₅, rfl⟩
      rw [hfields] at heq
      simp only [List.cons.injEq, and_true] at heq
      obtain ⟨rfl, rfl, rfl, rfl, rfl⟩ := heq
      rw [h₁, h₂, h₃, h₄, h₅]
      rfl
  · rename_i hfields
    constructor
    · intro h
      injection h
    · rintro ⟨minute, hour, dom, month, dow, heq, -⟩
      exact absurd heq (hfields minute hour dom month dow)

/-- A part names its start. -/
theorem parsePart_nonempty {low high : Nat} {part : List Char} {vs : List Nat}
    (h : parsePart low high part = .ok vs) : ∃ v ∈ vs, low ≤ v ∧ v ≤ high := by
  obtain ⟨step, a, b, -, -, hlow, hle, hhigh, rfl⟩ := parsePart_eq_ok.mp h
  refine ⟨a.toNat, ?_, by omega, by omega⟩
  have ha : ((a.toNat : Nat) : Int) = a := by omega
  rw [List.mem_filter, List.mem_range, decide_eq_true_eq, ha, Int.sub_self, Int.zero_emod]
  exact ⟨by omega, le_rfl, hle, rfl⟩

/-- **A parsed field names something, and a `*` names everything.** -/
theorem parseField_values {low high : Nat} {raw : List Char} {f : Field low high} {any : Bool}
    (hr : low ≤ high) (h : parseField low high raw = .ok (f, any)) :
    (∃ v, v ∈ f.values) ∧ (any = true → ∀ v, low ≤ v → v ≤ high → v ∈ f.values) := by
  rcases parseField_eq_ok.mp h with ⟨-, -, rfl⟩ | ⟨-, -, rfl, sets, hsets, rfl⟩
  · refine ⟨⟨low, ?_⟩, fun _ v hl hh => ?_⟩
    · simp [hr]
    · simp [hl, hh]
  · refine ⟨?_, nofun⟩
    -- a text always has a first part
    obtain ⟨part, parts, hparts⟩ : ∃ part parts, splitBy (· == ',') raw = part :: parts := by
      cases raw with
      | nil => exact ⟨_, _, rfl⟩
      | cons c cs =>
        rw [splitBy]
        split <;> exact ⟨_, _, rfl⟩
    rw [hparts, List.mapM_cons] at hsets
    obtain ⟨vs, hvs, hsets⟩ := of_except_bind_ok hsets
    obtain ⟨rest, -, hsets⟩ := of_except_bind_ok hsets
    obtain rfl := Except.ok.inj hsets
    obtain ⟨v, hv, hl, hh⟩ := parsePart_nonempty hvs
    exact ⟨v, by simp [hl, hh, hv]⟩

/-! ## next_cron -/

/-- How far ahead `next_cron` searches. -/
def SEARCH_LIMIT_DAYS : Nat := 400

/-- `datetime.combine(day, time(hour, minute))`, as a wall clock. -/
def atTime (day : Int) (hour minute : Nat) : Int := day * DAY + (hour * 60 + minute) * MINUTE

/-- The times of a day at which an expression fires, in the order the loops visit them. -/
def Cron.times (c : Cron) (day : Int) : List Int :=
  c.hours.values.flatMap fun h => c.minutes.values.map fun m => atTime day h m

/-- What one day of the search finds.  `floor` is the earliest time on the first day; a later day
    has none. -/
def Cron.firingOn (c : Cron) (floor : Option Int) (day : Int) : Option Int :=
  if c.dayMatches day then (c.times day).find? (fun w => floor.all (· ≤ w)) else none

/-- The day loop. -/
def search (c : Cron) (offset : Int) : Nat → Option Int → Int → Except Failure DateTime
  | 0, _, _           => .error .scheduleError
  | n + 1, floor, day => match c.firingOn floor day with
    | some w => .ok ⟨w, offset⟩
    | none   =>
      if day + 1 < MAX_DAYS then search c offset n none (day + 1) else .error .overflowError

/-- The minute from which the search starts. -/
def firstMinute (after : DateTime) : Except Failure DateTime :=
  (after.add MINUTE).map DateTime.minute

/-- `next_cron`. -/
def nextCron (expression : List Char) (after : DateTime) : Except Failure DateTime := do
  let c ← parseCron expression
  let moment ← firstMinute after
  search c after.offset SEARCH_LIMIT_DAYS (some moment.wall) moment.date

/-! ## What the search finds -/

/-- The expression names the wall clock `w`. -/
def Cron.Fires (c : Cron) (w : Int) : Prop :=
  c.dayMatches (w / DAY) = true ∧ w ∈ c.times (w / DAY)

theorem Cron.mem_times {c : Cron} {day w : Int} :
    w ∈ c.times day ↔ ∃ h ∈ c.hours.values, ∃ m ∈ c.minutes.values, w = atTime day h m := by
  simp only [times, List.mem_flatMap, List.mem_map]
  constructor
  · rintro ⟨h, hh, m, hm, rfl⟩
    exact ⟨h, hh, m, hm, rfl⟩
  · rintro ⟨h, hh, m, hm, rfl⟩
    exact ⟨h, hh, m, hm, rfl⟩

/-- The times of a day lie in that day. -/
theorem Cron.times_div {c : Cron} {day w : Int} (h : w ∈ c.times day) : w / DAY = day := by
  obtain ⟨hour, hh, minute, hm, rfl⟩ := mem_times.mp h
  have h₁ := (c.hours.bounded hour hh).2
  have h₂ := (c.minutes.bounded minute hm).2
  simp only [atTime, DAY, MINUTE]
  omega

/-- An expression names whole minutes. -/
theorem Cron.times_minute {c : Cron} {day w : Int} (h : w ∈ c.times day) : w % 60000000 = 0 := by
  obtain ⟨hour, -, minute, -, rfl⟩ := mem_times.mp h
  simp only [atTime, DAY, MINUTE]
  omega

theorem Cron.times_sorted (c : Cron) (day : Int) : (c.times day).Pairwise (· < ·) := by
  rw [times, List.pairwise_flatMap]
  constructor
  · intro h _
    rw [List.pairwise_map]
    refine c.minutes.sorted.imp fun hlt => ?_
    simp only [atTime, MINUTE]
    omega
  · refine c.hours.sorted.imp fun {h h'} hlt x hx y hy => ?_
    obtain ⟨m, hm, rfl⟩ := List.mem_map.mp hx
    obtain ⟨m', hm', rfl⟩ := List.mem_map.mp hy
    -- an hour holds all of its minutes
    have hb := (c.minutes.bounded m hm).2
    simp only [atTime, MINUTE]
    omega

/-- The first match in an ascending list is the least one. -/
theorem find?_least {l : List Int} (hl : l.Pairwise (· < ·)) {p : Int → Bool} {w : Int}
    (h : l.find? p = some w) : ∀ v ∈ l, p v = true → w ≤ v := by
  induction l with
  | nil => simp at h
  | cons a l ih =>
    intro v hv hp
    rw [List.find?_cons] at h
    obtain ⟨ha, hl⟩ := List.pairwise_cons.mp hl
    cases hpa : p a with
    | true =>
      rw [hpa] at h
      obtain rfl := Option.some.inj h
      rcases List.mem_cons.mp hv with rfl | hv
      · exact le_rfl
      · exact (ha v hv).le
    | false =>
      rw [hpa] at h
      rcases List.mem_cons.mp hv with rfl | hv
      · rw [hpa] at hp; cases hp
      · exact ih hl h v hv hp

/-- `w` may be returned: it is on `day` or later, and not before the floor. -/
def From (floor : Option Int) (day w : Int) : Prop := day ≤ w / DAY ∧ ∀ f ∈ floor, f ≤ w

theorem Cron.firingOn_some {c : Cron} {floor : Option Int} {day w : Int}
    (h : c.firingOn floor day = some w) :
    c.Fires w ∧ w / DAY = day ∧ From floor day w
      ∧ ∀ v, c.Fires v → v / DAY = day → From floor day v → w ≤ v := by
  rw [firingOn] at h
  split at h
  · rename_i hday
    have hmem := List.mem_of_find?_eq_some h
    have hp := List.find?_some h
    have hdiv := times_div hmem
    rw [Option.all_eq_true] at hp
    refine ⟨⟨by rw [hdiv]; exact hday, by rw [hdiv]; exact hmem⟩, hdiv,
      ⟨hdiv.ge, fun f hf => of_decide_eq_true (hp f hf)⟩, ?_⟩
    rintro v ⟨-, hv⟩ hvday ⟨-, hfrom⟩
    rw [hvday] at hv
    refine find?_least (c.times_sorted day) h v hv ?_
    rw [Option.all_eq_true]
    exact fun f hf => decide_eq_true (hfrom f hf)
  · cases h

theorem Cron.firingOn_none {c : Cron} {floor : Option Int} {day v : Int}
    (h : c.firingOn floor day = none) (hv : c.Fires v) (hday : v / DAY = day) :
    ¬ From floor day v := by
  rintro ⟨-, hfrom⟩
  obtain ⟨hmatch, hmem⟩ := hv
  rw [hday] at hmatch hmem
  rw [firingOn, if_pos hmatch, List.find?_eq_none] at h
  refine h v hmem ?_
  rw [Option.all_eq_true]
  exact fun f hf => decide_eq_true (hfrom f hf)

/-- A day without a firing leaves the rest of the calendar from the next day on. -/
theorem Cron.from_next {c : Cron} {floor : Option Int} {day v : Int}
    (h : c.firingOn floor day = none) (hv : c.Fires v) (hfrom : From floor day v) :
    From none (day + 1) v := by
  constructor
  · have hle := hfrom.1
    have hne : v / DAY ≠ day := fun heq => firingOn_none h hv heq hfrom
    omega
  · intro f hf
    cases hf

/-- **The behaviour of the search.**  It returns the first firing from the floor on, or raises a
    ScheduleError when the days searched hold none, or an OverflowError when the calendar ends
    within them. -/
theorem search_spec (c : Cron) (offset : Int) (n : Nat) (floor : Option Int) (day : Int)
    (hday : day < MAX_DAYS) (hfloor : ∀ f ∈ floor, f < (day + 1) * DAY) :
    (∃ w, search c offset n floor day = .ok ⟨w, offset⟩ ∧ c.Fires w ∧ From floor day w
        ∧ w / DAY < MAX_DAYS ∧ w / DAY < day + n ∧ ∀ v, c.Fires v → From floor day v → w ≤ v)
      ∨ (search c offset n floor day = .error .scheduleError ∧ day + n < MAX_DAYS
        ∧ ∀ v, c.Fires v → From floor day v → day + n ≤ v / DAY)
      ∨ (search c offset n floor day = .error .overflowError ∧ MAX_DAYS ≤ day + n
        ∧ ∀ v, c.Fires v → From floor day v → MAX_DAYS ≤ v / DAY) := by
  induction n generalizing floor day with
  | zero =>
    right; left
    refine ⟨rfl, by omega, fun v _ hfrom => ?_⟩
    have hle := hfrom.1
    omega
  | succ n ih =>
    rw [search]
    cases hf : c.firingOn floor day with
    | some w =>
      left
      obtain ⟨hfires, hdiv, hfrom, hleast⟩ := Cron.firingOn_some hf
      refine ⟨w, rfl, hfires, hfrom, by omega, by omega, fun v hv hvfrom => ?_⟩
      by_cases hvday : v / DAY = day
      · exact hleast v hv hvday hvfrom
      · -- a later day comes after all of this one
        have hlt : w / DAY < v / DAY := by have := hvfrom.1; omega
        simp only [DAY] at hlt
        omega
    | none =>
      have hnext := fun v hv hfrom => Cron.from_next (v := v) hf hv hfrom
      by_cases hin : day + 1 < MAX_DAYS
      · simp only [if_pos hin]
        rcases ih none (day + 1) hin (by intro f hf; cases hf) with
          ⟨w, hok, hfires, hfrom, hmax, hwithin, hleast⟩ | ⟨herr, hmax, hnone⟩ | ⟨herr, hmax, hnone⟩
        · left
          refine ⟨w, hok, hfires, ⟨by have := hfrom.1; omega, fun f hff => ?_⟩, hmax, by omega,
            fun v hv hvfrom => hleast v hv (hnext v hv hvfrom)⟩
          have hlt := hfloor f hff
          have hle := hfrom.1
          simp only [DAY] at hlt hle
          omega
        · right; left
          refine ⟨herr, by omega, fun v hv hvfrom => ?_⟩
          have := hnone v hv (hnext v hv hvfrom)
          omega
        · right; right
          exact ⟨herr, by omega, fun v hv hvfrom => hnone v hv (hnext v hv hvfrom)⟩
      · simp only [if_neg hin]
        right; right
        refine ⟨trivial, by omega, fun v hv hvfrom => ?_⟩
        have := (hnext v hv hvfrom).1
        omega

/-! ## next_cron -/

/-- The first minute lies after `after`, and no whole minute lies between. -/
theorem firstMinute_ok {after moment : DateTime} (h : firstMinute after = .ok moment) :
    0 ≤ after.wall + MINUTE ∧ after.wall + MINUTE < MAX_DAYS * DAY
      ∧ after.wall < moment.wall ∧ moment.date = (after.wall + MINUTE) / DAY
      ∧ ∀ v : Int, v % 60000000 = 0 → after.wall < v → moment.wall ≤ v := by
  rw [firstMinute] at h
  cases ha : after.add MINUTE with
  | error e => rw [ha] at h; injection h
  | ok t =>
    rw [ha] at h
    obtain rfl := Except.ok.inj h
    obtain ⟨hwall, -⟩ := DateTime.add_eq_ok ha
    have hin : ¬ (after.wall + MINUTE < 0 ∨ MAX_DAYS * DAY ≤ after.wall + MINUTE) := by
      rw [← DateTime.add_overflows, ha]
      intro herr
      injection herr
    simp only [DateTime.minute, DateTime.date, MINUTE, MAX_DAYS, DAY] at hwall hin ⊢
    refine ⟨by omega, by omega, by omega, by omega, fun v hv hlt => by omega⟩

theorem firstMinute_error {after : DateTime} {e : Failure} (h : firstMinute after = .error e) :
    e = .overflowError
      ∧ (after.wall + MINUTE < 0 ∨ MAX_DAYS * DAY ≤ after.wall + MINUTE) := by
  rw [firstMinute] at h
  cases ha : after.add MINUTE with
  | ok t => rw [ha] at h; injection h
  | error e' =>
    rw [ha] at h
    obtain rfl := Except.error.inj h
    obtain rfl := DateTime.add_eq_error ha
    exact ⟨rfl, DateTime.add_overflows.mp ha⟩

/-- Between `after` and the first minute lies no firing. -/
theorem Cron.from_firstMinute {c : Cron} {after moment : DateTime} {v : Int}
    (h : firstMinute after = .ok moment) (hv : c.Fires v) :
    From (some moment.wall) moment.date v ↔ after.wall < v := by
  obtain ⟨-, -, hlt, -, hgap⟩ := firstMinute_ok h
  constructor
  · rintro ⟨-, hfrom⟩
    have := hfrom moment.wall rfl
    omega
  · intro hav
    have hle := hgap v (times_minute hv.2) hav
    refine ⟨?_, fun f hf => ?_⟩
    · simp only [DateTime.date, DAY]
      omega
    · obtain rfl := Option.some.inj hf
      exact hle

/-- The calendar ends before `next_cron` knows an answer. -/
def Cron.RunsOut (c : Cron) (after : DateTime) : Prop :=
  after.wall + MINUTE < 0 ∨ MAX_DAYS * DAY ≤ after.wall + MINUTE
    ∨ (MAX_DAYS ≤ (after.wall + MINUTE) / DAY + SEARCH_LIMIT_DAYS
        ∧ ∀ v, c.Fires v → after.wall < v → MAX_DAYS ≤ v / DAY)

/-- `w` is the first firing strictly after `after`, and it lies within the days searched. -/
structure Cron.Next (c : Cron) (after : DateTime) (w : Int) : Prop where
  fires  : c.Fires w
  later  : after.wall < w
  within : w / DAY < (after.wall + MINUTE) / DAY + SEARCH_LIMIT_DAYS
  first  : ∀ v, c.Fires v → after.wall < v → w ≤ v

theorem Cron.Next.unique {c : Cron} {after : DateTime} {w w' : Int} (h : c.Next after w)
    (h' : c.Next after w') : w = w' := by
  have h₁ := h.first w' h'.fires h'.later
  have h₂ := h'.first w h.fires h.later
  omega

/-- **The behaviour of `next_cron`.**  It returns the first firing strictly after `after`; where it
    raises, the error is a ScheduleError unless the calendar ends first. -/
theorem nextCron_spec (expression : List Char) (after : DateTime) :
    (nextCron expression after = .error .scheduleError
        ∧ ∀ c, parseCron expression = .ok c → ¬ c.RunsOut after ∧ ∀ w, ¬ c.Next after w)
      ∨ ∃ c, parseCron expression = .ok c ∧
        ((∃ w, nextCron expression after = .ok ⟨w, after.offset⟩ ∧ c.Next after w
            ∧ ¬ c.RunsOut after)
          ∨ (nextCron expression after = .error .overflowError ∧ c.RunsOut after)) := by
  cases hp : parseCron expression with
  | error e =>
    obtain rfl := parseCron_error hp
    rw [nextCron, hp]
    exact .inl ⟨rfl, fun c hc => by injection hc⟩
  | ok c =>
    rw [nextCron, hp]
    cases hm : firstMinute after with
    | error e =>
      obtain ⟨rfl, hout⟩ := firstMinute_error hm
      refine .inr ⟨c, rfl, .inr ⟨rfl, ?_⟩⟩
      rcases hout with hlt | hge
      · exact .inl hlt
      · exact .inr (.inl hge)
    | ok moment =>
      obtain ⟨hlo, hhi, hlt, hdate, -⟩ := firstMinute_ok hm
      have hday : moment.date < MAX_DAYS := by
        rw [hdate]
        simp only [MAX_DAYS, DAY] at hhi ⊢
        omega
      have hfloor : ∀ f ∈ some moment.wall, f < (moment.date + 1) * DAY := by
        intro f hf
        obtain rfl := Option.some.inj hf
        simp only [DateTime.date, DAY]
        omega
      rcases search_spec c after.offset SEARCH_LIMIT_DAYS (some moment.wall) moment.date hday hfloor with
        ⟨w, hok, hfires, hfrom, hmax, hwithin, hleast⟩ | ⟨herr, hmax, hnone⟩ | ⟨herr, hmax, hnone⟩
      · have haw := (c.from_firstMinute hm hfires).mp hfrom
        refine .inr ⟨c, rfl, .inl ⟨w, hok, ⟨hfires, haw, by omega,
          fun v hv hav => hleast v hv ((c.from_firstMinute hm hv).mpr hav)⟩, ?_⟩⟩
        rintro (hbad | hbad | ⟨-, hbad⟩)
        · omega
        · omega
        · have := hbad w hfires haw
          omega
      · refine .inl ⟨herr, fun c' hc' => ?_⟩
        obtain rfl := Except.ok.inj hc'
        constructor
        · rintro (hbad | hbad | ⟨hbad, -⟩)
          · omega
          · omega
          · omega
        · intro w hw
          have hge := hnone w hw.fires ((c.from_firstMinute hm hw.fires).mpr hw.later)
          have hlt := hw.within
          omega
      · refine .inr ⟨c, rfl, .inr ⟨herr, .inr (.inr ⟨by omega, fun v hv hav => ?_⟩)⟩⟩
        exact hnone v hv ((c.from_firstMinute hm hv).mpr hav)

end Air780eHub.Schedule
