/-
  Time zones, as far as the trend needs them (`ZoneInfo`).

  A zone is a UTC offset that changes at certain seconds.  Both ways of reading it are here: the
  offset at a moment, and the offset at a wall clock, where a wall clock that comes twice is its
  first coming and one that is left out is read with the offset from before.  Seconds count from
  0001-01-01T00:00:00, days from 0001-01-01.
  1. **`utcoffset`, `wallOffset`**, each less than a day.
  2. **`localDay`, `midnight`**: the day of a moment, and the moment that begins a day.  In a zone
     whose clock is put back across midnight the two do not agree.
-/
import Air780eHub.Lib.Timeline
import Air780eHub.Schedule.Time

namespace Air780eHub.Messages

open Timeline

/-- A zone: its offset before the first change, and the second of each change with the offset from
then on. -/
structure Zone where
  first   : Int
  changes : List (Int × Int)
  sorted  : changes.Pairwise fun a b => a.1 < b.1
  bounded : ∀ o ∈ first :: changes.map Prod.snd, -86400 < o ∧ o < 86400

/-- The wall clock of each change, as it is read for the first coming. -/
def walls (before : Int) : List (Int × Int) → List (Int × Int)
  | []                    => []
  | (second, after) :: cs => (second + max before after, after) :: walls after cs

/-- `bisect_right`, between two places. -/
def bisectRight (l : List Int) (x : Int) : Nat → Nat → Nat → Nat
  | 0, lo, _           => lo
  | rounds + 1, lo, hi =>
    if lo < hi then
      if x < l.getD ((lo + hi) / 2) 0 then bisectRight l x rounds lo ((lo + hi) / 2)
      else bisectRight l x rounds ((lo + hi) / 2 + 1) hi
    else lo

namespace Zone

variable (z : Zone)

/-- The offset at a second of UTC. -/
def utcoffset (second : Int) : Int := valueAt z.first z.changes second

/-- `datetime.utcoffset()` of a wall clock, with `fold=0`. -/
def wallOffset (wall : Int) : Int :=
  let ws := walls z.first z.changes
  match bisectRight (ws.map Prod.fst) wall ws.length 0 ws.length with
  | 0     => z.first
  | i + 1 => (ws[i]?.map Prod.snd).getD z.first

/-- `moment.astimezone(zone).date()`. -/
def localDay (second : Int) : Int := (second + z.utcoffset second) / 86400

/-- `datetime.combine(day, datetime_time.min, tzinfo=zone)`, as a second of UTC. -/
def midnight (day : Int) : Int := day * 86400 - z.wallOffset (day * 86400)

theorem valueAt_mem (v : Int) (changes : List (Int × Int)) (t : Int) :
    valueAt v changes t ∈ v :: changes.map Prod.snd := by
  induction changes generalizing v with
  | nil => exact List.mem_cons_self
  | cons c cs ih =>
    rw [valueAt]
    split
    · exact List.mem_cons_of_mem v (ih c.2)
    · exact List.mem_cons_self

theorem walls_snd (before : Int) (changes : List (Int × Int)) :
    (walls before changes).map Prod.snd = changes.map Prod.snd := by
  induction changes generalizing before with
  | nil => rfl
  | cons c cs ih => exact congrArg (c.2 :: ·) (ih c.2)

theorem utcoffset_bounded (second : Int) : -86400 < z.utcoffset second ∧ z.utcoffset second < 86400 :=
  z.bounded _ (valueAt_mem _ _ _)

theorem wallOffset_bounded (wall : Int) : -86400 < z.wallOffset wall ∧ z.wallOffset wall < 86400 := by
  apply z.bounded
  unfold wallOffset
  dsimp only
  split
  · exact List.mem_cons_self
  · rename_i i hi
    cases hget : (walls z.first z.changes)[i]? with
    | none   => exact List.mem_cons_self
    | some c =>
      refine List.mem_cons_of_mem z.first ?_
      rw [← walls_snd z.first]
      exact List.mem_map_of_mem (List.mem_of_getElem? hget)

/-- A midnight is within a day of the midnight of UTC. -/
theorem midnight_bounds (day : Int) :
    (day - 1) * 86400 < z.midnight day ∧ z.midnight day < (day + 1) * 86400 := by
  have hbound := z.wallOffset_bounded (day * 86400)
  unfold midnight
  omega

/-- A local midnight is at or before a moment exactly when its day is: the clock never skips a
midnight and never goes back over one. -/
def Orderly : Prop := ∀ day second : Int, z.midnight day ≤ second ↔ day ≤ z.localDay second

/-- A zone with one offset. -/
def fixed (offset : Int) (h : -86400 < offset ∧ offset < 86400) : Zone where
  first   := offset
  changes := []
  sorted  := List.Pairwise.nil
  bounded := List.forall_mem_singleton.mpr h

theorem fixed_orderly {offset : Int} (h : -86400 < offset ∧ offset < 86400) :
    (fixed offset h).Orderly := by
  intro day second
  show day * 86400 - offset ≤ second ↔ day ≤ (second + offset) / 86400
  omega

end Zone

/-- `UTC`. -/
def utc : Zone := Zone.fixed 0 (by decide)

/-- New York around the spring of 2024, when two o'clock was left out on 10 March. -/
def newYork : Zone where
  first   := -18000
  changes := [(63845650800, -14400)]
  sorted  := List.pairwise_singleton _ _
  bounded := by decide

-- a day of 23 hours
example : newYork.midnight 738955 - newYork.midnight 738954 = 82800 ∧
    newYork.localDay (newYork.midnight 738954 - 1) = 738953 := by decide

end Air780eHub.Messages
