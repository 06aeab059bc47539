/-
  The registration history of a device over a chosen range (`signalHistory.ts`).

  Times are whole milliseconds.  A sample's `ts` is a string, of which `getTime` is what
  `new Date(ts).getTime()` gives; `none` is an invalid date.  The range is finite, so that of the
  first guard of `buildRegistrationIntervals` only `rangeEnd <= rangeStart` is left.
-/
import Mathlib.Data.Fintype.Defs
import Mathlib.Data.List.Sort
import Air780eHub.Lib.Dict
import Air780eHub.Lib.Timeline

namespace Air780eHub.Signal

open Timeline

inductive RegistrationState
  | registered | unregistered | offline | unknown
deriving DecidableEq, Repr

instance : Fintype RegistrationState where
  elems    := {.registered, .unregistered, .offline, .unknown}
  complete := fun state => by cases state <;> decide

/-- What a status sample says of the registration; the flags are numbers. -/
structure RegistrationSample where
  ts         : String
  online     : Int
  registered : Int
deriving DecidableEq, Repr

/-- `registrationState`.  A number other than zero is true. -/
def registrationState (sample : RegistrationSample) : RegistrationState :=
  if sample.online = 0 then .offline
  else if sample.registered ≠ 0 then .registered else .unregistered

abbrev RegistrationInterval := Span Int RegistrationState

structure RegistrationSummary where
  unregisteredCount : Nat
  unregisteredMs    : Int
  offlineCount      : Nat
  offlineMs         : Int
  unknownMs         : Int
deriving DecidableEq, Repr

variable (getTime : String → Option Int)

/-- One sample into `byTime`. -/
def setSample (rangeEnd : Int) (byTime : Dict Int RegistrationState)
    (sample : RegistrationSample) : Dict Int RegistrationState :=
  match getTime sample.ts with
  | some time => if time ≤ rangeEnd then byTime.set time (registrationState sample) else byTime
  | none      => byTime

/-- `byTime`. -/
def byTime (samples : List RegistrationSample) (rangeEnd : Int) : Dict Int RegistrationState :=
  samples.foldl (setSample getTime rangeEnd) ∅

/-- `ordered`. -/
def ordered (samples : List RegistrationSample) (rangeEnd : Int) :
    List (Int × RegistrationState) :=
  (byTime getTime samples rangeEnd).entries.insertionSort fun a b => a.1 ≤ b.1

/-- The first loop: what holds at the start of the range, and the samples behind it. -/
def atStart (rangeStart : Int) :
    RegistrationState → List (Int × RegistrationState) →
      RegistrationState × List (Int × RegistrationState)
  | state, []                   => (state, [])
  | state, (time, next) :: rest =>
    if time ≤ rangeStart then atStart rangeStart next rest else (state, (time, next) :: rest)

/-- `append`. -/
def append (intervals : List RegistrationInterval) (start stop : Int)
    (nextState : RegistrationState) : List RegistrationInterval :=
  if stop ≤ start then intervals
  else match intervals.getLast? with
    | some previous =>
      if previous.state = nextState ∧ previous.stop = start then
        intervals.dropLast ++ [{ previous with stop := stop }]
      else intervals ++ [⟨start, stop, nextState⟩]
    | none          => intervals ++ [⟨start, stop, nextState⟩]

/-- The second loop, with its `append` at the end. -/
def walk (rangeEnd : Int) :
    List (Int × RegistrationState) → Int → RegistrationState → List RegistrationInterval →
      List RegistrationInterval
  | [], cursor, state, intervals                   => append intervals cursor rangeEnd state
  | (time, next) :: rest, cursor, state, intervals =>
    if rangeEnd ≤ time then append intervals cursor rangeEnd state
    else walk rangeEnd rest time next (append intervals cursor time state)

/-- `buildRegistrationIntervals`. -/
def buildRegistrationIntervals (samples : List RegistrationSample) (rangeStart rangeEnd : Int) :
    List RegistrationInterval :=
  if rangeEnd ≤ rangeStart then []
  else
    let (state, rest) := atStart rangeStart .unknown (ordered getTime samples rangeEnd)
    walk rangeEnd rest rangeStart state []

/-- One interval into the summary. -/
def addInterval (summary : RegistrationSummary) (interval : RegistrationInterval) :
    RegistrationSummary :=
  let duration := max 0 (interval.stop - interval.start)
  match interval.state with
  | .unregistered => { summary with
      unregisteredCount := summary.unregisteredCount + 1
      unregisteredMs := summary.unregisteredMs + duration }
  | .offline      => { summary with
      offlineCount := summary.offlineCount + 1
      offlineMs := summary.offlineMs + duration }
  | .unknown      => { summary with unknownMs := summary.unknownMs + duration }
  | .registered   => summary

/-- `summarizeRegistration`. -/
def summarizeRegistration (intervals : List RegistrationInterval) : RegistrationSummary :=
  intervals.foldl addInterval ⟨0, 0, 0, 0, 0⟩

end Air780eHub.Signal
