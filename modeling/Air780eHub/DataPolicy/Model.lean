/-
  The packet-data policy of a worker (`worker.py`).

  Two policies are persisted: whether data may be used, and whether it may be used while roaming.
  `state.data_enabled` is what they come to with the last roaming reading.  It is recomputed by
  `_enforce_data_policy`, which first awaits the data state of the module, and the policies and the
  reading change before that, so there are awaits between a change and the recomputation.

  1. **The worker**: the two policies in the store and the fields of `state` that belong to them.
  2. **Coroutines** of `_connect`, `_sample_status`, `set_data_enabled` and `set_roaming_data_allowed`,
     by what they await.  What runs between two awaits is one step.
  3. **The machine.**  What the module answers is in the label, and so is whether the data state asks
     for an attach.

  `withdrew` and `pings` only observe.
-/
import Air780eHub.Lib.Machine
import Air780eHub.Lib.Routines

namespace Air780eHub.DataPolicy

/-! ## The worker -/

/-- What a coroutine awaits. -/
inductive Phase
  /-- `initialize` in `_connect`. -/
  | connecting
  /-- The readings of `_sample_status` up to the registration. -/
  | reading
  /-- `read_ims_registration` of `_sample_status`. -/
  | waiting
  /-- `read_registration` of the two commands. -/
  | registering
  /-- `read_data_status` of `_enforce_data_policy`. -/
  | refreshing
  /-- `set_data_enabled(True)` of the modem. -/
  | enabling
deriving DecidableEq

/-- A coroutine.  `withdrew` says that its last assignment left data not permitted. -/
structure Routine where
  phase    : Phase
  withdrew : Bool
deriving DecidableEq

/-- The store and the worker.  `desired` and `allowed` are persisted, the next three are of `state`. -/
structure State where
  desired     : Bool
  allowed     : Bool
  dataEnabled : Bool
  roaming     : Option Bool
  roamingDataAllowed : Bool
  live        : Bool
  routines    : List Routine
  pings       : List Bool

/-- The persisted data policy is on, and the network is not roaming or the persisted roaming policy
    allows it.  An unknown network counts as roaming. -/
def State.permits (s : State) : Bool := s.desired && (s.roaming = some false || s.allowed)

/-! ## Coroutines -/

/-- The beginning of `_enforce_data_policy`. -/
def State.enforce (s : State) : State := { s with roamingDataAllowed := s.allowed }

/-- `_enforce_data_policy` with the data state of the module. -/
def State.recompute (s : State) : State :=
  { s with dataEnabled := s.desired && !(s.desired && s.roaming ≠ some false && !s.roamingDataAllowed) }

/-- `_connect` once the module is initialized. -/
def State.connect (s : State) (roaming : Option Bool) : State :=
  { s with
    dataEnabled := s.desired
    roaming := roaming
    roamingDataAllowed := s.allowed
    live := true }

/-- The coroutine goes on to wait in `phase`, marked if data is not permitted now. -/
def State.mark (s : State) (phase : Phase) : State × Option Routine :=
  (s, some ⟨phase, !s.permits⟩)

/-- What ends a wait. -/
inductive Event
  /-- The registration is read, and with it the roaming state. -/
  | read (roaming : Option Bool)
  | resumed
  /-- The data state is read.  `attach` says that it asks for an attach if data may be used. -/
  | refreshed (attach : Bool)
  | attached
deriving DecidableEq

/-- A coroutine goes on to its next await, or to its end. -/
def State.advance (s : State) (r : Routine) : Event → Option (State × Option Routine)
  | .read roaming => match r.phase with
    | .connecting  => some ((s.connect roaming).enforce.mark .refreshing)
    | .reading     => some (State.mark { s with roaming } .waiting)
    | .registering => some ((State.enforce { s with roaming }).mark .refreshing)
    | _            => none
  | .resumed => match r.phase with
    | .waiting => some (s.enforce, some ⟨.refreshing, r.withdrew⟩)
    | _        => none
  | .refreshed attach => match r.phase with
    | .refreshing => some (s.recompute,
      if s.recompute.dataEnabled && attach then some ⟨.enabling, false⟩ else none)
    | _           => none
  | .attached => match r.phase with
    | .enabling => some ({ s with dataEnabled := true }, none)
    | _         => none

/-- The state when the `k`-th coroutine waits again. -/
def State.resume (k : Nat) (r : State × Option Routine) : State :=
  { r.1 with routines := place r.1.routines k r.2 }

/-- A coroutine begins. -/
def State.spawn (r : State × Option Routine) : State :=
  { r.1 with routines := r.1.routines ++ r.2.toList }

/-! ## The machine -/

/-- What happens in a step. -/
inductive Act
  | connectBegins
  | sampleBegins
  /-- `set_data_enabled`; `reads` says that the radio is not off. -/
  | setDataEnabled (enabled reads : Bool)
  /-- `set_roaming_data_allowed`. -/
  | setRoamingDataAllowed (allowed reads : Bool)
  | advanced (k : Nat) (event : Event)
  /-- The `k`-th coroutine ends with an exception. -/
  | failed (k : Nat)
  /-- `_go_offline` and `_teardown`. -/
  | wentOffline
  /-- `ping` comes to its guard. -/
  | pinged
deriving DecidableEq

/-- A command has stored its policy. -/
def State.stored (s : State) (reads : Bool) : State :=
  if reads then State.spawn (s.mark .registering) else State.spawn (s.enforce.mark .refreshing)

def State.step (s : State) : Act → Option State
  | .connectBegins =>
    if s.live then none else some { s with routines := s.routines ++ [⟨.connecting, false⟩] }
  | .sampleBegins =>
    if s.live then some { s with routines := s.routines ++ [⟨.reading, false⟩] } else none
  | .setDataEnabled enabled reads =>
    if s.live then some (State.stored { s with desired := enabled } reads) else none
  | .setRoamingDataAllowed allowed reads =>
    if s.live then some (State.stored { s with allowed } reads) else none
  | .advanced k event => match s.routines[k]? with
    | some r => (s.advance r event).map (State.resume k)
    | none   => none
  | .failed k => match s.routines[k]? with
    -- the other awaits take an error of the module for an unknown reading
    | some ⟨.connecting, _⟩ =>
      some { s with routines := s.routines.eraseIdx k, dataEnabled := false, live := false }
    | some ⟨.reading, _⟩    => some { s with routines := s.routines.eraseIdx k }
    | some ⟨.enabling, _⟩   => some { s with routines := s.routines.eraseIdx k }
    | _                     => none
  | .wentOffline => some { s with dataEnabled := false, live := false }
  | .pinged => some { s with pings := if s.dataEnabled then s.pings ++ [s.permits] else s.pings }

/-- A new worker, about to connect. -/
structure State.Starts (s : State) : Prop where
  dataEnabled : s.dataEnabled = s.desired
  roaming     : s.roaming = none
  roamingDataAllowed : s.roamingDataAllowed = s.allowed
  live        : s.live = false
  routines    : s.routines = [⟨.connecting, !s.permits⟩]
  pings       : s.pings = []

/-- The machine of one worker. -/
def worker : Machine State Act := ⟨State.Starts, State.step⟩

end Air780eHub.DataPolicy
