/-
  Who switches the RF of a module on and off (`modem.py`, `worker.py`).

  Three things send `AT+CFUN`: the command `set_radio_enabled`, the recovery action `cycle_radio`,
  and, as a query, every status sample and every recovery action before it begins.  One AT command
  runs at a time, and what a coroutine does with the result up to its next await is one step here.
  Between two AT commands, and during a sleep, the other coroutines run.

  1. **The module**: its RF is on, or off because of the command or because of a cycle.
  2. **Samples**: a coroutine of `_sample_status` by the AT command it waits for.  Two may run, that
     of the worker's loop and that of the command `refresh`.  When the port dies the AT commands of
     the old connection fail, but a sample that reads the status still comes to its decision.
  3. **The command**: the dispatcher runs the commands of a module one after another.
  4. **The machine.**  What the module answers and whether a command that failed was carried out is
     in the label, and so is what the recovery policy decides.

  `deliberate`, `requested` and `notes` only observe.
-/
import Air780eHub.Lib.Machine
import Air780eHub.Lib.Routines

namespace Air780eHub.Radio

/-! ## The module -/

/-- Who switched RF off. -/
inductive Cause
  | command | cycle
deriving DecidableEq

/-- What the module may do with a command. -/
inductive Reply
  /-- It answers. -/
  | done
  /-- `ATError`, whether it carried the command out or not. -/
  | failed (effect : Bool)
deriving DecidableEq

/-- The command took effect. -/
def Reply.effect : Reply → Bool
  | .done          => true
  | .failed effect => effect

/-- The registration recovery actions. -/
inductive Action
  | operatorReselect | radioCycle | moduleReset
deriving DecidableEq

/-! ## Samples -/

/-- What a sample waits for. -/
inductive Phase
  /-- `AT+CFUN?` of `_sample_status`. -/
  | reading
  /-- The other readings, before `_maybe_recover_registration`. -/
  | deciding
  /-- `AT+CFUN?` of `_automatic_recovery_allowed`, for `reselect_operator` or `cycle_radio`. -/
  | permission (cycle : Bool)
  /-- `AT+CFUN=0` of `cycle_radio`. -/
  | switchingOff
  /-- `asyncio.sleep(1.0)` of `cycle_radio`. -/
  | sleeping
  /-- `AT+CFUN=1` of `cycle_radio`. -/
  | switchingOn
  /-- `AT+RESET`. -/
  | resetting
deriving DecidableEq

/-- What ends the wait. -/
inductive Event
  /-- `AT+CFUN?` is answered, or not. -/
  | queried (answered : Bool)
  /-- The other readings are done.  The policy starts an action, or none. -/
  | decided (action : Option Action)
  | replied (reply : Reply)
  | slept
deriving DecidableEq

/-- What is observed.  `automatic` says that RF is off only because of a cycle, and that nobody asked
    for it. -/
inductive Note
  /-- `AT+CFUN=1` of `cycle_radio` is sent. -/
  | automaticOn (deliberate : Bool)
  /-- A recovery is cancelled because the radio was deliberately disabled. -/
  | cancelled (automatic : Bool)
  /-- `_automatic_recovery_allowed` refuses. -/
  | refused (automatic : Bool)
deriving DecidableEq

/-! ## The command -/

/-- `set_radio_enabled`. -/
inductive Command
  | sending (enabled : Bool)
  /-- RF is on, and the registration is read. -/
  | registering
deriving DecidableEq

/-- A module and its worker.  `info` and `state` are the two `radio_enabled` fields. -/
structure State where
  off        : Option Cause
  info       : Option Bool
  state      : Option Bool
  live       : Bool
  samples    : List Phase
  orphans    : Nat
  command    : Option Command
  deliberate : Bool
  requested  : Bool
  notes      : List Note

/-- The answer to `AT+CFUN?`. -/
def State.rf (s : State) : Bool := s.off.isNone

/-- RF is off only because of a cycle, and no command to switch it off stands. -/
def State.automatic (s : State) : Bool := s.off = some .cycle && !s.requested

def State.note (s : State) (n : Note) : State := { s with notes := s.notes ++ [n] }

/-- `read_radio_enabled`. -/
def State.readRadioEnabled (s : State) (answered : Bool) : Option Bool :=
  if answered then some s.rf else none

/-! ## Steps of a sample -/

/-- `_sample_status` with the result of `read_radio_enabled`. -/
def State.readStatus (s : State) (answered : Bool) : State :=
  { s with state := (s.readRadioEnabled answered).or s.state }

/-- `_maybe_recover_registration`: its first test, and what the policy decides otherwise. -/
def State.maybeRecover (s : State) (action : Option Action) : State × Option Phase :=
  if s.state = some false then (s.note (.cancelled s.automatic), none)
  else match action with
    | none                   => (s, none)
    | some .operatorReselect => (s, some (.permission false))
    | some .radioCycle       => (s, some (.permission true))
    | some .moduleReset      => (s, some .resetting)

/-- `_automatic_recovery_allowed`, and the end of `reselect_operator` as far as RF is concerned. -/
def State.automaticRecoveryAllowed (s : State) (cycle answered : Bool) : State × Option Phase :=
  if (s.readRadioEnabled answered).or s.info = some false then
    ({ s with info := some false }.note (.refused s.automatic), none)
  else (s, if cycle then some .switchingOff else none)

/-- `AT+CFUN=0` of `cycle_radio`.  RF that was off stays off for the reason it had. -/
def State.cycleOff (s : State) (reply : Reply) : State × Option Phase :=
  (if reply.effect then { s with off := some (s.off.getD .cycle) } else s,
    if reply = .done then some .sleeping else none)

/-- `AT+CFUN=1` of `cycle_radio`. -/
def State.cycleOn (s : State) (reply : Reply) : State :=
  State.note (if reply.effect then { s with off := none } else s) (.automaticOn s.deliberate)

/-- `AT+RESET`: a module starts with RF on. -/
def State.reset (s : State) (reply : Reply) : State :=
  if reply.effect then { s with off := none } else s

/-- A sample goes on to its next await, or to its end. -/
def State.advance (s : State) : Phase → Event → Option (State × Option Phase)
  | .reading, .queried answered          => some (s.readStatus answered, some .deciding)
  | .deciding, .decided action           => some (s.maybeRecover action)
  | .permission cycle, .queried answered => some (s.automaticRecoveryAllowed cycle answered)
  | .switchingOff, .replied reply        => some (s.cycleOff reply)
  | .sleeping, .slept                    => some (s, some .switchingOn)
  | .switchingOn, .replied reply         => some (s.cycleOn reply, none)
  | .resetting, .replied reply           => some (s.reset reply, none)
  | _, _                                 => none

/-- The state when the `k`-th sample waits again. -/
def State.resume (k : Nat) (r : State × Option Phase) : State :=
  { r.1 with samples := place r.1.samples k r.2 }

/-! ## The machine -/

/-- What happens in a step. -/
inductive Act
  /-- `_sample_status` begins. -/
  | sampled
  /-- The `k`-th sample goes on. -/
  | advanced (k : Nat) (event : Event)
  /-- The `k`-th sample ends with an exception. -/
  | dropped (k : Nat)
  /-- `set_radio_enabled` is called. -/
  | called (enabled : Bool)
  | commandReplied (reply : Reply)
  /-- The registration is read. -/
  | commandDone
  /-- The command ends with an exception. -/
  | commandDropped
  /-- The port dies. -/
  | disconnected
  /-- A sample of an old connection decides. -/
  | orphanDecided
  /-- `_connect`, and whether its `AT+CFUN?` is answered. -/
  | connected (answered : Bool)
  /-- The process of the Agent ends. -/
  | restarted
  /-- The module starts again by itself. -/
  | rebooted
deriving DecidableEq

/-- `set_radio_enabled(False)` has switched RF off. -/
def State.switchedOff (s : State) : State :=
  { s with
    off := some .command, info := some false, state := some false, command := none
    deliberate := true }

/-- The reply to `AT+CFUN` of `set_radio_enabled`, and the rest of the command when RF is off. -/
def State.commandReply (s : State) (enabled : Bool) (reply : Reply) : State :=
  match enabled, reply with
  | true, .done          => { s with off := none, info := some true, command := some .registering }
  | true, .failed effect => { s with off := if effect then none else s.off, command := none }
  | false, .done         => s.switchedOff.note (.cancelled s.switchedOff.automatic)
  | false, .failed effect =>
    { s with off := if effect then some .command else s.off, command := none }

/-- `_settle_recovery_after_connect`. -/
def State.settleAfterConnect (s : State) : State :=
  if s.state = some false then s.note (.cancelled s.automatic) else s

/-- The samples that still come to their decision when the port has died. -/
def orphaned (samples : List Phase) : Nat :=
  samples.countP fun p => p = .reading || p = .deciding

def State.step (s : State) : Act → Option State
  | .sampled => if s.live then some { s with samples := s.samples ++ [.reading] } else none
  | .advanced k event => match s.samples[k]? with
    | some phase => (s.advance phase event).map (State.resume k)
    | none       => none
  | .dropped k =>
    if k < s.samples.length then some { s with samples := s.samples.eraseIdx k } else none
  | .called enabled =>
    if s.live && s.command.isNone then
      some { s with
        command := some (.sending enabled)
        deliberate := s.deliberate && !enabled
        requested := s.requested || !enabled }
    else none
  | .commandReplied reply => match s.command with
    | some (.sending enabled) => some (s.commandReply enabled reply)
    | _                       => none
  | .commandDone =>
    if s.command = some .registering then
      some { s with state := some true, requested := false, command := none }
    else none
  | .commandDropped => some { s with command := none }
  | .disconnected =>
    some { s with
      live := false, samples := [], orphans := s.orphans + orphaned s.samples
      command := if s.command = some .registering then s.command else none }
  | .orphanDecided =>
    if 0 < s.orphans then some { (s.maybeRecover none).1 with orphans := s.orphans - 1 } else none
  | .connected answered =>
    if s.live then none
    else some (State.settleAfterConnect { s with
      live := true, info := s.readRadioEnabled answered, state := s.readRadioEnabled answered })
  | .restarted =>
    some { s with
      live := false, samples := [], orphans := 0, command := none, info := none, state := none }
  | .rebooted => some { s with off := none }

/-- A module with RF on and an Agent that has not opened it yet. -/
structure State.Starts (s : State) : Prop where
  off        : s.off = none
  info       : s.info = none
  state      : s.state = none
  live       : s.live = false
  samples    : s.samples = []
  orphans    : s.orphans = 0
  command    : s.command = none
  deliberate : s.deliberate = false
  requested  : s.requested = false
  notes      : s.notes = []

/-- The machine of one module. -/
def radio : Machine State Act := ⟨State.Starts, State.step⟩

end Air780eHub.Radio
