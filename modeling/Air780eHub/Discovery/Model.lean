/-
  Port discovery on the Agent: the registry workers get their ports from (`discovery.py`), and the
  adoption of modules nobody configured (`app.py`).

  `PortRegistry` has one lock.  `acquire` and `survey` hold it over a loop that awaits a probe of one
  port after the other, so a call is a state of its own (`Call`), its first port the one that is
  open at the moment; `release` takes no lock and may fall between any two probes.  `autodetect`
  works out what is reserved, waits for the lock, surveys, and adopts what the survey found.

  1. **Identities**: of a probe and of a configured device, and when a probe is a device's.
  2. **`State`**: the workers, the claims, who holds the lock.
  3. **`step`**.

  Ghost: the identity a worker was created for.
-/
import Air780eHub.Lib.Dict
import Air780eHub.Lib.FreshName
import Mathlib.Data.List.Sort
import Air780eHub.Lib.Machine
import Air780eHub.Wire.Value

namespace Air780eHub.Discovery

/-! ## Identities -/

/-- `DeviceConfig`, as far as discovery reads it. -/
structure DeviceConfig where
  name  : String
  port  : String
  imei  : String
  iccid : String
  label : String

/-- `is_pinned`. -/
def DeviceConfig.isPinned (d : DeviceConfig) : Bool := d.port ≠ ""

/-- What a module answers. -/
structure Answer where
  model : String
  imei  : String
  iccid : String
deriving DecidableEq

/-- `ProbeResult`. -/
structure ProbeResult extends Answer where
  port : String
deriving DecidableEq

/-- The key of a hardware identity. -/
inductive Identity
  | imei (s : String)
  | iccid (s : String)
deriving DecidableEq

/-- An Agent where it runs: `str.lower`, the configuration, the links of the file system, and which
    module is behind a port that the configuration names. -/
structure Site where
  lower      : String → String
  lowerEmpty : lower "" = ""
  devices    : List DeviceConfig
  /-- `AgentConfig.parse` refuses a duplicate name. -/
  names      : (devices.map DeviceConfig.name).Nodup
  /-- `os.path.realpath`. -/
  realpath   : String → String
  behind     : String → Option Identity

theorem lower_empty : String.ofList ("".toList.map Char.toLower) = "" := by decide

namespace Site

variable (A : Site)

/-- `s.strip().lower()`. -/
def norm (s : String) : String := A.lower (pyStrip s)

/-- The IMEI, else the ICCID. -/
def identity (imei iccid : String) : Option Identity :=
  if A.norm imei ≠ "" then some (.imei (A.norm imei))
  else if A.norm iccid ≠ "" then some (.iccid (A.norm iccid))
  else none

/-- `_identity_key`. -/
def identityKey (found : ProbeResult) : Option Identity := A.identity found.imei found.iccid

/-- `_probe_identity`. -/
def probeIdentity (found : ProbeResult) : Option Identity := A.identity found.imei found.iccid

/-- `_device_identity`. -/
def deviceIdentity (device : DeviceConfig) : Option Identity := A.identity device.imei device.iccid

/-- `_matches`. -/
def isModuleOf (config : DeviceConfig) (found : ProbeResult) : Bool :=
  if A.norm config.imei ≠ "" ∧ A.norm config.imei ≠ A.norm found.imei then false
  else if A.norm config.iccid ≠ "" ∧ A.norm config.iccid ≠ A.norm found.iccid then false
  else A.norm config.imei ≠ "" ∨ A.norm config.iccid ≠ ""

/-- `sole_device`. -/
def soleDevice : Bool := A.devices.length == 1

end Site

/-- `config.imei or config.iccid`. -/
def DeviceConfig.identified (d : DeviceConfig) : Bool := d.imei ≠ "" || d.iccid ≠ ""

/-! ## States -/

/-- A `DeviceWorker`, and (ghost) the hardware it was created for: what its block says, for a block
    that names only a port the module behind it, and for an adopted device what was probed. -/
structure Worker where
  config   : DeviceConfig
  identity : Option Identity

/-- Who holds the lock.  The first port of the loop is being probed. -/
inductive Call
  | acquire (config : DeviceConfig) (ports : List String)
  | survey (reserved : List DeviceConfig) (pinned : List String) (ports : List String)
      (found : List ProbeResult) (seen : List Identity)

structure State where
  workers : List Worker
  adopted : List DeviceConfig
  /-- `_claimed`: port to device name. -/
  claimed : Dict String String
  /-- `_port` of the workers that acquired one and have not released it. -/
  ports   : Dict String String
  /-- The blocks and the pinned ports a survey waits for the lock with. -/
  waiting : Option (List DeviceConfig × List String)
  call    : Option Call
  /-- The names `_name_for` remembers. -/
  kv      : Dict String String

/-- The name of a worker. -/
def Worker.name (w : Worker) : String := w.config.name

def State.names (s : State) : List String := s.workers.map Worker.name

/-- One step.  `ports` is what the glob matched. -/
inductive Action
  /-- A worker calls `acquire` and has the lock. -/
  | acquire (name : String) (ports : List String)
  /-- `_autodetect_once` begins. -/
  | autodetect
  /-- `survey` has the lock. -/
  | survey (ports : List String)
  /-- The probe is answered, or the port does not speak AT. -/
  | probe (answer : Option Answer)
  /-- The call is cancelled. -/
  | cancel
  /-- The release in a worker's `_teardown`. -/
  | release (name : String)

/-! ## Steps -/

/-- `sorted(glob(…))`. -/
def sorted (ports : List String) : List String := ports.insertionSort fun a b => a ≤ b

variable (A : Site)

/-- The loop of `acquire` goes on to the next port, or raises NoSuchDevice. -/
def State.acquireNext (s : State) (config : DeviceConfig) (rest : List String) : State :=
  { s with call := if rest.isEmpty then none else some (.acquire config rest) }

/-- A port is probed in `acquire`. -/
def State.acquireProbed (s : State) (config : DeviceConfig) (port : String) (rest : List String)
    (answer : Option Answer) : State :=
  match answer with
  | none   => s.acquireNext config rest
  | some a =>
    if config.identified && !A.isModuleOf config { a with port } then s.acquireNext config rest
    else if !config.identified && !A.soleDevice then { s with call := none }
    else { s with
      call    := none
      claimed := s.claimed.set port config.name
      ports   := s.ports.set config.name port }

/-- `_name_for`. -/
def nameFor (kv : Dict String String) (workers : List String) (imei iccid : String) :
    String × Dict String String :=
  let stripped := if pyStrip imei ≠ "" then pyStrip imei else pyStrip iccid
  let key := if pyStrip imei ≠ "" then "autodetect:imei:" ++ imei else "autodetect:iccid:" ++ iccid
  let fresh := FreshName.freshName workers
    ("auto-" ++ String.ofList (stripped.toList.drop (stripped.length - 6)))
  match kv.get? key with
  | some name => if name ≠ "" ∧ name ∉ workers then (name, kv) else (fresh, kv.set key fresh)
  | none      => (fresh, kv.set key fresh)

/-- `_adopt`. -/
def State.adopt (s : State) (found : ProbeResult) : State :=
  match A.probeIdentity found with
  | none          => s
  | some identity =>
    if (A.devices ++ s.adopted).any fun d => A.deviceIdentity d = some identity then s
    else
      let (name, kv) := nameFor s.kv s.names found.imei found.iccid
      let device : DeviceConfig := ⟨name, "", found.imei, "", found.model⟩
      { s with
        adopted := s.adopted ++ [device]
        workers := s.workers ++ [⟨device, some identity⟩]
        kv }

/-- The loop of `_autodetect_once` over what the survey found. -/
def State.adoptAll (s : State) : List ProbeResult → List Identity → State
  | [], _              => s
  | found :: more, seen => match A.probeIdentity found with
    | none          => s.adoptAll more seen
    | some identity =>
      if identity ∈ seen then s.adoptAll more seen
      else (s.adopt A found).adoptAll more (identity :: seen)

/-- The loop of `survey` goes on to the next port that is neither claimed nor pinned, or returns to
    `_autodetect_once`. -/
def State.surveyNext (s : State) (reserved : List DeviceConfig) (pinned rest : List String)
    (found : List ProbeResult) (seen : List Identity) : State :=
  match rest.dropWhile fun p => (s.claimed.get? p).isSome || decide (p ∈ pinned) with
  | []    => { s with call := none }.adoptAll A found []
  | ports => { s with call := some (.survey reserved pinned ports found seen) }

/-- What `survey` makes of a probe: the module is reported, and its identity is seen. -/
def Site.report (reserved : List DeviceConfig) (result : ProbeResult)
    (found : List ProbeResult) (seen : List Identity) : List ProbeResult × List Identity :=
  if reserved.any fun d => A.isModuleOf d result then (found, seen)
  else match A.identityKey result with
    | none          => (found ++ [result], seen)
    | some identity =>
      if identity ∈ seen then (found, seen) else (found ++ [result], identity :: seen)

/-- A port is probed in `survey`. -/
def State.surveyProbed (s : State) (reserved : List DeviceConfig) (pinned : List String)
    (port : String) (rest : List String) (found : List ProbeResult) (seen : List Identity)
    (answer : Option Answer) : State :=
  match answer with
  | none   => s.surveyNext A reserved pinned rest found seen
  | some a =>
    let (found, seen) := A.report reserved { a with port } found seen
    s.surveyNext A reserved pinned rest found seen

/-- A block without port, imei and iccid. -/
def DeviceConfig.blank (d : DeviceConfig) : Bool := d.port = "" && !d.identified

/-- One step. -/
def step (s : State) : Action → Option State
  | .acquire name ports => match s.call, s.workers.find? (fun w => w.name = name) with
    | none, some w =>
      if w.config.isPinned || (s.ports.get? name).isSome then none
      else match (sorted ports).filter fun p => (s.claimed.get? p).isNone with
        | []         => some s
        | candidates => some { s with call := some (.acquire w.config candidates) }
    | _, _ => none
  | .autodetect => match s.waiting, s.call with
    | some _, _                   => none
    | _, some (.survey _ _ _ _ _) => none
    | none, _                     =>
      if A.devices.any DeviceConfig.blank then some s
      else
        let reserved := A.devices ++ s.adopted
        let pinned := (reserved.filter DeviceConfig.isPinned).map fun d => A.realpath d.port
        some { s with waiting := some (reserved, pinned) }
  | .survey ports => match s.call, s.waiting with
    | none, some (reserved, pinned) =>
      some ({ s with waiting := none }.surveyNext A reserved pinned (sorted ports) [] [])
    | _, _ => none
  | .probe answer => match s.call with
    | some (.acquire config (port :: rest)) => some (s.acquireProbed A config port rest answer)
    | some (.survey reserved pinned (port :: rest) found seen) =>
      some (s.surveyProbed A reserved pinned port rest found seen answer)
    | _ => none
  | .cancel => match s.call with
    | some _ => some { s with call := none }
    | none   => none
  | .release name => match s.ports.get? name with
    | some port => some { s with
        claimed := s.claimed.erase port
        ports   := s.ports.erase name }
    | none      => some s

/-- The worker of a block. -/
def Site.worker (d : DeviceConfig) : Worker :=
  ⟨d, (A.deviceIdentity d).or (if d.isPinned then A.behind d.port else none)⟩

/-- The Agent when it starts, with the names it remembers. -/
def Site.start (kv : Dict String String) : State :=
  ⟨A.devices.map A.worker, [], ∅, ∅, none, none, kv⟩

/-- The discovery of an Agent. -/
def machine : Machine State Action where
  Start s := ∃ kv, s = A.start kv
  step    := step A

end Air780eHub.Discovery
