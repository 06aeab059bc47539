/-
  Demultiplexing: what the handlers of unsolicited results should see of a stream of lines.

  1. **The demultiplexer.**  A command is in flight from its beginning to its final result or to the end
     of its time.  A line is a payload line of the URC that waits for one, an answer of the command in
     flight, or the header of a URC; what `execute` does afterwards changes nothing about a URC.
  2. **Headers and their payload**: a header is handed over once, with the lines that follow it, whatever
     commands begin and end in between.
  3. **The client against it.**  `_pending` outlives the flight of a command, and the end of `execute`
     clears the open capture.  The condition says that neither matters; then the calls are the same.
-/
import Mathlib.Tactic.SplitIfs
import Air780eHub.At.Client

namespace Air780eHub.At

section

variable (up : Char → Line)

/-! ## The demultiplexer -/

/-- A command in flight: its text, and the prefix it owns. -/
structure Flight where
  command        : Line
  expectedPrefix : Option Line
deriving DecidableEq

/-- What has to be known to route a line, and the calls made. -/
structure Demux where
  registrations : List Registration
  flight        : Option Flight
  waiting       : Option (Registration × Urc)
  calls         : List (Registration × Urc)

/-- The URC that waits for a payload line takes it, and is handed over when it has all of them. -/
def Demux.continueUrc (d : Demux) (reg : Registration) (urc : Urc) (line : Line) : Demux :=
  if reg.payloadLines ≤ (urc.payload ++ [line]).length then
    { d with
      waiting := none
      calls := d.calls ++ [(reg, { urc with payload := urc.payload ++ [line] })] }
  else { d with waiting := some (reg, { urc with payload := urc.payload ++ [line] }) }

/-- A header waits for its payload, if it has any. -/
def Demux.beginUrc (d : Demux) (reg : Registration) (line : Line) : Demux :=
  if 0 < reg.payloadLines then { d with waiting := some (reg, .ofLine line) }
  else { d with calls := d.calls ++ [(reg, .ofLine line)] }

/-- The line ends the flight. -/
def Flight.ends (f : Flight) (line : Line) : Bool :=
  line ≠ f.command && (finalResult up [] line).isSome

/-- A line. -/
def Demux.handleLine (d : Demux) (line : Line) : Demux :=
  match d.waiting with
  | some (reg, urc) => d.continueUrc reg urc line
  | none =>
    if d.flight.any fun f => owns up f.expectedPrefix line then d
    else match matchUrc up d.registrations line with
      | some reg => d.beginUrc reg line
      | none     => { d with flight := d.flight.filter fun f => !f.ends up line }

def Demux.step (d : Demux) : Act → Demux
  | .registered urcPrefix handler payloadLines =>
    { d with registrations := d.registrations ++ [⟨upper up urcPrefix, handler, payloadLines⟩] }
  | .started command => { d with flight := some ⟨command, expectedResponsePrefix up command⟩ }
  | .line line       => d.handleLine up line
  | .expired         => { d with flight := none }
  | .resumed         => { d with flight := none }

/-- A list of steps. -/
def Demux.run (d : Demux) (acts : List Act) : Demux := acts.foldl (Demux.step up) d

/-! ## Headers and their payload -/

/-- The lines of a list of steps. -/
def linesOf (acts : List Act) : List Line :=
  acts.filterMap fun a => match a with
    | .line line => some line
    | _          => none

variable {up}

/-- Without a line nothing is handed over, and nothing stops waiting. -/
theorem Demux.run_quiet {d : Demux} {acts : List Act} (h : linesOf acts = []) :
    (d.run up acts).calls = d.calls ∧ (d.run up acts).waiting = d.waiting := by
  induction acts generalizing d with
  | nil => exact ⟨rfl, rfl⟩
  | cons a acts ih =>
    have hrest : linesOf acts = [] := by
      cases a with
      | line line => simp [linesOf] at h
      | _ => exact h
    obtain ⟨hcalls, hwaiting⟩ := ih (d := d.step up a) hrest
    cases a with
    | line line => simp [linesOf] at h
    | _ => exact ⟨hcalls, hwaiting⟩

/-- A URC that waits is handed over with the next lines, whatever commands do in between. -/
theorem Demux.payload_kept {d : Demux} {acts : List Act} {reg : Registration} {urc : Urc}
    (hwaiting : d.waiting = some (reg, urc)) (hlines : linesOf acts ≠ [])
    (hcount : urc.payload.length + (linesOf acts).length = reg.payloadLines) :
    (d.run up acts).calls = d.calls ++ [(reg, { urc with payload := urc.payload ++ linesOf acts })] ∧
      (d.run up acts).waiting = none := by
  induction acts generalizing d urc with
  | nil => exact absurd rfl hlines
  | cons a acts ih =>
    cases a with
    | line line =>
      have hsplit : linesOf (.line line :: acts) = line :: linesOf acts := rfl
      have hstep : d.step up (.line line) = d.continueUrc reg urc line := by
        rw [Demux.step, Demux.handleLine, hwaiting]
      rw [hsplit] at hcount
      show (Demux.run up (d.step up (.line line)) acts).calls = _ ∧
        (Demux.run up (d.step up (.line line)) acts).waiting = none
      rw [hstep, hsplit, Demux.continueUrc]
      simp only [List.length_cons, List.length_append, List.length_nil] at hcount ⊢
      by_cases hlast : linesOf acts = []
      · -- the last line of the payload
        rw [hlast, List.length_nil] at hcount
        rw [if_pos (by omega), hlast]
        exact Demux.run_quiet hlast
      · have hpos : 0 < (linesOf acts).length := List.length_pos_iff.mpr hlast
        rw [if_neg (by omega)]
        have hrest := ih (d := { d with waiting := some (reg, { urc with payload := urc.payload ++ [line] }) })
          rfl hlast (by simp only [List.length_append, List.length_singleton]; omega)
        simpa only [List.append_assoc, List.singleton_append] using hrest
    | _ => exact ih (d := d.step up _) hwaiting hlines hcount

/-- **A header is handed over once, with its payload.**  A line that is no payload line and no answer
    of the command in flight, and whose prefix is registered, reaches its handler with the lines that
    follow it; commands may begin and end meanwhile. -/
theorem Demux.header_dispatched {d : Demux} {acts : List Act} {line : Line} {reg : Registration}
    (hwaiting : d.waiting = none)
    (hreply : (d.flight.any fun f => owns up f.expectedPrefix line) = false)
    (hmatch : matchUrc up d.registrations line = some reg)
    (hcount : (linesOf acts).length = reg.payloadLines) :
    (d.run up (.line line :: acts)).calls =
        d.calls ++ [(reg, { Urc.ofLine line with payload := linesOf acts })] ∧
      (d.run up (.line line :: acts)).waiting = none := by
  have hstep : d.step up (.line line) = d.beginUrc reg line := by
    rw [Demux.step, Demux.handleLine, hwaiting]
    simp only [hreply, hmatch, Bool.false_eq_true, if_false]
  show (Demux.run up (d.step up (.line line)) acts).calls = _ ∧
    (Demux.run up (d.step up (.line line)) acts).waiting = none
  rw [hstep, Demux.beginUrc]
  split_ifs with hpayload
  · have hlines : linesOf acts ≠ [] := by
      rintro hnone
      rw [hnone, List.length_nil] at hcount
      omega
    have hopen : ({ d with waiting := some (reg, Urc.ofLine line) } : Demux).waiting =
        some (reg, Urc.ofLine line) := rfl
    exact Demux.payload_kept hopen hlines (by simpa [Urc.ofLine] using hcount)
  · have hnone : linesOf acts = [] := List.length_eq_zero_iff.mp (by omega)
    obtain ⟨hcalls, hstill⟩ : (Demux.run up { d with calls := d.calls ++ [(reg, Urc.ofLine line)] }
        acts).calls = d.calls ++ [(reg, Urc.ofLine line)] ∧ _ := Demux.run_quiet hnone
    rw [hcalls, hstill, hnone]
    exact ⟨rfl, hwaiting⟩

/-! ## The client against it -/

variable (up) in
/-- A line is final whatever has been collected. -/
theorem finalResult_isSome (lines : List Line) (line : Line) :
    (finalResult up lines line).isSome = (finalResult up [] line).isSome := by
  simp only [finalResult]
  split_ifs <;> rfl

/-- The client, and the demultiplexer that sees the same. -/
structure System where
  client : Client
  ideal  : Demux

variable (up)

def System.step (s : System) (a : Act) : Option System :=
  (s.client.step up a).map fun client => ⟨client, s.ideal.step up a⟩

/-- A client whose port is opened. -/
structure System.Starts (s : System) : Prop where
  pending : s.client.pending = none
  capture : s.client.urcCapture = none
  ideal   : s.ideal = ⟨s.client.registrations, none, none, s.client.calls⟩

def system : Machine System Act := ⟨System.Starts, System.step up⟩

/-- A command whose future is done has not been cleared yet. -/
def Pending.lingers (p : Pending) : Bool := p.result.isSome

/-- The condition on a step: no `execute` ends while a URC waits for its payload, and no URC header
    comes under the prefix of a command that is over. -/
def calm (s : System) : Act → Bool
  | .resumed   => s.client.urcCapture.isNone
  | .line line => s.client.urcCapture.isSome || (matchUrc up s.client.registrations line).isNone ||
      !(s.client.pending.any fun p => p.lingers && owns up p.expectedPrefix line)
  | _ => true

variable {up}

/-- The command is in flight until its future is done. -/
def Pending.flight (p : Pending) : Option Flight :=
  if p.lingers then none else some ⟨p.command, p.expectedPrefix⟩

/-- The client knows what the demultiplexer knows. -/
structure Agrees (c : Client) (d : Demux) : Prop where
  registrations : d.registrations = c.registrations
  waiting       : d.waiting = c.urcCapture
  calls         : d.calls = c.calls
  flight        : d.flight = c.pending.bind Pending.flight

variable {c c' : Client} {d : Demux}

theorem Agrees.continueUrc (h : Agrees c d) (reg : Registration) (urc : Urc) (line : Line) :
    Agrees (c.continueUrc reg urc line) (d.continueUrc reg urc line) := by
  rw [Client.continueUrc, Demux.continueUrc]
  split_ifs
  · exact ⟨h.registrations, rfl, by rw [h.calls]; rfl, h.flight⟩
  · exact ⟨h.registrations, rfl, h.calls, h.flight⟩

theorem Agrees.beginUrc (h : Agrees c d) (reg : Registration) (line : Line) :
    Agrees (c.beginUrc reg line) (d.beginUrc reg line) := by
  rw [Client.beginUrc, Demux.beginUrc]
  split_ifs
  · exact ⟨h.registrations, rfl, h.calls, h.flight⟩
  · exact ⟨h.registrations, h.waiting, by rw [h.calls]; rfl, h.flight⟩

theorem Pending.flight_of_done {p : Pending} {result : Result} (h : p.result = some result) :
    p.flight = none := by
  simp [Pending.flight, Pending.lingers, h]

theorem Pending.flight_of_open {p : Pending} (h : p.result = none) :
    p.flight = some ⟨p.command, p.expectedPrefix⟩ := by
  simp [Pending.flight, Pending.lingers, h]

variable (up) in
/-- What a line changes of the command it comes to. -/
theorem Pending.take_result (p : Pending) (line : Line) :
    (p.take up line).result =
      (if line = p.command then p.result else p.result.or (finalResult up p.lines line)) := by
  rw [Pending.take]
  split_ifs
  · rfl
  · cases finalResult up p.lines line <;> simp

variable (up) in
theorem Pending.take_command (p : Pending) (line : Line) :
    (p.take up line).command = p.command ∧ (p.take up line).expectedPrefix = p.expectedPrefix := by
  rw [Pending.take]
  split_ifs
  · exact ⟨rfl, rfl⟩
  · cases finalResult up p.lines line <;> exact ⟨rfl, rfl⟩

/-- A line that a command takes ends the flight of both. -/
theorem Pending.take_flight (p : Pending) (line : Line) :
    (p.take up line).flight = p.flight.filter fun f => !f.ends up line := by
  have hresult := p.take_result up line
  obtain ⟨hcommand, hprefix⟩ := p.take_command up line
  cases hp : p.result with
  | some result =>
    have hstill : (p.take up line).result = some result := by
      rw [hresult, hp]
      split_ifs <;> rfl
    rw [Pending.flight_of_done hp, Pending.flight_of_done hstill]
    rfl
  | none =>
    rw [Pending.flight_of_open hp]
    by_cases hecho : line = p.command
    · -- an echo ends nothing
      have hopen : (p.take up line).result = none := by rw [hresult, if_pos hecho, hp]
      rw [Pending.flight_of_open hopen, hcommand, hprefix]
      simp [Option.filter_some, Flight.ends, hecho]
    · rw [if_neg hecho, hp, Option.none_or] at hresult
      have hsome := finalResult_isSome up p.lines line
      cases hfinal : finalResult up p.lines line with
      | some result =>
        rw [Pending.flight_of_done (hresult.trans hfinal)]
        rw [hfinal, Option.isSome_some] at hsome
        simp [Option.filter_some, Flight.ends, hecho, ← hsome]
      | none =>
        rw [Pending.flight_of_open (hresult.trans hfinal), hcommand, hprefix]
        rw [hfinal, Option.isSome_none] at hsome
        simp [Option.filter_some, Flight.ends, ← hsome]

/-- A line that the pending command owns is an answer of the command in flight, unless it lingers. -/
theorem owns_flight (c : Client) (line : Line) :
    ((c.pending.bind Pending.flight).any fun f => owns up f.expectedPrefix line) =
      c.pending.any fun p => !p.lingers && owns up p.expectedPrefix line := by
  cases hp : c.pending with
  | none => rfl
  | some p =>
    show (p.flight.any fun f => owns up f.expectedPrefix line) = _
    rw [Pending.flight]
    cases hl : p.lingers <;> simp [hl]

/-- The command collects a line. -/
theorem Agrees.collect (h : Agrees c d) (line : Line) :
    Agrees { c with pending := c.pending.map fun p => { p with lines := p.lines ++ [line] } } d := by
  refine ⟨h.registrations, h.waiting, h.calls, ?_⟩
  rw [h.flight]
  cases c.pending <;> rfl

/-- The command takes a line that is no answer and no URC. -/
theorem Agrees.take (h : Agrees c d) (line : Line) :
    Agrees { c with pending := c.pending.map fun p => p.take up line }
      { d with flight := d.flight.filter fun f => !f.ends up line } := by
  refine ⟨h.registrations, h.waiting, h.calls, ?_⟩
  show d.flight.filter (fun f => !f.ends up line) =
    (c.pending.map fun p => p.take up line).bind Pending.flight
  rw [h.flight]
  cases c.pending with
  | none => rfl
  | some p => exact (p.take_flight line).symm

/-! What the client does with a line while no URC waits. -/

theorem Client.handleLine_answer {line : Line} (hcapture : c.urcCapture = none)
    (howns : (c.pending.any fun p => owns up p.expectedPrefix line) = true) :
    c.handleLine up line =
      { c with pending := c.pending.map fun p => { p with lines := p.lines ++ [line] } } := by
  simp only [Client.handleLine, hcapture, howns, if_true]

theorem Client.handleLine_urc {line : Line} {reg : Registration} (hcapture : c.urcCapture = none)
    (howns : (c.pending.any fun p => owns up p.expectedPrefix line) = false)
    (hmatch : matchUrc up c.registrations line = some reg) :
    c.handleLine up line = c.beginUrc reg line := by
  simp only [Client.handleLine, hcapture, howns, hmatch, Bool.false_eq_true, if_false]

theorem Client.handleLine_other {line : Line} (hcapture : c.urcCapture = none)
    (howns : (c.pending.any fun p => owns up p.expectedPrefix line) = false)
    (hmatch : matchUrc up c.registrations line = none) :
    c.handleLine up line = { c with pending := c.pending.map fun p => p.take up line } := by
  simp only [Client.handleLine, hcapture, howns, hmatch, Bool.false_eq_true, if_false]

/-! And the demultiplexer. -/

theorem Demux.handleLine_answer {line : Line} (hwaiting : d.waiting = none)
    (hreply : (d.flight.any fun f => owns up f.expectedPrefix line) = true) :
    d.handleLine up line = d := by
  simp only [Demux.handleLine, hwaiting, hreply, if_true]

theorem Demux.handleLine_urc {line : Line} {reg : Registration} (hwaiting : d.waiting = none)
    (hreply : (d.flight.any fun f => owns up f.expectedPrefix line) = false)
    (hmatch : matchUrc up d.registrations line = some reg) :
    d.handleLine up line = d.beginUrc reg line := by
  simp only [Demux.handleLine, hwaiting, hreply, hmatch, Bool.false_eq_true, if_false]

theorem Demux.handleLine_other {line : Line} (hwaiting : d.waiting = none)
    (hreply : (d.flight.any fun f => owns up f.expectedPrefix line) = false)
    (hmatch : matchUrc up d.registrations line = none) :
    d.handleLine up line = { d with flight := d.flight.filter fun f => !f.ends up line } := by
  simp only [Demux.handleLine, hwaiting, hreply, hmatch, Bool.false_eq_true, if_false]

/-- A command that owns the line but is not in flight lingers. -/
theorem flight_of_lingers {line : Line}
    (howns : (c.pending.any fun p => owns up p.expectedPrefix line) = true)
    (hreply : (c.pending.any fun p => !p.lingers && owns up p.expectedPrefix line) = false) :
    c.pending.bind Pending.flight = none ∧
      (c.pending.any fun p => p.lingers && owns up p.expectedPrefix line) = true := by
  cases hp : c.pending with
  | none => rw [hp] at howns; cases howns
  | some p =>
    rw [hp, Option.any_some] at howns hreply
    have hlingers : p.lingers = true := by simpa [howns] using hreply
    refine ⟨?_, by simp [hlingers, howns]⟩
    show p.flight = none
    rw [Pending.flight, if_pos hlingers]

/-- One line, when no URC waits. -/
theorem Agrees.handleNext {line : Line} (h : Agrees c d) (hcapture : c.urcCapture = none)
    (hcalm : calm up ⟨c, d⟩ (.line line) = true) :
    Agrees (c.handleLine up line) (d.handleLine up line) := by
  have hwaiting : d.waiting = none := h.waiting.trans hcapture
  have hanswers : (d.flight.any fun f => owns up f.expectedPrefix line) =
      c.pending.any fun p => !p.lingers && owns up p.expectedPrefix line := by
    rw [h.flight]
    exact owns_flight c line
  cases howns : c.pending.any fun p => owns up p.expectedPrefix line with
  | false =>
    have hreply : (d.flight.any fun f => owns up f.expectedPrefix line) = false := by
      rw [hanswers]
      cases hp : c.pending with
      | none => rfl
      | some p =>
        rw [hp, Option.any_some] at howns
        simp [howns]
    cases hmatch : matchUrc up c.registrations line with
    | some reg =>
      rw [Client.handleLine_urc hcapture howns hmatch,
        Demux.handleLine_urc hwaiting hreply (h.registrations ▸ hmatch)]
      exact h.beginUrc reg line
    | none =>
      rw [Client.handleLine_other hcapture howns hmatch,
        Demux.handleLine_other hwaiting hreply (h.registrations ▸ hmatch)]
      exact h.take line
  | true =>
    rw [Client.handleLine_answer hcapture howns]
    cases hreply : c.pending.any fun p => !p.lingers && owns up p.expectedPrefix line with
    | true =>
      rw [Demux.handleLine_answer hwaiting (hanswers.trans hreply)]
      exact h.collect line
    | false =>
      -- the command is over, and by the condition the line is no URC
      obtain ⟨hflight, hlingers⟩ := flight_of_lingers howns hreply
      have hmatch : matchUrc up c.registrations line = none := by
        simpa [calm, hcapture, hlingers] using hcalm
      rw [Demux.handleLine_other hwaiting (hanswers.trans hreply) (h.registrations ▸ hmatch),
        h.flight, hflight]
      have hcollect := h.collect line
      exact ⟨hcollect.registrations, hcollect.waiting, hcollect.calls, by
        rw [← hcollect.flight, h.flight, hflight]; rfl⟩

theorem Agrees.handleLine {line : Line} (h : Agrees c d)
    (hcalm : calm up ⟨c, d⟩ (.line line) = true) :
    Agrees (c.handleLine up line) (d.handleLine up line) := by
  cases hcapture : c.urcCapture with
  | none => exact h.handleNext hcapture hcalm
  | some waiting =>
    have hclient : c.handleLine up line = c.continueUrc waiting.1 waiting.2 line := by
      rw [Client.handleLine, hcapture]
    have hideal : d.handleLine up line = d.continueUrc waiting.1 waiting.2 line := by
      rw [Demux.handleLine, h.waiting, hcapture]
    rw [hclient, hideal]
    exact h.continueUrc waiting.1 waiting.2 line

theorem Agrees.step {a : Act} (h : Agrees c d) (hcalm : calm up ⟨c, d⟩ a = true)
    (hs : c.step up a = some c') : Agrees c' (d.step up a) := by
  cases a with
  | registered urcPrefix handler payloadLines =>
    obtain rfl := Option.some.inj hs
    exact ⟨by rw [← h.registrations]; rfl, h.waiting, h.calls, h.flight⟩
  | started command =>
    rw [Client.step] at hs
    split at hs
    case h_1 hp =>
      obtain rfl := Option.some.inj hs
      exact ⟨h.registrations, h.waiting, h.calls, rfl⟩
    case h_2 => cases hs
  | line line =>
    obtain rfl := Option.some.inj hs
    exact h.handleLine hcalm
  | expired =>
    rw [Client.step] at hs
    split at hs
    case h_1 p hp =>
      obtain rfl := Option.some.inj hs
      refine ⟨h.registrations, h.waiting, h.calls, ?_⟩
      show none = Pending.flight { p with result := p.result.or (some .expired) }
      simp [Pending.flight, Pending.lingers]
    case h_2 => cases hs
  | resumed =>
    rw [Client.step] at hs
    split at hs
    case h_1 p hp =>
      obtain rfl := Option.some.inj hs
      refine ⟨h.registrations, ?_, h.calls, rfl⟩
      show d.waiting = none
      rw [h.waiting]
      simpa [calm] using hcalm
    case h_2 => cases hs

variable {s t : System}

theorem System.agrees_start (h : s.Starts) : Agrees s.client s.ideal := by
  rw [h.ideal]
  exact ⟨rfl, h.capture.symm, rfl, by rw [h.pending]; rfl⟩

theorem System.agrees_step {a : Act} (h : Agrees s.client s.ideal) (hcalm : calm up s a = true)
    (hs : s.step up a = some t) : Agrees t.client t.ideal := by
  obtain ⟨c, hc, rfl⟩ := Option.map_eq_some_iff.mp hs
  exact h.step hcalm hc

/-- **Demultiplexing.**  The handlers are called as the demultiplexer says, each URC once with its
    payload lines, and a URC that still waits for its payload has not been lost. -/
theorem demultiplexing (hs : (system up).ReachableBy (fun s a => calm up s a = true) s) :
    s.client.calls = s.ideal.calls ∧ s.client.urcCapture = s.ideal.waiting := by
  have hagrees : Agrees s.client s.ideal :=
    hs.invariant (I := fun s => Agrees s.client s.ideal) (fun _ => System.agrees_start)
      fun _ _ _ hI hG hstep => System.agrees_step hI hG hstep
  exact ⟨hagrees.calls.symm, hagrees.waiting.symm⟩

/-- A run of the system is a run of the demultiplexer. -/
theorem System.run_ideal {acts : List Act} (hrun : (system up).runBy (calm up) s acts = some t) :
    t.ideal = Demux.run up s.ideal acts := by
  induction acts generalizing s with
  | nil => cases hrun; rfl
  | cons a acts ih =>
    rw [Machine.runBy] at hrun
    split_ifs at hrun
    cases hstep : (system up).step s a with
    | none => rw [hstep] at hrun; cases hrun
    | some s' =>
      rw [hstep] at hrun
      have hideal : s'.ideal = s.ideal.step up a := by
        obtain ⟨c, -, rfl⟩ := Option.map_eq_some_iff.mp hstep
        rfl
      rw [ih hrun, hideal]
      rfl

/-- **A URC is not lost.**  A line that comes while no URC waits and is no answer of the command in
    flight, and whose prefix is registered, has reached its handler once, with its payload, when the
    payload lines have come. -/
theorem urc_handed_over {acts : List Act} {line : Line} {reg : Registration}
    (hs : (system up).ReachableBy (fun s a => calm up s a = true) s)
    (hcapture : s.client.urcCapture = none)
    (hreply : (s.client.pending.any fun p => !p.lingers && owns up p.expectedPrefix line) = false)
    (hmatch : matchUrc up s.client.registrations line = some reg)
    (hcount : (linesOf acts).length = reg.payloadLines)
    (hrun : (system up).runBy (calm up) s (.line line :: acts) = some t) :
    t.client.calls = s.client.calls ++ [(reg, { Urc.ofLine line with payload := linesOf acts })] := by
  have hagrees : Agrees s.client s.ideal :=
    hs.invariant (I := fun s => Agrees s.client s.ideal) (fun _ => System.agrees_start)
      fun _ _ _ hI hG hstep => System.agrees_step hI hG hstep
  have hflight : (s.ideal.flight.any fun f => owns up f.expectedPrefix line) = false := by
    rw [hagrees.flight, owns_flight]
    exact hreply
  obtain ⟨hcalls, -⟩ := demultiplexing (hs.path (Machine.runBy_path hrun))
  rw [hcalls, System.run_ideal hrun, ← hagrees.calls]
  exact (Demux.header_dispatched (hagrees.waiting.trans hcapture) hflight
    (hagrees.registrations ▸ hmatch) hcount).1

/-! ## Concrete streams -/

/-- `str.upper` of an ASCII character. -/
def asciiUpper (c : Char) : Line := [c.toUpper]

/-- Messages with a payload line and registration changes, as the modem registers them. -/
def smsClient : Client :=
  ⟨[⟨"+CMT".toList, 0, 1⟩, ⟨"+CEREG".toList, 1, 0⟩], none, none, []⟩

def smsSystem : System := ⟨smsClient, ⟨smsClient.registrations, none, none, []⟩⟩

theorem smsSystem_starts : smsSystem.Starts := ⟨rfl, rfl, rfl⟩

/-- A message comes during a command and a registration change after it. -/
theorem demultiplexing_in_flight : ∃ s,
    (system asciiUpper).ReachableBy (fun s a => calm asciiUpper s a = true) s ∧
    s.client.calls.length = 2 ∧
    s.client.calls = s.ideal.calls ∧ s.client.urcCapture = s.ideal.waiting := by
  have hrun : ((system asciiUpper).runBy (calm asciiUpper) smsSystem [.started "AT+CSQ".toList,
      .line "+CMT: ,23".toList, .line "07911326".toList, .line "+CSQ: 20,99".toList,
      .line "OK".toList, .resumed, .line "+CEREG: 5".toList]).map
        (fun s => s.client.calls.length) = some 2 := by decide +kernel
  obtain ⟨s, hs, hlength⟩ := Option.map_eq_some_iff.mp hrun
  have hreach : (system asciiUpper).ReachableBy (fun s a => calm asciiUpper s a = true) s :=
    ⟨smsSystem, smsSystem_starts, Machine.runBy_path hs⟩
  exact ⟨s, hreach, hlength, demultiplexing hreach⟩

/-- A header that comes after the final result of a command loses its payload line when `execute`
    goes on; and a registration change that comes then is taken for an answer of the command. -/
theorem urcs_are_lost :
    (∃ s, (system asciiUpper).Reachable s ∧ s.client.calls = [] ∧
      s.ideal.calls = [(⟨"+CMT".toList, 0, 1⟩, ⟨"+CMT".toList, ",23".toList, ["07911326".toList]⟩)]) ∧
    ∃ s, (system asciiUpper).Reachable s ∧ s.client.calls = [] ∧
      s.ideal.calls = [(⟨"+CEREG".toList, 1, 0⟩, ⟨"+CEREG".toList, "5".toList, []⟩)] := by
  constructor
  · have hrun : ((system asciiUpper).run smsSystem [.started "AT+CSQ".toList,
        .line "+CSQ: 20,99".toList, .line "OK".toList, .line "+CMT: ,23".toList, .resumed,
        .line "07911326".toList]).map (fun s => (s.client.calls, s.ideal.calls)) =
        some ([], [(⟨"+CMT".toList, 0, 1⟩,
          ⟨"+CMT".toList, ",23".toList, ["07911326".toList]⟩)]) := by decide +kernel
    obtain ⟨s, hs, hcalls⟩ := Option.map_eq_some_iff.mp hrun
    obtain ⟨hclient, hideal⟩ := Prod.mk.inj hcalls
    exact ⟨s, Machine.run_reachable smsSystem_starts hs, hclient, hideal⟩
  · have hrun : ((system asciiUpper).run smsSystem [.started "AT+CEREG?".toList,
        .line "+CEREG: 0,1".toList, .line "OK".toList, .line "+CEREG: 5".toList, .resumed]).map
        (fun s => (s.client.calls, s.ideal.calls)) =
        some ([], [(⟨"+CEREG".toList, 1, 0⟩, ⟨"+CEREG".toList, "5".toList, []⟩)]) := by
      decide +kernel
    obtain ⟨s, hs, hcalls⟩ := Option.map_eq_some_iff.mp hrun
    obtain ⟨hclient, hideal⟩ := Prod.mk.inj hcalls
    exact ⟨s, Machine.run_reachable smsSystem_starts hs, hclient, hideal⟩

end

end Air780eHub.At
