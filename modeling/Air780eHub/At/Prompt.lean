/-
  Commands that wait for a prompt (`ATClient.execute` with `expect_prompt`).

  `AT+CMGS` answers `> ` and takes its payload then; its final result comes after that.  So `execute`
  waits twice: for the event `prompt`, and after the payload for the future.  A final result or the
  loss of the port completes the future only, and whoever waits for the prompt does not see it.

  1. **Failures**: what `_is_final` makes of a line, with the codes.
  2. **`Execution`**: what may happen from the first write to the end of `execute`.
  3. **`Honest`**: the failure that came before the prompt is what is raised.
  4. **`honest_iff`**: it is, exactly where none came, and no other final result either before a
     prompt that never came.
-/
import Mathlib.Data.List.DropRight
import Air780eHub.At.Demux
import Air780eHub.Schedule.Numbers

namespace Air780eHub.At

/-! ## Failures -/

/-- What a command raises. -/
inductive Failure
  /-- `CmeError` with its code. -/
  | cme (code : Nat)
  /-- `CmsError` with its code. -/
  | cms (code : Nat)
  /-- `ATCommandError` with the line. -/
  | command (final : Line)
  /-- The port is lost or closed, for this reason. -/
  | port (reason : String)
  /-- `ATTimeout`: modem never sent the '>' prompt. -/
  | noPrompt
  /-- `ATTimeout`: no final result code within the time. -/
  | noResult
deriving DecidableEq

/-- How the future of a command is completed. -/
inductive Ending
  | response (lines : List Line) (final : Line)
  | failed (e : Failure)
deriving DecidableEq

/-- `CME_ERRORS`, by name. -/
def CME_CODES : List (String × Nat) :=
  [("operation not allowed", 3), ("operation not supported", 4), ("sim not inserted", 10),
   ("sim pin required", 11), ("sim puk required", 12), ("sim failure", 13), ("sim busy", 14),
   ("sim wrong", 15), ("incorrect password", 16), ("memory full", 20), ("invalid index", 21),
   ("not found", 22), ("memory failure", 23), ("no network service", 30), ("network timeout", 31),
   ("incorrect parameters", 50), ("unknown", 100)]

/-- `CMS_ERRORS`, by name. -/
def CMS_CODES : List (String × Nat) :=
  [("unidentified subscriber", 28), ("unknown subscriber", 30), ("network out of order", 38),
   ("temporary failure", 41), ("congestion", 42), ("resources unavailable", 47),
   ("requested facility not subscribed", 50), ("requested facility not implemented", 69),
   ("invalid short message transfer reference value", 81), ("invalid message, unspecified", 95),
   ("invalid mandatory information", 96), ("telephony interworking not supported", 128),
   ("short message type 0 not supported", 129), ("unspecified tp-pid error", 159),
   ("sim sms storage full", 172), ("memory capacity exceeded", 177), ("unspecified error", 255),
   ("me failure", 300), ("operation not allowed", 302), ("invalid pdu mode parameter", 304),
   ("invalid text mode parameter", 305), ("sim not inserted", 310), ("sim pin required", 311),
   ("sim failure", 313), ("invalid memory index", 321), ("sim memory full", 322),
   ("smsc address unknown", 330), ("no network service", 331), ("network timeout", 332),
   ("unknown error", 500)]

section

variable (up fold : Char → Line)

/-- `_normalize`; `fold` is `str.casefold` of one character. -/
def normalize (text : Line) : Line :=
  let words := (text.splitOnP pyIsSpace).filter fun word => !word.isEmpty
  (([' '].intercalate words).rdropWhile (· = '.')).flatMap fold

/-- `code_for_error_text`. -/
def codeForErrorText (cms : Bool) (text : Line) : Option Nat :=
  (if cms then CMS_CODES else CME_CODES).lookup (String.ofList (normalize fold text))

/-- The error of a line `_CME_RE`, `_CMS_RE` or `_CME_TEXT_RE` matches. -/
def errorReport (line : Line) : Failure :=
  let cms := upper up (line.take 4) = "+CMS".toList
  let text := (line.drop 11).dropWhile pyIsSpace
  let code := match (Schedule.takeDigits text).1 with
    | []      => codeForErrorText fold cms text
    | d :: ds => some (Schedule.ofDigits (d :: ds))
  match code with
  | some n => if cms then .cms n else .cme n
  | none   => .command line

/-- `_is_final`: how a line ends a command that has collected `lines`. -/
def ending (lines : List Line) (line : Line) : Option Ending :=
  if upper up line = "OK".toList then some (.response lines line)
  else if isErrorReport up line then some (.failed (errorReport up fold line))
  else if upper up line ∈ FINAL_PLAIN_ERRORS then some (.failed (.command line))
  else none

/-- An ending without what it says. -/
def Ending.result : Ending → Result
  | .response lines final => .response lines final
  | .failed _             => .error

theorem ending_result (lines : List Line) (line : Line) :
    (ending up fold lines line).map Ending.result = finalResult up lines line := by
  unfold ending finalResult
  split
  · rfl
  · split
    · rfl
    · split <;> rfl

/-- The command a line comes to: it is no payload line, no answer, no URC and no echo. -/
def Client.judges (c : Client) (line : Line) : Option Pending :=
  if c.urcCapture.isSome || (c.pending.any fun p => owns up p.expectedPrefix line) ||
      (matchUrc up c.registrations line).isSome then none
  else c.pending.filter fun p => line ≠ p.command

/-! ## Executions -/

/-- What `execute` waits for. -/
inductive Wait
  | prompt
  | result
deriving DecidableEq

/-- How `execute` is over. -/
inductive Outcome
  | raised (e : Failure)
  | returned (lines : List Line) (final : Line)
deriving DecidableEq

/-- An `execute` from its first write on.  `early` is ghost: the endings that came before the
    prompt, the first one in the future. -/
structure Execution where
  client  : Client
  prompt  : Bool
  future  : Option Ending
  wrote   : Bool
  wait    : Wait
  outcome : Option Outcome
  early   : List Ending

/-- What happens next. -/
inductive Happening
  | line (line : Line)
  /-- The rest of the buffer is the prompt. -/
  | prompt
  /-- `_on_transport_closed` or `close`. -/
  | lost (reason : String)
  /-- The time for the prompt is over. -/
  | promptExpired
  /-- The coroutine goes on after the prompt and writes the payload. -/
  | resumed
  /-- The time for the result is over. -/
  | resultExpired
  /-- The coroutine goes on after the future is done. -/
  | concluded
deriving DecidableEq

/-- `future.set_result` or `future.set_exception`, unless it is done. -/
def Execution.complete (x : Execution) (e : Option Ending) : Execution :=
  { x with
    future := x.future.or e
    early  := if x.prompt then x.early else x.early ++ e.toList }

/-- The outcome of a future that is done. -/
def Ending.outcome : Ending → Outcome
  | .response lines final => .returned lines final
  | .failed e             => .raised e

/-- One step of `execute`. -/
def Execution.step (x : Execution) (a : Happening) : Option Execution :=
  if x.outcome.isSome then none
  else match a with
    | .line line => some
        { x.complete ((x.client.judges up line).bind fun p => ending up fold p.lines line) with
          client := x.client.handleLine up line }
    | .prompt => some { x with prompt := true }
    | .lost reason => some (x.complete (some (.failed (.port reason))))
    | .promptExpired =>
      if x.wait = .prompt ∧ x.prompt = false then some { x with outcome := some (.raised .noPrompt) }
      else none
    | .resumed =>
      if x.wait = .prompt ∧ x.prompt = true then some { x with wrote := true, wait := .result }
      else none
    | .resultExpired =>
      if x.wait = .result ∧ x.future = none then some { x with outcome := some (.raised .noResult) }
      else none
    | .concluded =>
      if x.wait = .result then x.future.map fun e => { x with outcome := some e.outcome } else none

/-- `execute` has the lock and has written its command. -/
def Execution.begun (c : Client) (command : Line) : Execution where
  client  := { c with pending := some ⟨command, expectedResponsePrefix up command, [], none⟩ }
  prompt  := false
  future  := none
  wrote   := false
  wait    := .prompt
  outcome := none
  early   := []

/-- Commands that expect a prompt. -/
def prompted : Machine Execution Happening where
  Start := fun x => ∃ c command, c.pending = none ∧ x = .begun up c command
  step  := Execution.step up fold

end

/-! ## What is raised -/

/-- The first failure among endings. -/
def firstFailure (endings : List Ending) : Option Failure :=
  endings.findSome? fun
    | .response _ _ => none
    | .failed e     => some e

/-- **The real failure is raised**: the first that came before the prompt, without a payload written,
    and the prompt is missed only where nothing came. -/
structure Honest (x : Execution) : Prop where
  failure : ∀ e, firstFailure x.early = some e → x.wrote = false ∧ x.outcome = some (.raised e)
  missed  : x.outcome = some (.raised .noPrompt) → x.early = [] ∧ x.prompt = false

/-- **The prompt is not disturbed**: no failure came before it, and another final result only before a
    prompt that came. -/
def Undisturbed (x : Execution) : Prop :=
  firstFailure x.early = none ∧ (x.early = [] ∨ x.prompt = true)

/-- What an execution keeps. -/
structure Execution.Sound (x : Execution) : Prop where
  future  : x.future ≠ some (.failed .noPrompt)
  writing : x.wrote = true ↔ x.wait = .result
  asked   : x.wait = .result → x.prompt = true
  missed  : x.wait = .prompt → ∀ o, x.outcome = some o → o = .raised .noPrompt ∧ x.prompt = false
  ended   : x.wait = .result → x.outcome ≠ some (.raised .noPrompt)

variable {up fold : Char → Line} {x x' : Execution} {a : Happening}

theorem errorReport_ne_noPrompt (line : Line) : errorReport up fold line ≠ .noPrompt := by
  unfold errorReport
  dsimp only
  split
  · split <;> exact nofun
  · exact nofun

/-- No line is a missed prompt. -/
theorem ending_ne_noPrompt (lines : List Line) (line : Line) :
    ending up fold lines line ≠ some (.failed .noPrompt) := by
  unfold ending
  split
  · exact nofun
  · split
    · exact fun h => errorReport_ne_noPrompt line (Ending.failed.inj (Option.some.inj h))
    · split <;> exact nofun

/-- While `execute` waits, the future may be completed. -/
theorem Execution.Sound.complete (h : x.Sound) (ho : x.outcome = none) {e : Option Ending}
    (he : e ≠ some (.failed .noPrompt)) : (x.complete e).Sound := by
  refine ⟨fun hf => ?_, h.writing, h.asked, fun _ o hout => ?_, fun _ hout => ?_⟩
  · have hor : x.future.or e = some (.failed .noPrompt) := hf
    cases hx : x.future with
    | none => rw [hx] at hor; exact he hor
    | some e₀ => rw [hx] at hor; exact h.future (hx.trans hor)
  · cases ho.symm.trans hout
  · cases ho.symm.trans hout

theorem Execution.Sound.step (h : x.Sound) (hs : x.step up fold a = some x') : x'.Sound := by
  unfold Execution.step at hs
  split at hs
  · cases hs
  · rename_i hopen
    have ho : x.outcome = none := by simpa using hopen
    split at hs
    · rename_i line
      cases hs
      have hjudged : ((x.client.judges up line).bind fun p => ending up fold p.lines line) ≠
          some (.failed .noPrompt) := by
        cases x.client.judges up line with
        | none => exact nofun
        | some p => exact ending_ne_noPrompt p.lines line
      obtain ⟨h1, h2, h3, h4, h5⟩ := h.complete ho hjudged
      exact ⟨h1, h2, h3, h4, h5⟩
    · cases hs
      refine ⟨h.future, h.writing, fun _ => rfl, fun _ o hout => ?_, h.ended⟩
      cases ho.symm.trans hout
    · cases hs
      exact h.complete ho fun hno => by cases hno
    · split at hs
      · rename_i hwait
        cases hs
        refine ⟨h.future, h.writing, h.asked, fun _ o hout => ?_, fun hw => ?_⟩
        · obtain rfl := Option.some.inj hout
          exact ⟨rfl, hwait.2⟩
        · cases hwait.1.symm.trans hw
      · cases hs
    · split at hs
      · rename_i hwait
        cases hs
        refine ⟨h.future, iff_of_true rfl rfl, fun _ => hwait.2, nofun, fun _ hout => ?_⟩
        cases ho.symm.trans hout
      · cases hs
    · split at hs
      · rename_i hwait
        cases hs
        refine ⟨h.future, h.writing, h.asked, fun hw => ?_, fun _ hout => ?_⟩
        · cases hwait.1.symm.trans hw
        · cases hout
      · cases hs
    · split at hs
      · rename_i hwait
        obtain ⟨e, he, rfl⟩ := Option.map_eq_some_iff.mp hs
        refine ⟨h.future, h.writing, h.asked, fun hw => ?_, fun _ hout => ?_⟩
        · cases hwait.symm.trans hw
        · cases e with
          | response lines final => cases hout
          | failed e =>
            have hno : e = .noPrompt := Outcome.raised.inj (Option.some.inj hout)
            rw [hno] at he
            exact h.future he
      · cases hs

theorem Execution.sound_begun (c : Client) (command : Line) : (Execution.begun up c command).Sound :=
  ⟨nofun, iff_of_false nofun nofun, nofun, nofun, nofun⟩

/-- **The real failure is raised, exactly where the prompt is not disturbed.** -/
theorem honest_iff (h : (prompted up fold).Reachable x) (hover : x.outcome.isSome = true) :
    Honest x ↔ Undisturbed x := by
  have hsound : x.Sound := by
    refine h.invariant ?_ fun x a x' hx _ hs => hx.step hs
    rintro x ⟨c, command, -, rfl⟩
    exact Execution.sound_begun c command
  obtain ⟨o, ho⟩ := Option.isSome_iff_exists.mp hover
  cases hw : x.wait with
  | prompt =>
    -- the prompt was missed
    obtain ⟨rfl, hp⟩ := hsound.missed hw o ho
    constructor
    · intro hh
      have hnone := (hh.missed ho).1
      exact ⟨by rw [hnone]; rfl, .inl hnone⟩
    · rintro ⟨hfirst, he⟩
      have hnone : x.early = [] := he.resolve_right (by rw [hp]; nofun)
      refine ⟨fun e hearly => ?_, fun _ => ⟨hnone, hp⟩⟩
      cases hfirst.symm.trans hearly
  | result =>
    -- the payload was written
    have hwrote : x.wrote = true := hsound.writing.mpr hw
    constructor
    · intro hh
      refine ⟨?_, .inr (hsound.asked hw)⟩
      cases he : firstFailure x.early with
      | none => rfl
      | some e => cases hwrote.symm.trans (hh.failure e he).1
    · rintro ⟨hfirst, -⟩
      refine ⟨fun e he => ?_, fun hmissed => absurd hmissed (hsound.ended hw)⟩
      cases hfirst.symm.trans he

/-! ### An error instead of the prompt -/

/-- `str.casefold` of an ASCII character. -/
def asciiLower (c : Char) : Line := [c.toLower]

/-- A client without handlers. -/
def idleClient : Client := ⟨[], none, none, []⟩

/-- The modem refuses the command, and the time for the prompt goes by. -/
def refused : List Happening := [.line "+CMS ERROR: 330".toList, .promptExpired]

/-- **The code of the error is lost**: `+CMS ERROR: 330` comes at once, and the prompt is reported
    missing. -/
theorem honest_refused : ∃ x, (prompted asciiUpper asciiLower).Reachable x ∧
    firstFailure x.early = some (.cms 330) ∧ x.outcome = some (.raised .noPrompt) := by
  have hrun : ((prompted asciiUpper asciiLower).run
      (.begun asciiUpper idleClient "AT+CMGS=23".toList) refused).map (fun x =>
      (firstFailure x.early, x.outcome)) = some (some (.cms 330), some (.raised .noPrompt)) := by
    decide
  obtain ⟨x, hx, hview⟩ := Option.map_eq_some_iff.mp hrun
  obtain ⟨hearly, hout⟩ := Prod.mk.inj hview
  exact ⟨x, Machine.run_reachable ⟨idleClient, _, rfl, rfl⟩ hx, hearly, hout⟩

/-- The modem takes the command. -/
def accepted : List Happening :=
  [.prompt, .resumed, .line "+CMS ERROR: 330".toList, .concluded]

/-- After the prompt the code is raised. -/
theorem honest_accepted : ∃ x, (prompted asciiUpper asciiLower).Reachable x ∧ Honest x ∧
    x.outcome = some (.raised (.cms 330)) := by
  have hrun : ((prompted asciiUpper asciiLower).run
      (.begun asciiUpper idleClient "AT+CMGS=23".toList) accepted).map (fun x =>
      (x.early, x.outcome)) = some ([], some (.raised (.cms 330))) := by
    decide
  obtain ⟨x, hx, hview⟩ := Option.map_eq_some_iff.mp hrun
  obtain ⟨hearly, hout⟩ := Prod.mk.inj hview
  have hreach : (prompted asciiUpper asciiLower).Reachable x :=
    Machine.run_reachable ⟨idleClient, _, rfl, rfl⟩ hx
  exact ⟨x, hreach, (honest_iff hreach (by rw [hout]; rfl)).mpr ⟨by rw [hearly]; rfl, .inl hearly⟩, hout⟩

end Air780eHub.At
