/-
  Packet data on and off (`modem.py`).

  `set_data_enabled(False)` reads which PDP contexts are active, deactivates those that carry user
  data, attaches the module again if it was detached, and reads once more.  The bearer of IMS is left
  alone; what is not known to be another context is not touched.

  1. **Rows**: a CSV value, and the contexts of a `+CGDCONT` and a `+CGACT` reading.
  2. **The talk with the modem**: every command of a call with its reply.  What the modem replies is any
     function of the talk so far.
  3. **`Cautious`**: a context is only deactivated when the reading before says that it is active and
     has an APN that is not that of IMS.
  4. **`set_data_disabled`**: the talk is cautious, and the call returns exactly when its last reading
     shows no user data.
-/
import Air780eHub.At.Prompt
import Air780eHub.Lib.Dict

namespace Air780eHub.Modem

open At (Line Failure strip upper)

/-! ## Rows -/

/-- Where the reader of `csv` is. -/
inductive CsvState
  | startRecord | startField | inField | inQuoted | quoteInQuoted | eatNewline
deriving DecidableEq

/-- `csv.reader` with `skipinitialspace`: the fields so far, and the one that is read.  None where it
    raises. -/
def csvFrom (state : CsvState) (fields : List Line) (field : Line) : Line → Option (List Line)
  | [] => match state with
    | .startRecord | .eatNewline => some fields
    | _                          => some (fields ++ [field])
  | c :: text => match state with
    | .startRecord | .startField =>
      if c = '\n' ∨ c = '\r' then
        csvFrom .eatNewline (if state = .startRecord then fields else fields ++ [field]) [] text
      else if c = '"' then csvFrom .inQuoted fields field text
      else if c = ' ' then csvFrom .startField fields field text
      else if c = ',' then csvFrom .startField (fields ++ [field]) [] text
      else csvFrom .inField fields (field ++ [c]) text
    | .inField =>
      if c = '\n' ∨ c = '\r' then csvFrom .eatNewline (fields ++ [field]) [] text
      else if c = ',' then csvFrom .startField (fields ++ [field]) [] text
      else csvFrom .inField fields (field ++ [c]) text
    | .inQuoted =>
      if c = '"' then csvFrom .quoteInQuoted fields field text
      else csvFrom .inQuoted fields (field ++ [c]) text
    | .quoteInQuoted =>
      if c = '"' then csvFrom .inQuoted fields (field ++ [c]) text
      else if c = ',' then csvFrom .startField (fields ++ [field]) [] text
      else if c = '\n' ∨ c = '\r' then csvFrom .eatNewline (fields ++ [field]) [] text
      else csvFrom .inField fields (field ++ [c]) text
    | .eatNewline => if c = '\n' ∨ c = '\r' then csvFrom .eatNewline fields field text else none

/-- `_csv_fields`. -/
def csvFields (value : Line) : List Line :=
  ((csvFrom .startRecord [] [] value).getD []).map strip

example : csvFields "1, \"IPV4V6\",\"a,b\"".toList =
    ["1".toList, "IPV4V6".toList, "a,b".toList] := by decide

/-- `PdpContextState`. -/
structure PdpContextState where
  cid    : Int
  active : Bool
  apn    : Option Line
deriving DecidableEq

/-- `is_ims`. -/
def PdpContextState.isIms (context : PdpContextState) : Bool :=
  (strip (context.apn.getD [])).map Schedule.lower = "ims".toList

/-- What a command came to: its information lines, or an error. -/
inductive Reply
  | ok (lines : List Line)
  | failed (e : Failure)
deriving DecidableEq

section

variable (up : Char → Line)

/-- The line begins with the prefix. -/
def hasPrefix (pre line : Line) : Bool := (upper up pre).isPrefixOf (upper up line)

/-- `response.all`. -/
def allOf (lines : List Line) (pre : Line) : List Line :=
  (lines.filter (hasPrefix up pre)).map fun line => strip (line.drop pre.length)

/-- `response.first`. -/
def firstOf (lines : List Line) (pre : Line) : Option Line :=
  (lines.find? (hasPrefix up pre)).map fun line => strip (line.drop pre.length)

/-- `text.strip('"')`. -/
def stripQuotes (text : Line) : Line :=
  ((text.dropWhile (· = '"')).reverse.dropWhile (· = '"')).reverse

/-- The rows of `AT+CGDCONT?`; a later row of a CID counts. -/
def definitionsOf (lines : List Line) : Dict Int Line :=
  (allOf up lines "+CGDCONT:".toList).foldl (fun definitions value =>
    match csvFields value with
    | cid :: _ :: apn :: _ => match Schedule.pyInt cid with
      | some cid => definitions.set cid (stripQuotes (strip apn))
      | none     => definitions
    | _ => definitions) ∅

/-- The rows of `AT+CGACT?`, with what is known of the contexts. -/
def statesOf (definitions : Option (Dict Int Line)) (lines : List Line) : List PdpContextState :=
  (allOf up lines "+CGACT:".toList).filterMap fun value =>
    match csvFields value with
    | cid :: state :: _ => match Schedule.pyInt cid, Schedule.pyInt state with
      | some cid, some state => some ⟨cid, state = 1, definitions.bind fun d => d.get? cid⟩
      | _, _                 => none
    | _ => none

/-- The contexts of the two readings. -/
def contextsOf (definitions states : Reply) : Option (List PdpContextState) :=
  match states with
  | .failed _ => none
  | .ok lines => some (statesOf up
      (match definitions with
        | .ok lines => some (definitionsOf up lines)
        | .failed _ => none) lines)

/-- The number of a `+CGATT` reading. -/
def attachedOf : Reply → Option Bool
  | .failed _ => none
  | .ok lines =>
    let value := ((firstOf up lines "+CGATT:".toList).getD []).dropWhile pyIsSpace
    let digits := value.takeWhile fun c => (Schedule.digit c).isSome
    if digits.isEmpty then none else some (digits = ['1'])

end

/-- `_user_data_contexts`. -/
def userDataContexts (contexts : Option (List PdpContextState)) : Option (List PdpContextState) :=
  contexts.bind fun contexts =>
    if contexts.any fun context => context.active && context.apn.isNone then none
    else some (contexts.filter fun context => context.active && !context.isIms)

/-! ## The talk with the modem -/

/-- The commands. -/
def QUERY_DEFINITIONS : Line := "AT+CGDCONT?".toList

def QUERY_STATES : Line := "AT+CGACT?".toList

def QUERY_ATTACHED : Line := "AT+CGATT?".toList

def ATTACH : Line := "AT+CGATT=1".toList

def DETACH : Line := "AT+CGATT=0".toList

/-- `f"AT+CGACT=0,{cid}"`. -/
def deactivation (cid : Int) : Line := "AT+CGACT=0,".toList ++ (toString cid).toList

/-- A command with its reply. -/
abbrev Exchange := Line × Reply

/-- The exchanges of a call, and what it has written to `info`. -/
structure Talk where
  exchanges    : List Exchange := []
  dataAttached : Option Bool := none
  pdpActive    : Option Bool := none

/-- `ATError`, as `set_data_enabled` raises it. -/
inductive DataError
  | command (e : Failure)
  /-- PDP deactivation was not confirmed. -/
  | unconfirmed (attached active : Option Bool)
deriving DecidableEq

section

variable (up : Char → Line) (modem : List Exchange → Line → Reply)

/-- `client.execute`. -/
def Talk.execute (t : Talk) (command : Line) : Reply × Talk :=
  (modem t.exchanges command,
    { t with exchanges := t.exchanges ++ [(command, modem t.exchanges command)] })

/-- `_read_pdp_context_states`. -/
def Talk.readPdpContextStates (t : Talk) : Option (List PdpContextState) × Talk :=
  let (definitions, t) := t.execute modem QUERY_DEFINITIONS
  let (states, t) := t.execute modem QUERY_STATES
  (contextsOf up definitions states, t)

/-- `_read_data_snapshot`. -/
def Talk.readDataSnapshot (t : Talk) :
    (Option Bool × Option (List PdpContextState)) × Talk :=
  let (attached, t) := t.execute modem QUERY_ATTACHED
  let (contexts, t) := t.readPdpContextStates up modem
  ((attachedOf up attached, contexts), t)

/-- `read_data_status`. -/
def Talk.readDataStatus (t : Talk) : (Option Bool × Option Bool) × Talk :=
  let ((attached, contexts), t) := t.readDataSnapshot up modem
  let active := (userDataContexts contexts).map fun contexts => !contexts.isEmpty
  ((attached, active), { t with dataAttached := attached, pdpActive := active })

/-- `_deactivate_user_data_contexts`. -/
def Talk.deactivate (t : Talk) (contexts : List PdpContextState) : Talk :=
  contexts.foldl (fun t context => (t.execute modem (deactivation context.cid)).2) t

/-- The part of `set_data_enabled(False)` before the last reading. -/
def Talk.stopUserData (t : Talk) : Talk :=
  let ((attached, contexts), t) := t.readDataSnapshot up modem
  let t := t.deactivate modem ((userDataContexts contexts).getD [])
  if attached = some true then t
  else match t.execute modem ATTACH with
    | (.failed _, t) => t
    | (.ok _, t)     =>
      let ((_, contexts), t) := t.readDataSnapshot up modem
      t.deactivate modem ((userDataContexts contexts).getD [])

/-- `set_data_enabled`, of a call that begins. -/
def setDataEnabled (enabled : Bool) : Except DataError (Option Bool × Option Bool) × Talk :=
  if enabled then
    match Talk.execute modem {} ATTACH with
    | (.failed e, t) => (.error (.command e), t)
    | (.ok _, t)     =>
      let (state, t) := t.readDataStatus up modem
      (.ok state, t)
  else
    let (state, t) := (Talk.stopUserData up modem {}).readDataStatus up modem
    if state.2 = some false then (.ok state, t)
    else (.error (.unconfirmed state.1 state.2), t)

end

/-! ## The condition on every command -/

/-- The last reply to a command. -/
def lastReply (command : Line) (exchanges : List Exchange) : Option Reply :=
  (exchanges.reverse.find? fun x => x.1 = command).map Prod.snd

/-- What the last reading of the contexts says. -/
def lastContexts (up : Char → Line) (exchanges : List Exchange) : Option (List PdpContextState) :=
  match lastReply QUERY_DEFINITIONS exchanges, lastReply QUERY_STATES exchanges with
  | some definitions, some states => contextsOf up definitions states
  | _, _                          => none

/-- A command that may be sent after these exchanges: no detach, and a deactivation only of a context
    that the last reading shows active with a known APN that is not the one of IMS. -/
def Allowed (up : Char → Line) (exchanges : List Exchange) (command : Line) : Prop :=
  command ≠ DETACH ∧ ("AT+CGACT=0".toList <+: command →
    ∃ contexts, lastContexts up exchanges = some contexts ∧ ∃ context ∈ contexts,
      command = deactivation context.cid ∧ context.active = true ∧ context.apn.isSome = true ∧
      context.isIms = false)

/-- **Every command of a talk was allowed when it was sent.** -/
def Cautious (up : Char → Line) (exchanges : List Exchange) : Prop :=
  ∀ before x rest, exchanges = before ++ x :: rest → Allowed up before x.1

theorem lastReply_append_self (exchanges : List Exchange) (command : Line) (reply : Reply) :
    lastReply command (exchanges ++ [(command, reply)]) = some reply := by
  rw [lastReply, List.reverse_append, List.reverse_singleton, List.singleton_append,
    List.find?_cons_of_pos (by simp)]
  rfl

theorem lastReply_append_ne (exchanges : List Exchange) {command : Line} {x : Exchange}
    (hx : x.1 ≠ command) : lastReply command (exchanges ++ [x]) = lastReply command exchanges := by
  rw [lastReply, List.reverse_append, List.reverse_singleton, List.singleton_append,
    List.find?_cons_of_neg (by simp [hx])]
  rfl

variable {up : Char → Line} (modem : List Exchange → Line → Reply) {t : Talk}

theorem cautious_nil : Cautious up [] := by
  intro before x rest h
  cases before <;> cases h

/-- One more allowed command. -/
theorem Cautious.snoc {exchanges : List Exchange} {x : Exchange} (h : Cautious up exchanges)
    (hx : Allowed up exchanges x.1) : Cautious up (exchanges ++ [x]) := by
  intro before y rest he
  rcases List.eq_nil_or_concat rest with rfl | ⟨rest, z, rfl⟩
  · obtain ⟨rfl, hy⟩ := List.append_inj' he rfl
    rw [← List.head_eq_of_cons_eq hy]
    exact hx
  · rw [List.concat_eq_append, ← List.cons_append, ← List.append_assoc] at he
    obtain ⟨rfl, -⟩ := List.append_inj' he rfl
    exact h before y rest rfl

/-- A command that is neither a detach nor a deactivation is always allowed. -/
theorem Cautious.execute {command : Line} (h : Cautious up t.exchanges) (hd : command ≠ DETACH)
    (hc : ¬ "AT+CGACT=0".toList <+: command) :
    Cautious up (t.execute modem command).2.exchanges :=
  h.snoc ⟨hd, fun hp => absurd hp hc⟩

/-! ## Readings -/

/-- What a reading of the contexts returns is what the last replies say. -/
theorem read_contexts (t : Talk) :
    (t.readPdpContextStates up modem).1 =
      lastContexts up (t.readPdpContextStates up modem).2.exchanges := by
  have hne : QUERY_STATES ≠ QUERY_DEFINITIONS := by decide
  show contextsOf up _ _ = lastContexts up ((t.exchanges ++ [(QUERY_DEFINITIONS, _)]) ++ [(QUERY_STATES, _)])
  rw [lastContexts, lastReply_append_self, lastReply_append_ne _ hne, lastReply_append_self]

theorem Cautious.readContexts (h : Cautious up t.exchanges) :
    Cautious up (t.readPdpContextStates up modem).2.exchanges := by
  have hfirst : Cautious up (t.execute modem QUERY_DEFINITIONS).2.exchanges :=
    h.execute modem (by decide) (by decide)
  exact hfirst.execute modem (by decide) (by decide)

theorem Cautious.readSnapshot (h : Cautious up t.exchanges) :
    Cautious up (t.readDataSnapshot up modem).2.exchanges := by
  have hattached : Cautious up (t.execute modem QUERY_ATTACHED).2.exchanges :=
    h.execute modem (by decide) (by decide)
  exact hattached.readContexts modem

theorem read_snapshot (t : Talk) : (t.readDataSnapshot up modem).1.2 =
    lastContexts up (t.readDataSnapshot up modem).2.exchanges :=
  read_contexts modem _

/-! ## Deactivations -/

/-- A context that may be deactivated after these exchanges. -/
def Deactivatable (up : Char → Line) (exchanges : List Exchange) (context : PdpContextState) : Prop :=
  ∃ contexts, lastContexts up exchanges = some contexts ∧ context ∈ contexts ∧
    context.active = true ∧ context.apn.isSome = true ∧ context.isIms = false

/-- **User data**: what is taken for it is active, known and not the bearer of IMS. -/
theorem userDataContexts_spec {contexts : Option (List PdpContextState)}
    {context : PdpContextState} (h : context ∈ (userDataContexts contexts).getD []) :
    ∃ l, contexts = some l ∧ context ∈ l ∧ context.active = true ∧ context.apn.isSome = true ∧
      context.isIms = false := by
  cases contexts with
  | none => cases h
  | some l =>
    by_cases hunknown : (l.any fun context => context.active && context.apn.isNone) = true
    · have hnone : userDataContexts (some l) = none := if_pos hunknown
      rw [hnone] at h
      cases h
    · have hsome : userDataContexts (some l) =
          some (l.filter fun context => context.active && !context.isIms) := if_neg hunknown
      rw [hsome] at h
      obtain ⟨hmem, hkept⟩ := List.mem_filter.mp h
      rw [Bool.and_eq_true, Bool.not_eq_true'] at hkept
      refine ⟨l, rfl, hmem, hkept.1, ?_, hkept.2⟩
      cases hapn : context.apn with
      | some apn => rfl
      | none =>
        refine absurd (List.any_eq_true.mpr ⟨context, hmem, ?_⟩) hunknown
        rw [hkept.1, hapn]
        rfl

theorem deactivation_ne_query (cid : Int) :
    deactivation cid ≠ QUERY_DEFINITIONS ∧ deactivation cid ≠ QUERY_STATES ∧
      deactivation cid ≠ DETACH := by
  have htake : (deactivation cid).take 9 = "AT+CGACT=".toList := rfl
  refine ⟨fun h => ?_, fun h => ?_, fun h => ?_⟩
  · rw [h] at htake
    exact absurd htake (by decide)
  · rw [h] at htake
    exact absurd htake (by decide)
  · rw [h] at htake
    exact absurd htake (by decide)

theorem lastContexts_deactivation (exchanges : List Exchange) (cid : Int) (reply : Reply) :
    lastContexts up (exchanges ++ [(deactivation cid, reply)]) = lastContexts up exchanges := by
  obtain ⟨hdefinitions, hstates, -⟩ := deactivation_ne_query cid
  rw [lastContexts, lastReply_append_ne _ hdefinitions, lastReply_append_ne _ hstates]
  rfl

/-- Contexts of the last reading are deactivated one after the other. -/
theorem Cautious.deactivate {contexts : List PdpContextState} (h : Cautious up t.exchanges)
    (hc : ∀ context ∈ contexts, Deactivatable up t.exchanges context) :
    Cautious up (t.deactivate modem contexts).exchanges := by
  induction contexts generalizing t with
  | nil => exact h
  | cons context contexts ih =>
    obtain ⟨l, hl, hmem, hactive, hknown, hims⟩ := hc context List.mem_cons_self
    have hallowed : Allowed up t.exchanges (deactivation context.cid) :=
      ⟨(deactivation_ne_query _).2.2, fun _ => ⟨l, hl, context, hmem, rfl, hactive, hknown, hims⟩⟩
    refine ih (t := (t.execute modem (deactivation context.cid)).2) (h.snoc hallowed) ?_
    intro other hother
    obtain ⟨l', hl', hrest⟩ := hc other (List.mem_cons_of_mem _ hother)
    exact ⟨l', (lastContexts_deactivation _ _ _).trans hl', hrest⟩

/-- What a reading takes for user data may be deactivated. -/
theorem Cautious.readAndStop (h : Cautious up t.exchanges) :
    Cautious up ((t.readDataSnapshot up modem).2.deactivate modem
      ((userDataContexts (t.readDataSnapshot up modem).1.2).getD [])).exchanges := by
  refine (h.readSnapshot modem).deactivate modem fun context hcontext => ?_
  obtain ⟨l, hl, hspec⟩ := userDataContexts_spec hcontext
  exact ⟨l, (read_snapshot modem t).symm.trans hl, hspec⟩

theorem Cautious.stopUserData (h : Cautious up t.exchanges) :
    Cautious up (t.stopUserData up modem).exchanges := by
  have hfirst := h.readAndStop modem
  have hattached := hfirst.execute modem (show ATTACH ≠ DETACH by decide) (by decide)
  unfold Talk.stopUserData
  dsimp only
  split
  · exact hfirst
  · split
    · rename_i he
      rw [he] at hattached
      exact hattached
    · rename_i he
      rw [he] at hattached
      exact hattached.readAndStop modem

/-! ## Turning data off -/

/-- No user data is active: every context that is shown active is known, and the bearer of IMS. -/
def NoUserData (contexts : List PdpContextState) : Prop :=
  ∀ context ∈ contexts, context.active = true → context.apn.isSome = true ∧ context.isIms = true

/-- A reading that is taken for the absence of user data shows none. -/
theorem no_user_data_iff (contexts : Option (List PdpContextState)) :
    (userDataContexts contexts).map (fun contexts => !contexts.isEmpty) = some false ↔
      ∃ l, contexts = some l ∧ NoUserData l := by
  cases contexts with
  | none => exact iff_of_false nofun fun ⟨l, hl, _⟩ => by cases hl
  | some l =>
    by_cases hunknown : (l.any fun context => context.active && context.apn.isNone) = true
    · have hnone : userDataContexts (some l) = none := if_pos hunknown
      rw [hnone]
      refine iff_of_false nofun ?_
      rintro ⟨l', hl', hno⟩
      obtain rfl := Option.some.inj hl'
      obtain ⟨context, hmem, hbad⟩ := List.any_eq_true.mp hunknown
      rw [Bool.and_eq_true] at hbad
      have hknown := (hno context hmem hbad.1).1
      rw [Option.isNone_iff_eq_none.mp hbad.2] at hknown
      cases hknown
    · have hsome : userDataContexts (some l) =
          some (l.filter fun context => context.active && !context.isIms) := if_neg hunknown
      have hknown : ∀ context ∈ l, context.active = true → context.apn.isSome = true := by
        intro context hmem hactive
        by_contra hapn
        refine hunknown (List.any_eq_true.mpr ⟨context, hmem, ?_⟩)
        rw [hactive, Bool.true_and, ← Option.not_isSome]
        simpa using hapn
      rw [hsome]
      show some (!(l.filter _).isEmpty) = some false ↔ _
      rw [Option.some.injEq, Bool.not_eq_false', List.isEmpty_iff, List.filter_eq_nil_iff]
      constructor
      · intro hnone
        refine ⟨l, rfl, fun context hmem hactive => ⟨hknown context hmem hactive, ?_⟩⟩
        have hno := hnone context hmem
        simpa [hactive] using hno
      · rintro ⟨l', hl', hno⟩ context hmem
        obtain rfl := Option.some.inj hl'
        intro hkept
        rw [Bool.and_eq_true, Bool.not_eq_true'] at hkept
        rw [(hno context hmem hkept.1).2] at hkept
        cases hkept.2

/-- **Turning data off is cautious and confirmed.**  Whatever the modem replies, every command is
    allowed when it is sent, and the call returns exactly when its last reading of the activation
    states succeeded and shows no user data; it raises otherwise. -/
theorem set_data_disabled (up : Char → Line) (modem : List Exchange → Line → Reply) :
    Cautious up (setDataEnabled up modem false).2.exchanges ∧
      ((∃ state, (setDataEnabled up modem false).1 = .ok state) ↔
        ∃ contexts, lastContexts up (setDataEnabled up modem false).2.exchanges = some contexts ∧
          NoUserData contexts) := by
  have hstop : Cautious up (Talk.stopUserData up modem {}).exchanges := cautious_nil.stopUserData modem
  generalize ht : Talk.stopUserData up modem {} = t at hstop
  have hread := hstop.readSnapshot modem
  have hlast : (t.readDataSnapshot up modem).1.2 = lastContexts up _ := read_snapshot modem t
  have hsplit : setDataEnabled up modem false =
      if ((t.readDataStatus up modem).1).2 = some false then
        (.ok (t.readDataStatus up modem).1, (t.readDataStatus up modem).2)
      else (.error (.unconfirmed (t.readDataStatus up modem).1.1 (t.readDataStatus up modem).1.2),
        (t.readDataStatus up modem).2) := by
    rw [← ht]
    rfl
  have hexchanges : (setDataEnabled up modem false).2.exchanges =
      (t.readDataSnapshot up modem).2.exchanges := by
    rw [hsplit]
    split <;> rfl
  rw [hexchanges]
  refine ⟨hread, ?_⟩
  rw [← hlast, ← no_user_data_iff, hsplit]
  show _ ↔ ((t.readDataStatus up modem).1).2 = some false
  split
  · rename_i h
    exact iff_of_true ⟨_, rfl⟩ h
  · rename_i h
    exact iff_of_false nofun h

/-- A modem that does not know its contexts, attached and without an active one. -/
def blankModem (_ : List Exchange) (command : Line) : Reply :=
  if command = QUERY_ATTACHED then .ok ["+CGATT: 1".toList]
  else if command = QUERY_DEFINITIONS then .failed (.command "ERROR".toList)
  else .ok []

/-- **The definitions need not be read** when nothing is active: `AT+CGDCONT?` fails in the last
    reading, and the call returns. -/
theorem set_data_disabled_unread :
    (setDataEnabled At.asciiUpper blankModem false).1 = .ok (some true, some false) ∧
      lastReply QUERY_DEFINITIONS (setDataEnabled At.asciiUpper blankModem false).2.exchanges =
        some (.failed (.command "ERROR".toList)) := by
  decide

end Air780eHub.Modem
