/-
  Whom a notification goes to, and what it says (`notify.py`).

  1. **Texts**: `salvaged`, `notificationBody` and `render`.
  2. **Rules**: `ruleMatches` for one rule, `matchRules` for the choice of at most one rule for
     each channel, the highest priority first.
  3. **Audiences**: `audience` reads the row an intent is about and says who gets it; the text of
     a receipt or a call is fixed there.
  4. **Payloads**: a message is rendered when it is sent, from the row, the rule and the channel.

  `matchRules_spec` says what the loop over the rules chooses: for each channel the first of its
  enabled rules that match.
-/
import Mathlib.Data.List.Sort
import Air780eHub.Server.Apply

namespace Air780eHub.Notify

open Relational Server

/-- The parts of the standard library the notifier uses. -/
structure Library where
  /-- `str.lower`. -/
  lower : String → String
  /-- `re.search(pattern, text) is not None`; none where the pattern is no regular expression. -/
  search : String → String → Option Bool
  /-- `json.loads`. -/
  loads : String → Option Value
  /-- The instant `datetime.fromisoformat` reads, in seconds. -/
  fromisoformat : String → Option Int
  /-- `utcnow()` at an instant. -/
  isoformat : Int → String
  /-- A timestamp in the operator's time zone; a text that is none stays as it is. -/
  localTime : String → String
  /-- The characters `\w` matches. -/
  isWord : Char → Bool
  /-- `str()` of a list or a dictionary. -/
  repr : Value → String
  /-- SQLite's text of a number with a fraction. -/
  realText : Schedule.PyFloat → String

variable (L : Library)

/-! ## Columns and frames -/

/-- What a TEXT column holds; a number was converted when it was stored. -/
def columnText : Option Cell → String
  | none              => ""
  | some (.text s)    => s
  | some (.integer n) => toString n
  | some (.real x)    => L.realText x

/-- The truth value of a column. -/
def columnTruthy : Option Cell → Bool
  | none              => false
  | some (.text s)    => s != ""
  | some (.integer n) => n != 0
  | some (.real x)    => x != .finite 0

/-- `row.get(column) or frame.get(key)`. -/
def orFrame (cell : Option Cell) (v : Value) : Value :=
  if columnText L cell = "" then v else .str (columnText L cell)

/-- `_loads`. -/
def loadsFrame (cell : Option Cell) : Frame :=
  match L.loads (columnText L cell) with
  | some (.obj frame) => frame
  | _                 => []

/-- `value or ""` where only a string will do. -/
def asText (v : Value) : Except Failure String :=
  if v.truthy then
    match v with
    | .str s => .ok s
    | _      => .error .typeError
  else .ok ""

/-! ## Texts -/

/-- `_salvaged`: what to push for a damaged message, none if it is not damaged. -/
def salvaged (message : HubRow) (frame : Frame) : Except Failure (Option String) :=
  if columnTruthy (message.cells .truncated) || (frame.get "truncated").truthy then do
    let body ← asText (orFrame L (message.cells .recoveredBody) (frame.get "recovered_text"))
    let code ← asText (orFrame L (message.cells .recoveredCode) (frame.get "code"))
    let body := pyStrip body
    let code := pyStrip code
    .ok (some ("\n".intercalate (["⚠️ 短信在模组内损坏，以下是可读部分（不是全文）"] ++
      (if code = "" then [] else ["可能的验证码：" ++ code]) ++
      (if body = "" then [] else [body]) ++
      (if body = "" ∧ code = "" then ["正文未能恢复，请到管理界面查看原始 PDU。"] else []))))
  else .ok none

/-- `notification_body`. -/
def notificationBody (message : HubRow) (frame : Frame) : Except Failure String := do
  match ← salvaged L message frame with
  | some notice => .ok notice
  | none        => asText (orFrame L (message.cells .body) (frame.get "body"))

/-- `_suppressed`: a data SMS that nobody wrote. -/
def suppressed (message : HubRow) (frame : Frame) : Except Failure Bool := do
  match ← salvaged L message frame with
  | some _ => .ok false
  | none   => .ok (columnTruthy (message.cells .isBinary) || (frame.get "binary").truthy)

/-- The text `render` writes for the placeholders of a template; unknown ones stay. -/
def substitute (context : List (String × String)) : List Char → List Char
  | []        => []
  | c :: rest =>
    let name := rest.takeWhile L.isWord
    let after := rest.dropWhile L.isWord
    if c = '\x7b' ∧ name ≠ [] ∧ after.head? = some '\x7d' then
      ((context.lookup (String.ofList name)).map String.toList).getD
        (c :: name ++ ['\x7d']) ++ substitute context after.tail
    else c :: substitute context rest
termination_by template => template.length
decreasing_by
  · have := (List.dropWhile_sublist L.isWord (l := rest)).length_le
    simp only [List.length_tail, List.length_cons]
    omega
  · simp

/-- `DEFAULT_TEMPLATE`. -/
def DEFAULT_TEMPLATE : String := "【\x7bcard\x7d】\x7bsender\x7d\n\x7bmessage\x7d"

/-- `DEFAULT_TITLE`. -/
def DEFAULT_TITLE : String := "\x7bcard\x7d · \x7bsender\x7d"

/-- `render`. -/
def render (template : String) (context : List (String × String)) : String :=
  String.ofList
    (substitute L context (if template = "" then DEFAULT_TEMPLATE else template).toList)

/-! ## Rules -/

/-- A row of `channels`; the settings are the decoded JSON object. -/
structure Channel where
  id      : Nat
  enabled : Bool
  config  : Frame
deriving DecidableEq

/-- `rules.match`. -/
inductive MatchMode
  | all | keyword | regex
deriving DecidableEq

/-- A row of `rules`. -/
structure Rule where
  id        : Nat
  simId     : Option Nat
  channelId : Nat
  mode      : MatchMode
  pattern   : String
  template  : String
  priority  : Int
  enabled   : Bool
deriving DecidableEq

/-- `rule_matches`. -/
def ruleMatches (rule : Rule) (simId : Option Cell) (body : String) : Bool :=
  if rule.simId.isSome && simCell rule.simId != simId then false
  else match rule.mode with
    | .all     => true
    | .keyword =>
      if rule.pattern = "" then false
      else decide ((L.lower rule.pattern).toList <:+: (L.lower body).toList)
    | .regex   =>
      if rule.pattern = "" then false
      else (L.search rule.pattern body).getD false

/-- `ORDER BY priority DESC, id`. -/
def Rule.before (a b : Rule) : Bool :=
  decide (b.priority < a.priority) || (decide (a.priority = b.priority) && decide (a.id ≤ b.id))

/-- `SELECT * FROM rules WHERE enabled = 1 ORDER BY priority DESC, id`. -/
def orderedRules (rules : List Rule) : List Rule :=
  (rules.filter Rule.enabled).insertionSort fun a b => a.before b = true

/-- `SELECT * FROM channels WHERE enabled = 1`. -/
def enabledChannels (channels : List Channel) : List Channel := channels.filter Channel.enabled

/-- The loop of `match_rules`, from what is chosen so far. -/
def choose (channels : List Channel) (simId : Option Cell) (body : String)
    (chosen : List (Rule × Channel)) : List Rule → List (Rule × Channel)
  | []           => chosen
  | rule :: rest =>
    match channels.find? fun c => c.id == rule.channelId with
    | none         => choose channels simId body chosen rest
    | some channel =>
      if chosen.any fun x => x.1.channelId == rule.channelId then
        choose channels simId body chosen rest
      else if ruleMatches L rule simId body then
        choose channels simId body (chosen ++ [(rule, channel)]) rest
      else choose channels simId body chosen rest

/-- `match_rules`, with the enabled channels it read before the rules. -/
def matchRules (channels : List Channel) (rules : List Rule) (simId : Option Cell)
    (body : String) : List (Rule × Channel) :=
  choose L channels simId body [] (orderedRules rules)

/-- The rule is enabled, its channel is among those that were read, and it matches. -/
def Fires (channels : List Channel) (simId : Option Cell) (body : String) (rule : Rule) : Prop :=
  rule.enabled = true ∧ (channels.find? fun c => c.id == rule.channelId).isSome ∧
    ruleMatches L rule simId body = true

/-! ### What is chosen -/

variable {L} {channels : List Channel} {simId : Option Cell} {body : String} {rules : List Rule}

theorem before_trans {a b c : Rule} (h₁ : a.before b = true) (h₂ : b.before c = true) :
    a.before c = true := by
  simp only [Rule.before, Bool.or_eq_true, Bool.and_eq_true, decide_eq_true_eq] at *
  omega

theorem before_total (a b : Rule) : a.before b = true ∨ b.before a = true := by
  simp only [Rule.before, Bool.or_eq_true, Bool.and_eq_true, decide_eq_true_eq]
  omega

theorem orderedRules_pairwise (rules : List Rule) :
    (orderedRules rules).Pairwise fun a b => a.before b = true := by
  have htotal : Std.Total fun a b : Rule => a.before b = true := ⟨before_total⟩
  have htrans : IsTrans Rule fun a b => a.before b = true := ⟨fun _ _ _ => before_trans⟩
  exact List.pairwise_insertionSort _ _

theorem mem_orderedRules {r : Rule} : r ∈ orderedRules rules ↔ r ∈ rules ∧ r.enabled = true := by
  rw [orderedRules, List.mem_insertionSort, List.mem_filter]

/-- What the loop keeps: one rule for a channel, each fires and comes first among those of its
    channel that fire, and a channel with a rule that fires has one. -/
structure Chosen (L : Library) (channels : List Channel) (simId : Option Cell) (body : String)
    (seen : List Rule) (chosen : List (Rule × Channel)) : Prop where
  fires    : ∀ x ∈ chosen, x.1 ∈ seen ∧ Fires L channels simId body x.1
  named    : ∀ x ∈ chosen, x.2.id = x.1.channelId
  distinct : (chosen.map fun x => x.1.channelId).Nodup
  first    : ∀ x ∈ chosen, ∀ r ∈ seen, Fires L channels simId body r →
    r.channelId = x.1.channelId → x.1.before r = true
  covered  : ∀ r ∈ seen, Fires L channels simId body r →
    ∃ x ∈ chosen, x.1.channelId = r.channelId

variable {seen rest : List Rule} {chosen : List (Rule × Channel)} {rule : Rule}

/-- A rule that is passed over does not fire, or its channel has an earlier one. -/
theorem Chosen.skip (h : Chosen L channels simId body seen chosen)
    (hbefore : ∀ r ∈ seen, r.before rule = true)
    (hcovered : Fires L channels simId body rule → ∃ x ∈ chosen, x.1.channelId = rule.channelId) :
    Chosen L channels simId body (seen ++ [rule]) chosen := by
  refine ⟨fun x hx => ?_, h.named, h.distinct, fun x hx r hr hf hc => ?_, fun r hr hf => ?_⟩
  · obtain ⟨hm, hfires⟩ := h.fires x hx
    exact ⟨List.mem_append_left _ hm, hfires⟩
  · rcases List.mem_append.mp hr with hr | hr
    · exact h.first x hx r hr hf hc
    · obtain rfl := List.mem_singleton.mp hr
      exact hbefore _ (h.fires x hx).1
  · rcases List.mem_append.mp hr with hr | hr
    · exact h.covered r hr hf
    · obtain rfl := List.mem_singleton.mp hr
      exact hcovered hf

/-- A rule that fires on a channel without one is chosen. -/
theorem Chosen.take {channel : Channel} (h : Chosen L channels simId body seen chosen)
    (hbefore : ∀ r ∈ seen, r.before rule = true) (hfires : Fires L channels simId body rule)
    (hid : channel.id = rule.channelId) (hnew : ∀ x ∈ chosen, x.1.channelId ≠ rule.channelId) :
    Chosen L channels simId body (seen ++ [rule]) (chosen ++ [(rule, channel)]) := by
  refine ⟨fun x hx => ?_, fun x hx => ?_, ?_, fun x hx r hr hf hc => ?_, fun r hr hf => ?_⟩
  · rcases List.mem_append.mp hx with hx | hx
    · exact ⟨List.mem_append_left _ (h.fires x hx).1, (h.fires x hx).2⟩
    · obtain rfl := List.mem_singleton.mp hx
      exact ⟨by simp, hfires⟩
  · rcases List.mem_append.mp hx with hx | hx
    · exact h.named x hx
    · obtain rfl := List.mem_singleton.mp hx
      exact hid
  · rw [List.map_append, List.map_singleton, List.nodup_append]
    refine ⟨h.distinct, List.nodup_singleton _, fun a ha b hb => ?_⟩
    obtain ⟨x, hx, rfl⟩ := List.mem_map.mp ha
    obtain rfl := List.mem_singleton.mp hb
    exact hnew x hx
  · rcases List.mem_append.mp hx with hold | hlast
    · rcases List.mem_append.mp hr with hr | hr
      · exact h.first x hold r hr hf hc
      · obtain rfl := List.mem_singleton.mp hr
        exact hbefore _ (h.fires x hold).1
    · obtain rfl := List.mem_singleton.mp hlast
      rcases List.mem_append.mp hr with hr | hr
      · -- a rule seen before would have covered the channel
        obtain ⟨y, hy, hyc⟩ := h.covered r hr hf
        exact absurd (hyc.trans hc) (hnew y hy)
      · obtain rfl := List.mem_singleton.mp hr
        exact (before_total r r).elim id id
  · rcases List.mem_append.mp hr with hr | hr
    · obtain ⟨x, hx, hc⟩ := h.covered r hr hf
      exact ⟨x, List.mem_append_left _ hx, hc⟩
    · obtain rfl := List.mem_singleton.mp hr
      exact ⟨(r, channel), by simp, rfl⟩

/-- The loop from rules already seen, in their order. -/
theorem choose_spec (hsorted : (seen ++ rest).Pairwise fun a b => a.before b = true)
    (henabled : ∀ r ∈ seen ++ rest, r.enabled = true)
    (h : Chosen L channels simId body seen chosen) :
    Chosen L channels simId body (seen ++ rest) (choose L channels simId body chosen rest) := by
  induction rest generalizing seen chosen with
  | nil =>
    rw [List.append_nil]
    exact h
  | cons rule rest ih =>
    have hassoc : seen ++ rule :: rest = (seen ++ [rule]) ++ rest := by simp
    rw [hassoc] at hsorted henabled ⊢
    have hbefore : ∀ r ∈ seen, r.before rule = true := by
      rw [List.append_assoc, List.singleton_append] at hsorted
      exact fun r hr => (List.pairwise_append.mp hsorted).2.2 r hr rule List.mem_cons_self
    rw [choose]
    cases hfind : channels.find? fun c => c.id == rule.channelId with
    | none =>
      refine ih hsorted henabled (h.skip hbefore fun hf => ?_)
      rw [Fires, hfind] at hf
      exact absurd hf.2.1 (by simp)
    | some channel =>
      dsimp only
      split
      · rename_i hany
        refine ih hsorted henabled (h.skip hbefore fun _ => ?_)
        simpa using List.any_eq_true.mp hany
      · rename_i hnone
        have hnew : ∀ x ∈ chosen, x.1.channelId ≠ rule.channelId := by
          intro x hx he
          exact hnone (List.any_eq_true.mpr ⟨x, hx, by simpa using he⟩)
        split
        · rename_i hmatch
          have hfires : Fires L channels simId body rule :=
            ⟨henabled rule (by simp), by rw [hfind]; rfl, hmatch⟩
          have hid : channel.id = rule.channelId := by simpa using List.find?_some hfind
          exact ih hsorted henabled (h.take hbefore hfires hid hnew)
        · rename_i hno
          exact ih hsorted henabled (h.skip hbefore fun hf => absurd hf.2.2 hno)

/-- **What `match_rules` chooses**: at most one rule for a channel, and that is the first of the
    channel's rules that fire. -/
theorem matchRules_spec (L : Library) (channels : List Channel) (rules : List Rule)
    (simId : Option Cell) (body : String) :
    ((matchRules L channels rules simId body).map fun x => x.1.channelId).Nodup ∧
    ∀ x ∈ matchRules L channels rules simId body, x.1 ∈ rules ∧ x.2.id = x.1.channelId ∧
      Fires L channels simId body x.1 ∧
      ∀ r ∈ rules, Fires L channels simId body r → r.channelId = x.1.channelId →
        x.1.before r = true := by
  have hstart : Chosen L channels simId body [] [] :=
    ⟨nofun, nofun, List.nodup_nil, nofun, nofun⟩
  have h := choose_spec (orderedRules_pairwise rules)
    (fun r hr => (mem_orderedRules.mp hr).2) hstart
  refine ⟨h.distinct, fun x hx => ⟨?_, h.named x hx, (h.fires x hx).2, fun r hr hf hc => ?_⟩⟩
  · exact (mem_orderedRules.mp (h.fires x hx).1).1
  · exact h.first x hx r (mem_orderedRules.mpr ⟨hr, hf.1⟩) hf hc

/-! ## Audiences -/

variable (L)

/-- Who gets an intent. -/
inductive Audience
  | nobody
  /-- The channels whose rules want the message. -/
  | rules (simId : Option Cell) (body : String)
  /-- Every enabled channel, with the text that is sent. -/
  | everyone (title body : String)
deriving DecidableEq

/-- The card a row names: `LEFT JOIN sims s ON s.id = sim_id`. -/
def simOf (hub : HubDb) (r : HubRow) : Option HubRow :=
  (hub.rows .sims).find? fun s => equals (r.cells .simId) (integer s.id)

/-- A column of a row that may be missing. -/
def cellOf (r : Option HubRow) (c : Column) : Option Cell := r.bind fun r => r.cells c

/-- The first text that is not empty, else the frame's value. -/
def firstText (cells : List (Option Cell)) (v : Value) : Value :=
  cells.foldr (fun cell v => orFrame L cell v) v

/-- `TASK_STATUS_LABEL`. -/
def TASK_STATUS_LABEL : List (String × String) :=
  [("ok", "执行成功"), ("failed", "执行失败"), ("skipped", "已跳过")]

/-- `CALL_OUTCOME_LABEL`. -/
def CALL_OUTCOME_LABEL : List (String × String) :=
  [("missed", "未接"), ("answered", "已接通"), ("rejected", "已拒接"), ("no_answer", "无人接听"),
   ("busy", "占线"), ("failed", "呼叫失败")]

/-- `str(value or default)`. -/
def strOr (v : Value) (default : String) : String := pyStr L.repr (pyOr v (.str default))

/-- The line that names the card or the module, where there is one. -/
def whereLine (v : Value) : List String := if v.truthy then ["卡:" ++ pyStr L.repr v] else []

/-- `_task_summary`. -/
def taskSummary (hub : HubDb) (taskId : Option Cell) (task : Option HubRow) (frame : Frame) :
    Except Failure String := do
  let status := strOr L (frame.get "status") "unknown"
  let name := columnText L (cellOf task .name)
  let sim := task.bind (simOf hub)
  let detail := pyOr (frame.get "error") (frame.get "detail")
  let attempts ← toInt (pyOr (frame.get "attempts") (.int 1))
  .ok ("
".intercalate (["【保号】" ++ (if name = "" then "任务 " ++ toString (count taskId) else name) ++
      " " ++ (TASK_STATUS_LABEL.lookup status).getD status] ++
    whereLine L (firstText L [cellOf sim .label, cellOf task .device] (frame.get "device")) ++
    (if detail.truthy then [pyStr L.repr detail] else []) ++
    (if 1 < attempts then ["尝试 " ++ toString attempts ++ " 次"] else []) ++
    (if (frame.get "next_run_at").truthy then
      ["下次:" ++ L.localTime (pyStr L.repr (frame.get "next_run_at"))] else [])))

/-- `round` of a float. -/
def pyRound : Schedule.PyFloat → Except Failure Int
  | .finite q   =>
    let d := q - q.floor
    .ok (if d < 1 / 2 ∨ (d = 1 / 2 ∧ q.floor % 2 = 0) then q.floor else q.floor + 1)
  | .infinite _ => .error .overflowError
  | .nan        => .error .valueError

/-- `float(value)`, zero where it is no number. -/
def ringSeconds (hub : HubDb) (call : Option HubRow) (frame : Frame) :
    Except Failure Schedule.PyFloat :=
  match call with
  | none   => (floatOrZero (frame.get "ring_seconds") hub).map Prod.fst
  | some r => match r.cells .ringSeconds with
    | some (.real x)    => .ok x
    | some (.integer n) => (floatOrZero (.int n) hub).map Prod.fst
    | some (.text s)    => (floatOrZero (.str s) hub).map Prod.fst
    | none              => .ok (.finite 0)

/-- `_call_summary`. -/
def callSummary (hub : HubDb) (call : Option HubRow) (frame : Frame) : Except Failure String := do
  let peer := pyOr (orFrame L (cellOf call .peer) (frame.get "peer")) (.str "未知号码")
  let outcome := strOr L (orFrame L (cellOf call .outcome) (frame.get "outcome")) ""
  let label := (CALL_OUTCOME_LABEL.lookup outcome).getD (if outcome = "" then "来电" else outcome)
  let sim := call.bind (simOf hub)
  let ring ← ringSeconds hub call frame
  let rang ← if ring = .finite 0 then .ok [] else (pyRound ring).map fun n =>
    ["响铃:" ++ toString n ++ " 秒"]
  .ok ("
".intercalate (["【来电】" ++ pyStr L.repr peer ++ " " ++ label] ++
    whereLine L (firstText L [cellOf sim .label, cellOf call .device] (frame.get "device")) ++ rang))

/-- The row an intent is about. -/
def refRow (hub : HubDb) (t : Table) (ref : Option Cell) : Option HubRow :=
  (hub.rows t).find? fun r => equals (integer r.id) ref

/-- The first part of `_message_targets`. -/
def messageAudience (hub : HubDb) (ref : Option Cell) (frame : Frame) :
    Except Failure Audience :=
  match refRow hub .messages ref with
  | none         => .ok .nobody
  | some message => do
    if ← suppressed L message frame then .ok .nobody
    else
      let body ← notificationBody L message frame
      .ok (.rules (message.cells .simId) body)

/-- `_task_targets`, up to the channels. -/
def taskAudience (hub : HubDb) (ref : Option Cell) (frame : Frame) : Except Failure Audience :=
  let task := refRow hub .tasks ref
  let wanted := match task with
    | some t => columnTruthy (t.cells .notifyOnResult)
    | none   => (frame.getD "notify" (.bool true)).truthy
  if wanted then (taskSummary L hub ref task frame).map (.everyone "保号任务") else .ok .nobody

/-- `_call_targets`, up to the channels. -/
def callAudience (hub : HubDb) (ref : Option Cell) (frame : Frame) : Except Failure Audience :=
  if strOr L (frame.get "direction") "" = "in" then
    (callSummary L hub (refRow hub .calls ref) frame).map (.everyone "来电")
  else .ok .nobody

/-- `_targets_for`, up to the channels. -/
def audience (hub : HubDb) (intent : HubRow) : Except Failure Audience :=
  let frame := loadsFrame L (intent.cells .frame)
  match columnText L (intent.cells .kind) with
  | "message"     => messageAudience L hub (intent.cells .refId) frame
  | "task_result" => taskAudience L hub (intent.cells .refId) frame
  | "call"        => callAudience L hub (intent.cells .refId) frame
  | _             => .ok .nobody

/-! ## Payloads -/

/-- `Payload`. -/
structure Payload where
  text    : String
  title   : String
  context : List (String × String)
deriving DecidableEq

/-- The last four characters of a string: `iccid[-4:]`. -/
def lastFour (v : Value) : Except Failure String :=
  match v with
  | .str s => .ok (String.ofList (s.toList.drop (s.toList.length - 4)))
  | _      => .error .typeError

/-- `_card_name`. -/
def cardName (hub : HubDb) (message : HubRow) (iccid device : Value) : Except Failure Value :=
  let sim := simOf hub message
  let module := (hub.rows .devices).find? fun d =>
    equals (d.cells .agentId) (message.cells .agentId) &&
    equals (d.cells .name) (message.cells .device)
  let name := firstText L [cellOf sim .label, cellOf sim .phoneNumber, cellOf module .label] .null
  if name.truthy then .ok name
  else if iccid.truthy then (lastFour iccid).map fun s => .str ("…" ++ s)
  else .ok device

/-- `context_for`. -/
def contextFor (hub : HubDb) (now : Int) (message : HubRow) (frame : Frame) :
    Except Failure (List (String × String)) := do
  let iccid := pyOr (orFrame L (cellOf (simOf hub message) .iccid) (frame.get "iccid")) (.str "")
  let device := pyOr (orFrame L (message.cells .device) (frame.get "device")) (.str "")
  let sender := pyOr (orFrame L (message.cells .peer) (frame.get "peer")) (.str "")
  let ts := pyOr (orFrame L (message.cells .ts) (frame.get "ts")) (.str (L.isoformat now))
  let body ← notificationBody L message frame
  let card ← cardName L hub message iccid device
  .ok [("sender", pyStr L.repr sender), ("message", body),
    ("timestamp", L.localTime (pyStr L.repr ts)), ("card", pyStr L.repr card),
    ("device", pyStr L.repr device), ("iccid", pyStr L.repr iccid)]

/-- `render_payload`: a title that is set has to be a string. -/
def renderPayload (channel : Channel) (context : List (String × String)) (rule : Option Rule) :
    Except Failure Payload :=
  match pyOr (channel.config.get "title") (.str DEFAULT_TITLE) with
  | .str title => .ok {
      text := render L ((rule.map Rule.template).getD "") context
      title := render L title context
      context := context }
  | _          => .error .typeError

end Air780eHub.Notify
