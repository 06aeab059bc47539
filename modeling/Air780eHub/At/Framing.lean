/-
  From octets to lines (`ATClient._feed`).

  What is read from the port is collected in a buffer, and whole lines are taken off its front.  The
  prompt of a command has no line end, so after each chunk the rest of the buffer is looked at: if it
  ends in a `>`, it is taken for the prompt and the buffer is cleared.  This is done for every command
  in flight, also for one that expects no prompt, and then the beginning of a line is lost.

  1. **The reader**: `feed`, and a command that begins or ends between two chunks.
  2. **`Kept`**: where a rest is taken for a prompt, no line ends later.
  3. **What a lost rest costs**: the characters of the lines are counted, line ends apart; a line
     without its beginning has fewer.
  4. **`framing_iff`**: two ways to cut a stream.
-/
import Air780eHub.At.Client
import Air780eHub.Lib.Lines
import Air780eHub.Lib.Utf8
import Mathlib.Algebra.GroupWithZero.Nat

namespace Air780eHub.At

/-! ## The reader -/

/-- `"\n"`, `" "` and `">"`. -/
def LF : Nat := 10

def SPACE : Nat := 32

def GREATER : Nat := 62

/-- What `strip("\r\n")` strips. -/
def isLineEnd (c : Char) : Bool := c = '\r' || c = '\n'

/-- `text.strip("\r\n")`. -/
def stripLineEnd (text : Line) : Line :=
  ((text.dropWhile isLineEnd).reverse.dropWhile isLineEnd).reverse

/-- `raw.decode("utf-8", errors="replace").strip("\r\n")`. -/
def lineOf (raw : List Nat) : Line := stripLineEnd (Utf8.decode raw)

/-- The lines of raw ones; an empty one is not handed on. -/
def linesOfRaw (raws : List (List Nat)) : List Line :=
  (raws.map lineOf).filter fun line => !line.isEmpty

/-- What is left in the buffer looks like the prompt. -/
def endsInPrompt (tail : List Nat) : Bool :=
  [GREATER].isSuffixOf (tail.reverse.dropWhile (· = SPACE)).reverse ||
    [GREATER, SPACE].isSuffixOf tail

/-- The buffer, the prompt of the command in flight if there is one, and the lines that were
    handed to `_handle_line`. -/
structure Framer where
  buffer : List Nat := []
  prompt : Option Bool := none
  lines  : List Line := []
deriving DecidableEq

namespace Framer

/-- `pending is not None and not pending.prompt.is_set()`. -/
def awaits (f : Framer) : Bool := f.prompt = some false

/-- What is left when the lines of a chunk are taken. -/
def rest (f : Framer) (data : List Nat) : List Nat := (takeLines LF (f.buffer ++ data)).2

/-- What is left of a chunk is taken for the prompt. -/
def clears (f : Framer) (data : List Nat) : Bool :=
  !data.isEmpty && f.awaits && endsInPrompt (f.rest data)

/-- `_feed`. -/
def feed (f : Framer) (data : List Nat) : Framer :=
  if data.isEmpty then f
  else
    let taken := takeLines LF (f.buffer ++ data)
    let lines := f.lines ++ linesOfRaw taken.1
    if f.awaits && endsInPrompt taken.2 then ⟨[], some true, lines⟩
    else ⟨taken.2, f.prompt, lines⟩

end Framer

/-- What happens between the port and the reader. -/
inductive Reading
  /-- A chunk arrives. -/
  | chunk (data : List Nat)
  /-- `execute` begins a command that expects no prompt. -/
  | begun
  /-- `execute` is over. -/
  | ended
deriving DecidableEq

/-- One step of the reader. -/
def Framer.step (f : Framer) : Reading → Framer
  | .chunk data => f.feed data
  | .begun      => { f with prompt := some false }
  | .ended       => { f with prompt := none }

/-- The octets of a run. -/
def octetsRead (run : List Reading) : List Nat :=
  run.flatMap fun
    | .chunk data => data
    | _           => []

/-- The reader after a run. -/
def Framer.read (f : Framer) (run : List Reading) : Framer := run.foldl Framer.step f

/-- The lines of a stream. -/
def streamLines (stream : List Nat) : List Line := linesOfRaw (takeLines LF stream).1

/-! ## The condition -/

/-- **No line loses its beginning**: where what is left of a chunk is taken for the prompt, no line
    ends in the octets that follow. -/
def Kept (f : Framer) : List Reading → Prop
  | []       => True
  | a :: run => (∀ data, a = .chunk data → f.clears data = true → LF ∉ octetsRead run) ∧
      Kept (f.step a) run

instance decidableKept (f : Framer) (run : List Reading) : Decidable (Kept f run) := by
  induction run generalizing f with
  | nil => exact isTrue trivial
  | cons a run ih =>
    have := ih (f.step a)
    cases a with
    | chunk data =>
      exact decidable_of_iff ((f.clears data = true → LF ∉ octetsRead run) ∧ _)
        (and_congr_left fun _ => ⟨fun h d hd => by cases hd; exact h, fun h => h data rfl⟩)
    | begun => exact decidable_of_iff _ (and_iff_right (fun _ h => nomatch h)).symm
    | ended => exact decidable_of_iff _ (and_iff_right (fun _ h => nomatch h)).symm

theorem linesOfRaw_append (xs ys : List (List Nat)) :
    linesOfRaw (xs ++ ys) = linesOfRaw xs ++ linesOfRaw ys := by
  rw [linesOfRaw, List.map_append, List.filter_append]
  rfl

theorem streamLines_append (x y : List Nat) : streamLines (x ++ y) =
    linesOfRaw (takeLines LF x).1 ++ streamLines ((takeLines LF x).2 ++ y) := by
  rw [streamLines, takeLines_append, linesOfRaw_append]
  rfl

theorem streamLines_free {s : List Nat} (h : LF ∉ s) : streamLines s = [] := by
  rw [streamLines, takeLines_free h]
  rfl

variable {f : Framer} {data : List Nat} {run : List Reading}

/-- A chunk that leaves no prompt leaves its rest. -/
theorem feed_of_not_clears (h : f.clears data = false) : f.feed data =
    ⟨f.rest data, f.prompt, f.lines ++ linesOfRaw (takeLines LF (f.buffer ++ data)).1⟩ ∨
      data = [] ∧ f.feed data = f := by
  unfold Framer.feed
  cases data with
  | nil => exact .inr ⟨rfl, rfl⟩
  | cons b data =>
    have hno : (f.awaits && endsInPrompt (takeLines LF (f.buffer ++ b :: data)).2) = false := by
      simpa [Framer.clears, Framer.rest] using h
    refine .inl ?_
    rw [if_neg (by simp)]
    dsimp only
    rw [hno]
    rfl

theorem feed_of_clears (h : f.clears data = true) : f.feed data =
    ⟨[], some true, f.lines ++ linesOfRaw (takeLines LF (f.buffer ++ data)).1⟩ := by
  simp only [Framer.clears, Bool.and_eq_true, Bool.not_eq_true'] at h
  unfold Framer.feed
  rw [if_neg (by simp [h.1.1])]
  dsimp only
  rw [if_pos (by rw [Bool.and_eq_true]; exact ⟨h.1.2, h.2⟩)]

/-- **Where no line loses its beginning, the lines are those of the stream.** -/
theorem read_of_kept (hb : LF ∉ f.buffer) (h : Kept f run) :
    (f.read run).lines = f.lines ++ streamLines (f.buffer ++ octetsRead run) := by
  induction run generalizing f with
  | nil =>
    show f.lines = f.lines ++ streamLines (f.buffer ++ [])
    rw [List.append_nil, streamLines_free hb, List.append_nil]
  | cons a run ih =>
    obtain ⟨hnow, hrest⟩ := h
    show ((f.step a).read run).lines = _
    cases a with
    | begun => exact ih hb hrest
    | ended => exact ih hb hrest
    | chunk data =>
      have hoctets : octetsRead (.chunk data :: run) = data ++ octetsRead run := rfl
      have hfree : LF ∉ f.rest data := not_mem_rest _
      rw [hoctets, ← List.append_assoc, streamLines_append, ← List.append_assoc]
      cases hc : f.clears data with
      | true =>
        -- the rest is lost, and no line ends after it
        have hno : LF ∉ octetsRead run := hnow data rfl hc
        have hstep : f.step (.chunk data) = ⟨[], some true, _⟩ := feed_of_clears hc
        rw [hstep] at hrest ⊢
        rw [ih List.not_mem_nil hrest, List.nil_append, streamLines_free hno, streamLines_free]
        exact fun hm => (List.mem_append.mp hm).elim hfree hno
      | false =>
        rcases feed_of_not_clears hc with hf | ⟨rfl, hf⟩
        · have hstep : f.step (.chunk data) = ⟨f.rest data, f.prompt, _⟩ := hf
          rw [hstep] at hrest ⊢
          exact ih hfree hrest
        · have hstep : f.step (.chunk []) = f := hf
          rw [hstep] at hrest ⊢
          rw [List.append_nil, takeLines_free hb, ih hb hrest]
          show _ = f.lines ++ [] ++ _
          rw [List.append_nil]

/-! ## What a lost rest costs -/

/-- The characters of a line, line ends apart. -/
def weightOf (line : Line) : Nat := line.countP fun c => !isLineEnd c

/-- The characters of all lines. -/
def weight (lines : List Line) : Nat := (lines.map weightOf).sum

theorem weight_append (xs ys : List Line) : weight (xs ++ ys) = weight xs + weight ys := by
  rw [weight, List.map_append, List.sum_append]
  rfl

theorem weightOf_append (x y : Line) : weightOf (x ++ y) = weightOf x + weightOf y :=
  List.countP_append

theorem weightOf_dropWhile (line : Line) : weightOf (line.dropWhile isLineEnd) = weightOf line := by
  induction line with
  | nil => rfl
  | cons c line ih =>
    rw [List.dropWhile_cons]
    split
    · rename_i hc
      rw [ih]
      exact (List.countP_cons_of_neg (by simp [hc])).symm
    · rfl

/-- Stripping costs nothing. -/
theorem weightOf_strip (line : Line) : weightOf (stripLineEnd line) = weightOf line := by
  have hreverse : ∀ l : Line, weightOf l.reverse = weightOf l := fun l => List.countP_reverse
  rw [stripLineEnd, hreverse, weightOf_dropWhile, hreverse, weightOf_dropWhile]

theorem weight_linesOfRaw (raws : List (List Nat)) :
    weight (linesOfRaw raws) = (raws.map fun raw => weightOf (Utf8.decode raw)).sum := by
  induction raws with
  | nil => rfl
  | cons raw raws ih =>
    have hline : weight (linesOfRaw [raw]) = weightOf (Utf8.decode raw) := by
      rw [← weightOf_strip]
      by_cases hempty : stripLineEnd (Utf8.decode raw) = []
      · have hnone : linesOfRaw [raw] = [] := by simp [linesOfRaw, lineOf, hempty]
        rw [hnone, hempty]
        rfl
      · have hone : linesOfRaw [raw] = [lineOf raw] := by simp [linesOfRaw, lineOf, hempty]
        rw [hone]
        exact List.sum_singleton
    rw [← List.singleton_append, linesOfRaw_append, weight_append, hline, ih, List.map_append,
      List.sum_append]
    rfl

/-- What looks like a prompt ends below 0x80 and has its sign in it. -/
theorem of_endsInPrompt {d : List Nat} (h : endsInPrompt d = true) :
    (∃ xs c, d = xs ++ [c] ∧ c < 0x80) ∧ ∃ ys zs, d = (ys ++ [GREATER]) ++ zs := by
  rw [endsInPrompt, Bool.or_eq_true, List.isSuffixOf_iff_suffix, List.isSuffixOf_iff_suffix] at h
  rcases h with ⟨w, hw⟩ | ⟨w, hw⟩
  · have hd : d = ((d.reverse.takeWhile (· = SPACE)) ++ (d.reverse.dropWhile (· = SPACE))).reverse := by
      rw [List.takeWhile_append_dropWhile, List.reverse_reverse]
    rw [List.reverse_append, ← hw] at hd
    refine ⟨?_, w, _, hd⟩
    cases hspaces : d.reverse.takeWhile (· = SPACE) with
    | nil =>
      rw [hspaces, List.reverse_nil, List.append_nil] at hd
      exact ⟨w, GREATER, hd, by decide⟩
    | cons c spaces =>
      have hc : c = SPACE := by
        have hall : (d.reverse.takeWhile (· = SPACE)).all (· = SPACE) = true := List.all_takeWhile
        rw [hspaces, List.all_cons, Bool.and_eq_true] at hall
        exact of_decide_eq_true hall.1
      rw [hspaces, List.reverse_cons, ← List.append_assoc] at hd
      exact ⟨_, c, hd, hc ▸ by decide⟩
  · exact ⟨⟨w ++ [GREATER], SPACE, by rw [← hw, List.append_assoc]; rfl, by decide⟩, w, [SPACE],
      by rw [← hw, List.append_assoc]; rfl⟩

/-- Without a beginning that looks like a prompt, a stream has fewer characters in its lines. -/
theorem weight_lost {d s : List Nat} (hd : LF ∉ d) (hp : endsInPrompt d = true) :
    weight (streamLines s) + (if LF ∈ s then 1 else 0) ≤ weight (streamLines (d ++ s)) := by
  obtain ⟨⟨xs, c, hxs, hc⟩, ys, zs, hys⟩ := of_endsInPrompt hp
  have hpos : 1 ≤ weightOf (Utf8.decode d) := by
    obtain ⟨pre, hpre⟩ := Utf8.decode_last ys (c := GREATER) (by decide)
    rw [hys, Utf8.decode_cut ys zs (by decide), hpre, weightOf_append, weightOf_append]
    have hone : weightOf [Char.ofNat GREATER] = 1 := by decide
    omega
  rw [streamLines, streamLines, takeLines_free_append hd, weight_linesOfRaw]
  cases hs : (takeLines LF s).1 with
  | nil =>
    have hno : LF ∉ s := fun hm => takeLines_ne_nil hm hs
    rw [if_neg hno]
    exact Nat.zero_le _
  | cons line lines =>
    dsimp only
    rw [weight_linesOfRaw, List.map_cons, List.map_cons, List.sum_cons, List.sum_cons, hxs,
      Utf8.decode_cut xs line hc, weightOf_append, ← hxs]
    split <;> omega

/-- **A run hands on no more than its stream has, and less where a line loses its beginning.** -/
theorem weight_read (hb : LF ∉ f.buffer) (run : List Reading) :
    weight (f.read run).lines ≤ weight f.lines + weight (streamLines (f.buffer ++ octetsRead run)) ∧
      (¬ Kept f run → weight (f.read run).lines <
        weight f.lines + weight (streamLines (f.buffer ++ octetsRead run))) := by
  induction run generalizing f with
  | nil => exact ⟨Nat.le_add_right _ _, fun h => absurd trivial h⟩
  | cons a run ih =>
    cases a with
    | begun =>
      obtain ⟨hle, hlt⟩ := ih (f := f.step .begun) hb
      exact ⟨hle, fun h => hlt fun hk => h ⟨nofun, hk⟩⟩
    | ended =>
      obtain ⟨hle, hlt⟩ := ih (f := f.step .ended) hb
      exact ⟨hle, fun h => hlt fun hk => h ⟨nofun, hk⟩⟩
    | chunk data =>
      have hoctets : octetsRead (.chunk data :: run) = data ++ octetsRead run := rfl
      have hfree : LF ∉ f.rest data := not_mem_rest _
      have hread : f.read (.chunk data :: run) = (f.feed data).read run := rfl
      rw [hread, hoctets, ← List.append_assoc, streamLines_append, weight_append, ← Nat.add_assoc,
        ← weight_append]
      cases hc : f.clears data with
      | true =>
        have hprompt : endsInPrompt (f.rest data) = true := by
          simp only [Framer.clears, Bool.and_eq_true] at hc
          exact hc.2
        have hlost := weight_lost (s := octetsRead run) hfree hprompt
        have hfeed := feed_of_clears hc
        obtain ⟨hle, hlt⟩ := ih (f := f.feed data) (by rw [hfeed]; exact List.not_mem_nil)
        have hbuffer : (f.feed data).buffer = [] := by rw [hfeed]
        have hlines : (f.feed data).lines =
            f.lines ++ linesOfRaw (takeLines LF (f.buffer ++ data)).1 := by rw [hfeed]
        rw [hbuffer, hlines, List.nil_append] at hle hlt
        show _ ≤ _ + weight (streamLines (f.rest data ++ octetsRead run)) ∧
          (_ → _ < _ + weight (streamLines (f.rest data ++ octetsRead run)))
        refine ⟨by omega, fun h => ?_⟩
        by_cases hlf : LF ∈ octetsRead run
        · rw [if_pos hlf] at hlost
          omega
        · have hk : ¬ Kept (f.feed data) run := fun hk => h ⟨fun _ _ _ => hlf, hk⟩
          have hless := hlt hk
          omega
      | false =>
        have hk : ¬ Kept f (.chunk data :: run) → ¬ Kept (f.feed data) run := by
          refine fun h hk => h ⟨fun d hd hcd => ?_, hk⟩
          cases hd
          rw [hc] at hcd
          cases hcd
        rcases feed_of_not_clears hc with hf | ⟨rfl, hf⟩
        · have hlines : (f.feed data).lines =
              f.lines ++ linesOfRaw (takeLines LF (f.buffer ++ data)).1 := by rw [hf]
          have hbuffer : (f.feed data).buffer = f.rest data := by rw [hf]
          obtain ⟨hle, hlt⟩ := ih (f := f.feed data) (by rw [hbuffer]; exact hfree)
          rw [hbuffer, hlines] at hle hlt
          exact ⟨hle, fun h => hlt (hk h)⟩
        · rw [hf] at hk ⊢
          rw [List.append_nil, takeLines_free hb]
          obtain ⟨hle, hlt⟩ := ih hb
          have hnone : f.lines ++ linesOfRaw [] = f.lines := List.append_nil _
          rw [hnone]
          exact ⟨hle, fun h => hlt (hk h)⟩

/-! ## Two ways to cut a stream -/

/-- **The lines of a stream, cut in two ways.**  Against a way that loses nothing, the other gives
    the same lines exactly when no line loses its beginning. -/
theorem framing_iff (run run' : List Reading) (hstream : octetsRead run = octetsRead run')
    (hkept : Kept {} run') :
    (Framer.read {} run).lines = (Framer.read {} run').lines ↔ Kept {} run := by
  have hlines : (Framer.read {} run').lines = streamLines (octetsRead run) := by
    rw [hstream]
    exact read_of_kept List.not_mem_nil hkept
  rw [hlines]
  constructor
  · intro he
    by_contra hno
    have hless := (weight_read (f := {}) List.not_mem_nil run).2 hno
    rw [he] at hless
    have hsame : weight ({} : Framer).lines +
        weight (streamLines (({} : Framer).buffer ++ octetsRead run)) =
        weight (streamLines (octetsRead run)) := Nat.zero_add _
    omega
  · exact fun h => read_of_kept List.not_mem_nil h

/-- A reply whose text has a `>` in it: `+X: a>b`, with its line ends. -/
def greaterReply : List Nat := [43, 88, 58, 32, 97, 62, 98, 13, 10]

/-- A command is in flight, and the reply comes in two chunks, cut after the `>`. -/
def cutAfterGreater : List Reading :=
  [.begun, .chunk (greaterReply.take 6), .chunk (greaterReply.drop 6)]

/-- **The beginning of the line is lost** when the reply is cut after the `>`, and not otherwise. -/
theorem framing_cut :
    octetsRead cutAfterGreater = octetsRead [.begun, .chunk greaterReply] ∧
      (Framer.read {} cutAfterGreater).lines = ["b".toList] ∧
      (Framer.read {} [.begun, .chunk greaterReply]).lines = ["+X: a>b".toList] := by
  decide

/-- The same reply, cut elsewhere. -/
theorem framing_cut_elsewhere :
    (Framer.read {} [.begun, .chunk (greaterReply.take 3), .chunk (greaterReply.drop 3)]).lines =
      (Framer.read {} [.begun, .chunk greaterReply]).lines :=
  (framing_iff _ _ (by decide) (by decide)).mpr (by decide)

end Air780eHub.At
