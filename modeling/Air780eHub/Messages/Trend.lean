/-
  Messages by day, card and direction (`Database.message_trend`).

  The local days of a range are walked one after the other, and the messages between two local
  midnights are counted by the database, whose timestamps are whole seconds; the bounds of the range
  are not, and are cut to whole seconds when they are written into the query.
  1. **The walk** over the days and its queries.
  2. **Windows**: the days that are walked (`Visits`), and what each counts.
  3. **`Conserves`**: each message of the range is counted once, under its day, card and direction.
-/
import Air780eHub.Messages.Scope
import Air780eHub.Messages.Timestamps
import Air780eHub.Messages.Zones

namespace Air780eHub.Messages

open Select
open Schedule (Failure)

/-! ## The walk -/

/-- Microseconds of a second and of the years 1 to 9999, and the last day of them. -/
def SECOND : Int := 1000000

def MAX_MICROS : Int := 3652059 * 86400 * 1000000

def LAST_DAY : Int := 3652058

/-- A row of the trend; the day is written as a date. -/
structure TrendRow where
  day      : Int
  simId    : Option Int
  received : Nat
  sent     : Nat
deriving DecidableEq, Repr

/-- `moment.astimezone(UTC)`, cut to whole seconds. -/
def toUtc (micros : Int) : Except Failure Nat :=
  if 0 ≤ micros ∧ micros < MAX_MICROS then .ok (micros / SECOND).toNat else .error .overflowError

/-- `day_sql`, with the day its rows are put under. -/
def dayRows (messages : List Message) (day : Int) (lo hi : Nat) : List TrendRow :=
  let within := messages.filter fun m =>
    decide (isoformat lo ≤ m.ts) && decide (m.ts < isoformat hi)
  (groupKeys Message.simId within).map fun sim =>
    { day, simId := sim
      received := (within.filter fun m => m.simId = sim && m.direction == "in").length
      sent := (within.filter fun m => m.simId = sim && m.direction == "out").length }

/-- The loop over the days, for so many of them; it goes no further than the last day there is. -/
def walkDays (z : Zone) (messages : List Message) (start stop : Int) :
    Nat → Int → Except Failure (List TrendRow)
  | 0, _            => .error .overflowError
  | rounds + 1, day =>
    if LAST_DAY ≤ day then .error .overflowError
    else
      let dayStart := z.midnight day * SECOND
      let dayEnd := z.midnight (day + 1) * SECOND
      let windowStart := if dayStart < start then start else dayStart
      let windowEnd := if stop < dayEnd then stop else dayEnd
      -- two local times are compared by their wall clocks, and these two are a day apart
      let bothLocal := decide (start ≤ dayStart) && decide (dayEnd ≤ stop)
      if bothLocal = false ∧ windowEnd ≤ windowStart then .ok []
      else do
        let lo ← toUtc windowStart
        let hi ← toUtc windowEnd
        let rows := dayRows messages day lo hi
        if stop ≤ dayEnd then .ok rows
        else
          let rest ← walkDays z messages start stop rounds (day + 1)
          .ok (rows ++ rest)

/-- The key of the sort. -/
def TrendRow.before (a b : TrendRow) : Prop :=
  a.day < b.day ∨ a.day = b.day ∧ (a.simId.isSome < b.simId.isSome ∨
    a.simId.isSome = b.simId.isSome ∧ a.simId.getD 0 ≤ b.simId.getD 0)

instance : DecidableRel TrendRow.before := fun _ _ => inferInstanceAs (Decidable (_ ∨ _))

/-- `parse(value)`: what is parsed is a moment in microseconds. -/
def parsed (parse : String → Option Int) (value : String) : Except Failure Int :=
  (parse value).elim (.error .valueError) .ok

/-- `start_utc.astimezone(local_zone).date()`. -/
def firstDay (z : Zone) (start : Int) : Except Failure Int := do
  let second ← toUtc start
  if z.localDay second < 0 ∨ LAST_DAY < z.localDay second then .error .overflowError
  else .ok (z.localDay second)

/-- The end of a range that is given none: the newest message. -/
def newestEnd (parse : String → Option Int) (messages : List Message) (start : Int) :
    Except Failure Int :=
  let newest := (messages.map Message.ts).foldr max ""
  if newest = "" then .ok start else parsed parse newest

/-- The rows of a range, in the order of the sort. -/
def rangeRows (z : Zone) (messages : List Message) (start stop day : Int) :
    Except Failure (List TrendRow) :=
  if start < stop then
    (walkDays z messages start stop (LAST_DAY + 1 - day).toNat day).map
      (·.insertionSort TrendRow.before)
  else .ok []

/-- `Database.message_trend`, in a zone that is found. -/
def messageTrend (parse : String → Option Int) (z : Zone) (messages : List Message)
    (since : String) (until' : Option String) : Except Failure (List TrendRow) := do
  let start ← parsed parse since
  match until'.filter (· != "") with
  | some value =>
    let stop ← parsed parse value
    let day ← firstDay z start
    rangeRows z messages start stop day
  | none =>
    let day ← firstDay z start
    let stop ← newestEnd parse messages start
    rangeRows z messages start stop day

/-! ## What the rows count -/

/-- The direction that a count is of. -/
def directionOf (incoming : Bool) : String := if incoming then "in" else "out"

def TrendRow.count (r : TrendRow) (incoming : Bool) : Nat :=
  if incoming then r.received else r.sent

/-- What the rows of a day and a card count together. -/
def total (rows : List TrendRow) (day : Int) (sim : Option Int) (incoming : Bool) : Nat :=
  ((rows.filter fun r => r.day = day ∧ r.simId = sim).map (·.count incoming)).sum

/-- How many messages of a card and a direction meet a condition. -/
def tally (messages : List Message) (p : Message → Bool) (sim : Option Int) (incoming : Bool) :
    Nat :=
  (messages.filter fun m => p m && (m.simId = sim && m.direction == directionOf incoming)).length

theorem total_append (rows rows' : List TrendRow) (day : Int) (sim : Option Int)
    (incoming : Bool) :
    total (rows ++ rows') day sim incoming = total rows day sim incoming +
      total rows' day sim incoming := by
  unfold total
  rw [List.filter_append, List.map_append, List.sum_append]

theorem total_perm {rows rows' : List TrendRow} (h : rows.Perm rows') (day : Int)
    (sim : Option Int) (incoming : Bool) :
    total rows day sim incoming = total rows' day sim incoming :=
  ((h.filter _).map _).sum_eq

theorem tally_congr {messages : List Message} {p q : Message → Bool}
    (h : ∀ m ∈ messages, p m = q m) (sim : Option Int) (incoming : Bool) :
    tally messages p sim incoming = tally messages q sim incoming := by
  unfold tally
  rw [List.filter_congr fun m hm => by rw [h m hm]]

theorem tally_none {messages : List Message} {p : Message → Bool}
    (h : ∀ m ∈ messages, p m = false) {sim : Option Int} {incoming : Bool} :
    tally messages p sim incoming = 0 := by
  unfold tally
  rw [List.length_eq_zero_iff, List.filter_eq_nil_iff]
  intro m hm
  rw [h m hm]
  exact Bool.false_ne_true

/-- **The rows of one query** count what is in its window, under its day. -/
theorem total_dayRows (messages : List Message) (day : Int) (lo hi : Nat) (d : Int)
    (sim : Option Int) (incoming : Bool) :
    total (dayRows messages day lo hi) d sim incoming =
      if d = day then tally messages
        (fun m => decide (isoformat lo ≤ m.ts) && decide (m.ts < isoformat hi)) sim incoming
      else 0 := by
  set within := messages.filter fun m =>
    decide (isoformat lo ≤ m.ts) && decide (m.ts < isoformat hi) with hwithin
  have htally : tally messages (fun m => decide (isoformat lo ≤ m.ts) &&
      decide (m.ts < isoformat hi)) sim incoming =
        (within.filter fun m => m.simId = sim && m.direction == directionOf incoming).length := by
    unfold tally
    rw [hwithin, List.filter_filter]
    exact congrArg List.length (List.filter_congr fun m _ => Bool.and_comm _ _)
  rw [htally]
  unfold total dayRows
  split
  · rename_i hday
    subst hday
    -- the one row of the card, or none when the window has nothing of it
    have hone : (groupKeys Message.simId within).filter (fun k => decide (k = sim)) =
        List.replicate ((groupKeys Message.simId within).count sim) sim := List.filter_eq sim
    rw [List.filter_map, List.map_map, show (fun r : TrendRow => decide (r.day = d ∧ r.simId = sim)) ∘
        _ = fun k => decide (k = sim) from funext fun k => by simp, hone, List.map_replicate,
      List.sum_replicate_nat]
    by_cases hsim : sim ∈ groupKeys Message.simId within
    · rw [List.count_eq_one_of_mem (nodup_groupKeys _ _) hsim, one_mul]
      cases incoming <;> rfl
    · rw [List.count_eq_zero_of_not_mem hsim, zero_mul, eq_comm, List.length_eq_zero_iff,
        List.filter_eq_nil_iff]
      intro m hm hcard
      have heq : m.simId = sim := by
        have h := (Bool.and_eq_true_iff.mp hcard).1
        exact of_decide_eq_true h
      exact hsim (mem_groupKeys.mpr ⟨m, hm, heq⟩)
  · rename_i hday
    rw [List.filter_eq_nil_iff.mpr]
    · rfl
    · intro r hr
      obtain ⟨sim', -, rfl⟩ := List.mem_map.mp hr
      simpa using fun heq => absurd heq.symm hday

/-! ## Windows -/

/-- The walk goes on after a day: the day does not end the range, and its window is not empty. -/
def Passes (z : Zone) (start stop day : Int) : Prop :=
  z.midnight (day + 1) * SECOND < stop ∧
    (start ≤ z.midnight day * SECOND ∨ start < z.midnight (day + 1) * SECOND)

/-- A walk that begins with one day comes to another. -/
def Walked (z : Zone) (start stop first day : Int) : Prop :=
  first ≤ day ∧ ∀ d, first ≤ d → d < day → Passes z start stop d

/-- The whole seconds of a day's query. -/
def windowStart (z : Zone) (start day : Int) : Int := max (z.midnight day) (start / SECOND)

def windowEnd (z : Zone) (stop day : Int) : Int := min (z.midnight (day + 1)) (stop / SECOND)

/-- The condition of a day's query. -/
def inWindow (z : Zone) (start stop day : Int) (m : Message) : Bool :=
  decide (isoformat (windowStart z start day).toNat ≤ m.ts) &&
    decide (m.ts < isoformat (windowEnd z stop day).toNat)

theorem Walked.self {z : Zone} {start stop day : Int} : Walked z start stop day day := by
  constructor
  · exact le_refl day
  · intro d hle hlt
    omega

theorem walked_of_passes {z : Zone} {start stop day e : Int} (h : Passes z start stop day) :
    Walked z start stop day e ↔ e = day ∨ Walked z start stop (day + 1) e := by
  constructor
  · rintro ⟨hle, hall⟩
    by_cases heq : e = day
    · exact Or.inl heq
    · refine Or.inr ⟨by omega, ?_⟩
      intro d hd hlt
      exact hall d (by omega) hlt
  · rintro (rfl | ⟨hle, hall⟩)
    · exact Walked.self
    · refine ⟨by omega, ?_⟩
      intro d hd hlt
      by_cases heq : d = day
      · exact heq ▸ h
      · exact hall d (by omega) hlt

theorem walked_of_not_passes {z : Zone} {start stop day e : Int}
    (h : ¬ Passes z start stop day) : Walked z start stop day e ↔ e = day := by
  constructor
  · rintro ⟨hle, hall⟩
    by_contra hne
    exact h (hall day (le_refl day) (by omega))
  · rintro rfl
    exact Walked.self

theorem windowStart_lt {z : Zone} {start day : Int} (hin : start < MAX_MICROS)
    (hle : day ≤ LAST_DAY) : windowStart z start day < (MAX_SECONDS : Int) := by
  have hmid := z.midnight_bounds day
  have hsecond : SECOND = 1000000 := rfl
  have hmax : MAX_MICROS = 3652059 * 86400 * 1000000 := rfl
  have hmax' : (MAX_SECONDS : Int) = 3652059 * 86400 := rfl
  have hlastDay : LAST_DAY = 3652058 := rfl
  unfold windowStart
  rw [hsecond]
  omega

/-- A window that ends before it begins has nothing in it. -/
theorem inWindow_empty {z : Zone} {start stop day : Int} {m : Message}
    (hlo : windowStart z start day < (MAX_SECONDS : Int))
    (h : windowEnd z stop day ≤ windowStart z start day) :
    inWindow z start stop day m = false := by
  rw [inWindow, Bool.and_eq_false_iff, decide_eq_false_iff_not, decide_eq_false_iff_not]
  by_contra hboth
  rw [not_or, not_not, not_not] at hboth
  have hlt := lt_of_le_of_lt hboth.1 hboth.2
  have hmax : 0 < MAX_SECONDS := by decide
  rw [isoformat_lt_iff (by omega) (by omega)] at hlt
  omega

/-- What rows hold that count each walked day's window, and nothing else. -/
def Totals (z : Zone) (messages : List Message) (start stop first : Int) (rows : List TrendRow) :
    Prop :=
  ∀ day sim incoming,
    (Walked z start stop first day →
      total rows day sim incoming = tally messages (inWindow z start stop day) sim incoming) ∧
    (¬ Walked z start stop first day → total rows day sim incoming = 0)

/-- The bounds of a window, as the query gets them. -/
theorem toUtc_window {z : Zone} {start stop day : Int} (hstart : 0 ≤ start)
    (hin : start < MAX_MICROS) (hlt : start < stop) (hday : 0 ≤ day) (hlast : day < LAST_DAY) :
    toUtc (if z.midnight day * SECOND < start then start else z.midnight day * SECOND) =
        .ok (windowStart z start day).toNat ∧
      toUtc (if stop < z.midnight (day + 1) * SECOND then stop else z.midnight (day + 1) * SECOND) =
        .ok (windowEnd z stop day).toNat := by
  have hmid := z.midnight_bounds day
  have hmid' := z.midnight_bounds (day + 1)
  have hsecond : SECOND = 1000000 := rfl
  have hmax : MAX_MICROS = 3652059 * 86400 * 1000000 := rfl
  have hlastDay : LAST_DAY = 3652058 := rfl
  unfold toUtc windowStart windowEnd
  rw [hsecond]
  constructor
  · rw [if_pos (by split <;> omega)]
    congr 2
    split <;> omega
  · rw [if_pos (by split <;> omega)]
    congr 2
    split <;> omega

theorem walkDays_last (z : Zone) (messages : List Message) (start stop : Int) (rounds : Nat)
    {day : Int} (h : LAST_DAY ≤ day) :
    walkDays z messages start stop rounds day = .error .overflowError := by
  cases rounds with
  | zero   => rfl
  | succ n => rw [walkDays, if_pos h]

/-- What one round of the walk does: it ends before the query, after it, or goes on. -/
theorem walkDays_step {z : Zone} {start stop day : Int} (hstart : 0 ≤ start)
    (hin : start < MAX_MICROS) (hlt : start < stop) (hday : 0 ≤ day) (hlast : day < LAST_DAY)
    (rounds : Nat) :
    (¬ Passes z start stop day ∧ windowEnd z stop day ≤ windowStart z start day ∧
      ∀ messages, walkDays z messages start stop (rounds + 1) day = .ok []) ∨
    (¬ Passes z start stop day ∧ ∀ messages, walkDays z messages start stop (rounds + 1) day =
      .ok (dayRows messages day (windowStart z start day).toNat (windowEnd z stop day).toNat)) ∨
    (Passes z start stop day ∧ ∀ messages, walkDays z messages start stop (rounds + 1) day =
      (walkDays z messages start stop rounds (day + 1)).map fun rest =>
        dayRows messages day (windowStart z start day).toNat (windowEnd z stop day).toNat ++
          rest) := by
  obtain ⟨hlo, hhi⟩ := toUtc_window (z := z) hstart hin hlt hday hlast
  have hnot : ¬ LAST_DAY ≤ day := by omega
  by_cases hbreak : (decide (start ≤ z.midnight day * SECOND) &&
      decide (z.midnight (day + 1) * SECOND ≤ stop)) = false ∧
        (if stop < z.midnight (day + 1) * SECOND then stop else z.midnight (day + 1) * SECOND) ≤
          (if z.midnight day * SECOND < start then start else z.midnight day * SECOND)
  · refine Or.inl ⟨?_, ?_, ?_⟩
    · rintro ⟨hend, hopen⟩
      obtain ⟨hlocal, hempty⟩ := hbreak
      rw [Bool.and_eq_false_iff, decide_eq_false_iff_not, decide_eq_false_iff_not] at hlocal
      rw [if_neg (by omega)] at hempty
      split at hempty <;> omega
    · obtain ⟨-, hempty⟩ := hbreak
      have hsecond : SECOND = 1000000 := rfl
      unfold windowStart windowEnd
      rw [hsecond] at hempty ⊢
      split at hempty <;> split at hempty <;> omega
    · intro messages
      rw [walkDays, if_neg hnot]
      exact if_pos hbreak
  · by_cases hend : stop ≤ z.midnight (day + 1) * SECOND
    · refine Or.inr (Or.inl ⟨fun hpass => absurd hpass.1 (by omega), ?_⟩)
      intro messages
      rw [walkDays, if_neg hnot]
      dsimp only
      rw [if_neg hbreak, hlo, hhi]
      exact if_pos hend
    · refine Or.inr (Or.inr ⟨⟨by omega, ?_⟩, ?_⟩)
      · by_contra hno
        refine hbreak ⟨?_, ?_⟩
        · rw [Bool.and_eq_false_iff, decide_eq_false_iff_not]
          exact Or.inl (by omega)
        · rw [if_neg (by omega)]
          split <;> omega
      · intro messages
        rw [walkDays, if_neg hnot]
        dsimp only
        rw [if_neg hbreak, hlo, hhi]
        exact if_neg hend

/-- The rows of a day's query, and what else they count. -/
theorem total_window (z : Zone) (messages : List Message) (start stop day d : Int)
    (sim : Option Int) (incoming : Bool) :
    total (dayRows messages day (windowStart z start day).toNat (windowEnd z stop day).toNat) d sim
        incoming =
      if d = day then tally messages (inWindow z start stop day) sim incoming else 0 :=
  total_dayRows messages day _ _ d sim incoming

/-- **The walk** counts the window of each day it comes to, or comes to the last day and fails. -/
theorem walkDays_spec {z : Zone} {start stop : Int} (hstart : 0 ≤ start) (hin : start < MAX_MICROS)
    (hlt : start < stop) (rounds : Nat) {day : Int} (hday : 0 ≤ day) (hle : day ≤ LAST_DAY)
    (hrounds : (LAST_DAY + 1 - day).toNat = rounds) :
    ((∃ e, Walked z start stop day e ∧ LAST_DAY ≤ e) ∧
      ∀ messages, walkDays z messages start stop rounds day = .error .overflowError) ∨
    ((∀ e, Walked z start stop day e → e < LAST_DAY) ∧
      ∀ messages, ∃ rows, walkDays z messages start stop rounds day = .ok rows ∧
        Totals z messages start stop day rows) := by
  induction rounds generalizing day with
  | zero => omega
  | succ rounds ih =>
    by_cases hlast : LAST_DAY ≤ day
    · exact Or.inl ⟨⟨day, Walked.self, hlast⟩, fun messages => walkDays_last z messages _ _ _ hlast⟩
    · rcases walkDays_step (z := z) hstart hin hlt hday (by omega) rounds with
        ⟨hstay, hempty, hwalk⟩ | ⟨hstay, hwalk⟩ | ⟨hpass, hwalk⟩
      · refine Or.inr ⟨fun e he => by rw [(walked_of_not_passes hstay).mp he]; omega, ?_⟩
        intro messages
        refine ⟨[], hwalk messages, ?_⟩
        intro d sim incoming
        refine ⟨?_, fun _ => rfl⟩
        intro hd
        -- the window is empty, so the query is not missed
        rw [(walked_of_not_passes hstay).mp hd]
        exact (tally_none fun m _ => inWindow_empty (windowStart_lt hin hle) hempty).symm
      · refine Or.inr ⟨fun e he => by rw [(walked_of_not_passes hstay).mp he]; omega, ?_⟩
        intro messages
        refine ⟨_, hwalk messages, ?_⟩
        intro d sim incoming
        rw [total_window, walked_of_not_passes hstay]
        constructor
        · rintro rfl
          exact if_pos rfl
        · intro hne
          exact if_neg hne
      · have hday' : 0 ≤ day + 1 := by omega
        rcases ih hday' (by omega) (by omega) with
          ⟨⟨e, he, hlate⟩, hfail⟩ | ⟨hbefore, hrest⟩
        · refine Or.inl ⟨⟨e, (walked_of_passes hpass).mpr (Or.inr he), hlate⟩, ?_⟩
          intro messages
          rw [hwalk, hfail]
          rfl
        · refine Or.inr ⟨?_, ?_⟩
          · intro e he
            rcases (walked_of_passes hpass).mp he with rfl | he
            · omega
            · exact hbefore e he
          · intro messages
            obtain ⟨rest, hok, htotals⟩ := hrest messages
            refine ⟨_, by rw [hwalk, hok]; rfl, ?_⟩
            intro d sim incoming
            rw [total_append, total_window, walked_of_passes hpass]
            have hnext : ¬ Walked z start stop (day + 1) day := fun h => by
              have hle := h.1
              omega
            by_cases hd : d = day
            · subst hd
              rw [if_pos rfl, (htotals d sim incoming).2 hnext]
              exact ⟨fun _ => rfl, fun h => absurd (Or.inl rfl) h⟩
            · rw [if_neg hd, Nat.zero_add]
              constructor
              · intro h
                exact (htotals d sim incoming).1 (h.resolve_left hd)
              · intro h
                exact (htotals d sim incoming).2 fun hw => h (Or.inr hw)

/-! ## Conservation -/

/-- Timestamps as they are stored. -/
def Normalised (messages : List Message) : Prop :=
  ∀ m ∈ messages, ∃ s < MAX_SECONDS, m.ts = isoformat s

/-- What is stored is read back as the same moment. -/
def ReadsBack (parse : String → Option Int) : Prop :=
  ∀ s < MAX_SECONDS, parse (isoformat s) = some (s * SECOND)

/-- A message of the range, on a local day; without an end the range has no end. -/
def inRange (parse : String → Option Int) (z : Zone) (start : Int) (stop : Option Int) (day : Int)
    (m : Message) : Bool :=
  (parse m.ts).any fun t =>
    decide (start ≤ t) && stop.all (fun e => decide (t < e)) &&
      decide (z.localDay (t / SECOND) = day)

/-- Each message of the range is counted once, under its day, card and direction. -/
def Conserves (parse : String → Option Int) (z : Zone) (messages : List Message) (since : String)
    (until' : Option String) (start : Int) (stop : Option Int) : Prop :=
  ∃ rows, messageTrend parse z messages since until' = .ok rows ∧
    ∀ day sim incoming, total rows day sim incoming =
      tally messages (inRange parse z start stop day) sim incoming

/-- The range begins on a day that there is. -/
def FirstDay (z : Zone) (start : Int) : Prop :=
  (0 ≤ start ∧ start < MAX_MICROS) ∧
    0 ≤ z.localDay (start / SECOND) ∧ z.localDay (start / SECOND) ≤ LAST_DAY

theorem firstDay_ok {z : Zone} {start : Int} (h : FirstDay z start) :
    firstDay z start = .ok (z.localDay (start / SECOND)) := by
  obtain ⟨hin, hlo, hhi⟩ := h
  have hsecond : ((start / SECOND).toNat : Int) = start / SECOND :=
    Int.toNat_of_nonneg (Int.ediv_nonneg hin.1 (by decide))
  unfold firstDay toUtc
  rw [if_pos hin]
  show (if z.localDay ((start / SECOND).toNat : Int) < 0 ∨ _ then _ else _) = _
  rw [hsecond]
  exact if_neg (by omega)

theorem firstDay_error {z : Zone} {start : Int} (h : ¬ FirstDay z start) :
    firstDay z start = .error .overflowError := by
  unfold firstDay toUtc
  by_cases hin : 0 ≤ start ∧ start < MAX_MICROS
  · have hsecond : ((start / SECOND).toNat : Int) = start / SECOND :=
      Int.toNat_of_nonneg (Int.ediv_nonneg hin.1 (by decide))
    rw [if_pos hin]
    show (if z.localDay ((start / SECOND).toNat : Int) < 0 ∨ _ then _ else _) = _
    rw [hsecond]
    refine if_pos ?_
    by_contra hno
    exact h ⟨hin, by omega, by omega⟩
  · rw [if_neg hin]
    rfl

section Trend

variable {parse : String → Option Int} {z : Zone} {since : String} {start : Int}
  (hsince : parse since = some start)

include hsince

theorem messageTrend_eq (until' : Option String) (messages : List Message) :
    messageTrend parse z messages since until' =
      match until'.filter (· != "") with
      | some value => (parsed parse value).bind fun stop =>
        (firstDay z start).bind (rangeRows z messages start stop)
      | none => (firstDay z start).bind fun day =>
        (newestEnd parse messages start).bind fun stop => rangeRows z messages start stop day := by
  unfold messageTrend
  rw [show parsed parse since = .ok start by rw [parsed, hsince]; rfl]
  rfl

theorem messageTrend_until {value : String} {stop : Int} (hne : value ≠ "")
    (huntil : parse value = some stop) (hfirst : FirstDay z start) (messages : List Message) :
    messageTrend parse z messages since (some value) =
      rangeRows z messages start stop (z.localDay (start / SECOND)) := by
  have hgiven : (some value).filter (· != "") = some value := by simp [hne]
  rw [messageTrend_eq hsince, hgiven]
  dsimp only
  rw [firstDay_ok hfirst, parsed, huntil]
  rfl

theorem messageTrend_newest {until' : Option String} (hnone : until'.filter (· != "") = none)
    (hfirst : FirstDay z start) (messages : List Message) :
    messageTrend parse z messages since until' = (newestEnd parse messages start).bind fun stop =>
      rangeRows z messages start stop (z.localDay (start / SECOND)) := by
  rw [messageTrend_eq hsince, hnone]
  dsimp only
  rw [firstDay_ok hfirst]
  rfl

/-- A range that begins on no day fails. -/
theorem messageTrend_first {until' : Option String} {rows : List TrendRow}
    {messages : List Message} (h : messageTrend parse z messages since until' = .ok rows) :
    FirstDay z start := by
  by_contra hno
  rw [messageTrend_eq hsince] at h
  split at h
  · rename_i value _
    rw [firstDay_error hno, parsed] at h
    cases hparse : parse value <;> rw [hparse] at h <;> cases h
  · rw [firstDay_error hno] at h
    cases h

end Trend

theorem rangeRows_spec {z : Zone} {start stop : Int} (hfirst : FirstDay z start)
    (hlt : start < stop) :
    ((∃ e, Walked z start stop (z.localDay (start / SECOND)) e ∧ LAST_DAY ≤ e) ∧
      ∀ messages, rangeRows z messages start stop (z.localDay (start / SECOND)) =
        .error .overflowError) ∨
    ((∀ e, Walked z start stop (z.localDay (start / SECOND)) e → e < LAST_DAY) ∧
      ∀ messages, ∃ rows, rangeRows z messages start stop (z.localDay (start / SECOND)) = .ok rows ∧
        Totals z messages start stop (z.localDay (start / SECOND)) rows) := by
  obtain ⟨⟨hstart, hin⟩, hlo, hhi⟩ := hfirst
  have hrows : ∀ messages, rangeRows z messages start stop (z.localDay (start / SECOND)) =
      (walkDays z messages start stop (LAST_DAY + 1 - z.localDay (start / SECOND)).toNat
        (z.localDay (start / SECOND))).map (·.insertionSort TrendRow.before) :=
    fun messages => if_pos hlt
  rcases walkDays_spec hstart hin hlt _ hlo hhi rfl with ⟨hlate, hfail⟩ | ⟨hbefore, hok⟩
  · refine Or.inl ⟨hlate, ?_⟩
    intro messages
    rw [hrows, hfail]
    rfl
  · refine Or.inr ⟨hbefore, ?_⟩
    intro messages
    obtain ⟨rows, hwalk, htotals⟩ := hok messages
    refine ⟨rows.insertionSort TrendRow.before, by rw [hrows, hwalk]; rfl, ?_⟩
    intro day sim incoming
    rw [total_perm (List.perm_insertionSort _ rows)]
    exact htotals day sim incoming

/-! ## When nothing is lost -/

theorem floor_le {start s : Int} (h : start ≤ s * SECOND) : start / SECOND ≤ s := by
  unfold SECOND at *
  omega

theorem lt_of_lt_floor {stop s : Int} (h : s < stop / SECOND) : s * SECOND < stop := by
  unfold SECOND at *
  omega

/-- Only the second that a moment is cut to comes too early. -/
theorem eq_floor {start s : Int} (hle : start / SECOND ≤ s) (h : s * SECOND < start) :
    s = start / SECOND ∧ start % SECOND ≠ 0 := by
  unfold SECOND at *
  omega

theorem floor_mul_lt {start : Int} (h : start % SECOND ≠ 0) : start / SECOND * SECOND < start := by
  unfold SECOND at *
  omega

theorem floor_inYears {start : Int} (h : 0 ≤ start ∧ start < MAX_MICROS) :
    0 ≤ start / SECOND ∧ start / SECOND < (MAX_SECONDS : Int) := by
  have hmax : (MAX_SECONDS : Int) = 3652059 * 86400 := rfl
  unfold SECOND MAX_MICROS at *
  omega

/-- A second of the range and of the years. -/
def InRange (start stop : Int) (s : Nat) : Prop :=
  s < MAX_SECONDS ∧ start ≤ s * SECOND ∧ s * SECOND < stop

/-- From one local midnight up to the next. -/
def Between (z : Zone) (day s : Int) : Prop := z.midnight day ≤ s ∧ s < z.midnight (day + 1)

/-- A range whose bounds and midnights fit the queries: it begins on a day there is and ends before
the last one, the seconds its bounds are cut to make no difference, and the midnights of the days
that are walked divide its seconds as the local days do. -/
structure Fits (z : Zone) (start stop : Int) : Prop where
  firstDay   : FirstDay z start
  lastDay    : start < stop → ∀ e, Walked z start stop (z.localDay (start / SECOND)) e → e < LAST_DAY
  wholeStart : start < stop → start % SECOND = 0 ∨ stop / SECOND ≤ start / SECOND ∨
    ∀ e, Walked z start stop (z.localDay (start / SECOND)) e → ¬ Between z e (start / SECOND)
  wholeStop  : ∀ s, InRange start stop s → (s : Int) < stop / SECOND
  midnights  : ∀ s, InRange start stop s → ∀ e,
    Walked z start stop (z.localDay (start / SECOND)) e ∧ Between z e s ↔ e = z.localDay s

/-- The seconds counted under a day are those of the range that are on it. -/
def Cut (z : Zone) (start stop : Int) : Prop :=
  ∀ s : Nat, s < MAX_SECONDS → ∀ e,
    (Walked z start stop (z.localDay (start / SECOND)) e ∧ Between z e s ∧
      start / SECOND ≤ s ∧ s < stop / SECOND) ↔
    (start ≤ s * SECOND ∧ s * SECOND < stop ∧ z.localDay s = e)

theorem Fits.cut {z : Zone} {start stop : Int} (h : Fits z start stop) (hlt : start < stop) :
    Cut z start stop := by
  intro s hs e
  constructor
  · rintro ⟨hwalked, hbetween, hle, hend⟩
    have hstart : start ≤ s * SECOND := by
      by_contra hno
      obtain ⟨heq, hfraction⟩ := eq_floor hle (not_le.mp hno)
      rcases h.wholeStart hlt with hwhole | hsame | hnone
      · exact hfraction hwhole
      · omega
      · exact hnone e hwalked (heq ▸ hbetween)
    have hstop : s * SECOND < stop := lt_of_lt_floor hend
    exact ⟨hstart, hstop, ((h.midnights s ⟨hs, hstart, hstop⟩ e).mp ⟨hwalked, hbetween⟩).symm⟩
  · rintro ⟨hstart, hstop, hday⟩
    have hrange : InRange start stop s := ⟨hs, hstart, hstop⟩
    obtain ⟨hwalked, hbetween⟩ := (h.midnights s hrange e).mpr hday.symm
    exact ⟨hwalked, hbetween, floor_le hstart, h.wholeStop s hrange⟩

theorem Cut.fits {z : Zone} {start stop : Int} (hcut : start < stop → Cut z start stop)
    (hfirst : FirstDay z start) (hlast : start < stop → ∀ e,
      Walked z start stop (z.localDay (start / SECOND)) e → e < LAST_DAY) :
    Fits z start stop := by
  have hstop : ∀ s, InRange start stop s → (s : Int) < stop / SECOND := by
    rintro s ⟨hs, hlo, hhi⟩
    exact ((hcut (by omega) s hs (z.localDay s)).mpr ⟨hlo, hhi, rfl⟩).2.2.2
  refine ⟨hfirst, hlast, ?_, hstop, ?_⟩
  · intro hlt
    by_contra hno
    rw [not_or, not_or, not_forall] at hno
    obtain ⟨hfraction, hsame, e, he⟩ := hno
    rw [Classical.not_imp, not_not] at he
    obtain ⟨hwalked, hbetween⟩ := he
    obtain ⟨hpos, hin⟩ := floor_inYears hfirst.1
    have hcast : ((start / SECOND).toNat : Int) = start / SECOND := Int.toNat_of_nonneg hpos
    have hearly := (hcut hlt (start / SECOND).toNat (by omega) e).mp
    rw [hcast] at hearly
    have hle := (hearly ⟨hwalked, hbetween, le_refl _, by omega⟩).1
    exact absurd hle (not_le.mpr (floor_mul_lt hfraction))
  · rintro s ⟨hs, hlo, hhi⟩ e
    constructor
    · rintro ⟨hwalked, hbetween⟩
      exact ((hcut (by omega) s hs e).mp
        ⟨hwalked, hbetween, floor_le hlo, hstop s ⟨hs, hlo, hhi⟩⟩).2.2.symm
    · intro heq
      obtain ⟨hwalked, hbetween, -⟩ := (hcut (by omega) s hs e).mpr ⟨hlo, hhi, heq.symm⟩
      exact ⟨hwalked, hbetween⟩

/-- What a day's query takes, in seconds. -/
theorem inWindow_iff {z : Zone} {start stop day : Int} (hin : start < MAX_MICROS)
    (hlast : day < LAST_DAY) {m : Message} {s : Nat} (hs : s < MAX_SECONDS)
    (hts : m.ts = isoformat s) :
    inWindow z start stop day m = true ↔
      Between z day s ∧ start / SECOND ≤ s ∧ s < stop / SECOND := by
  have hlo := windowStart_lt (z := z) hin (show day ≤ LAST_DAY by omega)
  have hmid := z.midnight_bounds (day + 1)
  have hmax' : MAX_SECONDS = 3652059 * 86400 := rfl
  have hlastDay : LAST_DAY = 3652058 := rfl
  have hhi : windowEnd z stop day < (MAX_SECONDS : Int) := by
    unfold windowEnd
    omega
  rw [inWindow, Bool.and_eq_true_iff, decide_eq_true_eq, decide_eq_true_eq, hts, ← not_lt,
    isoformat_lt_iff hs (by omega), isoformat_lt_iff hs (by omega)]
  unfold Between windowStart windowEnd
  omega

/-- A message of a second, received without a card. -/
def stored (s : Nat) : Message where
  id            := 1
  device        := ""
  simId         := none
  direction     := "in"
  peer          := ""
  body          := ""
  ts            := isoformat s
  status        := ""
  readAt        := none
  isBinary      := 0
  truncated     := 0
  recoveredBody := none
  recoveredCode := none

theorem normalised_stored {s : Nat} (hs : s < MAX_SECONDS) : Normalised [stored s] :=
  List.forall_mem_singleton.mpr ⟨s, hs, rfl⟩

theorem iff_of_ite_eq {p q : Prop} [Decidable p] [Decidable q]
    (h : (if p then 1 else 0 : Nat) = if q then 1 else 0) : p ↔ q := by
  by_cases hp : p <;> by_cases hq : q <;> simp_all

theorem tally_stored (s : Nat) (p : Message → Bool) :
    tally [stored s] p none true = if p (stored s) then 1 else 0 := by
  cases hp : p (stored s) <;> rw [tally, List.filter_cons, hp] <;> rfl

theorem newest_mem (texts : List String) : texts.foldr max "" = "" ∨ texts.foldr max "" ∈ texts := by
  induction texts with
  | nil => exact Or.inl rfl
  | cons t ts ih =>
    rcases max_choice t (ts.foldr max "") with h | h
    · exact Or.inr (List.mem_cons.mpr (Or.inl h))
    · rw [List.foldr_cons, h]
      exact ih.imp_right (List.mem_cons_of_mem t)

section Conserves

variable {parse : String → Option Int} {z : Zone} {since : String} {start : Int}
  (hreads : ReadsBack parse) (hsince : parse since = some start)

include hreads

theorem inRange_iff {stop : Option Int} {day : Int} {m : Message} {s : Nat} (hs : s < MAX_SECONDS)
    (hts : m.ts = isoformat s) :
    inRange parse z start stop day m = true ↔
      start ≤ s * SECOND ∧ (∀ e ∈ stop, s * SECOND < e) ∧ z.localDay s = day := by
  have hdiv : (s : Int) * SECOND / SECOND = s := Int.mul_ediv_cancel s (by decide)
  rw [inRange, hts, hreads s hs]
  cases stop <;> simp [hdiv, and_assoc]

theorem newestEnd_stored {s : Nat} (hs : s < MAX_SECONDS) :
    newestEnd parse [stored s] start = .ok (s * SECOND) := by
  have hne : isoformat s ≠ "" := by
    intro h
    have hlen := congrArg (·.toList.length) h
    simp [isoformat, length_isoText] at hlen
  have hmax : max (isoformat s) "" = isoformat s := by
    refine max_eq_left (not_lt.mp ?_)
    rw [String.lt_iff_toList_lt]
    exact List.not_lt_nil _
  unfold newestEnd
  show (if max (isoformat s) "" = "" then _ else parsed parse (max (isoformat s) "")) = _
  rw [hmax, if_neg hne, parsed, hreads s hs]
  rfl

include hsince

/-- **A range with an end loses nothing exactly when it fits.** -/
theorem conserves_until {value : String} {stop : Int} (hne : value ≠ "")
    (huntil : parse value = some stop) :
    (∀ messages, Normalised messages →
      Conserves parse z messages since (some value) start (some stop)) ↔ Fits z start stop := by
  have hrange : ∀ {m : Message} {s : Nat}, s < MAX_SECONDS → m.ts = isoformat s → ∀ day,
      (inRange parse z start (some stop) day m = true ↔
        start ≤ s * SECOND ∧ s * SECOND < stop ∧ z.localDay s = day) := by
    intro m s hs hts day
    rw [inRange_iff hreads hs hts]
    simp
  constructor
  · intro hall
    obtain ⟨rows, hok, -⟩ := hall [] (List.forall_mem_nil _)
    have hfirst := messageTrend_first hsince hok
    by_cases hlt : start < stop
    · rcases rangeRows_spec hfirst hlt with ⟨-, hfail⟩ | ⟨hbefore, hrows⟩
      · rw [messageTrend_until hsince hne huntil hfirst, hfail] at hok
        cases hok
      · refine Cut.fits (fun _ => ?_) hfirst (fun _ => hbefore)
        intro s hs e
        -- one message tells whether its second is counted under the day
        obtain ⟨rows, hok, htotal⟩ := hall _ (normalised_stored hs)
        obtain ⟨rows', hok', htotals⟩ := hrows [stored s]
        rw [messageTrend_until hsince hne huntil hfirst, hok'] at hok
        cases hok
        have hone := htotal e none true
        rw [tally_stored] at hone
        rw [← hrange (m := stored s) hs rfl e]
        by_cases hwalked : Walked z start stop (z.localDay (start / SECOND)) e
        · rw [(htotals e none true).1 hwalked, tally_stored] at hone
          rw [← inWindow_iff (m := stored s) hfirst.1.2 (hbefore e hwalked) hs rfl,
            and_iff_right hwalked]
          exact iff_of_ite_eq hone
        · rw [(htotals e none true).2 hwalked] at hone
          constructor
          · intro hcounted
            exact absurd hcounted.1 hwalked
          · intro hin
            rw [if_pos hin] at hone
            exact absurd hone (by decide)
    · exact Cut.fits (fun h => absurd h hlt) hfirst (fun h => absurd h hlt)
  · intro hfits messages hnorm
    have htrend := messageTrend_until hsince hne huntil hfits.firstDay messages
    by_cases hlt : start < stop
    · rcases rangeRows_spec hfits.firstDay hlt with ⟨⟨e, he, hlate⟩, -⟩ | ⟨hbefore, hrows⟩
      · have hearly := hfits.lastDay hlt e he
        omega
      · obtain ⟨rows, hok, htotals⟩ := hrows messages
        refine ⟨rows, htrend.trans hok, ?_⟩
        intro day sim incoming
        by_cases hwalked : Walked z start stop (z.localDay (start / SECOND)) day
        · rw [(htotals day sim incoming).1 hwalked]
          refine tally_congr (fun m hm => ?_) sim incoming
          obtain ⟨s, hs, hts⟩ := hnorm m hm
          rw [Bool.eq_iff_iff, hrange hs hts day, ← hfits.cut hlt s hs day,
            inWindow_iff hfits.firstDay.1.2 (hbefore day hwalked) hs hts, and_iff_right hwalked]
        · rw [(htotals day sim incoming).2 hwalked]
          refine (tally_none fun m hm => ?_).symm
          obtain ⟨s, hs, hts⟩ := hnorm m hm
          rw [Bool.eq_false_iff, Ne, hrange hs hts day, ← hfits.cut hlt s hs day]
          intro hcounted
          exact hwalked hcounted.1
    · refine ⟨[], htrend.trans (if_neg hlt), ?_⟩
      intro day sim incoming
      refine (tally_none fun m hm => ?_).symm
      obtain ⟨s, hs, hts⟩ := hnorm m hm
      rw [Bool.eq_false_iff, Ne, hrange hs hts day]
      rintro ⟨hlo, hhi, -⟩
      omega

/-- **A range without an end** stops before the newest message, which is then never counted. -/
theorem conserves_newest {until' : Option String} (hnone : until'.filter (· != "") = none) :
    (∀ messages, Normalised messages → Conserves parse z messages since until' start none) ↔
      FirstDay z start ∧ ∀ s : Nat, s < MAX_SECONDS → s * SECOND < start := by
  constructor
  · intro hall
    obtain ⟨rows, hok, -⟩ := hall [] (List.forall_mem_nil _)
    have hfirst := messageTrend_first hsince hok
    refine ⟨hfirst, ?_⟩
    intro s hs
    by_contra hno
    obtain ⟨rows, hok, htotal⟩ := hall _ (normalised_stored hs)
    rw [messageTrend_newest hsince hnone hfirst, newestEnd_stored hreads hs] at hok
    have hone := htotal (z.localDay s) none true
    have hin : inRange parse z start none (z.localDay s) (stored s) = true :=
      (inRange_iff hreads hs rfl).mpr ⟨not_lt.mp hno, by simp, rfl⟩
    rw [tally_stored, if_pos hin] at hone
    have hdiv : (s : Int) * SECOND / SECOND = s := Int.mul_ediv_cancel s (by decide)
    by_cases hlt : start < s * SECOND
    · rcases rangeRows_spec hfirst hlt with ⟨-, hfail⟩ | ⟨hbefore, hrows⟩
      · exact absurd (hok.symm.trans (hfail [stored s])) (by simp)
      · obtain ⟨rows', hok', htotals⟩ := hrows [stored s]
        cases hok.symm.trans hok'
        by_cases hwalked : Walked z start (s * SECOND) (z.localDay (start / SECOND)) (z.localDay s)
        · rw [(htotals _ none true).1 hwalked, tally_stored] at hone
          rw [if_neg] at hone
          · exact absurd hone (by decide)
          · intro hwin
            have hlate := ((inWindow_iff hfirst.1.2 (hbefore _ hwalked) hs rfl).mp hwin).2.2
            omega
        · rw [(htotals _ none true).2 hwalked] at hone
          exact absurd hone (by decide)
    · cases hok.symm.trans (if_neg hlt)
      exact absurd (show (0 : Nat) = 1 from hone) (by decide)
  · rintro ⟨hfirst, hlate⟩ messages hnorm
    obtain ⟨stop, hstop, hle⟩ : ∃ stop, newestEnd parse messages start = .ok stop ∧ ¬ start < stop := by
      unfold newestEnd
      dsimp only
      by_cases hempty : (messages.map Message.ts).foldr max "" = ""
      · exact ⟨start, if_pos hempty, lt_irrefl start⟩
      · obtain ⟨m, hm, hts⟩ := List.mem_map.mp ((newest_mem _).resolve_left hempty)
        obtain ⟨s, hs, heq⟩ := hnorm m hm
        refine ⟨s * SECOND, ?_, not_lt.mpr (le_of_lt (hlate s hs))⟩
        rw [if_neg hempty, ← hts, heq, parsed, hreads s hs]
        rfl
    refine ⟨[], ?_, ?_⟩
    · rw [messageTrend_newest hsince hnone hfirst, hstop]
      exact if_neg hle
    · intro day sim incoming
      refine (tally_none fun m hm => ?_).symm
      obtain ⟨s, hs, hts⟩ := hnorm m hm
      rw [Bool.eq_false_iff, Ne, inRange_iff hreads hs hts]
      rintro ⟨hlo, -⟩
      exact absurd hlo (not_le.mpr (hlate s hs))

end Conserves

/-- **Ordinary ranges fit**: whole seconds, before the last day, in a zone whose clock neither skips
a midnight nor goes back over one. -/
theorem Fits.of_orderly {z : Zone} {start stop : Int} (hz : z.Orderly) (hfirst : FirstDay z start)
    (hlast : stop ≤ z.midnight LAST_DAY * SECOND) (hstart : start % SECOND = 0)
    (hstop : stop % SECOND = 0) : Fits z start stop := by
  have hmono : ∀ d e, d ≤ e → z.midnight d ≤ z.midnight e := by
    intro d e hle
    exact (hz d _).mpr (le_trans hle ((hz e _).mp (le_refl _)))
  have hopen : ∀ d, z.localDay (start / SECOND) ≤ d → start < z.midnight (d + 1) * SECOND := by
    intro d hle
    have hnot : ¬ z.midnight (d + 1) ≤ start / SECOND := by
      rw [hz]
      omega
    unfold SECOND at *
    omega
  refine ⟨hfirst, ?_, fun _ => Or.inl hstart, ?_, ?_⟩
  · rintro hlt e ⟨hle, hall⟩
    by_contra hlate
    by_cases hd : z.localDay (start / SECOND) < LAST_DAY
    · have hpass := (hall (LAST_DAY - 1) (by omega) (by omega)).1
      rw [Int.sub_add_cancel] at hpass
      omega
    · have hmid := (hz LAST_DAY (start / SECOND)).mpr (by omega)
      unfold SECOND at *
      omega
  · rintro s ⟨-, -, hhi⟩
    unfold SECOND at *
    omega
  · rintro s ⟨-, hlo, hhi⟩ e
    have hbetween : Between z e s ↔ e = z.localDay s := by
      have hfrom := hz e s
      have hto := hz (e + 1) s
      unfold Between
      omega
    rw [hbetween, and_iff_right_iff_imp]
    rintro rfl
    refine ⟨?_, ?_⟩
    · exact (hz _ _).mp (le_trans ((hz _ _).mpr (le_refl _)) (floor_le hlo))
    · intro d hle hlt
      have hmid := (hz (d + 1) s).mpr (by omega)
      refine ⟨?_, Or.inr (hopen d hle)⟩
      unfold SECOND at *
      omega

/-- The moment a text is of, among the texts that are stored. -/
def readback (text : String) : Option Int :=
  ((List.range MAX_SECONDS).find? fun s => isoformat s = text).map fun s => s * SECOND

theorem reads_readback : ReadsBack readback := by
  intro s hs
  unfold readback
  have hfound : (List.range MAX_SECONDS).find? (fun t => isoformat t = isoformat s) = some s := by
    rw [List.find?_range_eq_some]
    refine ⟨decide_eq_true rfl, List.mem_range.mpr hs, ?_⟩
    intro t ht
    have hlt := (isoformat_lt_iff (by omega) hs).mpr ht
    rw [Bool.not_eq_true', decide_eq_false_iff_not]
    exact ne_of_lt hlt
  rw [hfound]
  rfl

/-- Two moments that a text can be of. -/
def twoMoments (text : String) : Option Int :=
  if text = isoformat 63902736000 then some (63902736000 * SECOND)
  else if text = isoformat 63902779200 then some (63902779200 * SECOND)
  else none

end Air780eHub.Messages
