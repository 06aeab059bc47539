/-
  The crontab grammar, and what `parse_cron` makes of it.

  1. **Elements**: `*`, `a` and `a-b`, with or without a step, and the values they name.
  2. **Spellings**: a way to write numbers and the whole range.  The grammar is one definition over
     a spelling; crontab writes numbers in decimal digits, `parse_cron` reads whatever `int` reads
     and takes an empty body for the whole range.
  3. **Numbers** (`pyInt_numeral`, `pyInt_chars`): where the two spellings agree.
  4. **The parser** (`parsePart_spec`): it accepts exactly the grammar over its own spelling, and
     reads `a/1` as `a`.
-/
import Air780eHub.Schedule.Calendar

namespace Air780eHub.Schedule

/-! ## Elements -/

inductive Element
  | whole (step : Option Nat)
  | single (start : Nat) (step : Option Nat)
  | range (start stop : Nat) (step : Option Nat)

/-- The values an element names: from its start on in steps, to its end or to the field's. -/
def Element.Names (low high : Nat) : Element → Nat → Prop
  | .whole step, v           => low ≤ v ∧ v ≤ high ∧ (v - low) % step.getD 1 = 0
  | .single start none, v    => v = start
  | .single start (some n), v => start ≤ v ∧ v ≤ high ∧ (v - start) % n = 0
  | .range start stop step, v => start ≤ v ∧ v ≤ stop ∧ (v - start) % step.getD 1 = 0

/-- The bounds are in order and in range, and the step is positive. -/
def Element.Valid (low high : Nat) : Element → Prop
  | .whole step            => ∀ n ∈ step, 1 ≤ n
  | .single start step     => low ≤ start ∧ start ≤ high ∧ ∀ n ∈ step, 1 ≤ n
  | .range start stop step => low ≤ start ∧ start ≤ stop ∧ stop ≤ high ∧ ∀ n ∈ step, 1 ≤ n

/-- `_parse_field` takes `a/1` for `a`. -/
def Element.asRead : Element → Element
  | .single start (some 1) => .single start none
  | e                      => e

/-- One of the elements names the value. -/
def Named (low high : Nat) (es : List Element) (v : Nat) : Prop := ∃ e ∈ es, e.Names low high v

/-! ## Spellings -/

/-- How a number is written, and how the whole range is. -/
structure Spelling where
  number : List Char → Nat → Prop
  whole  : List Char → Prop

/-- The text before a step, and the element it makes. -/
inductive Body (sp : Spelling) : List Char → (Option Nat → Element) → Prop
  | whole {w} : sp.whole w → Body sp w .whole
  | single {w a} : sp.number w a → '-' ∉ w → Body sp w (.single a)
  | range {w w' a b} : sp.number w a → '-' ∉ w → sp.number w' b →
      Body sp (w ++ '-' :: w') (.range a b)

/-- One element of a comma list. -/
inductive Part (sp : Spelling) : List Char → Element → Prop
  | plain {w e} : Body sp w e → '/' ∉ w → Part sp w (e none)
  | stepped {w w' e n} : Body sp w e → '/' ∉ w → sp.number w' n →
      Part sp (w ++ '/' :: w') (e (some n))

/-- A field is a comma list of elements. -/
def FieldLine (sp : Spelling) (low high : Nat) (raw : List Char) (es : List Element) : Prop :=
  List.Forall₂ (fun part e => Part sp part e ∧ e.Valid low high) (splitBy (· == ',') raw) es

/-- A decimal digit, and a run of them. -/
def Numeral (w : List Char) : Prop := w ≠ [] ∧ ∀ c ∈ w, '0' ≤ c ∧ c ≤ '9'

/-- The number a run of decimal digits writes. -/
def numeralValue (w : List Char) : Nat := ofDigits (w.map fun c => c.toNat - 48)

/-- The five fields of a line, with the texts of the two day fields. -/
structure Entry where
  minutes : List Element
  hours   : List Element
  doms    : List Element
  months  : List Element
  dows    : List Element
  dom     : List Char
  dow     : List Char

/-- A line of five fields. -/
def Line (sp : Spelling) (expression : List Char) (x : Entry) : Prop :=
  ∃ minute hour month, splitSpace expression = [minute, hour, x.dom, month, x.dow]
    ∧ FieldLine sp 0 59 minute x.minutes ∧ FieldLine sp 0 23 hour x.hours
    ∧ FieldLine sp 1 31 x.dom x.doms ∧ FieldLine sp 1 12 month x.months
    ∧ FieldLine sp 0 7 x.dow x.dows

/-- Crontab's way of writing. -/
def crontab : Spelling where
  number w n := Numeral w ∧ n = numeralValue w
  whole w    := w = ['*']

/-- What `parse_cron` reads. -/
def lenient : Spelling where
  number w n := pyInt w = some (n : Int)
  whole w    := w = ['*'] ∨ w = []

/-! ## Numbers -/

theorem digit_ascii {c : Char} (h : '0' ≤ c ∧ c ≤ '9') : digit c = some (c.toNat - 48) := by
  have hlo : 48 ≤ c.toNat := h.1
  have hhi : c.toNat ≤ 57 := h.2
  have hfind : (DIGIT_ZEROS.find? fun z => z ≤ c.toNat && c.toNat ≤ z + 9) = some 0x30 := by
    rw [DIGIT_ZEROS, List.find?_cons_of_pos]
    simp only [Bool.and_eq_true, decide_eq_true_eq]
    omega
  rw [digit, hfind]
  rfl

theorem takeDigits_numeral {w : List Char} (h : ∀ c ∈ w, '0' ≤ c ∧ c ≤ '9') :
    takeDigits w = (w.map fun c => c.toNat - 48, []) := by
  induction w with
  | nil => rfl
  | cons c cs ih =>
    rw [List.forall_mem_cons] at h
    rw [takeDigits, digit_ascii h.1, ih h.2]
    rfl

theorem dropUnderscores_numeral {w : List Char} (h : ∀ c ∈ w, '0' ≤ c ∧ c ≤ '9') (b : Bool) :
    dropUnderscores b w = some w := by
  induction w generalizing b with
  | nil => rfl
  | cons c cs ih =>
    rw [List.forall_mem_cons] at h
    have hne : c ≠ '_' := by
      rintro rfl
      exact absurd h.1.2 (by decide)
    rw [dropUnderscores, if_neg hne, ih h.2]
    rfl

theorem takeSign_numeral {w : List Char} (h : ∀ c ∈ w, '0' ≤ c ∧ c ≤ '9') :
    takeSign w = (false, w) := by
  match w, h with
  | [], _ => rfl
  | c :: cs, h =>
    have hc := h c List.mem_cons_self
    unfold takeSign
    split
    · rename_i heq
      obtain ⟨rfl, -⟩ := List.cons.inj heq
      exact absurd hc.1 (by decide)
    · rename_i heq
      obtain ⟨rfl, -⟩ := List.cons.inj heq
      exact absurd hc.1 (by decide)
    · rfl

/-- **`int` reads a run of decimal digits, up to its limit.** -/
theorem pyInt_numeral {w : List Char} (h : Numeral w) :
    pyInt w = if w.length ≤ INT_MAX_STR_DIGITS then some (numeralValue w : Int) else none := by
  obtain ⟨hne, hall⟩ := h
  rw [pyInt, takeSign_numeral hall, dropUnderscores_numeral hall, Option.map_some,
    takeDigits_numeral hall]
  obtain ⟨c, cs, rfl⟩ := List.exists_cons_of_ne_nil hne
  simp only [List.map_cons, List.length_cons, List.length_map, Bool.false_eq_true, if_false,
    numeralValue]

theorem takeDigits_all {w : List Char} (h : (takeDigits w).2 = []) :
    ∀ c ∈ w, (digit c).isSome := by
  induction w with
  | nil => exact fun c hc => absurd hc List.not_mem_nil
  | cons c cs ih =>
    rw [takeDigits] at h
    cases hd : digit c with
    | none =>
      rw [hd] at h
      cases h
    | some d =>
      rw [hd] at h
      rw [List.forall_mem_cons]
      exact ⟨by rw [hd]; rfl, ih h⟩

theorem dropUnderscores_keeps {w ds : List Char} {b : Bool} (h : dropUnderscores b w = some ds) :
    ∀ c ∈ w, c = '_' ∨ c ∈ ds := by
  induction w generalizing b ds with
  | nil => exact fun c hc => absurd hc List.not_mem_nil
  | cons a w ih =>
    rw [dropUnderscores] at h
    rw [List.forall_mem_cons]
    split at h
    · rename_i ha
      split at h
      · exact ⟨.inl ha, ih h⟩
      · cases h
    · obtain ⟨ds', hds', rfl⟩ := Option.map_eq_some_iff.mp h
      exact ⟨.inr List.mem_cons_self, fun c hc => (ih hds' c hc).imp_right (List.mem_cons_of_mem _)⟩

/-- **What `int` reads consists of digits and underscores, after a sign.** -/
theorem pyInt_chars {w : List Char} {n : Int} (h : pyInt w = some n) :
    (takeSign w).2 ≠ [] ∧ ∀ c ∈ (takeSign w).2, c = '_' ∨ (digit c).isSome := by
  rw [pyInt] at h
  split at h
  · rename_i d ds hmap
    obtain ⟨cs, hcs, hdigits⟩ := Option.map_eq_some_iff.mp hmap
    have hall := takeDigits_all (congrArg Prod.snd hdigits)
    constructor
    · intro hempty
      rw [hempty] at hcs
      obtain rfl := Option.some.inj hcs
      cases hdigits
    · intro c hc
      exact (dropUnderscores_keeps hcs c hc).imp_right (hall c)
  · cases h

/-! ## The parser -/

theorem partition_append {c : Char} {w : List Char} (h : c ∉ w) (w' : List Char) :
    partition c (w ++ c :: w') = (w, w') := by
  have hall : ∀ x ∈ w, decide (x ≠ c) = true := fun x hx =>
    decide_eq_true fun heq => h (heq ▸ hx)
  rw [partition, List.takeWhile_append_of_pos hall, List.dropWhile_append_of_pos hall]
  simp

theorem partition_eq {c : Char} {w : List Char} (h : c ∈ w) :
    w = (partition c w).1 ++ c :: (partition c w).2 ∧ c ∉ (partition c w).1 := by
  obtain ⟨u, u', rfl, hu⟩ := List.eq_append_cons_of_mem h
  rw [partition_append hu]
  exact ⟨rfl, hu⟩

/-- A stretch in steps, in natural numbers as in integers. -/
theorem stretch_cast {v start stop n : Nat} :
    (start ≤ v ∧ v ≤ stop ∧ (v - start) % n = 0)
      ↔ ((start : Int) ≤ v ∧ (v : Int) ≤ stop ∧ ((v : Int) - start) % (n : Int) = 0) := by
  rw [Int.ofNat_le, Int.ofNat_le, and_congr_right_iff]
  intro hle
  rw [← Int.ofNat_sub hle]
  exact_mod_cast Iff.rfl

/-- The bounds the parser takes for an element are those of the element as it reads it. -/
theorem partBounds_body {low high : Nat} (hr : low ≤ high) {w : List Char}
    {f : Option Nat → Element} (hb : Body lenient w f) {step : Option Nat}
    (hs : ∀ n ∈ step, 1 ≤ n) :
    ∃ a b : Int, partBounds w (step.getD 1 : Nat) low high = some (a, b)
      ∧ ((f step).Valid low high ↔ (low : Int) ≤ a ∧ a ≤ b ∧ b ≤ high)
      ∧ ∀ v : Nat, (f step).asRead.Names low high v ↔
          a ≤ v ∧ v ≤ b ∧ ((v : Int) - a) % (step.getD 1 : Nat) = 0 := by
  cases hb with
  | whole hw =>
    have hw' : w = ['*'] ∨ w = [] := hw
    exact ⟨low, high, by rw [partBounds, if_pos hw'], ⟨fun _ => by omega, fun _ => hs⟩,
      fun _ => stretch_cast⟩
  | @single _ start hnum hdash =>
    have hnum' : pyInt w = some (start : Int) := hnum
    have hw : ¬ (w = ['*'] ∨ w = []) := by
      rintro (rfl | rfl) <;> cases hnum'
    rw [partBounds, if_neg hw, if_neg hdash, hnum', Option.map_some]
    by_cases hone : 1 < ((step.getD 1 : Nat) : Int)
    · rw [if_pos hone]
      refine ⟨start, high, rfl, ⟨fun h => ?_, fun h => ?_⟩, fun v => ?_⟩
      · obtain ⟨hl, hh, -⟩ : low ≤ start ∧ start ≤ high ∧ _ := h
        omega
      · exact ⟨by omega, by omega, hs⟩
      · match step, hone with
        | some (n + 2), _ => exact stretch_cast
    · rw [if_neg hone]
      refine ⟨start, start, rfl, ⟨fun h => ?_, fun h => ?_⟩, fun v => ?_⟩
      · obtain ⟨hl, hh, -⟩ : low ≤ start ∧ start ≤ high ∧ _ := h
        omega
      · exact ⟨by omega, by omega, hs⟩
      · -- a step of one is dropped
        have hread : (Element.single start step).asRead = .single start none := by
          match step, hone, hs with
          | none, _, _       => rfl
          | some 1, _, _     => rfl
          | some 0, _, hs    => exact absurd (hs 0 rfl) (by decide)
          | some (n + 2), hone, _ =>
            have : ¬ 1 < ((n + 2 : Nat) : Int) := hone
            omega
        rw [hread]
        show v = start ↔ _
        constructor
        · rintro rfl
          rw [Int.sub_self, Int.zero_emod]
          exact ⟨le_rfl, le_rfl, rfl⟩
        · rintro ⟨hl, hh, -⟩
          omega
  | @range w w' start stop hnum hdash hnum' =>
    have hnum₁ : pyInt w = some (start : Int) := hnum
    have hnum₂ : pyInt w' = some (stop : Int) := hnum'
    have hw : ¬ (w ++ '-' :: w' = ['*'] ∨ w ++ '-' :: w' = []) := by
      rintro (h | h)
      · have hmem : '-' ∈ ['*'] := h ▸ List.mem_append_right _ List.mem_cons_self
        exact absurd hmem (by decide)
      · exact absurd h (List.append_ne_nil_of_right_ne_nil _ (List.cons_ne_nil _ _))
    rw [partBounds, if_neg hw, if_pos (List.mem_append_right _ List.mem_cons_self),
      partition_append hdash, hnum₁, hnum₂]
    refine ⟨start, stop, rfl, ⟨fun h => ?_, fun h => ?_⟩, fun v => ?_⟩
    · obtain ⟨hl, hle, hh, -⟩ : low ≤ start ∧ start ≤ stop ∧ stop ≤ high ∧ _ := h
      omega
    · exact ⟨by omega, by omega, by omega, hs⟩
    · exact stretch_cast

/-- Bounds that are in range come from an element's body. -/
theorem body_of_bounds {low high : Nat} {w : List Char} {step a b : Int}
    (h : partBounds w step low high = some (a, b)) (ha : 0 ≤ a) (hab : a ≤ b) :
    ∃ f, Body lenient w f := by
  rw [partBounds] at h
  split at h
  · rename_i hw
    exact ⟨_, .whole hw⟩
  · split at h
    · rename_i hdash
      split at h
      · rename_i a' b' ha' hb'
        obtain ⟨rfl, rfl⟩ := Prod.mk.inj (Option.some.inj h)
        obtain ⟨heq, hno⟩ := partition_eq hdash
        rw [heq]
        exact ⟨_, .range (show pyInt _ = some ((a'.toNat : Nat) : Int) by
            rw [ha', Int.toNat_of_nonneg ha]) hno
          (show pyInt _ = some ((b'.toNat : Nat) : Int) by
            rw [hb', Int.toNat_of_nonneg (ha.trans hab)])⟩
      · cases h
    · rename_i hdash
      obtain ⟨n, hn, heq⟩ := Option.map_eq_some_iff.mp h
      obtain ⟨rfl, -⟩ := Prod.mk.inj heq
      exact ⟨_, .single (show pyInt _ = some ((n.toNat : Nat) : Int) by
        rw [hn, Int.toNat_of_nonneg ha]) hdash⟩

/-- **The parser accepts an element of the grammar over its own spelling**, and reads it as
    `asRead` says. -/
theorem parsePart_of {low high : Nat} (hr : low ≤ high) {part : List Char} {e : Element}
    (hp : Part lenient part e) (hv : e.Valid low high) :
    ∃ vs, parsePart low high part = .ok vs ∧ ∀ v, v ∈ vs ↔ e.asRead.Names low high v := by
  -- what is left once the step is known
  have hcase : ∀ (w : List Char) (f : Option Nat → Element) (step : Option Nat),
      Body lenient w f → (f step).Valid low high → (∀ n ∈ step, 1 ≤ n) → partBody part = w →
      partStep part = some ((step.getD 1 : Nat) : Int) →
      ∃ vs, parsePart low high part = .ok vs ∧ ∀ v, v ∈ vs ↔ (f step).asRead.Names low high v := by
    intro w f step hb hv hs hbody hstep
    obtain ⟨a, b, hbounds, hvalid, hnames⟩ := partBounds_body hr hb hs
    obtain ⟨hlow, hle, hhigh⟩ := hvalid.mp hv
    refine ⟨_, parsePart_eq_ok.mpr ⟨_, a, b, hstep, by rw [hbody]; exact hbounds, hlow, hle, hhigh,
      rfl⟩, fun v => ?_⟩
    rw [List.mem_filter, List.mem_range, decide_eq_true_eq, hnames]
    refine and_iff_right_of_imp fun h => ?_
    omega
  have hpos : ∀ (f : Option Nat → Element) (w : List Char) (step : Option Nat),
      Body lenient w f → (f step).Valid low high → ∀ n ∈ step, 1 ≤ n := by
    intro f w step hb hv
    cases hb with
    | whole _ => exact hv
    | single _ _ => exact hv.2.2
    | range _ _ _ => exact hv.2.2.2
  cases hp with
  | plain hb hslash =>
    exact hcase _ _ none hb hv nofun (by rw [partBody, if_neg hslash])
      (by rw [partStep, if_neg hslash]; rfl)
  | @stepped w w' f n hb hslash hnum =>
    have hmem : '/' ∈ w ++ '/' :: w' := List.mem_append_right _ List.mem_cons_self
    have hs := hpos f w (some n) hb hv
    refine hcase w f (some n) hb hv hs ?_ ?_
    · rw [partBody, if_pos hmem, partition_append hslash]
    · have hnum' : pyInt w' = some (n : Int) := hnum
      have hn : (1 : Int) ≤ n := by have := hs n rfl; omega
      rw [partStep, if_pos hmem, partition_append hslash, hnum']
      simp [Option.filter, hn]

/-- **What the parser accepts is an element of that grammar.** -/
theorem parsePart_to {low high : Nat} (hr : low ≤ high) {part : List Char} {vs : List Nat}
    (h : parsePart low high part = .ok vs) :
    ∃ e, Part lenient part e ∧ e.Valid low high := by
  obtain ⟨step, a, b, hstep, hbounds, hlow, hle, hhigh, -⟩ := parsePart_eq_ok.mp h
  have hpos := partStep_pos hstep
  obtain ⟨f, hb⟩ := body_of_bounds hbounds (by omega) hle
  by_cases hslash : '/' ∈ part
  · obtain ⟨heq, hno⟩ := partition_eq hslash
    rw [partBody, if_pos hslash] at hb hbounds
    rw [partStep, if_pos hslash] at hstep
    have hnum : pyInt (partition '/' part).2 = some ((step.toNat : Nat) : Int) := by
      rw [Int.toNat_of_nonneg (by omega)]
      exact (Option.filter_eq_some_iff.mp hstep).1
    refine ⟨f (some step.toNat), ?_, ?_⟩
    · rw [heq]
      exact .stepped hb hno hnum
    · obtain ⟨a', b', hbounds', hvalid, -⟩ :=
        partBounds_body hr hb (show ∀ n ∈ some step.toNat, 1 ≤ n by rintro n ⟨⟩; omega)
      have hcast : (((some step.toNat).getD 1 : Nat) : Int) = step :=
        Int.toNat_of_nonneg (by omega)
      rw [hcast, hbounds] at hbounds'
      obtain ⟨rfl, rfl⟩ := Prod.mk.inj (Option.some.inj hbounds')
      exact hvalid.mpr ⟨hlow, hle, hhigh⟩
  · rw [partBody, if_neg hslash] at hb hbounds
    rw [partStep, if_neg hslash] at hstep
    obtain rfl := Option.some.inj hstep
    refine ⟨f none, .plain hb hslash, ?_⟩
    obtain ⟨a', b', hbounds', hvalid, -⟩ :=
      partBounds_body hr hb fun n hn => absurd hn (Option.not_mem_none n)
    have hbounds'' : partBounds part 1 low high = some (a', b') := hbounds'
    rw [hbounds] at hbounds''
    obtain ⟨rfl, rfl⟩ := Prod.mk.inj (Option.some.inj hbounds'')
    exact hvalid.mpr ⟨hlow, hle, hhigh⟩

/-! ## Fields -/

/-- A value an element names lies in the field's range. -/
theorem Element.Names.bounds {low high v : Nat} {e : Element} (hv : e.Valid low high)
    (h : e.Names low high v) : low ≤ v ∧ v ≤ high := by
  match e, hv, h with
  | .whole _, _, ⟨hl, hh, _⟩                       => exact ⟨hl, hh⟩
  | .single start none, ⟨hl, hh, _⟩, h              =>
    have heq : v = start := h
    exact ⟨heq ▸ hl, heq ▸ hh⟩
  | .single start (some _), ⟨hl, _, _⟩, ⟨hs, hh, _⟩ => exact ⟨hl.trans hs, hh⟩
  | .range _ _ _, ⟨hl, _, hh, _⟩, ⟨hs, he, _⟩       => exact ⟨hl.trans hs, he.trans hh⟩

theorem Element.Valid.asRead {low high : Nat} {e : Element} (h : e.Valid low high) :
    e.asRead.Valid low high := by
  unfold Element.asRead
  split
  · exact ⟨h.1, h.2.1, nofun⟩
  · exact h

/-- The field `*` has one element. -/
theorem part_star {e : Element} (h : Part lenient ['*'] e) : e = .whole none := by
  generalize hw : ['*'] = w at h
  cases h with
  | plain hb _ =>
    cases hb with
    | whole _ => rfl
    | single hnum _ =>
      rw [← hw] at hnum
      have hnone : pyInt ['*'] = none := by decide
      exact absurd (hnone.symm.trans hnum) nofun
    | range _ _ _ =>
      have hmem : '-' ∈ ['*'] := hw ▸ List.mem_append_right _ List.mem_cons_self
      exact absurd hmem (by decide)
  | stepped _ _ _ =>
    have hmem : '/' ∈ ['*'] := hw ▸ List.mem_append_right _ List.mem_cons_self
    exact absurd hmem (by decide)

theorem mapM_ok_of {α β γ : Type} {f : α → Except Failure β} {R : α → γ → Prop}
    {S : γ → β → Prop} (hf : ∀ a c, R a c → ∃ b, f a = .ok b ∧ S c b) {as : List α} {cs : List γ}
    (h : List.Forall₂ R as cs) : ∃ bs, as.mapM f = .ok bs ∧ List.Forall₂ S cs bs := by
  induction h with
  | nil => exact ⟨[], rfl, .nil⟩
  | cons hac _ ih =>
    obtain ⟨b, hb, hs⟩ := hf _ _ hac
    obtain ⟨bs, hbs, hss⟩ := ih
    refine ⟨b :: bs, ?_, .cons hs hss⟩
    rw [List.mapM_cons, hb, hbs]
    rfl

theorem of_mapM_ok {α β γ : Type} {f : α → Except Failure β} {R : α → γ → Prop}
    (hf : ∀ a b, f a = .ok b → ∃ c, R a c) {as : List α} {bs : List β}
    (h : as.mapM f = .ok bs) : ∃ cs, List.Forall₂ R as cs := by
  induction as generalizing bs with
  | nil => exact ⟨[], .nil⟩
  | cons a as ih =>
    rw [List.mapM_cons] at h
    obtain ⟨b, hb, h⟩ := of_except_bind_ok h
    obtain ⟨bs', hbs, -⟩ := of_except_bind_ok h
    obtain ⟨c, hc⟩ := hf a b hb
    obtain ⟨cs, hcs⟩ := ih hbs
    exact ⟨c :: cs, .cons hc hcs⟩

/-- The parser's values for an element. -/
def ReadAs (low high : Nat) (e : Element) (vs : List Nat) : Prop :=
  e.Valid low high ∧ ∀ v, v ∈ vs ↔ e.asRead.Names low high v

theorem named_sets {low high : Nat} {es : List Element} {sets : List (List Nat)}
    (h : List.Forall₂ (ReadAs low high) es sets) (v : Nat) :
    (low ≤ v ∧ v ≤ high ∧ (sets.any fun vs => v ∈ vs) = true)
      ↔ Named low high (es.map .asRead) v := by
  induction h with
  | nil => simp [Named]
  | @cons e vs es sets he _ ih =>
    obtain ⟨hv, hmem⟩ := he
    have hhead : Named low high ((e :: es).map .asRead) v
        ↔ e.asRead.Names low high v ∨ Named low high (es.map .asRead) v := by
      simp only [Named, List.map_cons, List.exists_mem_cons_iff]
    rw [hhead, ← ih, List.any_cons, Bool.or_eq_true, decide_eq_true_eq, hmem]
    have hb := fun hn => Element.Names.bounds hv.asRead (v := v) hn
    tauto

/-- **A field of the grammar is accepted, and its values are those of its elements as read.** -/
theorem parseField_of {low high : Nat} (hr : low ≤ high) {raw : List Char} {es : List Element}
    (hne : raw ≠ []) (h : FieldLine lenient low high raw es) :
    ∃ f any, parseField low high raw = .ok (f, any) ∧ (any = true ↔ raw = ['*'])
      ∧ ∀ v, v ∈ f.values ↔ Named low high (es.map .asRead) v := by
  by_cases hstar : raw = ['*']
  · subst hstar
    refine ⟨_, true, parseField_eq_ok.mpr (.inl ⟨rfl, rfl, rfl⟩), by simp, fun v => ?_⟩
    cases h with
    | cons he hes =>
      cases hes with
      | nil =>
        rw [part_star he.1, Field.mem_ofPred]
        constructor
        · rintro ⟨hl, hh, -⟩
          exact ⟨_, List.mem_singleton_self _, hl, hh, Nat.mod_one _⟩
        · rintro ⟨e, he, hnames⟩
          obtain rfl := List.mem_singleton.mp he
          exact ⟨hnames.1, hnames.2.1, rfl⟩
  · have hparts : ∀ part e, Part lenient part e ∧ e.Valid low high →
        ∃ vs, parsePart low high part = .ok vs ∧ ReadAs low high e vs := by
      rintro part e ⟨hp, hv⟩
      obtain ⟨vs, hvs, hmem⟩ := parsePart_of hr hp hv
      exact ⟨vs, hvs, hv, hmem⟩
    obtain ⟨sets, hsets, hss⟩ := mapM_ok_of hparts h
    refine ⟨_, false, parseField_eq_ok.mpr (.inr ⟨hne, hstar, rfl, sets, hsets, rfl⟩),
      by simp [hstar], fun v => ?_⟩
    rw [Field.mem_ofPred]
    exact named_sets hss v

/-- **What is accepted as a field is a field of the grammar.** -/
theorem parseField_to {low high : Nat} (hr : low ≤ high) {raw : List Char} {f : Field low high}
    {any : Bool} (h : parseField low high raw = .ok (f, any)) :
    ∃ es, FieldLine lenient low high raw es := by
  rcases parseField_eq_ok.mp h with ⟨rfl, -, -⟩ | ⟨-, -, -, sets, hsets, -⟩
  · exact ⟨[.whole none], .cons ⟨.plain (.whole (.inl rfl)) (by decide), nofun⟩ .nil⟩
  · exact of_mapM_ok (fun part vs hvs => parsePart_to hr hvs) hsets

end Air780eHub.Schedule
