/-
  Which lines `parse_cron` reads as crontab does.

  1. **Lines** (`parseCron_of`, `parseCron_to`): the parser accepts exactly the lines of the grammar
     over its own spelling.
  2. **Two spellings, one line** (`Line.to_crontab`, `Line.to_lenient`): where every piece between
     the separators is a star or a run of decimal digits, and no number is longer than `int`
     allows, the two grammars agree.
  3. **What crontab means** (`Cron.Denotes`) and when the parser means the same
     (`parseCron_faithful_iff`): it loses the rest of the range after `a/1`, and it does not count
     a day field that begins with a star among the unrestricted ones.
-/
import Air780eHub.Schedule.Crontab

namespace Air780eHub.Schedule

open Gregorian (Date)

/-! ## Lines -/

/-- What the parser holds of a line. -/
structure Cron.ReadsAs (c : Cron) (x : Entry) : Prop where
  minutes : ∀ v, v ∈ c.minutes.values ↔ Named 0 59 (x.minutes.map .asRead) v
  hours   : ∀ v, v ∈ c.hours.values ↔ Named 0 23 (x.hours.map .asRead) v
  doms    : ∀ v, v ∈ c.doms.values ↔ Named 1 31 (x.doms.map .asRead) v
  months  : ∀ v, v ∈ c.months.values ↔ Named 1 12 (x.months.map .asRead) v
  dows    : ∀ v, v ∈ c.dows.values ↔ ∃ w, Named 0 7 (x.dows.map .asRead) w ∧ w % 7 = v
  domAny  : c.domAny = true ↔ x.dom = ['*']
  dowAny  : c.dowAny = true ↔ x.dow = ['*']

theorem splitSpace_ne_nil {expression field : List Char} (h : field ∈ splitSpace expression) :
    field ≠ [] := by
  have hne := (List.mem_filter.mp h).2
  rintro rfl
  cases hne

/-- Folding 7 to 0 is counting modulo the week. -/
theorem mem_sundays_iff {f : Field 0 7} {v : Nat} :
    v ∈ (sundays f).values ↔ ∃ w ∈ f.values, w % 7 = v := by
  rw [mem_sundays]
  constructor
  · rintro ⟨hle, hv | ⟨rfl, h7⟩⟩
    · exact ⟨v, hv, Nat.mod_eq_of_lt (by omega)⟩
    · exact ⟨7, h7, rfl⟩
  · rintro ⟨w, hw, rfl⟩
    have hle := (f.bounded w hw).2
    by_cases h7 : w = 7
    · subst h7
      exact ⟨by decide, .inr ⟨rfl, hw⟩⟩
    · rw [Nat.mod_eq_of_lt (by omega)]
      exact ⟨by omega, .inl hw⟩

/-- **A line of the grammar is accepted.** -/
theorem parseCron_of {expression : List Char} {x : Entry} (h : Line lenient expression x) :
    ∃ c, parseCron expression = .ok c ∧ c.ReadsAs x := by
  obtain ⟨minute, hour, month, hfields, h₁, h₂, h₃, h₄, h₅⟩ := h
  have hne : ∀ field ∈ [minute, hour, x.dom, month, x.dow], field ≠ [] := fun field hf =>
    splitSpace_ne_nil (hfields ▸ hf)
  simp only [List.forall_mem_cons] at hne
  obtain ⟨hn₁, hn₂, hn₃, hn₄, hn₅, -⟩ := hne
  obtain ⟨f₁, a₁, hp₁, -, hv₁⟩ := parseField_of (by decide) hn₁ h₁
  obtain ⟨f₂, a₂, hp₂, -, hv₂⟩ := parseField_of (by decide) hn₂ h₂
  obtain ⟨f₃, a₃, hp₃, ha₃, hv₃⟩ := parseField_of (by decide) hn₃ h₃
  obtain ⟨f₄, a₄, hp₄, -, hv₄⟩ := parseField_of (by decide) hn₄ h₄
  obtain ⟨f₅, a₅, hp₅, ha₅, hv₅⟩ := parseField_of (by decide) hn₅ h₅
  refine ⟨_, parseCron_eq_ok.mpr ⟨minute, hour, x.dom, month, x.dow, hfields, (f₁, a₁), (f₂, a₂),
    (f₃, a₃), (f₄, a₄), (f₅, a₅), hp₁, hp₂, hp₃, hp₄, hp₅, rfl⟩,
    ⟨hv₁, hv₂, hv₃, hv₄, fun v => ?_, ha₃, ha₅⟩⟩
  simp only [mem_sundays_iff, hv₅]

/-- **What is accepted is a line of the grammar.** -/
theorem parseCron_to {expression : List Char} {c : Cron} (h : parseCron expression = .ok c) :
    ∃ x, Line lenient expression x := by
  obtain ⟨minute, hour, dom, month, dow, hfields, f₁, f₂, f₃, f₄, f₅, h₁, h₂, h₃, h₄, h₅, -⟩ :=
    parseCron_eq_ok.mp h
  obtain ⟨minutes, hl₁⟩ := parseField_to (by decide) h₁
  obtain ⟨hours, hl₂⟩ := parseField_to (by decide) h₂
  obtain ⟨doms, hl₃⟩ := parseField_to (by decide) h₃
  obtain ⟨months, hl₄⟩ := parseField_to (by decide) h₄
  obtain ⟨dows, hl₅⟩ := parseField_to (by decide) h₅
  exact ⟨⟨minutes, hours, doms, months, dows, dom, dow⟩, minute, hour, month, hfields,
    hl₁, hl₂, hl₃, hl₄, hl₅⟩

/-! ## Two spellings, one line -/

/-- Slashes and dashes separate the pieces of an element. -/
def separates (c : Char) : Bool := c = '/' || c = '-'

/-- The pieces of an expression between its separators. -/
def pieces (expression : List Char) : List (List Char) :=
  (splitSpace expression).flatMap fun field =>
    (splitBy (· == ',') field).flatMap (splitBy separates)

/-- A piece is a star or a run of decimal digits. -/
def Plain (w : List Char) : Prop := w = ['*'] ∨ Numeral w

/-- `int` has not too many digits to read. -/
def Short (w : List Char) : Prop := w.length ≤ INT_MAX_STR_DIGITS

theorem splitBy_ne_nil (p : Char → Bool) (w : List Char) : splitBy p w ≠ [] := by
  cases w with
  | nil => exact List.cons_ne_nil _ _
  | cons c cs =>
    rw [splitBy]
    split <;> exact List.cons_ne_nil _ _

theorem splitBy_none {p : Char → Bool} {w : List Char} (h : ∀ c ∈ w, p c = false) :
    splitBy p w = [w] := by
  induction w with
  | nil => rfl
  | cons c cs ih =>
    rw [List.forall_mem_cons] at h
    rw [splitBy, h.1, ih h.2]
    rfl

theorem splitBy_append {p : Char → Bool} {c : Char} (hc : p c = true) (w w' : List Char) :
    splitBy p (w ++ c :: w') = splitBy p w ++ splitBy p w' := by
  induction w with
  | nil =>
    show splitBy p (c :: w') = [[]] ++ splitBy p w'
    rw [splitBy, if_pos hc]
    rfl
  | cons a w ih =>
    show splitBy p (a :: (w ++ c :: w')) = _
    rw [splitBy, splitBy, ih]
    obtain ⟨u, us, hu⟩ := List.exists_cons_of_ne_nil (splitBy_ne_nil p w)
    rw [hu]
    split <;> rfl

theorem Numeral.not_separates {w : List Char} (h : Numeral w) : ∀ c ∈ w, separates c = false := by
  intro c hc
  obtain ⟨hlo, hhi⟩ := h.2 c hc
  rw [separates, Bool.or_eq_false_iff, decide_eq_false_iff_not, decide_eq_false_iff_not]
  constructor
  · rintro rfl
    exact absurd hlo (by decide)
  · rintro rfl
    exact absurd hlo (by decide)

theorem Numeral.pieces {w : List Char} (h : Numeral w) : splitBy separates w = [w] :=
  splitBy_none h.not_separates

/-- **A number that `int` reads from plain pieces is a decimal numeral**: no sign, no underscore and
    no foreign digit. -/
theorem plain_number {w : List Char} {n : Nat} (h : pyInt w = some (n : Int))
    (hp : ∀ u ∈ splitBy separates w, Plain u) :
    Numeral w ∧ n = numeralValue w ∧ Short w := by
  have hnum : Numeral w := by
    obtain ⟨hne, hchars⟩ := pyInt_chars h
    match w, h, hp, hne, hchars with
    | [], h, _, _, _ =>
      have hnone : pyInt [] = none := by decide
      rw [hnone] at h
      cases h
    | c :: cs, h, hp, _, hchars =>
      by_cases hsep : separates c = true
      · -- a separator in front leaves an empty piece
        have hempty : ([] : List Char) ∈ splitBy separates (c :: cs) := by
          rw [splitBy, if_pos hsep]
          exact List.mem_cons_self
        rcases hp [] hempty with habs | habs
        · cases habs
        · exact absurd rfl habs.1
      · have hrest : ∀ d ∈ cs, separates d = false := by
          intro d hd
          have hmem : d ∈ (takeSign (c :: cs)).2 := by
            unfold takeSign
            split
            · rename_i heq
              exact (List.cons.inj heq).2 ▸ hd
            · rename_i heq
              exact (List.cons.inj heq).2 ▸ hd
            · exact List.mem_cons_of_mem _ hd
          rw [separates, Bool.or_eq_false_iff, decide_eq_false_iff_not, decide_eq_false_iff_not]
          constructor
          · rintro rfl
            exact absurd (hchars _ hmem) (by decide)
          · rintro rfl
            exact absurd (hchars _ hmem) (by decide)
        have hone : splitBy separates (c :: cs) = [c :: cs] :=
          splitBy_none (List.forall_mem_cons.mpr ⟨Bool.eq_false_iff.mpr hsep, hrest⟩)
        rcases hp (c :: cs) (hone ▸ List.mem_singleton_self _) with hstar | hnum
        · have hnone : pyInt ['*'] = none := by decide
          rw [hstar, hnone] at h
          cases h
        · exact hnum
  rw [pyInt_numeral hnum] at h
  split at h
  · rename_i hshort
    exact ⟨hnum, (Int.ofNat.inj (Option.some.inj h)).symm, hshort⟩
  · cases h

/-! ### Elements -/

theorem star_pieces : splitBy separates ['*'] = [['*']] := by decide

/-- Crontab writes plain pieces. -/
theorem Part.plain_pieces {part : List Char} {e : Element} (h : Part crontab part e) :
    ∀ u ∈ splitBy separates part, Plain u := by
  have hbody : ∀ {w f}, Body crontab w f → ∀ u ∈ splitBy separates w, Plain u := by
    intro w f hb u hu
    cases hb with
    | whole hw =>
      obtain rfl : w = ['*'] := hw
      rw [star_pieces, List.mem_singleton] at hu
      exact .inl hu
    | single hnum _ =>
      rw [hnum.1.pieces, List.mem_singleton] at hu
      exact .inr (hu ▸ hnum.1)
    | range hnum _ hnum' =>
      rw [splitBy_append (by decide), hnum.1.pieces, hnum'.1.pieces] at hu
      rcases List.mem_cons.mp hu with rfl | hu
      · exact .inr hnum.1
      · exact .inr (List.mem_singleton.mp hu ▸ hnum'.1)
  intro u hu
  cases h with
  | plain hb _ => exact hbody hb u hu
  | stepped hb _ hnum =>
    rw [splitBy_append (by decide), hnum.1.pieces] at hu
    rcases List.mem_append.mp hu with hu | hu
    · exact hbody hb u hu
    · exact .inr (List.mem_singleton.mp hu ▸ hnum.1)

/-- **From the parser's spelling to crontab's.**  Plain pieces make the two agree, and every number
    `int` reads is short. -/
theorem Part.to_crontab {part : List Char} {e : Element} (h : Part lenient part e)
    (hp : ∀ u ∈ splitBy separates part, Plain u) :
    Part crontab part e ∧ ∀ u ∈ splitBy separates part, Short u := by
  have hbody : ∀ {w f}, Body lenient w f → (∀ u ∈ splitBy separates w, Plain u) →
      Body crontab w f ∧ ∀ u ∈ splitBy separates w, Short u := by
    intro w f hb hp
    cases hb with
    | whole hw =>
      rcases hw with rfl | rfl
      · exact ⟨.whole rfl, by rw [star_pieces]; simp [Short, INT_MAX_STR_DIGITS]⟩
      · rcases hp [] (List.mem_singleton_self _) with habs | habs
        · cases habs
        · exact absurd rfl habs.1
    | single hnum hdash =>
      obtain ⟨hn, hval, hshort⟩ := plain_number hnum hp
      exact ⟨.single ⟨hn, hval⟩ hdash, by rw [hn.pieces]; simpa using hshort⟩
    | range hnum hdash hnum' =>
      rw [splitBy_append (by decide), List.forall_mem_append] at hp ⊢
      obtain ⟨hn, hval, hshort⟩ := plain_number hnum hp.1
      obtain ⟨hn', hval', hshort'⟩ := plain_number hnum' hp.2
      refine ⟨.range ⟨hn, hval⟩ hdash ⟨hn', hval'⟩, ?_, ?_⟩
      · rw [hn.pieces]; simpa using hshort
      · rw [hn'.pieces]; simpa using hshort'
  cases h with
  | plain hb hslash =>
    obtain ⟨hb', hshort⟩ := hbody hb hp
    exact ⟨.plain hb' hslash, hshort⟩
  | stepped hb hslash hnum =>
    rw [splitBy_append (by decide), List.forall_mem_append] at hp ⊢
    obtain ⟨hb', hshort⟩ := hbody hb hp.1
    obtain ⟨hn, hval, hshort'⟩ := plain_number hnum hp.2
    refine ⟨.stepped hb' hslash ⟨hn, hval⟩, hshort, ?_⟩
    rw [hn.pieces]; simpa using hshort'

/-- **From crontab's spelling to the parser's**, where the numbers are short. -/
theorem Part.to_lenient {part : List Char} {e : Element} (h : Part crontab part e)
    (hs : ∀ u ∈ splitBy separates part, Short u) : Part lenient part e := by
  have hnumber : ∀ {w n}, crontab.number w n → (∀ u ∈ splitBy separates w, Short u) →
      lenient.number w n := by
    rintro w n ⟨hn, rfl⟩ hs
    rw [hn.pieces] at hs
    have hshort : w.length ≤ INT_MAX_STR_DIGITS := hs w (List.mem_singleton_self _)
    show pyInt w = _
    rw [pyInt_numeral hn, if_pos hshort]
  have hbody : ∀ {w f}, Body crontab w f → (∀ u ∈ splitBy separates w, Short u) →
      Body lenient w f := by
    intro w f hb hs
    cases hb with
    | whole hw => exact .whole (.inl hw)
    | single hnum hdash => exact .single (hnumber hnum hs) hdash
    | range hnum hdash hnum' =>
      rw [splitBy_append (by decide), List.forall_mem_append] at hs
      exact .range (hnumber hnum hs.1) hdash (hnumber hnum' hs.2)
  cases h with
  | plain hb hslash => exact .plain (hbody hb hs) hslash
  | stepped hb hslash hnum =>
    rw [splitBy_append (by decide), List.forall_mem_append] at hs
    exact .stepped (hbody hb hs.1) hslash (hnumber hnum hs.2)

/-! ### Lines -/

/-- What each element of a line allows, from what its pieces satisfy, the whole line allows. -/
theorem Line.respell {sp sp' : Spelling} {P Q : List Char → Prop}
    (hq : ∀ part e, Part sp part e → (∀ u ∈ splitBy separates part, P u) →
      Part sp' part e ∧ ∀ u ∈ splitBy separates part, Q u)
    {expression : List Char} {x : Entry} (h : Line sp expression x)
    (hp : ∀ u ∈ pieces expression, P u) :
    Line sp' expression x ∧ ∀ u ∈ pieces expression, Q u := by
  have hfield : ∀ {low high raw es}, FieldLine sp low high raw es →
      (∀ u ∈ (splitBy (· == ',') raw).flatMap (splitBy separates), P u) →
      FieldLine sp' low high raw es
        ∧ ∀ u ∈ (splitBy (· == ',') raw).flatMap (splitBy separates), Q u := by
    intro low high raw es hf hp
    rw [FieldLine] at hf ⊢
    generalize splitBy (· == ',') raw = parts at hf hp
    induction hf with
    | nil => exact ⟨.nil, fun u hu => absurd hu List.not_mem_nil⟩
    | cons hpe _ ih =>
      rw [List.flatMap_cons, List.forall_mem_append] at hp ⊢
      obtain ⟨hpart, hpieces⟩ := hq _ _ hpe.1 hp.1
      obtain ⟨hrest, hpieces'⟩ := ih hp.2
      exact ⟨.cons ⟨hpart, hpe.2⟩ hrest, hpieces, hpieces'⟩
  obtain ⟨minute, hour, month, hfields, h₁, h₂, h₃, h₄, h₅⟩ := h
  rw [pieces, hfields] at hp ⊢
  simp only [List.flatMap_cons, List.flatMap_nil, List.append_nil, List.forall_mem_append] at hp ⊢
  obtain ⟨hp₁, hp₂, hp₃, hp₄, hp₅⟩ := hp
  obtain ⟨hl₁, hq₁⟩ := hfield h₁ hp₁
  obtain ⟨hl₂, hq₂⟩ := hfield h₂ hp₂
  obtain ⟨hl₃, hq₃⟩ := hfield h₃ hp₃
  obtain ⟨hl₄, hq₄⟩ := hfield h₄ hp₄
  obtain ⟨hl₅, hq₅⟩ := hfield h₅ hp₅
  exact ⟨⟨minute, hour, month, hfields, hl₁, hl₂, hl₃, hl₄, hl₅⟩, hq₁, hq₂, hq₃, hq₄, hq₅⟩

/-- A crontab line consists of plain pieces. -/
theorem Line.plain {expression : List Char} {x : Entry} (h : Line crontab expression x) :
    ∀ u ∈ pieces expression, Plain u :=
  (h.respell (P := fun _ => True) (fun _ _ hp _ => ⟨hp, hp.plain_pieces⟩) fun _ _ => trivial).2

/-- What the parser accepts in plain pieces is a crontab line, with short numbers. -/
theorem Line.to_crontab {expression : List Char} {x : Entry} (h : Line lenient expression x)
    (hp : ∀ u ∈ pieces expression, Plain u) :
    Line crontab expression x ∧ ∀ u ∈ pieces expression, Short u :=
  h.respell (fun _ _ => Part.to_crontab) hp

/-- A crontab line with short numbers is accepted. -/
theorem Line.to_lenient {expression : List Char} {x : Entry} (h : Line crontab expression x)
    (hs : ∀ u ∈ pieces expression, Short u) : Line lenient expression x :=
  (h.respell (Q := fun _ => True) (fun _ _ hp hs => ⟨hp.to_lenient hs, fun _ _ => trivial⟩) hs).1

/-! ## What crontab means -/

/-- One of the day fields begins with a star. -/
def Entry.starred (x : Entry) : Bool := x.dom.head? = some '*' || x.dow.head? = some '*'

/-- The weekday field names a weekday; both 0 and 7 are Sunday. -/
def Entry.NamesWeekday (x : Entry) (weekday : Nat) : Prop :=
  ∃ w, Named 0 7 x.dows w ∧ w % 7 = weekday

/-- Vixie's rule for a date. -/
def Entry.NamesDay (x : Entry) (d : Date) : Prop :=
  Named 1 12 x.months d.month
    ∧ Combined x.starred (Named 1 31 x.doms d.day) (x.NamesWeekday d.weekday)

/-- The parsed expression means what crontab means by the line. -/
structure Cron.Denotes (c : Cron) (x : Entry) : Prop where
  minutes : ∀ v, v ∈ c.minutes.values ↔ Named 0 59 x.minutes v
  hours   : ∀ v, v ∈ c.hours.values ↔ Named 0 23 x.hours v
  doms    : ∀ v, v ∈ c.doms.values ↔ Named 1 31 x.doms v
  months  : ∀ v, v ∈ c.months.values ↔ Named 1 12 x.months v
  dows    : ∀ v, v ∈ c.dows.values ↔ x.NamesWeekday v
  days    : ∀ d : Date, c.dayMatches d.ordinal = true ↔ x.NamesDay d

/-- `parse_cron` accepts the expression when crontab does, and means the same by it. -/
structure Faithful (expression : List Char) : Prop where
  accepts : (∃ c, parseCron expression = .ok c) ↔ ∃ x, Line crontab expression x
  denotes : ∀ c x, parseCron expression = .ok c → Line crontab expression x → c.Denotes x

/-- No value is lost when each `a/1` is read as `a`. -/
def Keeps (low high : Nat) (fold : Nat → Nat) (es : List Element) : Prop :=
  ∀ v, Named low high es v → ∃ w, Named low high (es.map .asRead) w ∧ fold w = fold v

structure Entry.Keeps (x : Entry) : Prop where
  minutes : Schedule.Keeps 0 59 id x.minutes
  hours   : Schedule.Keeps 0 23 id x.hours
  doms    : Schedule.Keeps 1 31 id x.doms
  months  : Schedule.Keeps 1 12 id x.months
  dows    : Schedule.Keeps 0 7 (· % 7) x.dows

/-- The day fields name every day of the named months, and every weekday. -/
def Entry.EveryDay (x : Entry) : Prop :=
  (∀ m, Named 1 12 x.months m → ∀ d, 1 ≤ d → d ≤ Gregorian.monthLength true m →
      Named 1 31 x.doms d)
    ∧ ∀ k < 7, x.NamesWeekday k

/-- Where a day field begins with a star, one of the two is the star alone, or both name every
    day. -/
def Entry.StarsAlone (x : Entry) : Prop :=
  x.starred = true → x.dom = ['*'] ∨ x.dow = ['*'] ∨ x.EveryDay

theorem FieldLine.valid {sp : Spelling} {low high : Nat} {raw : List Char} {es : List Element}
    (h : FieldLine sp low high raw es) : ∀ e ∈ es, e.Valid low high := by
  rw [FieldLine] at h
  generalize splitBy (· == ',') raw = parts at h
  induction h with
  | nil => exact fun e he => absurd he List.not_mem_nil
  | cons he _ ih => exact List.forall_mem_cons.mpr ⟨he.2, ih⟩

/-- Reading `a/1` as `a` adds nothing. -/
theorem named_asRead {low high v : Nat} {es : List Element} (hv : ∀ e ∈ es, e.Valid low high)
    (h : Named low high (es.map .asRead) v) : Named low high es v := by
  obtain ⟨e', he', hnames⟩ := h
  obtain ⟨e, he, rfl⟩ := List.mem_map.mp he'
  refine ⟨e, he, ?_⟩
  have hvalid := hv e he
  unfold Element.asRead at hnames
  split at hnames
  · have heq : v = _ := hnames
    subst heq
    exact ⟨le_rfl, hvalid.2.1, Nat.mod_one _⟩
  · exact hnames

/-- A field means the same exactly when it keeps its values. -/
theorem keeps_iff {low high : Nat} (fold : Nat → Nat) {es : List Element} {S : Nat → Prop}
    (hv : ∀ e ∈ es, e.Valid low high)
    (hread : ∀ v, S v ↔ ∃ w, Named low high (es.map .asRead) w ∧ fold w = v) :
    (∀ v, S v ↔ ∃ w, Named low high es w ∧ fold w = v) ↔ Keeps low high fold es := by
  constructor
  · intro h v hnamed
    exact (hread (fold v)).mp ((h (fold v)).mpr ⟨v, hnamed, rfl⟩)
  · intro h v
    rw [hread]
    constructor
    · rintro ⟨w, hw, hf⟩
      exact ⟨w, named_asRead hv hw, hf⟩
    · rintro ⟨w, hw, rfl⟩
      exact h w hw

theorem keeps_id_iff {low high : Nat} {es : List Element} {S : Nat → Prop}
    (hv : ∀ e ∈ es, e.Valid low high) (hread : ∀ v, S v ↔ Named low high (es.map .asRead) v) :
    (∀ v, S v ↔ Named low high es v) ↔ Keeps low high id es := by
  have h := keeps_iff id hv (S := S) (by simpa using hread)
  simpa using h

/-- Both fields name every date, or either one alone decides: then the two rules agree. -/
theorem combined_agree_iff {x : Entry} (hmonths : ∀ e ∈ x.months, e.Valid 1 12)
    (hm : ∃ m, Named 1 12 x.months m) (hw : ∃ k < 7, x.NamesWeekday k) :
    (∀ d : Date, Named 1 12 x.months d.month →
        (Named 1 31 x.doms d.day ∨ x.NamesWeekday d.weekday) →
        Named 1 31 x.doms d.day ∧ x.NamesWeekday d.weekday)
      ↔ x.EveryDay := by
  obtain ⟨m, hm⟩ := hm
  obtain ⟨k, hk, hw⟩ := hw
  have hrange : ∀ m, Named 1 12 x.months m → 1 ≤ m ∧ m ≤ 12 := by
    rintro m ⟨e, he, hnames⟩
    exact hnames.bounds (hmonths e he)
  constructor
  · intro hagree
    -- a date of a named month on the named weekday carries its day into the other field
    have hdays : ∀ m, Named 1 12 x.months m → ∀ d, 1 ≤ d → d ≤ Gregorian.monthLength true m →
        Named 1 31 x.doms d := by
      intro m hm d hd hd'
      obtain ⟨e, rfl, rfl, rfl⟩ := Gregorian.every_weekday (hrange m hm) ⟨hd, hd'⟩ hk
      exact (hagree e hm (.inr hw)).1
    refine ⟨hdays, fun j hj => ?_⟩
    have hfirst := Gregorian.monthLength_ge true m
    have hday : 1 ≤ 1 ∧ 1 ≤ Gregorian.monthLength true m := ⟨le_rfl, by omega⟩
    obtain ⟨e, rfl, -, rfl⟩ := Gregorian.every_weekday (hrange m hm) hday hj
    exact (hagree e hm (.inl (hdays _ hm _ e.day_pos
      (e.day_le.trans (Gregorian.monthLength_le_leap _ _))))).2
  · rintro ⟨hdays, hweek⟩ d hmonth -
    exact ⟨hdays _ hmonth _ d.day_pos (d.day_le.trans (Gregorian.monthLength_le_leap _ _)),
      hweek _ d.weekday_lt⟩

/-- **The day rule is Vixie's exactly when the stars stand alone.** -/
theorem days_iff {c : Cron} {x : Entry} (hc : c.Parsed) (hr : c.ReadsAs x)
    (hvalid : ∀ e ∈ x.months, e.Valid 1 12)
    (hdoms : ∀ v, v ∈ c.doms.values ↔ Named 1 31 x.doms v)
    (hmonths : ∀ v, v ∈ c.months.values ↔ Named 1 12 x.months v)
    (hdows : ∀ v, v ∈ c.dows.values ↔ x.NamesWeekday v) :
    (∀ d : Date, c.dayMatches d.ordinal = true ↔ x.NamesDay d) ↔ x.StarsAlone := by
  simp only [dayMatches_iff hc, Cron.NamesDay, Entry.NamesDay, hdoms, hmonths, hdows]
  have hm : ∃ m, Named 1 12 x.months m := by
    obtain ⟨m, hm⟩ := hc.month
    exact ⟨m, (hmonths m).mp hm⟩
  have hw : ∃ k < 7, x.NamesWeekday k := by
    obtain ⟨k, hk⟩ := hc.dow
    exact ⟨k, Nat.lt_succ_of_le (c.dows.bounded k hk).2, (hdows k).mp hk⟩
  have hevery := combined_agree_iff hvalid hm hw
  by_cases halone : x.dom = ['*'] ∨ x.dow = ['*']
  · -- a lone star makes both rules ask for both fields
    have hflag : (c.domAny || c.dowAny) = true := by
      rw [Bool.or_eq_true, hr.domAny, hr.dowAny]
      exact halone
    have hstar : x.starred = true := by
      rw [Entry.starred, Bool.or_eq_true, decide_eq_true_eq, decide_eq_true_eq]
      exact halone.imp (fun h => by rw [h]; rfl) (fun h => by rw [h]; rfl)
    rw [hflag, hstar]
    exact ⟨fun _ _ => or_assoc.mp (.inl halone), fun _ _ => Iff.rfl⟩
  · have hflag : (c.domAny || c.dowAny) = false := by
      rw [Bool.eq_false_iff, Ne, Bool.or_eq_true, hr.domAny, hr.dowAny]
      exact halone
    rw [hflag]
    cases hstar : x.starred with
    | false => exact ⟨fun _ h => absurd (hstar.symm.trans h) Bool.false_ne_true, fun _ _ => Iff.rfl⟩
    | true =>
      have hstars : x.StarsAlone ↔ x.EveryDay := by
        rw [Entry.StarsAlone, ← or_assoc, or_iff_right halone]
        exact ⟨fun h => h hstar, fun h _ => h⟩
      rw [hstars, ← hevery]
      constructor
      · intro h d hmonth hor
        exact ((h d).mp ⟨hmonth, fun hf => Bool.noConfusion hf, fun _ => hor⟩).2.1 rfl
      · intro h d
        constructor
        · rintro ⟨hmonth, -, hor⟩
          exact ⟨hmonth, fun _ => h d hmonth (hor rfl), fun hf => Bool.noConfusion hf⟩
        · rintro ⟨hmonth, hand, -⟩
          exact ⟨hmonth, fun hf => Bool.noConfusion hf, fun _ => .inl (hand rfl).1⟩

/-- What a parsed line means is what crontab means, exactly when it keeps its values and its stars
    stand alone. -/
theorem denotes_iff {expression : List Char} {c : Cron} {x : Entry} (hc : c.Parsed)
    (hr : c.ReadsAs x) (hl : Line crontab expression x) :
    c.Denotes x ↔ x.Keeps ∧ x.StarsAlone := by
  obtain ⟨minute, hour, month, -, h₁, h₂, h₃, h₄, h₅⟩ := hl
  have hk₁ := keeps_id_iff h₁.valid hr.minutes
  have hk₂ := keeps_id_iff h₂.valid hr.hours
  have hk₃ := keeps_id_iff h₃.valid hr.doms
  have hk₄ := keeps_id_iff h₄.valid hr.months
  have hk₅ := keeps_iff (· % 7) h₅.valid hr.dows
  constructor
  · intro h
    exact ⟨⟨hk₁.mp h.minutes, hk₂.mp h.hours, hk₃.mp h.doms, hk₄.mp h.months, hk₅.mp h.dows⟩,
      (days_iff hc hr h₄.valid h.doms h.months h.dows).mp h.days⟩
  · rintro ⟨⟨k₁, k₂, k₃, k₄, k₅⟩, hstars⟩
    exact ⟨hk₁.mpr k₁, hk₂.mpr k₂, hk₃.mpr k₃, hk₄.mpr k₄, hk₅.mpr k₅,
      (days_iff hc hr h₄.valid (hk₃.mpr k₃) (hk₄.mpr k₄) (hk₅.mpr k₅)).mpr hstars⟩

/-- **When `parse_cron` is crontab.**  For every text: what it accepts has plain pieces, and a
    crontab line has numbers `int` can read, loses no value by `a/1` read as `a`, and has a star in
    front of a day field only where that makes no difference. -/
theorem parseCron_faithful_iff (expression : List Char) :
    Faithful expression ↔
      ((∃ x, Line lenient expression x) → ∀ u ∈ pieces expression, Plain u)
        ∧ ∀ x, Line crontab expression x →
          (∀ u ∈ pieces expression, Short u) ∧ x.Keeps ∧ x.StarsAlone := by
  constructor
  · intro h
    constructor
    · rintro ⟨x, hx⟩
      obtain ⟨c, hc, -⟩ := parseCron_of hx
      obtain ⟨y, hy⟩ := h.accepts.mp ⟨c, hc⟩
      exact hy.plain
    · intro x hx
      obtain ⟨c, hc⟩ := h.accepts.mpr ⟨x, hx⟩
      obtain ⟨y, hy⟩ := parseCron_to hc
      have hshort := (hy.to_crontab hx.plain).2
      obtain ⟨c', hc', hreads⟩ := parseCron_of (hx.to_lenient hshort)
      exact ⟨hshort, (denotes_iff (parseCron_parsed hc') hreads hx).mp (h.denotes c' x hc' hx)⟩
  · rintro ⟨hplain, hline⟩
    constructor
    · constructor
      · rintro ⟨c, hc⟩
        obtain ⟨y, hy⟩ := parseCron_to hc
        exact ⟨y, (hy.to_crontab (hplain ⟨y, hy⟩)).1⟩
      · rintro ⟨x, hx⟩
        obtain ⟨c, hc, -⟩ := parseCron_of (hx.to_lenient (hline x hx).1)
        exact ⟨c, hc⟩
    · intro c x hc hx
      obtain ⟨hshort, hkeeps, hstars⟩ := hline x hx
      obtain ⟨c', hc', hreads⟩ := parseCron_of (hx.to_lenient hshort)
      obtain rfl := Except.ok.inj (hc.symm.trans hc')
      exact (denotes_iff (parseCron_parsed hc) hreads hx).mpr ⟨hkeeps, hstars⟩

/-- `5/1 0 * * *`: every minute from five past midnight on. -/
def fromFive : List Char := ['5', '/', '1', ' ', '0', ' ', '*', ' ', '*', ' ', '*']

def fromFiveEntry : Entry :=
  ⟨[.single 5 (some 1)], [.single 0 none], [.whole none], [.whole none], [.whole none], ['*'], ['*']⟩

theorem fromFive_line : Line crontab fromFive fromFiveEntry := by
  have hstar : ∀ low high, FieldLine crontab low high ['*'] [.whole none] := fun low high =>
    .cons ⟨.plain (.whole rfl) (by decide), nofun⟩ .nil
  have hfive : crontab.number ['5'] 5 := ⟨⟨by decide, List.forall_mem_singleton.mpr (by decide)⟩, by decide⟩
  have hone : crontab.number ['1'] 1 := ⟨⟨by decide, List.forall_mem_singleton.mpr (by decide)⟩, by decide⟩
  have hzero : crontab.number ['0'] 0 := ⟨⟨by decide, List.forall_mem_singleton.mpr (by decide)⟩, by decide⟩
  refine ⟨['5', '/', '1'], ['0'], ['*'], by decide, ?_, ?_, hstar 1 31, hstar 1 12, hstar 0 7⟩
  · have hbody : Body crontab ['5'] (.single 5) := .single hfive (by decide)
    have hpart : Part crontab ['5', '/', '1'] (.single 5 (some 1)) :=
      .stepped hbody (by decide) hone
    exact .cons ⟨hpart, by decide, by decide, by simp⟩ .nil
  · have hbody : Body crontab ['0'] (.single 0) := .single hzero (by decide)
    have hpart : Part crontab ['0'] (.single 0 none) := .plain hbody (by decide)
    exact .cons ⟨hpart, by decide, by decide, nofun⟩ .nil

/-- **`5/1` names one minute.**  Crontab names fifty-five. -/
theorem parseCron_not_faithful : ¬ Faithful fromFive := by
  intro h
  obtain ⟨c, hc⟩ := h.accepts.mpr ⟨_, fromFive_line⟩
  have hsix : 6 ∈ c.minutes.values :=
    ((h.denotes c _ hc fromFive_line).minutes 6).mpr ⟨_, List.mem_singleton_self _, by decide,
      by decide, by decide⟩
  have hminutes : (parseCron fromFive).map (fun c => c.minutes.values) = .ok [5] := by
    decide +kernel
  rw [hc] at hminutes
  have hvalues : c.minutes.values = [5] := Except.ok.inj hminutes
  rw [hvalues] at hsix
  exact absurd hsix (by decide)

end Air780eHub.Schedule
