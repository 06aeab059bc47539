/-
  Walking a list of messages page by page (`list_messages`, `Database.messages`).

  A page is what is older than its cursor, the newest first, with one row more than it shows; its
  own cursor is its last row.  Rows may be added between two pages, of any time.
  1. **`list_messages`**, and `walk`, which asks for a page after the other until there is no more.
  2. **A page** is the first part of what a scope covers behind a position (`read_page`).
  3. **The walk**, by induction over its pages: each begins where the one before it ends, and fewer
     rows are behind it.
-/
import Air780eHub.Messages.Cursor

namespace Air780eHub.Messages

open Select

/-! ## The pages -/

/-- What `list_messages` answers. -/
structure Page where
  items      : List MessageView
  total      : Option Nat
  hasMore    : Bool
  nextCursor : Option String

/-- The position a request names. -/
def position (L : Library) (scope : MessageScope) :
    Option String → Except CursorError (Option (String × Nat))
  | none      => .ok none
  | some text => (scope.parseCursor L text).map some

/-- `list_messages`: a page, or the status of the error. -/
def listMessages (L : Library) (db : Tables) (scope : MessageScope) (limit offset : Nat)
    (before : Option String) (count : Bool) : Except Nat Page :=
  if before.isSome ∧ offset ≠ 0 then .error 422
  else match position L scope before with
    | .error (.badCursor _) => .error 422
    | .error .valueError    => .error 500
    | .ok pos               =>
      let rows := db.read scope (some (limit + 1)) offset pos
      let hasMore := decide (limit < rows.length)
      let items := rows.take limit
      .ok
        { items, hasMore
          total := if count then some (db.messages.filter scope.covers).length else none
          nextCursor := if hasMore then
              items.getLast?.map fun v => scope.cursor L v.message.id v.message.ts
            else none }

/-- The pages from a cursor on, at most so many, over the tables as they are at each request; `none`
where a request fails or there are more pages. -/
def walk (L : Library) (scope : MessageScope) (limit : Nat) (count : Bool) :
    Nat → Tables → List Tables → Option String → Option (List (List MessageView))
  | 0, _, _, _                   => none
  | rounds + 1, db, later, before =>
    match listMessages L db scope limit 0 before count with
    | .error _ => none
    | .ok page => match page.hasMore, page.nextCursor with
      | true, some cursor =>
        (walk L scope limit count rounds (later.head?.getD db) later.tail (some cursor)).map
          (page.items :: ·)
      | _, _              => some [page.items]

/-- Messages are added from each table to the next one. -/
def Growing : Tables → List Tables → Prop
  | _, []            => True
  | db, db' :: later => (∃ new, db'.messages = db.messages ++ new) ∧ Growing db' later

/-- The last of the tables. -/
def final (db : Tables) (later : List Tables) : Tables := later.getLast?.getD db

/-- Ids within 64 bits and normalised timestamps. -/
def Stored (db : Tables) : Prop :=
  ∀ m ∈ db.messages, m.id < 2 ^ 63 ∧ ∃ s < MAX_SECONDS, m.ts = isoformat s

/-- `a` comes before `b` in the list: it is of a later time, or of the same and has a larger id. -/
def Newer (a b : Message) : Prop := b.ts < a.ts ∨ b.ts = a.ts ∧ b.id < a.id

theorem Newer.trans {a b c : Message} (h : Newer a b) (h' : Newer b c) : Newer a c := by
  rcases h with h | ⟨heq, h⟩
  · rcases h' with h' | ⟨heq', -⟩
    · exact Or.inl (lt_trans h' h)
    · exact Or.inl (heq' ▸ h)
  · rcases h' with h' | ⟨heq', h'⟩
    · exact Or.inl (heq ▸ h')
    · exact Or.inr ⟨heq'.trans heq, by omega⟩

instance : Std.Total newerFirst where
  total a b := by
    unfold newerFirst
    rcases lt_trichotomy a.ts b.ts with h | h | h
    · exact Or.inr (Or.inl h)
    · rcases Nat.le_total b.id a.id with hid | hid
      · exact Or.inl (Or.inr ⟨h.symm, hid⟩)
      · exact Or.inr (Or.inr ⟨h, hid⟩)
    · exact Or.inl (Or.inl h)

instance : IsTrans Message newerFirst where
  trans a b c h h' := by
    rcases h with h | ⟨heq, h⟩
    · rcases h' with h' | ⟨heq', -⟩
      · exact Or.inl (lt_trans h' h)
      · exact Or.inl (heq' ▸ h)
    · rcases h' with h' | ⟨heq', h'⟩
      · exact Or.inl (heq ▸ h')
      · exact Or.inr ⟨heq'.trans heq, Nat.le_trans h' h⟩

/-- Behind the position of a row are the rows that come after it. -/
theorem olderThan_iff {a m : Message} : olderThan (some (a.ts, a.id)) m = true ↔ Newer a m := by
  unfold olderThan Newer
  rw [Option.all_some, Bool.or_eq_true, Bool.and_eq_true, decide_eq_true_eq, decide_eq_true_eq,
    beq_iff_eq]

/-- What comes after a row behind a position is behind it too. -/
theorem olderThan_trans {pos : Option (String × Nat)} {a m : Message}
    (ha : olderThan pos a = true) (hm : Newer a m) : olderThan pos m = true := by
  cases pos with
  | none => rfl
  | some p =>
    unfold olderThan at ha ⊢
    rw [Option.all_some, Bool.or_eq_true, Bool.and_eq_true, decide_eq_true_eq, decide_eq_true_eq,
      beq_iff_eq] at ha ⊢
    rcases ha with ha | ⟨heq, ha⟩
    · rcases hm with hm | ⟨heq', -⟩
      · exact Or.inl (lt_trans hm ha)
      · exact Or.inl (heq' ▸ ha)
    · rcases hm with hm | ⟨heq', hm⟩
      · exact Or.inl (heq ▸ hm)
      · exact Or.inr ⟨heq'.trans heq, by omega⟩

/-! ## A page -/

/-- What a scope covers behind a position, in the order of the list. -/
def behind (db : Tables) (scope : MessageScope) (pos : Option (String × Nat)) : List Message :=
  (db.messages.filter fun m => scope.covers m && olderThan pos m).insertionSort newerFirst

variable {db : Tables} {scope : MessageScope} {pos : Option (String × Nat)}

theorem mem_behind {m : Message} : m ∈ behind db scope pos ↔
    m ∈ db.messages ∧ scope.covers m = true ∧ olderThan pos m = true := by
  unfold behind
  rw [List.mem_insertionSort, List.mem_filter, Bool.and_eq_true]

/-- Ids are distinct, so that of two rows one comes first. -/
theorem behind_sorted (db : Tables) (scope : MessageScope) (pos : Option (String × Nat)) :
    (behind db scope pos).Pairwise Newer := by
  have hle : (behind db scope pos).Pairwise newerFirst := List.pairwise_insertionSort _ _
  have hperm : (behind db scope pos).Perm
      (db.messages.filter fun m => scope.covers m && olderThan pos m) :=
    List.perm_insertionSort _ _
  have hids : ((behind db scope pos).map Message.id).Nodup := by
    rw [(hperm.map Message.id).nodup_iff]
    exact db.messageIds.sublist (List.filter_sublist.map Message.id)
  have hne : (behind db scope pos).Pairwise fun a b => a.id ≠ b.id := List.pairwise_map.mp hids
  refine (hle.and hne).imp fun {a b} h => ?_
  rcases h.1 with hlt | ⟨heq, hid⟩
  · exact Or.inl hlt
  · exact Or.inr ⟨heq, Nat.lt_of_le_of_ne hid (Ne.symm h.2)⟩

theorem read_page (db : Tables) (scope : MessageScope) (limit : Nat)
    (pos : Option (String × Nat)) :
    (db.read scope (some limit) 0 pos).map MessageView.message =
      (behind db scope pos).take limit := by
  have hview : MessageView.message ∘ view = Prod.fst := rfl
  have hfilter : ((leftJoin onSim db.messages db.sims).filter fun row =>
      scope.covers row.1 && olderThan pos row.1).map Prod.fst =
        db.messages.filter fun m => scope.covers m && olderThan pos m := by
    rw [← leftJoin_fst (onSim_le_one db) db.messages, List.filter_map]
    simp only [leftJoin_fst (onSim_le_one db)]
    rfl
  simp only [Tables.read, page, Option.elim_some, List.drop_zero, List.map_map, List.map_take,
    hview]
  rw [List.map_insertionSort _ newerFirst _ _ fun a _ b _ => Iff.rfl, hfilter]
  rfl

/-! ## The walk -/

/-- What there is to see of some pages. -/
def seen (pages : List (List MessageView)) : List Message := pages.flatten.map MessageView.message

theorem seen_cons (items : List MessageView) (pages : List (List MessageView)) :
    seen (items :: pages) = items.map MessageView.message ++ seen pages := by
  unfold seen
  rw [List.flatten_cons, List.map_append]

theorem mem_final {db : Tables} {later : List Tables} (h : Growing db later) {m : Message}
    (hm : m ∈ db.messages) : m ∈ (final db later).messages := by
  induction later generalizing db with
  | nil => exact hm
  | cons db' later ih =>
    obtain ⟨⟨new, hnew⟩, hlater⟩ := h
    have hm' : m ∈ db'.messages := by
      rw [hnew]
      exact List.mem_append_left _ hm
    have hlast := ih hlater hm'
    unfold final at hlast ⊢
    rwa [List.getLast?_cons, Option.getD_some]

/-- The next table, and those after it. -/
theorem growing_next {db : Tables} {later : List Tables} (h : Growing db later) :
    (∀ m ∈ db.messages, m ∈ (later.head?.getD db).messages) ∧
      Growing (later.head?.getD db) later.tail ∧
      final (later.head?.getD db) later.tail = final db later := by
  cases later with
  | nil => exact ⟨fun m hm => hm, trivial, rfl⟩
  | cons db' later =>
    obtain ⟨⟨new, hnew⟩, hlater⟩ := h
    refine ⟨fun m hm => ?_, hlater, ?_⟩
    · show m ∈ db'.messages
      rw [hnew]
      exact List.mem_append_left _ hm
    · unfold final
      rw [List.getLast?_cons, Option.getD_some]
      rfl

/-- How many rows there are behind a position in the end. -/
def remaining (db : Tables) (scope : MessageScope) (pos : Option (String × Nat)) : Nat :=
  (behind db scope pos).length

/-- Fewer rows are behind a row than behind the position it is behind itself. -/
theorem remaining_lt {a : Message} (ha : a ∈ behind db scope pos) :
    remaining db scope (some (a.ts, a.id)) < remaining db scope pos := by
  have hsub : (behind db scope (some (a.ts, a.id))).Subperm ((behind db scope pos).erase a) := by
    refine List.subperm_of_subset ((behind_sorted db scope _).imp fun h heq => ?_) fun m hm => ?_
    · subst heq
      rcases h with h | ⟨-, h⟩
      · exact absurd h (lt_irrefl _)
      · exact absurd h (Nat.lt_irrefl _)
    · obtain ⟨hmem, hcov, hold⟩ := mem_behind.mp hm
      have hnewer := olderThan_iff.mp hold
      have hne : m ≠ a := by
        rintro rfl
        rcases hnewer with h | ⟨-, h⟩
        · exact absurd h (lt_irrefl _)
        · exact absurd h (Nat.lt_irrefl _)
      exact (List.mem_erase_of_ne hne).mpr
        (mem_behind.mpr ⟨hmem, hcov, olderThan_trans (mem_behind.mp ha).2.2 hnewer⟩)
  have hlen := hsub.length_le
  rw [List.length_erase_of_mem ha] at hlen
  have hpos := List.length_pos_of_mem ha
  unfold remaining
  omega

variable {L : Library} {limit : Nat} {count : Bool} {before : Option String}

/-- **What a request answers**, under a cursor that is read. -/
theorem listMessages_spec (db : Tables) (limit : Nat) (count : Bool)
    (hpos : position L scope before = .ok pos) :
    ∃ page, listMessages L db scope limit 0 before count = .ok page ∧
      page.items.map MessageView.message = (behind db scope pos).take limit ∧
      page.hasMore = decide (limit < (behind db scope pos).length) ∧
      page.nextCursor = if limit < (behind db scope pos).length then
          ((behind db scope pos).take limit).getLast?.map fun m => scope.cursor L m.id m.ts
        else none := by
  have hread := read_page db scope (limit + 1) pos
  have hlen : limit < (db.read scope (some (limit + 1)) 0 pos).length ↔
      limit < (behind db scope pos).length := by
    have hlen := congrArg List.length hread
    rw [List.length_map, List.length_take] at hlen
    omega
  have hitems : ((db.read scope (some (limit + 1)) 0 pos).take limit).map MessageView.message =
      (behind db scope pos).take limit := by
    rw [List.map_take, hread, List.take_take, Nat.min_eq_left (Nat.le_succ limit)]
  have hnot : ¬ (before.isSome = true ∧ 0 ≠ 0) := fun h => h.2 rfl
  unfold listMessages
  rw [if_neg hnot, hpos]
  refine ⟨_, rfl, hitems, ?_, ?_⟩
  · exact decide_eq_decide.mpr hlen
  · dsimp only
    rw [← hitems, List.getLast?_map, Option.map_map]
    by_cases h : limit < (behind db scope pos).length
    · rw [if_pos (decide_eq_true (hlen.mpr h)), if_pos h]
      rfl
    · rw [if_neg (by simpa using mt hlen.mp h), if_neg h]

section Walk

variable (hdigest : ∀ l, (L.blake2s l).length = 4)
  (hreads : ∀ s < MAX_SECONDS, L.fromisoformat (isoformat s) = true)

include hdigest hreads

/-- The cursor of a stored row is its position. -/
theorem position_cursor {m : Message}
    (hm : m.id < 2 ^ 63 ∧ ∃ s < MAX_SECONDS, m.ts = isoformat s) :
    position L scope (some (scope.cursor L m.id m.ts)) = .ok (some (m.ts, m.id)) := by
  obtain ⟨hid, s, hs, hts⟩ := hm
  rw [hts]
  show (scope.parseCursor L _).map some = _
  rw [parseCursor_cursor scope hdigest hreads (Nat.lt_trans hid (by decide)) hs]
  rfl

/-- **The walk from a position on.**  The induction is on the pages: the rows behind the last row
of a page are those that the next page begins with. -/
theorem walk_from {later : List Tables} {rounds : Nat} (hlimit : 1 ≤ limit)
    (hgrow : Growing db later) (hstored : Stored (final db later))
    (hpos : position L scope before = .ok pos)
    (hrounds : remaining (final db later) scope pos < rounds) :
    ∃ pages, walk L scope limit count rounds db later before = some pages ∧
      (seen pages).Pairwise Newer ∧ (∀ m ∈ seen pages, m ∈ behind (final db later) scope pos) ∧
      ∀ m ∈ behind db scope pos, m ∈ seen pages := by
  induction rounds generalizing db later before pos with
  | zero => exact absurd hrounds (Nat.not_lt_zero _)
  | succ rounds ih =>
    obtain ⟨page, hpage, hitems, hmore, hnext⟩ := listMessages_spec db limit count hpos
    have hfinal : ∀ m ∈ behind db scope pos, m ∈ behind (final db later) scope pos := by
      intro m hm
      obtain ⟨hmem, hcov, hold⟩ := mem_behind.mp hm
      exact mem_behind.mpr ⟨mem_final hgrow hmem, hcov, hold⟩
    have hsorted := behind_sorted db scope pos
    rw [walk, hpage]
    dsimp only
    by_cases hlt : limit < (behind db scope pos).length
    · -- the last row of the page, and what is behind it
      obtain ⟨front, last, htake⟩ : ∃ front last,
          (behind db scope pos).take limit = front ++ [last] := by
        have hne : (behind db scope pos).take limit ≠ [] := by
          intro hnil
          have hlen := congrArg List.length hnil
          rw [List.length_take, List.length_nil] at hlen
          omega
        exact ⟨_, _, (List.dropLast_append_getLast hne).symm⟩
      have hlast : last ∈ behind db scope pos :=
        List.mem_of_mem_take (htake ▸ List.mem_append_right _ List.mem_cons_self)
      rw [decide_eq_true hlt] at hmore
      rw [if_pos hlt, htake, List.getLast?_concat, Option.map_some] at hnext
      obtain ⟨hsub, hgrow', hsame⟩ := growing_next hgrow
      have hstored' := hstored last (mem_behind.mp (hfinal last hlast)).1
      obtain ⟨pages, hpages, hpair, hof, hall⟩ := ih hgrow' (hsame ▸ hstored)
        (position_cursor hdigest hreads hstored')
        (by
          have hfewer := remaining_lt (hfinal last hlast)
          rw [hsame]
          omega)
      rw [hsame] at hof
      rw [hmore, hnext]
      dsimp only
      rw [hpages]
      refine ⟨page.items :: pages, rfl, ?_⟩
      rw [seen_cons, hitems]
      have hparts : behind db scope pos =
          (front ++ [last]) ++ (behind db scope pos).drop limit := by
        rw [← htake, List.take_append_drop]
      rw [hparts] at hsorted
      obtain ⟨hfront, -, hcross⟩ := List.pairwise_append.mp hsorted
      rw [htake]
      refine ⟨?_, ?_, ?_⟩
      · refine List.pairwise_append.mpr ⟨hfront, hpair, fun a ha m hm => ?_⟩
        have hm' := olderThan_iff.mp (mem_behind.mp (hof m hm)).2.2
        rcases List.mem_append.mp ha with ha | ha
        · exact ((List.pairwise_append.mp hfront).2.2 a ha last List.mem_cons_self).trans hm'
        · rwa [List.mem_singleton.mp ha]
      · intro m hm
        rcases List.mem_append.mp hm with hm | hm
        · exact hfinal m (List.mem_of_mem_take (htake ▸ hm))
        · obtain ⟨hmem, hcov, hold⟩ := mem_behind.mp (hof m hm)
          exact mem_behind.mpr ⟨hmem, hcov,
            olderThan_trans (mem_behind.mp hlast).2.2 (olderThan_iff.mp hold)⟩
      · intro m hm
        obtain ⟨hmem, hcov, -⟩ := mem_behind.mp hm
        rw [hparts] at hm
        rcases List.mem_append.mp hm with hm | hm
        · exact List.mem_append_left _ hm
        · have hnewer := hcross last (List.mem_append_right _ List.mem_cons_self) m hm
          exact List.mem_append_right _
            (hall m (mem_behind.mpr ⟨hsub m hmem, hcov, olderThan_iff.mpr hnewer⟩))
    · rw [decide_eq_false hlt] at hmore
      rw [List.take_of_length_le (Nat.le_of_not_lt hlt)] at hitems
      rw [hmore]
      dsimp only
      refine ⟨[page.items], rfl, ?_⟩
      have hseen : seen [page.items] = behind db scope pos := by
        rw [seen_cons, hitems]
        exact List.append_nil _
      rw [hseen]
      exact ⟨hsorted, hfinal, fun m hm => hm⟩

/-- **A walk returns what there was, once each and in order.**  For every page size and scope, from
the first page on and over tables to which messages are added between the pages, it comes to an end;
each message of the first table that the scope covers is returned once, the newest first, and so is
what was added, if at all; and every stored row is read back from its cursor. -/
theorem walk_exact {scope : MessageScope} {limit : Nat} (hlimit : 1 ≤ limit) (count : Bool)
    {db : Tables} {later : List Tables} (hgrow : Growing db later)
    (hstored : Stored (final db later)) {rounds : Nat}
    (hrounds : (final db later).messages.length < rounds) :
    (∃ pages, walk L scope limit count rounds db later none = some pages ∧
      (seen pages).Pairwise Newer ∧
      (∀ m ∈ db.messages, scope.covers m = true → (seen pages).count m = 1) ∧
      ∀ m ∈ seen pages, m ∈ (final db later).messages ∧ scope.covers m = true) ∧
    ∀ m ∈ (final db later).messages,
      scope.parseCursor L (scope.cursor L m.id m.ts) = .ok (m.ts, m.id) := by
  constructor
  · have hlen : remaining (final db later) scope none < rounds := by
      have hperm : (behind (final db later) scope none).Perm _ := List.perm_insertionSort _ _
      have hle := List.length_filter_le (fun m => scope.covers m && olderThan none m)
        (final db later).messages
      unfold remaining
      rw [hperm.length_eq]
      omega
    obtain ⟨pages, hpages, hpair, hof, hall⟩ :=
      walk_from hdigest hreads hlimit hgrow hstored
        (show position L scope none = .ok none from rfl) hlen
    refine ⟨pages, hpages, hpair, fun m hm hcov => ?_, fun m hm => ?_⟩
    · refine List.count_eq_one_of_mem (hpair.imp fun h heq => ?_)
        (hall m (mem_behind.mpr ⟨hm, hcov, rfl⟩))
      subst heq
      rcases h with h | ⟨-, h⟩
      · exact absurd h (lt_irrefl _)
      · exact absurd h (Nat.lt_irrefl _)
    · obtain ⟨hmem, hcov, -⟩ := mem_behind.mp (hof m hm)
      exact ⟨hmem, hcov⟩
  · intro m hm
    obtain ⟨hid, s, hs, hts⟩ := hstored m hm
    rw [hts]
    exact parseCursor_cursor scope hdigest hreads (Nat.lt_trans hid (by decide)) hs

end Walk

/-- The digest of a scope that sets nothing. -/
def unfiltered : Library := ⟨fun _ => [226, 56, 127, 215], fun _ => true⟩

/-- A message of the last second of 2025. -/
def sample (id : Nat) : Message :=
  { id, device := "modem", simId := none, direction := "in", peer := "10086", body := "code"
    ts := isoformat 63902822399, status := "received", readAt := none, isBinary := 0, truncated := 0
    recoveredBody := none, recoveredCode := none }

/-- Messages with some ids, all of one time. -/
def ofOneTime (ids : List Nat) (h : ids.Nodup) : Tables where
  messages   := ids.map sample
  sims       := []
  messageIds := by
    have hid : Message.id ∘ sample = id := rfl
    rw [List.map_map, hid, List.map_id]
    exact h
  simIds     := List.nodup_nil

/-- Two messages of one time, and a third one that comes between the two pages. -/
theorem walk_exact_equal_times :
    ∃ pages, walk unfiltered {} 1 false 4 (ofOneTime [1, 2] (by decide))
        [ofOneTime [1, 2, 3] (by decide)] none = some pages ∧
      (seen pages).Pairwise Newer ∧ (seen pages).count (sample 1) = 1 := by
  have hstored : Stored (final (ofOneTime [1, 2] (by decide)) [ofOneTime [1, 2, 3] (by decide)]) := by
    intro m hm
    obtain ⟨i, hi, rfl⟩ := List.mem_map.mp hm
    have hlt : ∀ i ∈ [1, 2, 3], i < 2 ^ 63 := by decide
    exact ⟨hlt i hi, 63902822399, by decide, rfl⟩
  have hgrow : Growing (ofOneTime [1, 2] (by decide)) [ofOneTime [1, 2, 3] (by decide)] :=
    ⟨⟨[sample 3], rfl⟩, trivial⟩
  have hdigest : ∀ l, (unfiltered.blake2s l).length = 4 := fun _ => rfl
  have hreads : ∀ s < MAX_SECONDS, unfiltered.fromisoformat (isoformat s) = true := fun _ _ => rfl
  obtain ⟨⟨pages, hpages, hpair, hall, -⟩, -⟩ :=
    walk_exact hdigest hreads (Nat.le_refl 1) false hgrow hstored (show 3 < 4 by decide)
  exact ⟨pages, hpages, hpair, hall (sample 1) List.mem_cons_self (by decide)⟩

end Air780eHub.Messages
