/-
  Numbered slots, and readers that read a message first and delete its slot by number later.

  A store has numbered slots; the outside puts a message in any free one.  Several readers take
  messages out of it: a reader reads slots (from then on it CLAIMS them), takes up each message it
  read, and deletes the slot by its number.  A message taken up goes into a buffer that holds
  fragments back until they make a whole, then into a local variable of the reader, and is handed
  over when the reader gets to it.

  1. **The ledger** (`Ledger`): where every message is, as multisets.  A reader is not named in it;
     a claim is.
  2. **The moves** (`Move`).  What goes wrong is named by a `Policy`: what may be displaced from the
     buffer, what may be dropped, whether a delete may fail.
  3. **Ownership** (`Owned`): claims are sub-slots, so no slot is claimed twice and a claimed slot
     still holds what was read.
  4. **Coverage** (`Covered`): what was freed is handed over or still in memory.
  5. **Conservation** (`Conserved`): under the strict policy, each message is in one place.
-/
import Mathlib.Data.Multiset.Basic
import Mathlib.Data.Multiset.AddSub
import Mathlib.Data.Multiset.Filter
import Mathlib.Data.Multiset.MapFold
import Mathlib.Algebra.Order.Group.Multiset
import Mathlib.Logic.Relation

namespace Air780eHub.Mailbox

universe u v w

/-! ## The ledger -/

/-- Where every message is. -/
@[ext] structure Ledger (ι : Type u) (μ : Type v) where
  /-- The store: occupied slots. -/
  slots   : Multiset (ι × μ)
  /-- Claimed: read by some reader, not taken up yet. -/
  listed  : Multiset (ι × μ)
  /-- Claimed: taken up, its slot not deleted yet. -/
  pushed  : Multiset (ι × μ)
  /-- Held back in the buffer. -/
  held    : Multiset μ
  /-- In a local variable of a reader. -/
  waiting : Multiset μ
  /-- Handed over. -/
  emitted : Multiset μ
  /-- Of every slot that was freed: what it held, and what the reader that freed it had read. -/
  freed   : Multiset (μ × μ)
  /-- Every message that ever arrived. -/
  log     : Multiset μ

variable {ι : Type u} {μ : Type v} {π : Type w}

/-- The slots some reader has read and not deleted. -/
def Ledger.claims (L : Ledger ι μ) : Multiset (ι × μ) := L.pushed + L.listed

/-- The messages whose slot was freed, or is about to be. -/
def Ledger.spent (L : Ledger ι μ) : Multiset μ := L.freed.map Prod.fst + L.pushed.map Prod.snd

/-- The messages in memory or handed over. -/
def Ledger.kept (L : Ledger ι μ) : Multiset μ := L.emitted + L.held + L.waiting

/-- A message, if it can be taken up at all. -/
def seen (visible : μ → Bool) (m : μ) : Multiset μ := if visible m then {m} else 0

/-! ## The moves -/

/-- What a run may lose: `displace m lost` when taking up `m` displaces `lost` from the buffer,
    `drop L W` when `W` is dropped in `L`, `reset L` when all of `L`'s memory goes, `fail` when a
    delete leaves its slot occupied. -/
structure Policy (ι : Type u) (μ : Type v) where
  displace : μ → Multiset μ → Prop
  drop     : Ledger ι μ → Multiset μ → Prop
  reset    : Ledger ι μ → Prop
  fail     : Prop

/-- One move. -/
inductive Move (visible : μ → Bool) (P : Policy ι μ) : Ledger ι μ → Ledger ι μ → Prop
  /-- A message arrives in a free slot. -/
  | arrive {L : Ledger ι μ} (i : ι) (m : μ) (hi : i ∉ L.slots.map Prod.fst) :
      Move visible P L { L with slots := (i, m) ::ₘ L.slots, log := m ::ₘ L.log }
  /-- A message arrives past the store, is taken up and handed over as far as it is whole. -/
  | direct {L : Ledger ι μ} (m : μ) (H out lost : Multiset μ)
      (hh : H + out + lost = L.held + seen visible m) (hm : visible m = true → m ∈ H + out)
      (hd : P.displace m lost) :
      Move visible P L { L with log := m ::ₘ L.log, held := H, emitted := out + L.emitted }
  /-- A reader reads slots nobody else claims. -/
  | claim {L : Ledger ι μ} (C : Multiset (ι × μ)) (hC : C + L.claims ≤ L.slots) :
      Move visible P L { L with listed := C + L.listed }
  /-- A reader gives up on slots it only read. -/
  | release {L : Ledger ι μ} (C R : Multiset (ι × μ)) (hC : L.listed = C + R) :
      Move visible P L { L with listed := R }
  /-- A reader takes up a message it read. -/
  | push {L : Ledger ι μ} (x : ι × μ) (R : Multiset (ι × μ)) (H out lost : Multiset μ)
      (hx : L.listed = x ::ₘ R) (hh : H + out + lost = L.held + seen visible x.2)
      (hm : visible x.2 = true → x.2 ∈ H + out) (hd : P.displace x.2 lost) :
      Move visible P L { L with
        listed := R, pushed := x ::ₘ L.pushed, held := H, waiting := out + L.waiting }
  /-- A reader frees the slot of a message it took up. -/
  | free {L : Ledger ι μ} (x : ι × μ) (R S : Multiset (ι × μ)) (hx : L.pushed = x ::ₘ R)
      (hs : L.slots = x ::ₘ S) :
      Move visible P L { L with pushed := R, slots := S, freed := (x.2, x.2) ::ₘ L.freed }
  /-- A delete left its slot occupied. -/
  | miss {L : Ledger ι μ} (x : ι × μ) (R : Multiset (ι × μ)) (hx : L.pushed = x ::ₘ R)
      (hf : P.fail) :
      Move visible P L { L with pushed := R }
  /-- A reader hands over what waited in its local variable. -/
  | emit {L : Ledger ι μ} (W R : Multiset μ) (hW : L.waiting = W + R) :
      Move visible P L { L with waiting := R, emitted := W + L.emitted }
  /-- The buffer gives up waiting, and what it held is handed over. -/
  | flush {L : Ledger ι μ} (F R : Multiset μ) (hF : L.held = F + R) :
      Move visible P L { L with held := R, emitted := F + L.emitted }
  /-- A reader ends with an error, and its local variable goes with it. -/
  | drop {L : Ledger ι μ} (W R : Multiset μ) (hW : L.waiting = W + R) (hd : P.drop L W) :
      Move visible P L { L with waiting := R }
  /-- Everything in memory goes. -/
  | reset {L : Ledger ι μ} (hd : P.reset L) :
      Move visible P L { L with pushed := 0, listed := 0, held := 0, waiting := 0 }

/-- Any number of moves. -/
abbrev Moves (visible : μ → Bool) (P : Policy ι μ) : Ledger ι μ → Ledger ι μ → Prop :=
  Relation.ReflTransGen (Move visible P)

variable {visible : μ → Bool} {P : Policy ι μ} {L L' : Ledger ι μ}

theorem Moves.one {L'' : Ledger ι μ} (h : Move visible P L L') (he : L' = L'') :
    Moves visible P L L'' :=
  he ▸ Relation.ReflTransGen.single h

/-- What every move preserves, a sequence of moves preserves. -/
theorem Moves.invariant {I : Ledger ι μ → Prop}
    (hmove : ∀ {L L'}, Move visible P L L' → I L → I L') (h : Moves visible P L L') (hL : I L) :
    I L' := by
  induction h with
  | refl => exact hL
  | tail _ hm ih => exact hmove hm ih

/-! ## Ownership -/

/-- Slot numbers are distinct, and the claims are slots: no slot is claimed twice, and a claimed
    slot still holds what was read from it. -/
structure Ledger.Owned (L : Ledger ι μ) : Prop where
  numbers : (L.slots.map Prod.fst).Nodup
  claimed : L.claims ≤ L.slots
  /-- A slot was freed by a reader that had read what it held. -/
  freed   : ∀ f ∈ L.freed, f.1 = f.2

theorem Ledger.Owned.move (h : Move visible P L L') (hL : L.Owned) : L'.Owned := by
  obtain ⟨hn, hc, hf⟩ := hL
  cases h with
  | arrive i m hi =>
    refine ⟨?_, hc.trans (Multiset.le_cons_self _ _), hf⟩
    show (((i, m) ::ₘ L.slots).map Prod.fst).Nodup
    rw [Multiset.map_cons, Multiset.nodup_cons]
    exact ⟨hi, hn⟩
  | direct m H out lost hh hm hd => exact ⟨hn, hc, hf⟩
  | claim C hC =>
    refine ⟨hn, ?_, hf⟩
    show L.pushed + (C + L.listed) ≤ L.slots
    rw [add_left_comm]
    exact hC
  | release C R hC =>
    refine ⟨hn, le_trans ?_ hc, hf⟩
    show L.pushed + R ≤ L.pushed + L.listed
    rw [hC]
    exact Multiset.add_le_add_iff_left.mpr (Multiset.le_add_left R C)
  | push x R H out lost hx hh hm hd =>
    refine ⟨hn, ?_, hf⟩
    show x ::ₘ L.pushed + R ≤ L.slots
    have hsame : x ::ₘ L.pushed + R = L.claims := by
      rw [Ledger.claims, hx, Multiset.cons_add, Multiset.add_cons]
    rw [hsame]
    exact hc
  | free x R S hx hs =>
    have hc' : x ::ₘ (R + L.listed) ≤ x ::ₘ S := by
      rw [Ledger.claims, hx, hs, Multiset.cons_add] at hc
      exact hc
    refine ⟨?_, (Multiset.cons_le_cons_iff x).mp hc', ?_⟩
    · rw [hs, Multiset.map_cons, Multiset.nodup_cons] at hn
      exact hn.2
    · intro f hmem
      rcases Multiset.mem_cons.mp hmem with rfl | hmem
      · rfl
      · exact hf f hmem
  | miss x R hx hfail =>
    refine ⟨hn, le_trans ?_ hc, hf⟩
    show R + L.listed ≤ L.pushed + L.listed
    rw [hx]
    exact Multiset.add_le_add_iff_right.mpr (Multiset.le_cons_self R x)
  | emit W R hW => exact ⟨hn, hc, hf⟩
  | flush F R hF => exact ⟨hn, hc, hf⟩
  | drop W R hW hd => exact ⟨hn, hc, hf⟩
  | reset hd => exact ⟨hn, Multiset.zero_le _, hf⟩

/-! ## Coverage -/

/-- What was freed, or is about to be, and matters (`rel`), is handed over or in memory.  Messages
    are told apart by their content `key`. -/
def Ledger.Covered (key : μ → π) (rel : π → Prop) (L : Ledger ι μ) : Prop :=
  ∀ m ∈ L.spent, rel (key m) → ∃ r ∈ L.kept, key r = key m

/-- The policy under which nothing that matters is lost: a displaced message has the content of
    the one that displaces it, and what is dropped still has its slot. -/
def keep (key : μ → π) (rel : π → Prop) : Policy ι μ where
  displace m lost := ∀ d ∈ lost, rel (key d) → key d = key m
  drop L W := ∀ r ∈ W, rel (key r) → ∀ m ∈ L.spent, key m ≠ key r
  reset L := ∀ r ∈ L.held + L.waiting, rel (key r) → ∀ f ∈ L.freed, key f.1 ≠ key r
  fail := True

section Coverage

variable {key : μ → π} {rel : π → Prop}

theorem Ledger.Covered.of_kept (hL : L.Covered key rel) (hs : ∀ m ∈ L'.spent, m ∈ L.spent)
    (hk : ∀ r ∈ L.kept, r ∈ L'.kept) : L'.Covered key rel := by
  intro m hm hr
  obtain ⟨r, hr', he⟩ := hL m (hs m hm) hr
  exact ⟨r, hk r hr', he⟩

/-- Taking up a message keeps every content in memory, up to the displaced ones. -/
theorem mem_of_push {m r : μ} {H out lost : Multiset μ}
    (hh : H + out + lost = L.held + seen visible m) (hm : visible m = true → m ∈ H + out)
    (hd : ∀ d ∈ lost, rel (key d) → key d = key m) (hvis : ∀ m, rel (key m) → visible m = true)
    (hr : r ∈ L.held) (hrel : rel (key r)) : ∃ r' ∈ H + out, key r' = key r := by
  have hmem : r ∈ H + out + lost := by
    rw [hh]; exact Multiset.mem_add.mpr (Or.inl hr)
  rcases Multiset.mem_add.mp hmem with hin | hlost
  · exact ⟨r, hin, rfl⟩
  · have hkey : key r = key m := hd r hlost hrel
    exact ⟨m, hm (hvis m (hkey ▸ hrel)), hkey.symm⟩

theorem Ledger.Covered.move (hvis : ∀ m, rel (key m) → visible m = true)
    (h : Move visible (keep key rel) L L') (hL : L.Covered key rel) : L'.Covered key rel := by
  cases h with
  | arrive i m hi => exact hL
  | direct m H out lost hh hm hd =>
    intro x hx hr
    obtain ⟨r, hr', he⟩ := hL x hx hr
    simp only [Ledger.kept, Multiset.mem_add] at hr' ⊢
    rcases hr' with (hr' | hr') | hr'
    · exact ⟨r, Or.inl (Or.inl (Or.inr hr')), he⟩
    · obtain ⟨r₂, h₂, he₂⟩ := mem_of_push hh hm hd hvis hr' (he ▸ hr)
      rcases Multiset.mem_add.mp h₂ with h₂ | h₂
      · exact ⟨r₂, Or.inl (Or.inr h₂), he₂.trans he⟩
      · exact ⟨r₂, Or.inl (Or.inl (Or.inl h₂)), he₂.trans he⟩
    · exact ⟨r, Or.inr hr', he⟩
  | claim C hC => exact hL
  | release C R hC => exact hL
  | push x R H out lost hx hh hm hd =>
    intro y hy hr
    simp only [Ledger.spent, Multiset.map_cons, Multiset.mem_add, Multiset.mem_cons] at hy
    simp only [Ledger.kept, Multiset.mem_add]
    -- the content of `y` was kept before, or `y` is the message taken up
    by_cases hyx : y = x.2
    · have hin : x.2 ∈ H + out := hm (hvis _ (hyx ▸ hr))
      rcases Multiset.mem_add.mp hin with hin | hin
      · exact ⟨x.2, Or.inl (Or.inr hin), by rw [hyx]⟩
      · exact ⟨x.2, Or.inr (Or.inl hin), by rw [hyx]⟩
    · have hy' : y ∈ L.spent := by
        rcases hy with hy | hy | hy
        · exact Multiset.mem_add.mpr (Or.inl hy)
        · exact absurd hy hyx
        · exact Multiset.mem_add.mpr (Or.inr hy)
      obtain ⟨r, hr', he⟩ := hL y hy' hr
      simp only [Ledger.kept, Multiset.mem_add] at hr'
      rcases hr' with (hr' | hr') | hr'
      · exact ⟨r, Or.inl (Or.inl hr'), he⟩
      · obtain ⟨r₂, h₂, he₂⟩ := mem_of_push hh hm hd hvis hr' (he ▸ hr)
        rcases Multiset.mem_add.mp h₂ with h₂ | h₂
        · exact ⟨r₂, Or.inl (Or.inr h₂), he₂.trans he⟩
        · exact ⟨r₂, Or.inr (Or.inl h₂), he₂.trans he⟩
      · exact ⟨r, Or.inr (Or.inr hr'), he⟩
  | free x R S hx hs =>
    refine hL.of_kept (fun m hm => ?_) fun r hr => hr
    simp only [Ledger.spent, hx, Multiset.map_cons, Multiset.mem_add, Multiset.mem_cons] at hm ⊢
    tauto
  | miss x R hx hf =>
    refine hL.of_kept (fun m hm => ?_) fun r hr => hr
    simp only [Ledger.spent, hx, Multiset.map_cons, Multiset.mem_add, Multiset.mem_cons] at hm ⊢
    tauto
  | emit W R hW =>
    refine hL.of_kept (fun m hm => hm) fun r hr => ?_
    simp only [Ledger.kept, hW, Multiset.mem_add] at hr ⊢
    tauto
  | flush F R hF =>
    refine hL.of_kept (fun m hm => hm) fun r hr => ?_
    simp only [Ledger.kept, hF, Multiset.mem_add] at hr ⊢
    tauto
  | drop W R hW hd =>
    intro m hm hr
    obtain ⟨r, hr', he⟩ := hL m hm hr
    simp only [Ledger.kept, hW, Multiset.mem_add] at hr' ⊢
    rcases hr' with hr' | hr' | hr'
    · exact ⟨r, Or.inl hr', he⟩
    · exact absurd he.symm (hd r hr' (he ▸ hr) m hm)
    · exact ⟨r, Or.inr hr', he⟩
  | reset hd =>
    intro m hm hr
    simp only [Ledger.spent, Multiset.map_zero, add_zero] at hm
    obtain ⟨r, hr', he⟩ := hL m (Multiset.mem_add.mpr (Or.inl hm)) hr
    obtain ⟨f, hf, rfl⟩ := Multiset.mem_map.mp hm
    simp only [Ledger.kept, Multiset.mem_add] at hr' ⊢
    rcases hr' with (hr' | hr') | hr'
    · exact ⟨r, Or.inl (Or.inl hr'), he⟩
    · exact absurd he.symm (hd r (Multiset.mem_add.mpr (Or.inl hr')) (he ▸ hr) f hf)
    · exact absurd he.symm (hd r (Multiset.mem_add.mpr (Or.inr hr')) (he ▸ hr) f hf)

end Coverage

/-! ## Conservation -/

/-- The policy under which nothing is lost or repeated. -/
def strict : Policy ι μ where
  displace _ lost := lost = 0
  drop _ W := W = 0
  reset _ := False
  fail := False

/-- The messages of some slots that can be taken up. -/
def visibleIn (visible : μ → Bool) (S : Multiset (ι × μ)) : Multiset μ :=
  (S.map Prod.snd).filter fun m => visible m = true

/-- What arrived is handed over, in memory or in the store; what is taken up and not yet deleted
    is both in memory (or handed over) and in the store. -/
def Ledger.Conserved (visible : μ → Bool) (L : Ledger ι μ) : Prop :=
  L.kept + visibleIn visible L.slots
    = L.log.filter (fun m => visible m = true) + visibleIn visible L.pushed

theorem filter_cons_seen (m : μ) (S : Multiset μ) :
    (m ::ₘ S).filter (fun m => visible m = true)
      = seen visible m + S.filter fun m => visible m = true := by
  by_cases hv : visible m = true
  · rw [Multiset.filter_cons_of_pos (p := fun m => visible m = true) _ hv, seen, if_pos hv, Multiset.singleton_add]
  · rw [Multiset.filter_cons_of_neg (p := fun m => visible m = true) _ hv, seen, if_neg hv, zero_add]

theorem visibleIn_cons (x : ι × μ) (S : Multiset (ι × μ)) :
    visibleIn visible (x ::ₘ S) = seen visible x.2 + visibleIn visible S := by
  rw [visibleIn, Multiset.map_cons, filter_cons_seen, visibleIn]

theorem Ledger.Conserved.move (h : Move visible strict L L') (hL : L.Conserved visible) :
    L'.Conserved visible := by
  unfold Ledger.Conserved Ledger.kept at hL ⊢
  cases h with
  | arrive i m hi =>
    show L.emitted + L.held + L.waiting + visibleIn visible ((i, m) ::ₘ L.slots)
      = (m ::ₘ L.log).filter (fun m => visible m = true) + visibleIn visible L.pushed
    rw [visibleIn_cons, filter_cons_seen, add_left_comm, hL, add_assoc]
  | direct m H out lost hh hm hd =>
    obtain rfl : lost = 0 := hd
    show out + L.emitted + H + L.waiting + visibleIn visible L.slots
      = (m ::ₘ L.log).filter (fun m => visible m = true) + visibleIn visible L.pushed
    rw [filter_cons_seen, add_assoc (seen visible m), ← hL]
    rw [add_zero] at hh
    calc out + L.emitted + H + L.waiting + visibleIn visible L.slots
        = (H + out) + (L.emitted + L.waiting + visibleIn visible L.slots) := by ac_rfl
      _ = (L.held + seen visible m) + (L.emitted + L.waiting + visibleIn visible L.slots) := by
          rw [hh]
      _ = _ := by ac_rfl
  | claim C hC => exact hL
  | release C R hC => exact hL
  | push x R H out lost hx hh hm hd =>
    obtain rfl : lost = 0 := hd
    show L.emitted + H + (out + L.waiting) + visibleIn visible L.slots
      = L.log.filter (fun m => visible m = true) + visibleIn visible (x ::ₘ L.pushed)
    rw [visibleIn_cons, add_left_comm (Multiset.filter _ _), ← hL]
    rw [add_zero] at hh
    calc L.emitted + H + (out + L.waiting) + visibleIn visible L.slots
        = (H + out) + (L.emitted + L.waiting + visibleIn visible L.slots) := by ac_rfl
      _ = (L.held + seen visible x.2) + (L.emitted + L.waiting + visibleIn visible L.slots) := by
          rw [hh]
      _ = _ := by ac_rfl
  | free x R S hx hs =>
    rw [hx, hs, visibleIn_cons, visibleIn_cons, add_left_comm, add_left_comm (Multiset.filter _ _)]
      at hL
    exact add_left_cancel hL
  | miss x R hx hf => exact False.elim hf
  | emit W R hW =>
    show W + L.emitted + L.held + R + visibleIn visible L.slots = _
    rw [← hL, hW]
    ac_rfl
  | flush F R hF =>
    show F + L.emitted + R + L.waiting + visibleIn visible L.slots = _
    rw [← hL, hF]
    ac_rfl
  | drop W R hW hd =>
    obtain rfl : W = 0 := hd
    rw [zero_add] at hW
    show L.emitted + L.held + R + visibleIn visible L.slots = _
    rw [← hW]
    exact hL
  | reset hd =>
    exact False.elim hd

/-- **Each message is in one place.**  Under the strict policy, with the claims owned: what
    arrived is handed over, in memory, or in a slot whose message nobody took up. -/
theorem Ledger.Conserved.places [DecidableEq ι] [DecidableEq μ] (hL : L.Conserved visible)
    (ho : L.Owned) :
    L.kept + visibleIn visible (L.slots - L.pushed) = L.log.filter fun m => visible m = true := by
  have hle : L.pushed ≤ L.slots := le_trans (Multiset.le_add_right _ _) ho.claimed
  have hsplit : visibleIn visible L.slots
      = visibleIn visible (L.slots - L.pushed) + visibleIn visible L.pushed := by
    rw [visibleIn, visibleIn, visibleIn, ← Multiset.filter_add, ← Multiset.map_add,
      Multiset.sub_add_cancel hle]
  have hcons : L.kept + visibleIn visible (L.slots - L.pushed) + visibleIn visible L.pushed
      = L.log.filter (fun m => visible m = true) + visibleIn visible L.pushed := by
    rw [add_assoc, ← hsplit]
    exact hL
  exact add_right_cancel hcons

end Air780eHub.Mailbox
