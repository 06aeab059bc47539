/-
  What a password change revokes, over every interleaving of requests.

  A login verifies the password and creates its session in two calls, and `set_password` writes the
  new hash and deletes the sessions in two more.  A login that read the old hash may create its
  session after the sessions were deleted: then it is there for its whole lifetime.

  1. **Sessions and tokens**: a session stands for exactly one issued token (`Matched`).
  2. **The result** (`old_tokens_revoked`): the old tokens stay revoked exactly as long as no such
     login creates its session.
-/
import Air780eHub.Auth.Model

namespace Air780eHub.Auth

variable {L : Library} {ttl : Int} {s s' : State} {a : Act}

/-! ## Sessions and tokens -/

namespace State

/-- Tokens with one hash are one token, and every session was issued. -/
structure Matched (L : Library) (s : State) : Prop where
  distinct : ∀ x ∈ s.issued, ∀ y ∈ s.issued, L.sha256 x.1 = L.sha256 y.1 → x = y
  issued   : ∀ r ∈ s.sessions, ∃ x ∈ s.issued, r.tokenHash = L.sha256 x.1 ∧ r.grant = x.2

/-- No token that was issued on an earlier password than that of a `set_password` which has returned
    validates, at any time. -/
def OldRevoked (L : Library) (s : State) : Prop :=
  ∀ x ∈ s.issued, x.2 < s.floor → ∀ now, validateSession L s.sessions x.1 now = false

/-- Every session was granted on the password of the latest change that has returned, or on a
    later one. -/
def Current (s : State) : Prop := ∀ r ∈ s.sessions, s.floor ≤ r.grant

/-- The condition: a session is not created on the strength of an older password. -/
def prompt (s : State) : Act → Bool
  | .call i _ => match s.threads[i]? with
    | some (.issue grant) => decide (s.floor ≤ grant)
    | _                   => true
  | _ => true

/-- Old tokens are revoked just when the sessions are current. -/
theorem oldRevoked_iff (h : s.Matched L) : s.OldRevoked L ↔ s.Current := by
  constructor
  · intro hold r hr
    by_contra hlt
    obtain ⟨x, hx, hhash, hgrant⟩ := h.issued r hr
    -- the first session with this hash is found, and it is valid before it expires
    cases hf : s.sessions.find? fun r => r.tokenHash == L.sha256 x.1 with
    | none =>
      have hno := List.find?_eq_none.mp hf r hr
      exact hno (beq_iff_eq.mpr hhash)
    | some q =>
      have hvalid := hold x hx (by omega) (q.expiresAt - 1)
      rw [validateSession, hf] at hvalid
      have hlater : ¬ q.expiresAt - 1 < q.expiresAt := of_decide_eq_false hvalid
      omega
  · intro hcur x hx hlt now
    unfold validateSession
    cases hf : s.sessions.find? fun r => r.tokenHash == L.sha256 x.1 with
    | none => rfl
    | some q =>
      have hq := List.mem_of_find?_eq_some hf
      have hfound := List.find?_some (p := fun r : Session => r.tokenHash == L.sha256 x.1) hf
      have hhash : q.tokenHash = L.sha256 x.1 := beq_iff_eq.mp hfound
      obtain ⟨y, hy, hyhash, hgrant⟩ := h.issued q hq
      obtain rfl := h.distinct y hy x hx (hyhash.symm.trans hhash)
      have hge := hcur q hq
      omega

theorem matched_of_sessions (h : s.Matched L) (hi : s'.issued = s.issued)
    (hs : ∀ r ∈ s'.sessions, r ∈ s.sessions) : s'.Matched L where
  distinct := by
    rw [hi]
    exact h.distinct
  issued := by
    rw [hi]
    exact fun r hr => h.issued r (hs r hr)

theorem matched_createSession {d : Draw} {grant : Nat} (h : s.Matched L)
    (hnew : s.newToken L d.token = true) : (s.createSession L d ttl grant).Matched L where
  distinct := by
    have hfresh : ∀ x ∈ s.issued, L.sha256 x.1 ≠ L.sha256 d.token := by
      intro x hx
      exact bne_iff_ne.mp (List.all_eq_true.mp hnew x hx)
    intro x hx y hy hhash
    rcases List.mem_append.mp hx with hx | hx
    · rcases List.mem_append.mp hy with hy | hy
      · exact h.distinct x hx y hy hhash
      · obtain rfl := List.mem_singleton.mp hy
        exact absurd hhash (hfresh x hx)
    · obtain rfl := List.mem_singleton.mp hx
      rcases List.mem_append.mp hy with hy | hy
      · exact absurd hhash.symm (hfresh y hy)
      · exact (List.mem_singleton.mp hy).symm
  issued := by
    intro r hr
    rcases List.mem_append.mp hr with hr | hr
    · obtain ⟨x, hx, hrx⟩ := h.issued r hr
      exact ⟨x, List.mem_append_left _ hx, hrx⟩
    · obtain rfl := List.mem_singleton.mp hr
      exact ⟨(d.token, grant), List.mem_append_right _ (List.mem_singleton_self _), rfl, rfl⟩

end State

/-- **What a step does to the sessions**: it deletes some, or all at the end of a password change,
    or adds one for a thread that was let in. -/
theorem step_cases (hs : step L ttl s a = some s') :
    (s.prompt a = true ∧ s'.issued = s.issued ∧ s'.floor = s.floor ∧
      ∀ r ∈ s'.sessions, r ∈ s.sessions) ∨
    (s.prompt a = true ∧ s'.issued = s.issued ∧ s'.sessions = []) ∨
    ∃ i d grant, a = .call i d ∧ s.prompt a = decide (s.floor ≤ grant) ∧
      s.newToken L d.token = true ∧ s' = (s.createSession L d ttl grant).goOn i none := by
  cases a with
  | start t =>
    rw [step] at hs
    split at hs
    · cases hs
      exact .inl ⟨rfl, rfl, rfl, fun r hr => hr⟩
    · cases hs
  | logout token =>
    cases hs
    exact .inl ⟨rfl, rfl, rfl, fun r hr => List.mem_of_mem_filter hr⟩
  | purge now =>
    cases hs
    exact .inl ⟨rfl, rfl, rfl, fun r hr => List.mem_of_mem_filter hr⟩
  | call i d =>
    obtain ⟨t, ht, hcall⟩ := Option.bind_eq_some_iff.mp hs
    cases t with
    | issue grant =>
      rw [State.call] at hcall
      split at hcall
      · cases hcall
        exact .inr (.inr ⟨i, d, grant, rfl, by rw [State.prompt, ht], ‹_›, rfl⟩)
      · cases hcall
    | claimed grant =>
      cases hcall
      exact .inr (.inl ⟨by rw [State.prompt, ht], rfl, rfl⟩)
    | revoke written =>
      cases hcall
      exact .inr (.inl ⟨by rw [State.prompt, ht], rfl, rfl⟩)
    | cleared =>
      cases hcall
      exact .inr (.inl ⟨by rw [State.prompt, ht], rfl, rfl⟩)
    | claim password =>
      rw [State.call] at hcall
      split at hcall
      · cases hcall
        exact .inl ⟨by rw [State.prompt, ht], rfl, rfl, fun r hr => hr⟩
      · cases hcall
        exact .inl ⟨by rw [State.prompt, ht], rfl, rfl, fun r hr => hr⟩
    | setPassword new =>
      rw [State.call] at hcall
      split at hcall
      · cases hcall
        exact .inl ⟨by rw [State.prompt, ht], rfl, rfl, fun r hr => hr⟩
      · cases hcall
        exact .inl ⟨by rw [State.prompt, ht], rfl, rfl, fun r hr => hr⟩
    | login password | verify password | setup password | change token current new
    | confirm current new | clear =>
      cases hcall
      exact .inl ⟨by rw [State.prompt, ht], rfl, rfl, fun r hr => hr⟩

namespace State

theorem matched_step (h : s.Matched L) (hs : step L ttl s a = some s') : s'.Matched L := by
  rcases step_cases hs with ⟨-, hi, -, hsub⟩ | ⟨-, hi, hnil⟩ | ⟨i, d, grant, -, -, hnew, rfl⟩
  · exact matched_of_sessions h hi hsub
  · refine matched_of_sessions h hi fun r hr => ?_
    rw [hnil] at hr
    cases hr
  · have hcreate := @matched_createSession L ttl s d grant h hnew
    exact ⟨hcreate.distinct, hcreate.issued⟩

/-- **A step keeps the sessions current exactly under the condition.** -/
theorem current_step (hc : s.Current) (hs : step L ttl s a = some s') :
    s'.Current ↔ s.prompt a = true := by
  rcases step_cases hs with ⟨hp, -, hf, hsub⟩ | ⟨hp, -, hnil⟩ | ⟨i, d, grant, -, hp, -, rfl⟩
  · refine ⟨fun _ => hp, fun _ r hr => ?_⟩
    rw [hf]
    exact hc r (hsub r hr)
  · refine ⟨fun _ => hp, fun _ r hr => ?_⟩
    rw [hnil] at hr
    cases hr
  · rw [hp, decide_eq_true_iff]
    constructor
    · intro hcur
      exact hcur ⟨_, _, grant⟩ (List.mem_append_right _ (List.mem_singleton_self _))
    · intro hle r hr
      rcases List.mem_append.mp hr with hr | hr
      · exact hc r hr
      · obtain rfl := List.mem_singleton.mp hr
        exact hle

end State

/-! ## The result -/

theorem logins_matched (h : (logins L ttl).Reachable s) : s.Matched L := by
  refine h.invariant (I := State.Matched L) ?_ fun s a s' hs _ hstep => State.matched_step hs hstep
  rintro s rfl
  exact ⟨nofun, nofun⟩

/-- **A password change revokes the old tokens unless a login it overtook creates its session
    afterwards.**  In every interleaving whose steps meet the condition, no token issued on an
    older password than that of a `set_password` that has returned validates; and a next step keeps
    it so exactly when it meets the condition too. -/
theorem old_tokens_revoked (h : (logins L ttl).ReachableBy (fun s a => s.prompt a = true) s) :
    s.OldRevoked L ∧ ∀ a s', (logins L ttl).step s a = some s' →
      (s'.OldRevoked L ↔ s.prompt a = true) := by
  have hm : s.Matched L := logins_matched h.reachable
  have hc : s.Current := by
    refine h.invariant (I := State.Current) ?_ fun s a s' hs hg hstep =>
      (State.current_step hs hstep).mpr hg
    rintro s rfl
    exact nofun
  refine ⟨(State.oldRevoked_iff hm).mpr hc, fun a s' hs => ?_⟩
  rw [State.oldRevoked_iff (State.matched_step hm hs)]
  exact State.current_step hc hs

/-- A library to compute runs with: nothing is hashed. -/
def plainLibrary : Library where
  scrypt  := fun password salt => salt ++ password
  sha256  := id
  isLower := Char.isLower
  isUpper := Char.isUpper
  isDigit := Char.isDigit
  isAlnum := Char.isAlphanum

/-- The administrator sets up, and a login has verified the password. -/
def loggingIn : List Act :=
  [.start (.setup "first-pass1"), .call 0 ⟨"", "", 0⟩, .call 0 ⟨"salt1", "", 0⟩, .call 0 ⟨"", "", 0⟩,
   .call 0 ⟨"", "token1", 0⟩,
   .start (.login "first-pass1"), .call 0 ⟨"", "", 10⟩, .call 0 ⟨"", "", 10⟩]

/-- The password is changed from the setup's session. -/
def changing : List Act :=
  [.start (.change "token1" "first-pass1" "second-pass2"), .call 1 ⟨"", "", 11⟩, .call 1 ⟨"", "", 11⟩,
   .call 1 ⟨"salt2", "", 11⟩, .call 1 ⟨"", "", 11⟩]

/-- The login ends before the change begins. -/
def promptly : List Act :=
  loggingIn ++ .call 0 ⟨"", "token2", 10⟩ ::
    [.start (.change "token1" "first-pass1" "second-pass2"), .call 0 ⟨"", "", 11⟩,
     .call 0 ⟨"", "", 11⟩, .call 0 ⟨"salt2", "", 11⟩, .call 0 ⟨"", "", 11⟩]

/-- A login that ends before the change meets the condition, and its token is revoked. -/
theorem old_tokens_revoked_promptly :
    ∃ s, s.issued = [("token1", 1), ("token2", 1)] ∧ s.floor = 2 ∧ s.OldRevoked plainLibrary ∧
      ∀ a s', (logins plainLibrary 100).step s a = some s' →
        (s'.OldRevoked plainLibrary ↔ s.prompt a = true) :=
  ⟨_, rfl, rfl, old_tokens_revoked ⟨{}, rfl,
    @Machine.runBy_path _ _ (logins plainLibrary 100) _ _ _ promptly rfl⟩⟩

/-- A login overtaken by the change: its token was issued on the first password, after the change
    had returned, and it validates. -/
theorem overtaken_login_stays :
    ∃ s, (logins plainLibrary 100).run {}
        (loggingIn ++ changing ++ [.call 0 ⟨"", "token2", 12⟩]) = some s ∧
      ("token2", 1) ∈ s.issued ∧ 1 < s.floor ∧
      validateSession plainLibrary s.sessions "token2" 13 = true :=
  ⟨_, rfl, by decide, by decide, rfl⟩

end Air780eHub.Auth
