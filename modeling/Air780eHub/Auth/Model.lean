/-
  The administrator's password and sessions, one database call at a time (`auth.py`, and the
  `/auth` routes of `api.py`).

  A request runs in a thread of its own, and so does the command line.  Between two of its database
  calls any other thread may make some, so a request here is a list of calls still to come: a
  `Thread` says which is next and what the calls before it found out.

  Two fields of the state are ghost.  `generation` counts the writes of the password; a thread
  carries the generation of the password it was let in with, and so does the session it creates.
  `floor` is the latest generation that a `set_password` which has returned wrote.

  1. **The standard library** the code calls, and the password policy.
  2. **Settings and sessions.**
  3. **Threads**: login, setup, password change.
  4. **The machine.**
-/
import Air780eHub.Lib.Machine
import Air780eHub.Lib.Routines
import Mathlib.Data.List.Basic

namespace Air780eHub.Auth

/-! ## The standard library, and the policy -/

/-- What the code calls of `hashlib` and of the character tables. -/
structure Library where
  /-- `hashlib.scrypt` of a password and a salt. -/
  scrypt  : String → String → String
  /-- `hashlib.sha256(...).hexdigest()`. -/
  sha256  : String → String
  isLower : Char → Bool
  isUpper : Char → Bool
  isDigit : Char → Bool
  isAlnum : Char → Bool

def MIN_PASSWORD_LENGTH : Nat := 8

def MAX_PASSWORD_LENGTH : Nat := 128

variable (L : Library)

/-- `PasswordPolicy.check`. -/
def policyCheck (password : String) : Bool :=
  let classes := [password.toList.any L.isLower, password.toList.any L.isUpper,
    password.toList.any L.isDigit, password.toList.any fun c => !L.isAlnum c]
  decide (MIN_PASSWORD_LENGTH ≤ password.length) && decide (password.length ≤ MAX_PASSWORD_LENGTH) &&
    decide (2 ≤ (classes.filter id).length)

/-! ## Settings and sessions -/

/-- The setting `auth.password`. -/
structure Credential where
  salt : String
  hash : String

/-- The credential of a new password. -/
def Credential.of (salt password : String) : Credential := ⟨salt, L.scrypt password salt⟩

/-- `verify_password`, of the setting that was read. -/
def verifyPassword (stored : Option Credential) (password : String) : Bool :=
  match stored with
  | none   => false
  | some c => L.scrypt password c.salt == c.hash

/-- A row of `sessions`, with the generation of the password it was granted on. -/
structure Session where
  tokenHash : String
  expiresAt : Int
  grant     : Nat

/-- `validate_session`. -/
def validateSession (sessions : List Session) (token : String) (now : Int) : Bool :=
  match sessions.find? fun r => r.tokenHash == L.sha256 token with
  | none   => false
  | some r => decide (now < r.expiresAt)

/-! ## Threads -/

/-- A request between two database calls, by the call it makes next. -/
inductive Thread
  /-- `auth_login`, before `is_configured`. -/
  | login (password : String)
  /-- `auth_login`, before the read of `verify_password`. -/
  | verify (password : String)
  /-- `auth_setup`, before `is_configured`. -/
  | setup (password : String)
  /-- `auth_setup`, before the write of `claim_password`. -/
  | claim (password : String)
  /-- `claim_password`, before `revoke_all_sessions`. -/
  | claimed (grant : Nat)
  /-- `_issue_session`, before the write of `create_session`. -/
  | issue (grant : Nat)
  /-- `auth_change_password`, before `require_session`. -/
  | change (token current new : String)
  /-- `change_password`, before the read of `verify_password`. -/
  | confirm (current new : String)
  /-- `set_password`, before `set_setting`. -/
  | setPassword (new : String)
  /-- `set_password`, before `revoke_all_sessions`; the generation it wrote. -/
  | revoke (written : Nat)
  /-- `clear`, before its write. -/
  | clear
  /-- `clear`, before `revoke_all_sessions`. -/
  | cleared

/-- A thread as its request starts it. -/
def Thread.fresh : Thread → Bool
  | .login _ | .setup _ | .change _ _ _ | .setPassword _ | .clear => true
  | _ => false

/-- What a call draws from `secrets` and from the clock. -/
structure Draw where
  salt  : String
  token : String
  now   : Int

/-- The database, the threads, and every token issued so far with its grant. -/
structure State where
  credential : Option Credential := none
  sessions   : List Session := []
  threads    : List Thread := []
  issued     : List (String × Nat) := []
  generation : Nat := 0
  floor      : Nat := 0

namespace State

variable (s : State)

/-- The `i`-th thread goes on, or is over. -/
def goOn (i : Nat) (next : Option Thread) : State := { s with threads := place s.threads i next }

/-- The password is written. -/
def written (c : Option Credential) : State :=
  { s with credential := c, generation := s.generation + 1 }

/-- `revoke_all_sessions`. -/
def revokeAll : State := { s with sessions := [] }

/-- The write of `create_session`. -/
def createSession (d : Draw) (ttl : Int) (grant : Nat) : State :=
  { s with
    sessions := s.sessions ++ [⟨L.sha256 d.token, d.now + ttl, grant⟩]
    issued   := s.issued ++ [(d.token, grant)] }

/-- A `set_password` that wrote this generation has returned. -/
def returned (written : Nat) : State := { s with floor := max s.floor written }

/-- The token is a new one: no token issued before has its hash. -/
def newToken (token : String) : Bool :=
  s.issued.all fun x : String × Nat => L.sha256 x.1 != L.sha256 token

/-! ## The machine -/

/-- The next database call of the `i`-th thread.  `ttl` is the lifetime of a session. -/
def call (ttl : Int) (i : Nat) (d : Draw) : Thread → Option State
  | .login password => some (s.goOn i (if s.credential.isSome then some (.verify password) else none))
  | .verify password => some
    (s.goOn i (if verifyPassword L s.credential password then some (.issue s.generation) else none))
  | .setup password => some
    (s.goOn i (if s.credential.isSome then none else some (.claim password)))
  | .claim password => some
    (if s.credential.isSome || !policyCheck L password then s.goOn i none
     else (s.written (some (.of L d.salt password))).goOn i (some (.claimed (s.generation + 1))))
  | .claimed grant => some (s.revokeAll.goOn i (some (.issue grant)))
  | .issue grant =>
    if s.newToken L d.token then some ((s.createSession L d ttl grant).goOn i none) else none
  | .change token current new => some
    (s.goOn i (if validateSession L s.sessions token d.now then some (.confirm current new) else none))
  | .confirm current new => some
    (s.goOn i (if verifyPassword L s.credential current then some (.setPassword new) else none))
  | .setPassword new => some
    (if policyCheck L new then
      (s.written (some (.of L d.salt new))).goOn i (some (.revoke (s.generation + 1)))
     else s.goOn i none)
  | .revoke written => some ((s.revokeAll.returned written).goOn i none)
  | .clear => some ((s.written none).goOn i (some .cleared))
  | .cleared => some (s.revokeAll.goOn i none)

end State

/-- What happens next. -/
inductive Act
  /-- A request arrives, or the command line starts. -/
  | start (t : Thread)
  /-- The `i`-th thread makes its next call. -/
  | call (i : Nat) (d : Draw)
  /-- `revoke_session`: a logout, or a validation that found the session expired. -/
  | logout (token : String)
  /-- `purge_expired_sessions`. -/
  | purge (now : Int)

/-- One step. -/
def step (ttl : Int) (s : State) : Act → Option State
  | .start t      => if t.fresh then some { s with threads := s.threads ++ [t] } else none
  | .call i d     => (s.threads[i]?).bind (s.call L ttl i d)
  | .logout token => some
    { s with sessions := s.sessions.filter fun r => r.tokenHash != L.sha256 token }
  | .purge now    => some { s with sessions := s.sessions.filter fun r => !decide (r.expiresAt < now) }

/-- The Server's logins from its first start on. -/
def logins (ttl : Int) : Machine State Act where
  Start := fun s => s = {}
  step  := step L ttl

end Air780eHub.Auth
