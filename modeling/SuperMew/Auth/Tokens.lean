import Mathlib.Data.List.Sort
import SuperMew.Library.Run
import SuperMew.Runs.Model

/-! The refresh tokens of the users: `AuthTokenService` and the purge of expired rows. -/

namespace SuperMew.Auth

open Relational

/-- The settings of the tokens, with the bounds that are checked when they are loaded. -/
structure SecuritySettings where
  refreshTokenExpireDays : ℕ
  refreshTokenRetentionDays : ℕ
  expires : 1 ≤ refreshTokenExpireDays
  retained : 1 ≤ refreshTokenRetentionDays ∧ refreshTokenRetentionDays ≤ 3650

def daysSpan (days : ℕ) : Time := secondsSpan (days * 86400)

/-- SHA-256 of a token, which two tokens never share, and the signed access token. -/
class TokenPlatform where
  hash : String → String
  hash_injective : Function.Injective hash
  createAccessToken : String → String → Time → String

structure RefreshToken where
  id : String
  userId : ℕ
  tokenHash : String
  expiresAt : Time
  revokedAt : Option Time
  createdAt : Time
  deriving DecidableEq, Repr

structure Ledger where
  users : Table ℕ Runs.User
  tokens : List RefreshToken

structure TokenGrant where
  accessToken : String
  refreshToken : String
  username : String
  role : String
  deriving DecidableEq, Repr

inductive RefreshTokenRejection where
  | missing
  | invalid
  | expired
  | replay
  deriving DecidableEq, Repr

inductive Failure where
  | rejected (reason : RefreshTokenRejection)
  | fault (fault : Fault)

/-- What an operation draws for a new row. -/
structure Draw where
  id : String
  token : String

/-! ## Rows -/

def isOpaque (token : String) : Bool :=
  64 ≤ token.length && token.length ≤ 256 &&
    token.toList.all fun c => c.isAlphanum || c == '_' || c == '-'

namespace RefreshToken

variable (row : RefreshToken)

def expired (now : Time) : Bool := decide (row.expiresAt ≤ now)

def active (now : Time) : Bool := row.revokedAt.isNone && !row.expired now

def revoked (now : Time) : RefreshToken := { row with revokedAt := some now }

end RefreshToken

namespace Ledger

variable (s : Ledger)

def tokenUserId (tokenHash : String) : Option ℕ :=
  (s.tokens.find? fun row => row.tokenHash == tokenHash).map RefreshToken.userId

def lockToken (tokenHash : String) (userId : ℕ) : Option RefreshToken :=
  s.tokens.find? fun row => row.tokenHash == tokenHash && row.userId == userId

/-- Set `revoked_at` of the rows that a query finds. -/
def revokeWhere (p : RefreshToken → Bool) (now : Time) : Ledger :=
  { s with tokens := s.tokens.map fun row => if p row then row.revoked now else row }

/-- `_revoke_active_for_user`, which returns how many rows it has changed. -/
def revokeActiveForUser (userId : ℕ) (now : Time) : ℕ × Ledger :=
  let p := fun row : RefreshToken => row.userId == userId && row.active now
  ((s.tokens.filter p).length, s.revokeWhere p now)

/-- Insert a row under the constraints of the table. -/
def insert (row : RefreshToken) : Except Fault Ledger := do
  violatedIf (s.tokens.any (·.id == row.id) = true) "refresh_tokens_pkey"
  violatedIf (s.tokens.any (·.tokenHash == row.tokenHash) = true) "refresh_tokens_token_hash_key"
  pure { s with tokens := s.tokens ++ [row] }

end Ledger

/-! ## Operations -/

def logoutAll (now : Time) (userId : ℕ) (s : Ledger) : ℕ × Ledger :=
  match s.users.get userId with
  | none => (0, s)
  | some _ => s.revokeActiveForUser userId now

variable (settings : SecuritySettings)

/-- The rows that one batch of the purge deletes: `ORDER BY expires_at, id LIMIT batch_size`. -/
def purgeCandidates (now : Time) (batchSize : ℕ) (s : Ledger) :
    List String :=
  let expired := s.tokens.filter fun row =>
    decide (row.expiresAt + daysSpan settings.refreshTokenRetentionDays ≤ now)
  ((expired.insertionSort fun a b => a.expiresAt < b.expiresAt ∨
    a.expiresAt = b.expiresAt ∧ a.id ≤ b.id).take batchSize).map RefreshToken.id

def purgeRefreshTokenBatch (now : Time) (batchSize : ℤ) (s : Ledger) :
    Except Fault (ℕ × Ledger) :=
  if batchSize ≤ 0 then .error (.runtime "batch_size must be positive")
  else
    let candidates := purgeCandidates settings now batchSize.toNat s
    let kept := s.tokens.filter fun row => !candidates.contains row.id
    .ok (s.tokens.length - kept.length, { s with tokens := kept })

section Operations

variable [TokenPlatform]

def newRefreshToken (draw : Draw) : Except Fault String :=
  if isOpaque draw.token then .ok draw.token
  else .error (.runtime "refresh token factory returned an unsafe token")

def validatedHash (rawToken : Option String) : Except RefreshTokenRejection String :=
  match rawToken with
  | none => .error .missing
  | some token => if isOpaque token then .ok (TokenPlatform.hash token) else .error .invalid

def newRow (draw : Draw) (userId : ℕ) (now : Time) : RefreshToken where
  id := draw.id
  userId := userId
  tokenHash := TokenPlatform.hash draw.token
  expiresAt := now + daysSpan settings.refreshTokenExpireDays
  revokedAt := none
  createdAt := now

def newGrant (user : Runs.User) (token : String) (now : Time) : TokenGrant :=
  ⟨TokenPlatform.createAccessToken user.username user.role now, token, user.username, user.role⟩

/-- `issue`, which reads the clock before it waits for the lock on the user. -/
def issue (settings : SecuritySettings) (userId : ℕ) (readAt : Time) (draw : Draw) (s : Ledger) :
    Except Fault (TokenGrant × Ledger) := do
  let token ← newRefreshToken draw
  match s.users.get userId with
  | none => throw (.runtime "cannot issue a refresh token for a missing user")
  | some user => do
      let s ← s.insert (newRow settings draw userId readAt)
      pure (newGrant user token readAt, s)

/-- The end of `rotate`: the stored token is revoked and a new one takes its place. -/
def replaceToken (user : Runs.User) (stored : RefreshToken)
    (draw : Draw) (now : Time) (s : Ledger) : Except Fault (TokenGrant × Ledger) := do
  let replacement ← newRefreshToken draw
  let s := s.revokeWhere (fun row => row.id == stored.id) now
  let s ← s.insert (newRow settings draw stored.userId now)
  pure (newGrant user replacement now, s)

/-- `rotate`: the answer, and the ledger after it. A replay is an error that commits. -/
def rotate (now : Time) (rawToken : Option String) (draw : Draw)
    (s : Ledger) : Except Failure TokenGrant × Ledger :=
  match validatedHash rawToken with
  | .error reason => (.error (.rejected reason), s)
  | .ok tokenHash =>
    match s.tokenUserId tokenHash with
    | none => (.error (.rejected .invalid), s)
    | some userId =>
      match s.users.get userId, s.lockToken tokenHash userId with
      | some user, some stored =>
        if stored.expired now then (.error (.rejected .expired), s)
        else if stored.revokedAt.isSome then
          (.error (.rejected .replay), (s.revokeActiveForUser userId now).2)
        else
          match replaceToken settings user stored draw now s with
          | .ok (grant, s') => (.ok grant, s')
          | .error fault => (.error (.fault fault), s)
      | _, _ => (.error (.rejected .invalid), s)

def logout (now : Time) (rawToken : Option String) (s : Ledger) : ℕ × Ledger :=
  match validatedHash rawToken with
  | .error _ => (0, s)
  | .ok tokenHash =>
    match s.tokenUserId tokenHash with
    | none => (0, s)
    | some userId =>
      match s.users.get userId, s.lockToken tokenHash userId with
      | some _, some stored =>
        if stored.revokedAt.isSome || stored.expired now then (0, s)
        else (1, s.revokeWhere (fun row => row.id == stored.id) now)
      | _, _ => (0, s)

/-! ## Calls -/

inductive Op where
  | issue (userId : ℕ) (readAt : Time) (draw : Draw)
  | rotate (rawToken : Option String) (draw : Draw)
  | logout (rawToken : Option String)
  | logoutAll (userId : ℕ)
  | purge (batchSize : ℤ)

/-- A transaction, and the clock while it holds its locks. -/
structure Call where
  now : Time
  op : Op

def Op.draw : Op → Option Draw
  | .issue _ _ draw => some draw
  | .rotate _ draw => some draw
  | _ => none

def exec (s : Ledger) (call : Call) : Ledger :=
  match call.op with
  | .issue userId readAt draw =>
    match issue settings userId readAt draw s with
    | .ok (_, s') => s'
    | .error _ => s
  | .rotate rawToken draw => (rotate settings call.now rawToken draw s).2
  | .logout rawToken => (logout call.now rawToken s).2
  | .logoutAll userId => (logoutAll call.now userId s).2
  | .purge batchSize =>
    match purgeRefreshTokenBatch settings call.now batchSize s with
    | .ok (_, s') => s'
    | .error _ => s

def after (users : Table ℕ Runs.User) (calls : List Call) : Ledger :=
  Machine.run (exec settings) ⟨users, []⟩ calls

end Operations

end SuperMew.Auth

namespace SuperMew.PlainPlatform

/-- Tokens are stored as they are. -/
scoped instance plainTokens : Auth.TokenPlatform := ⟨id, Function.injective_id, fun user _ _ => user⟩

end SuperMew.PlainPlatform
