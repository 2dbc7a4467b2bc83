import SuperMew.Frontend.Values
import SuperMew.Library.Run
import SuperMew.Library.Trace

/-! The login of one browser tab: the module state of the session, the flows of the store that
use it, and their requests. A step is one task of the event loop with the microtasks that
follow it, so code between two suspensions is not interrupted. -/

namespace SuperMew.Frontend

inductive Role where
  | user
  | admin
  deriving DecidableEq, Repr

structure AuthSession where
  accessToken : String
  username : String
  role : Role
  deriving DecidableEq, Repr

/-- A text that is not empty. -/
def filledText : Option Json → Option String
  | some (.str s) => if s ≠ "" then some s else none
  | _ => none

def parseRole : Option Json → Option Role
  | some (.str "user") => some .user
  | some (.str "admin") => some .admin
  | _ => none

/-- `parseAuthSession`; a body that is no object is `none`, and so is the body of a request that
failed. -/
def parseAuthSession (value : Option Dict) : Option AuthSession := do
  let record ← value
  let accessToken ← filledText (record.get? "access_token")
  let username ← filledText (record.get? "username")
  let role ← parseRole (record.get? "role")
  pure ⟨accessToken, username, role⟩

structure RefreshAttempt where
  generation : ℕ
  expectedAccessToken : Option String
  expectedUsername : Option String
  deriving DecidableEq, Repr

inductive RefreshPhase where
  /-- Waits for the lock. -/
  | waiting
  /-- Its request is in flight. -/
  | sent
  /-- `executeRefresh` has ended, and its promise has not been cleared yet. -/
  | settled (ok : Bool)
  deriving DecidableEq, Repr

structure Refresh where
  id : ℕ
  attempt : RefreshAttempt
  phase : RefreshPhase
  deriving DecidableEq, Repr

/-- The flow that runs `revokeRefreshSession`. -/
inductive Caller where
  | logout
  | restore
  deriving DecidableEq, Repr

inductive RevocationPhase where
  /-- Waits for a refresh that was in flight. -/
  | awaiting (refresh : ℕ)
  /-- Waits for the lock. -/
  | waiting
  /-- Its request is in flight. -/
  | sent
  /-- The request is answered, and the flow has not gone on yet. -/
  | answered (ok : Bool)
  deriving DecidableEq, Repr

structure Revocation where
  id : ℕ
  caller : Caller
  phase : RevocationPhase
  deriving DecidableEq, Repr

/-- What happens in the tab, in the order in which it happens. -/
inductive Event where
  | refreshStarted (id : ℕ) (username : Option String)
  | refreshSent (id : ℕ)
  | refreshAnswered (id : ℕ)
  | refreshSettled (id : ℕ)
  /-- The response of a refresh becomes the current session. -/
  | refreshed (id : ℕ) (session : AuthSession)
  | loggedIn (session : AuthSession)
  /-- `clearAuthSession`, by a logout, an expiry or on its own. -/
  | cleared
  | revoking (id : ℕ) (caller : Caller)
  | logoutSent (id : ℕ)
  | logoutAnswered (id : ℕ) (ok : Bool)
  deriving DecidableEq, Repr

/-- The state of the module `session`. -/
structure SessionModule where
  /-- The browser has Web Locks. -/
  locks : Bool
  currentSession : Option AuthSession := none
  sessionGeneration : ℕ := 0
  revocationPending : Bool
  refreshPromise : Option ℕ := none
  refreshes : List Refresh := []
  revocations : List Revocation := []
  nextId : ℕ := 0
  log : List Event := []
  deriving DecidableEq, Repr

namespace SessionModule

variable (m : SessionModule)

def emit (e : Event) : SessionModule := { m with log := m.log ++ [e] }

/-- Another tab aside, the lock is free when no request that holds it is in flight. -/
def busy : Bool :=
  m.refreshes.any (fun r => r.phase == .sent) || m.revocations.any fun v => v.phase == .sent

def setPhase (k : ℕ) (phase : RefreshPhase) : SessionModule :=
  { m with refreshes := m.refreshes.map fun r => if r.id = k then { r with phase } else r }

def clearAuthSession : SessionModule :=
  { m with sessionGeneration := m.sessionGeneration + 1, currentSession := none }.emit .cleared

def expireAuthSession (expected : Option String) : SessionModule :=
  match m.currentSession with
  | none => m
  | some session =>
    if (expected.filter (· ≠ "")).all (· = session.accessToken) then m.clearAuthSession else m

def installAuthSession (session : AuthSession) : SessionModule :=
  { m with
    sessionGeneration := m.sessionGeneration + 1
    revocationPending := false
    currentSession := some session }.emit (.loggedIn session)

/-! ## Refresh -/

def captureRefreshAttempt : RefreshAttempt where
  generation := m.sessionGeneration
  expectedAccessToken := (m.currentSession.map (·.accessToken)).filter (· ≠ "")
  expectedUsername := (m.currentSession.map (·.username)).filter (· ≠ "")

def attemptCurrent (attempt : RefreshAttempt) : Bool :=
  !m.revocationPending && m.sessionGeneration == attempt.generation &&
    match attempt.expectedAccessToken with
    | none => m.currentSession.isNone
    | some token => m.currentSession.any fun session =>
      session.accessToken == token && some session.username == attempt.expectedUsername

/-- `executeRefresh` up to its request. -/
def startRefresh (r : Refresh) : SessionModule :=
  if m.attemptCurrent r.attempt then (m.setPhase r.id .sent).emit (.refreshSent r.id)
  else m.setPhase r.id (.settled false)

/-- `executeRefresh` after its request. -/
def finishRefresh (r : Refresh) (response : Option Dict) : SessionModule :=
  let m := m.emit (.refreshAnswered r.id)
  match parseAuthSession response with
  | none => m.setPhase r.id (.settled false)
  | some session =>
    if m.attemptCurrent r.attempt ∧ ∀ name ∈ r.attempt.expectedUsername, session.username = name then
      { m.setPhase r.id (.settled true) with
        sessionGeneration := m.sessionGeneration + 1
        currentSession := some session }.emit (.refreshed r.id session)
    else m.setPhase r.id (.settled false)

/-- `refreshAuthSession`. Without Web Locks the callback runs in the next microtask. -/
def refreshAuthSession : SessionModule :=
  if m.revocationPending then m
  else match m.refreshPromise with
    | some _ => m
    | none =>
      let r : Refresh := ⟨m.nextId, m.captureRefreshAttempt, .waiting⟩
      let m := { m with
        refreshes := m.refreshes ++ [r]
        refreshPromise := some r.id
        nextId := m.nextId + 1 }.emit (.refreshStarted r.id r.attempt.expectedUsername)
      if m.locks then m else m.startRefresh r

/-! ## Revocation -/

/-- The revocations that meet `p` send their request, or ask for the lock before that. -/
def proceed (p : Revocation → Bool) : SessionModule :=
  if m.locks then
    { m with revocations := m.revocations.map fun v => if p v then { v with phase := .waiting } else v }
  else
    { m with
      revocations := m.revocations.map fun v => if p v then { v with phase := .sent } else v
      log := m.log ++ (m.revocations.filter p).map fun v => .logoutSent v.id }

/-- `revokeRefreshSession` up to its first suspension. -/
def revokeRefreshSession (caller : Caller) : SessionModule :=
  let q := m.nextId
  let m := { m with revocationPending := true, nextId := q + 1 }.emit (.revoking q caller)
  let m := m.clearAuthSession
  match m.refreshPromise with
  | some k => { m with revocations := m.revocations ++ [⟨q, caller, .awaiting k⟩] }
  | none =>
    if m.locks then { m with revocations := m.revocations ++ [⟨q, caller, .waiting⟩] }
    else emit { m with revocations := m.revocations ++ [⟨q, caller, .sent⟩] } (.logoutSent q)

/-- The shared promise is cleared, and the revocations that await it go on. -/
def settleRefresh (k : ℕ) : SessionModule :=
  let m := { m with
    refreshes := m.refreshes.filter fun r => r.id ≠ k
    refreshPromise := if m.refreshPromise = some k then none else m.refreshPromise }.emit
      (.refreshSettled k)
  m.proceed fun v => v.phase == .awaiting k

/-- A revocation gets the lock and sends its request. -/
def sendLogout (q : ℕ) : SessionModule :=
  emit { m with revocations := m.revocations.map fun v =>
    if v.id = q ∧ v.phase = .waiting then { v with phase := .sent } else v } (.logoutSent q)

def answerLogout (q : ℕ) (ok : Bool) : SessionModule :=
  emit { m with revocations := m.revocations.map fun v =>
    if v.id = q ∧ v.phase = .sent then { v with phase := .answered ok } else v }
      (.logoutAnswered q ok)

/-- The rest of `revokeRefreshSession`. -/
def settleLogout (q : ℕ) (ok : Bool) : SessionModule :=
  { m with
    revocations := m.revocations.filter fun v => v.id ≠ q
    revocationPending := if ok then false else m.revocationPending }

end SessionModule

/-! ## The store -/

/-- The state of the store `auth` as far as it steers the session. -/
structure Tab where
  module : SessionModule
  authLoading : Bool := false
  /-- A login or a registration is in flight. -/
  submitting : Bool := false
  authResolved : Bool := false
  /-- `restorePromise`: the refresh or revocation that a restoration waits for. -/
  restoring : Option ℕ := none
  deriving DecidableEq, Repr

inductive Input where
  | handleLogout
  | handleAuthSubmit (username password : String)
  | restoreSession
  /-- After a 401 or explicitly. -/
  | refreshAuthSession
  | clearSession
  | expireAuthSession (expectedAccessToken : Option String)
  /-- A refresh gets the lock. -/
  | grantRefresh (k : ℕ)
  /-- A revocation gets the lock. -/
  | grantLogout (q : ℕ)
  | refreshAnswered (k : ℕ) (response : Option Dict)
  | refreshSettled (k : ℕ)
  | logoutAnswered (q : ℕ) (ok : Bool)
  | logoutSettled (q : ℕ)
  | loginAnswered (response : Option Dict)
  deriving DecidableEq, Repr

namespace Tab

variable (t : Tab)

def handleLogout : Tab :=
  if t.authLoading then t
  else { t with authLoading := true, module := t.module.revokeRefreshSession .logout }

/-- `finally` of `handleLogout`. -/
def finishLogout : Tab := { t with module := t.module.clearAuthSession, authLoading := false }

def handleAuthSubmit (username password : String) : Tab :=
  if t.authLoading ∨ trim username = "" ∨ trim password = "" then t
  else { t with authLoading := true, submitting := true }

def loginAnswered (response : Option Dict) : Tab :=
  if t.submitting then
    let t := { t with authLoading := false, submitting := false }
    match parseAuthSession response with
    | some session => { t with module := t.module.installAuthSession session }
    | none => t
  else t

def restoreSession : Tab :=
  if t.authResolved ∨ t.restoring ≠ none then t
  else if t.module.revocationPending then
    { t with restoring := some t.module.nextId, module := t.module.revokeRefreshSession .restore }
  else
    let m := t.module.refreshAuthSession
    { t with module := m, restoring := m.refreshPromise }

/-- The rest of `restoreSession`, when what it waits for has ended. -/
def finishRestore (failed : Bool) : Tab :=
  { t with
    module := if failed then t.module.clearAuthSession else t.module
    authResolved := true
    restoring := none }

def refreshSettled (k : ℕ) (ok : Bool) : Tab :=
  let waits := t.restoring = some k
  let t := { t with module := t.module.settleRefresh k }
  if waits then t.finishRestore (!ok) else t

def logoutSettled (v : Revocation) (ok : Bool) : Tab :=
  let t := { t with module := t.module.settleLogout v.id ok }
  match v.caller with
  | .logout => t.finishLogout
  -- a failed revocation is retried at the next restoration and reported as no session
  | .restore => t.finishRestore false

end Tab

def Tab.exec (t : Tab) : Input → Tab
  | .handleLogout => t.handleLogout
  | .handleAuthSubmit username password => t.handleAuthSubmit username password
  | .restoreSession => t.restoreSession
  | .refreshAuthSession => { t with module := t.module.refreshAuthSession }
  | .clearSession => { t with module := t.module.clearAuthSession }
  | .expireAuthSession expected => { t with module := t.module.expireAuthSession expected }
  | .grantRefresh k =>
    match t.module.refreshes.find? fun r => r.id == k && r.phase == .waiting with
    | some r => if t.module.busy then t else { t with module := t.module.startRefresh r }
    | none => t
  | .grantLogout q =>
    match t.module.revocations.find? fun v => v.id == q && v.phase == .waiting with
    | some _ => if t.module.busy then t else { t with module := t.module.sendLogout q }
    | none => t
  | .refreshAnswered k response =>
    match t.module.refreshes.find? fun r => r.id == k && r.phase == .sent with
    | some r => { t with module := t.module.finishRefresh r response }
    | none => t
  | .refreshSettled k =>
    match t.module.refreshes.find? fun r => r.id == k with
    | some ⟨_, _, .settled ok⟩ => t.refreshSettled k ok
    | _ => t
  | .logoutAnswered q ok =>
    match t.module.revocations.find? fun v => v.id == q && v.phase == .sent with
    | some _ => { t with module := t.module.answerLogout q ok }
    | none => t
  | .logoutSettled q =>
    match t.module.revocations.find? fun v => v.id == q with
    | some ⟨id, caller, .answered ok⟩ => t.logoutSettled ⟨id, caller, .answered ok⟩ ok
    | _ => t
  | .loginAnswered response => t.loginAnswered response

/-- The tab when its page has loaded; the mark of a pending revocation is kept by the session
storage. -/
def Tab.loaded (locks pending : Bool) : Tab where
  module := { locks, revocationPending := pending }

/-- The tab after a row of inputs. -/
def Tab.after (locks pending : Bool) (inputs : List Input) : Tab :=
  Machine.run Tab.exec (Tab.loaded locks pending) inputs

end SuperMew.Frontend
