import SuperMew.Frontend.SessionSafety

/-! What removes the mark of a pending revocation, and the safety of whole runs of a tab. -/

namespace SuperMew.Frontend

open List Trace SessionModule Tab

/-! ## The mark and the current session -/

/-- The history goes on, and a session that becomes current shows in it. -/
def Published (m m' : SessionModule) : Prop :=
  ∃ es, m'.log = m.log ++ es ∧ ∀ session, m'.currentSession = some session →
    m.currentSession = some session ∨ .loggedIn session ∈ es ∨ ∃ k, .refreshed k session ∈ es

variable {m : SessionModule}

namespace Published

variable {m' m'' : SessionModule}

theorem same (es : List Event) (hlog : m'.log = m.log ++ es)
    (hsession : m'.currentSession = m.currentSession) : Published m m' :=
  ⟨es, hlog, fun _ hs => .inl (hsession ▸ hs)⟩

theorem refl (m : SessionModule) : Published m m := same [] (append_nil _).symm rfl

theorem trans (h : Published m m') (h' : Published m' m'') : Published m m'' := by
  obtain ⟨es, hlog, hes⟩ := h
  obtain ⟨es', hlog', hes'⟩ := h'
  refine ⟨es ++ es', by rw [hlog', hlog, append_assoc], fun session hs => ?_⟩
  rcases hes' session hs with hs | hlogin | ⟨k, hrefreshed⟩
  · rcases hes session hs with hs | hlogin | ⟨k, hrefreshed⟩
    · exact .inl hs
    · exact .inr (.inl (mem_append_left _ hlogin))
    · exact .inr (.inr ⟨k, mem_append_left _ hrefreshed⟩)
  · exact .inr (.inl (mem_append_right _ hlogin))
  · exact .inr (.inr ⟨k, mem_append_right _ hrefreshed⟩)

end Published

/-- A step that keeps the mark and publishes what it makes current. -/
def Marked (m m' : SessionModule) : Prop :=
  Published m m' ∧ (m.revocationPending = true → m'.revocationPending = true)

namespace Marked

variable {m' m'' : SessionModule}

theorem trans (h : Marked m m') (h' : Marked m' m'') : Marked m m'' :=
  ⟨h.1.trans h'.1, fun hpending => h'.2 (h.2 hpending)⟩

theorem same (es : List Event) (hlog : m'.log = m.log ++ es)
    (hsession : m'.currentSession = m.currentSession)
    (hpending : m'.revocationPending = m.revocationPending) : Marked m m' :=
  ⟨.same es hlog hsession, fun h => hpending.trans h⟩

theorem clearAuthSession (m : SessionModule) : Marked m m.clearAuthSession :=
  ⟨⟨[.cleared], rfl, fun _ hs => (nomatch hs)⟩, id⟩

theorem setPhase (m : SessionModule) (k : ℕ) (phase : RefreshPhase) : Marked m (m.setPhase k phase) :=
  same [] (append_nil _).symm rfl rfl

theorem emit (m : SessionModule) (e : Event) : Marked m (m.emit e) := same [e] rfl rfl rfl

theorem startRefresh (m : SessionModule) (r : Refresh) : Marked m (m.startRefresh r) := by
  unfold SessionModule.startRefresh
  split
  · exact (setPhase m r.id .sent).trans (emit _ _)
  · exact setPhase m r.id _

theorem finishRefresh (m : SessionModule) (r : Refresh) (response : Option Dict) :
    Marked m (m.finishRefresh r response) := by
  unfold SessionModule.finishRefresh
  dsimp only
  split
  · exact (emit m _).trans (setPhase _ r.id _)
  · rename_i session _
    split
    · refine ⟨⟨[.refreshAnswered r.id, .refreshed r.id session], ?_, fun s hs => ?_⟩, id⟩
      · simp [SessionModule.emit, SessionModule.setPhase]
      · have heq : session = s := Option.some.inj hs
        exact .inr (.inr ⟨r.id, by simp [heq]⟩)
    · exact (emit m _).trans (setPhase _ r.id _)

theorem revokeRefreshSession (m : SessionModule) (caller : Caller) :
    Marked m (m.revokeRefreshSession caller) := by
  unfold SessionModule.revokeRefreshSession
  dsimp only
  split
  · exact ⟨⟨[_, _], append_assoc .., fun _ hs => (nomatch hs)⟩, fun _ => rfl⟩
  · split
    · exact ⟨⟨[_, _], append_assoc .., fun _ hs => (nomatch hs)⟩, fun _ => rfl⟩
    · refine ⟨⟨[.revoking m.nextId caller, .cleared, .logoutSent m.nextId], ?_,
        fun _ hs => (nomatch hs)⟩, fun _ => rfl⟩
      simp [SessionModule.emit, SessionModule.clearAuthSession]

theorem proceed (m : SessionModule) (p : Revocation → Bool) : Marked m (m.proceed p) := by
  unfold SessionModule.proceed
  split
  · exact same [] (append_nil _).symm rfl rfl
  · exact same _ rfl rfl rfl

theorem settleRefresh (m : SessionModule) (k : ℕ) : Marked m (m.settleRefresh k) := by
  have hcleared : Marked m (SessionModule.emit { m with
      refreshes := m.refreshes.filter fun r => r.id ≠ k
      refreshPromise := if m.refreshPromise = some k then none else m.refreshPromise }
        (.refreshSettled k)) := same [.refreshSettled k] rfl rfl rfl
  exact hcleared.trans (proceed _ _)

end Marked

/-- What removes the mark of a pending revocation. -/
def Removes (t : Tab) (i : Input) : Prop :=
  (∃ v ∈ t.module.revocations, i = .logoutSettled v.id ∧ v.phase = .answered true) ∨
    ∃ response session, i = .loginAnswered response ∧ t.submitting = true ∧
      parseAuthSession response = some session

theorem Tab.exec_marked (t : Tab) (i : Input) : Published t.module (t.exec i).module ∧
    (t.module.revocationPending = true → (t.exec i).module.revocationPending = false →
      Removes t i) := by
  refine exec_keeps (I := fun m => Published t.module m ∧ (t.module.revocationPending = true →
    m.revocationPending = false → Removes t i)) ⟨.refl _, fun hpending hremoved => ?_⟩
    fun m m' h hs => ?_
  · rw [hpending] at hremoved
    cases hremoved
  have hkeep : Marked m m' → Published t.module m' ∧ (t.module.revocationPending = true →
      m'.revocationPending = false → Removes t i) := by
    intro hm
    refine ⟨h.1.trans hm.1, fun hpending hremoved => h.2 hpending ?_⟩
    by_contra hmark
    rw [hm.2 (by simpa using hmark)] at hremoved
    cases hremoved
  cases hs with
  | clear => exact hkeep (.clearAuthSession _)
  | @install response session hi hsubmitting hparse =>
    refine ⟨⟨[.loggedIn session], rfl, fun s hs => .inr (.inl ?_)⟩, fun _ _ =>
      .inr ⟨response, session, hi, hsubmitting, hparse⟩⟩
    have heq : session = s := Option.some.inj hs
    simp [heq]
  | begin | sendLogout | answerLogout => exact hkeep (.same [_] rfl rfl rfl)
  | start => exact hkeep (.startRefresh _ _)
  | finish => exact hkeep (.finishRefresh _ _ _)
  | settle => exact hkeep (.settleRefresh _ _)
  | revoke => exact hkeep (.revokeRefreshSession _ _)
  | @settleLogout v ok hi hv hphase =>
    cases ok with
    | true => exact ⟨.same [] (append_nil _).symm rfl, fun _ _ => .inl ⟨v, hv, hi, hphase⟩⟩
    | false => exact hkeep (.same [] (append_nil _).symm rfl rfl)

/-! ## After a logout -/

/-- The mark is set, and no session is current. -/
def Closed (m : SessionModule) : Prop := m.revocationPending = true ∧ m.currentSession = none

theorem Closed.startRefresh (h : Closed m) (r : Refresh) : Closed (m.startRefresh r) := by
  unfold SessionModule.startRefresh
  split <;> exact h

/-- The mark bars the response of a refresh. -/
theorem Closed.finishRefresh (h : Closed m) (r : Refresh)
    (response : Option Dict) : Closed (m.finishRefresh r response) := by
  have hbarred : (m.emit (.refreshAnswered r.id)).attemptCurrent r.attempt = false := by
    simp [attemptCurrent, emit, h.1]
  unfold SessionModule.finishRefresh
  dsimp only
  split
  · exact h
  · simp only [hbarred, Bool.false_eq_true, false_and, if_false]
    exact h

theorem Closed.proceed (h : Closed m) (p : Revocation → Bool) : Closed (m.proceed p) := by
  unfold SessionModule.proceed
  split <;> exact h

theorem Closed.settleRefresh (h : Closed m) (k : ℕ) : Closed (m.settleRefresh k) := by
  have hcleared : Closed (emit { m with
      refreshes := m.refreshes.filter fun r => r.id ≠ k
      refreshPromise := if m.refreshPromise = some k then none else m.refreshPromise }
        (.refreshSettled k)) := h
  exact hcleared.proceed _

theorem closed_revokeRefreshSession (m : SessionModule) (caller : Caller) :
    Closed (m.revokeRefreshSession caller) := by
  unfold revokeRefreshSession
  dsimp only
  split
  · exact ⟨rfl, rfl⟩
  · split <;> exact ⟨rfl, rfl⟩

theorem Tab.exec_closed {t : Tab} {i : Input} (h : Closed t.module) (hi : ¬ Removes t i) :
    Closed (t.exec i).module := by
  refine exec_keeps h fun m m' hm hs => ?_
  cases hs with
  | clear => exact ⟨hm.1, rfl⟩
  | @install response session heq hsubmitting hparse =>
    exact absurd (.inr ⟨response, session, heq, hsubmitting, hparse⟩) hi
  | begin | sendLogout | answerLogout => exact hm
  | start => exact hm.startRefresh _
  | finish => exact hm.finishRefresh _ _
  | settle => exact hm.settleRefresh _
  | revoke => exact closed_revokeRefreshSession _ _
  | @settleLogout v ok heq hv hphase =>
    cases ok with
    | true => exact absurd (.inl ⟨v, hv, heq, hphase⟩) hi
    | false => exact hm

/-! ## Safety -/

/-- The rules of the browser session in a tab, at its next step and after a logout. -/
structure SessionSafe (t : Tab) : Prop where
  single : (t.module.refreshes.filter fun r => r.phase = .sent).length ≤ 1
  /-- Refreshes become current, and logout requests are sent, only when they may. -/
  allowed : Always Allowed t.module.log
  /-- Once `handleLogout` has started to revoke, no session is current until a login or a
  logout request succeeds. -/
  closed : t.authLoading = false → ∀ later,
    Machine.Along exec (fun t i => ¬ Removes t i) (t.exec .handleLogout) later →
      (Machine.run exec (t.exec .handleLogout) later).module.currentSession = none
  published : ∀ i, Published t.module (t.exec i).module
  marked : ∀ i, t.module.revocationPending = true → (t.exec i).module.revocationPending = false →
    Removes t i

/-- The browser session is safe in every run of a tab, whatever the server answers. -/
theorem session_safe (locks pending : Bool) (inputs : List Input) :
    SessionSafe (after locks pending inputs) where
  single := by
    have hkept := after_kept locks pending inputs
    have hlength : (after locks pending inputs).module.refreshes.length ≤ 1 := by
      rw [← List.length_map Refresh.id, hkept.shared]
      cases (after locks pending inputs).module.refreshPromise <;> simp
    exact (List.length_filter_le ..).trans hlength
  allowed := (after_kept locks pending inputs).allowed
  closed hidle later hlater := by
    have hlogout : Closed ((after locks pending inputs).exec .handleLogout).module := by
      simp only [exec, handleLogout, hidle, Bool.false_eq_true, if_false]
      exact closed_revokeRefreshSession _ _
    exact (Machine.run_preserves_along (I := fun t : Tab => Closed t.module)
      (fun _ _ h hi => exec_closed h hi) hlogout hlater).2
  published i := ((after locks pending inputs).exec_marked i).1
  marked i := ((after locks pending inputs).exec_marked i).2

/-! ### A login in another tab -/

namespace Sample

def alice (accessToken : String) : Option Dict :=
  some [("access_token", .str accessToken), ("username", .str "alice"), ("role", .str "user")]

/-- A logout that the server confirms, and a refresh that it answers with the credential of a
login in another tab. -/
def otherLogin : List Input :=
  [.handleAuthSubmit "alice" "secret", .loginAnswered (alice "first"), .handleLogout,
    .logoutAnswered 0 true, .logoutSettled 0, .refreshAuthSession,
    .refreshAnswered 1 (alice "second")]

end Sample

open Sample in
/-- A session is current that no login of this tab after its logout has made. -/
theorem session_returns_after_logout :
    (after false false otherLogin).module.currentSession = some ⟨"second", "alice", .user⟩ ∧
      (after false false otherLogin).module.log =
        [.loggedIn ⟨"first", "alice", .user⟩, .revoking 0 .logout, .cleared, .logoutSent 0,
          .logoutAnswered 0 true, .cleared, .refreshStarted 1 none, .refreshSent 1,
          .refreshAnswered 1, .refreshed 1 ⟨"second", "alice", .user⟩] := by
  decide +kernel

end SuperMew.Frontend
