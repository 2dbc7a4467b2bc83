import SuperMew.Frontend.Session

/-! What holds in every run of a tab: its refreshes do not overlap, a refresh becomes current
only in the session in which it started, and a logout waits for it. -/

namespace SuperMew.Frontend

open List Trace SessionModule Tab

/-- The events that move the generation on. -/
def Event.changes : Event → Bool
  | .refreshed _ _ | .loggedIn _ | .cleared => true
  | _ => false

/-- What has to have happened before an event. -/
def Allowed (before : List Event) : Event → Prop
  | .refreshed k session => ∃ user,
      Since (fun _ e => e = .refreshStarted k user) (fun e => e.changes = false) before ∧
        ∀ name ∈ user, session.username = name
  | .logoutSent q => (∀ k, .refreshSent k ∈ before → .refreshAnswered k ∈ before) ∧
      ∀ k user, Once (fun earlier e => (∃ caller, e = .revoking q caller) ∧
        .refreshStarted k user ∈ earlier) before → .refreshSettled k ∈ before
  | _ => True

/-- Refresh `k` was started before revocation `q`. -/
def StartedBefore (k : ℕ) (user : Option String) (q : ℕ) (log : List Event) : Prop :=
  Once (fun earlier e => (∃ caller, e = .revoking q caller) ∧ .refreshStarted k user ∈ earlier) log

/-! ## Steps of the tab -/

/-- The start of a refresh, before its callback runs. -/
def SessionModule.beginRefresh (m : SessionModule) : SessionModule :=
  emit { m with
    refreshes := m.refreshes ++ [⟨m.nextId, m.captureRefreshAttempt, .waiting⟩]
    refreshPromise := some m.nextId
    nextId := m.nextId + 1 } (.refreshStarted m.nextId m.captureRefreshAttempt.expectedUsername)

/-- What a step of the tab does to the module, one change after the other. -/
inductive ModuleStep (t : Tab) (i : Input) : SessionModule → SessionModule → Prop where
  | clear {m : SessionModule} : ModuleStep t i m m.clearAuthSession
  | install {response : Option Dict} {session : AuthSession} (hi : i = .loginAnswered response)
      (hsubmitting : t.submitting = true) (hparse : parseAuthSession response = some session) :
      ModuleStep t i t.module (t.module.installAuthSession session)
  | begin {m : SessionModule} (hopen : ¬ m.revocationPending = true)
      (hnone : m.refreshPromise = none) : ModuleStep t i m m.beginRefresh
  | start {m : SessionModule} {r : Refresh} (hr : r ∈ m.refreshes) (hphase : r.phase = .waiting) :
      ModuleStep t i m (m.startRefresh r)
  | finish {r : Refresh} {response : Option Dict} (hi : i = .refreshAnswered r.id response)
      (hr : r ∈ t.module.refreshes) (hphase : r.phase = .sent) :
      ModuleStep t i t.module (t.module.finishRefresh r response)
  | settle {m : SessionModule} {r : Refresh} (hr : r ∈ m.refreshes) (hphase : r.phase ≠ .sent) :
      ModuleStep t i m (m.settleRefresh r.id)
  | revoke {m : SessionModule} (caller : Caller) : ModuleStep t i m (m.revokeRefreshSession caller)
  | sendLogout {m : SessionModule} {v : Revocation} (hbusy : m.busy = false)
      (hv : v ∈ m.revocations) (hphase : v.phase = .waiting) : ModuleStep t i m (m.sendLogout v.id)
  | answerLogout {m : SessionModule} (q : ℕ) (ok : Bool) : ModuleStep t i m (m.answerLogout q ok)
  | settleLogout {v : Revocation} {ok : Bool} (hi : i = .logoutSettled v.id)
      (hv : v ∈ t.module.revocations) (hphase : v.phase = .answered ok) :
      ModuleStep t i t.module (t.module.settleLogout v.id ok)

section Steps

open Relation

variable {t : Tab} {i : Input}

theorem refreshAuthSession_steps :
    ReflTransGen (ModuleStep t i) t.module t.module.refreshAuthSession := by
  unfold refreshAuthSession
  split
  · exact .refl
  · rename_i hopen
    split
    · exact .refl
    · rename_i hnone
      have hbegun : ReflTransGen (ModuleStep t i) t.module t.module.beginRefresh :=
        .single (.begin hopen hnone)
      dsimp only
      split
      · exact hbegun
      · exact hbegun.tail (.start (by simp [beginRefresh, emit]) rfl)

theorem Tab.exec_steps (t : Tab) (i : Input) :
    ReflTransGen (ModuleStep t i) t.module (t.exec i).module := by
  cases i with
  | handleLogout =>
    simp only [exec, handleLogout]
    split
    · exact .refl
    · exact .single (.revoke .logout)
  | handleAuthSubmit username password =>
    simp only [exec, handleAuthSubmit]
    split <;> exact .refl
  | restoreSession =>
    simp only [exec, restoreSession]
    split
    · exact .refl
    · split
      · exact .single (.revoke .restore)
      · exact refreshAuthSession_steps
  | refreshAuthSession => exact refreshAuthSession_steps
  | clearSession => exact .single .clear
  | expireAuthSession expected =>
    simp only [exec, expireAuthSession]
    split
    · exact .refl
    · split
      · exact .single .clear
      · exact .refl
  | grantRefresh k =>
    simp only [exec]
    split
    · rename_i r hr
      have hphase := find?_some hr
      simp only [Bool.and_eq_true, beq_iff_eq] at hphase
      split
      · exact .refl
      · exact .single (.start (mem_of_find?_eq_some hr) hphase.2)
    · exact .refl
  | grantLogout q =>
    simp only [exec]
    split
    · rename_i v hv
      have hphase := find?_some hv
      simp only [Bool.and_eq_true, beq_iff_eq] at hphase
      obtain ⟨rfl, hwaiting⟩ := hphase
      split
      · exact .refl
      · rename_i hbusy
        rw [Bool.not_eq_true] at hbusy
        exact .single (.sendLogout hbusy (mem_of_find?_eq_some hv) hwaiting)
    · exact .refl
  | refreshAnswered k response =>
    simp only [exec]
    split
    · rename_i r hr
      have hphase := find?_some hr
      simp only [Bool.and_eq_true, beq_iff_eq] at hphase
      obtain ⟨rfl, hsent⟩ := hphase
      exact .single (.finish rfl (mem_of_find?_eq_some hr) hsent)
    · exact .refl
  | refreshSettled k =>
    simp only [exec]
    split
    · rename_i id attempt ok hr
      have hid := find?_some hr
      simp only [beq_iff_eq] at hid
      subst hid
      have hsettled : ReflTransGen (ModuleStep t (.refreshSettled id)) t.module
          (t.module.settleRefresh id) :=
        .single (.settle (mem_of_find?_eq_some hr) (by simp))
      simp only [refreshSettled]
      split
      · cases ok with
        | true => exact hsettled
        | false => exact hsettled.tail .clear
      · exact hsettled
    · exact .refl
  | logoutAnswered q ok =>
    simp only [exec]
    split
    · exact .single (.answerLogout q ok)
    · exact .refl
  | logoutSettled q =>
    simp only [exec]
    split
    · rename_i id caller ok hv
      have hid := find?_some hv
      simp only [beq_iff_eq] at hid
      subst hid
      have hsettled : ReflTransGen (ModuleStep t (.logoutSettled id)) t.module
          (t.module.settleLogout id ok) :=
        .single (.settleLogout rfl (mem_of_find?_eq_some hv) rfl)
      cases caller with
      | logout => exact hsettled.tail .clear
      | restore => exact hsettled
    · exact .refl
  | loginAnswered response =>
    simp only [exec, loginAnswered]
    split
    · rename_i hsubmitting
      split
      · rename_i session hparse
        exact .single (.install rfl hsubmitting hparse)
      · exact .refl
    · exact .refl

/-- What every change of the module keeps, every step of the tab keeps. -/
theorem Tab.exec_keeps {I : SessionModule → Prop} (h : I t.module)
    (hstep : ∀ m m', I m → ModuleStep t i m m' → I m') : I (t.exec i).module := by
  have hsteps := t.exec_steps i
  generalize (t.exec i).module = m at hsteps ⊢
  induction hsteps with
  | refl => exact h
  | tail _ hs ih => exact hstep _ _ ih hs

end Steps

/-! ## The module and its history -/

/-- A revocation after some of them went on to another phase. -/
theorem mem_moved {p : Revocation → Prop} [DecidablePred p] {phase : RevocationPhase}
    {vs : List Revocation} {v : Revocation}
    (h : v ∈ vs.map fun v => if p v then { v with phase } else v) :
    v ∈ vs ∧ ¬ p v ∨ ∃ u ∈ vs, p u ∧ v = { u with phase } := by
  obtain ⟨u, hu, rfl⟩ := mem_map.mp h
  by_cases hp : p u
  · exact .inr ⟨u, hu, hp, if_pos hp⟩
  · rw [if_neg hp]
    exact .inl ⟨hu, hp⟩

/-- The module state and its history belong together. -/
structure Kept (m : SessionModule) : Prop where
  shared : m.refreshes.map Refresh.id = m.refreshPromise.toList
  counted : m.sessionGeneration = m.log.countP Event.changes
  attempts : ∀ r ∈ m.refreshes, Once (fun before e =>
    e = .refreshStarted r.id r.attempt.expectedUsername ∧
      r.attempt.generation = before.countP Event.changes) m.log
  sent : ∀ k, .refreshSent k ∈ m.log →
    .refreshAnswered k ∈ m.log ∨ ∃ r ∈ m.refreshes, r.id = k ∧ r.phase = .sent
  started : ∀ k user, .refreshStarted k user ∈ m.log →
    .refreshSettled k ∈ m.log ∨ m.refreshPromise = some k
  awaited : ∀ v ∈ m.revocations, ∀ k, v.phase = .awaiting k → m.refreshPromise = some k
  earlier : ∀ v ∈ m.revocations, ∀ k user, StartedBefore k user v.id m.log →
    .refreshSettled k ∈ m.log ∨ v.phase = .awaiting k
  known : ∀ v ∈ m.revocations, v.id < m.nextId
  numbered : ∀ q caller, .revoking q caller ∈ m.log → q < m.nextId
  allowed : Always Allowed m.log

namespace Kept

variable {m m' : SessionModule} {e : Event} {k q : ℕ} {r : Refresh} {v : Revocation}

section

variable (h : Kept m)

include h

theorem eq_of_id {r' : Refresh} (hr : r ∈ m.refreshes) (hr' : r' ∈ m.refreshes) : r = r' := by
  have hlength : m.refreshes.length ≤ 1 := by
    rw [← length_map Refresh.id, h.shared]
    cases m.refreshPromise <;> simp
  match hm : m.refreshes, hlength with
  | [], _ => rw [hm] at hr; cases hr
  | [x], _ =>
    rw [hm, mem_singleton] at hr hr'
    exact hr.trans hr'.symm

theorem promise_of_mem (hr : r ∈ m.refreshes) : m.refreshPromise = some r.id := by
  have hmem : r.id ∈ m.refreshPromise.toList := h.shared ▸ mem_map_of_mem hr
  exact Option.mem_toList.mp hmem

theorem refreshes_eq_nil (hnone : m.refreshPromise = none) : m.refreshes = [] := by
  have hshared := h.shared
  rw [hnone] at hshared
  exact map_eq_nil_iff.mp hshared

end

/-- An event that neither starts nor sends a refresh and starts no revocation. -/
def Plain : Event → Prop
  | .refreshStarted _ _ | .refreshSent _ | .revoking _ _ => False
  | _ => True

section

variable (h : Kept m)

include h

/-- One more event. The refreshes, revocations and numbers may change with it. -/
theorem concat (hlog : m'.log = m.log ++ [e]) (hallowed : Allowed m.log e)
    (hgeneration : m'.sessionGeneration = m.sessionGeneration + if e.changes then 1 else 0)
    (hshared : m'.refreshes.map Refresh.id = m'.refreshPromise.toList)
    (hattempts : ∀ r ∈ m'.refreshes, r ∈ m.refreshes ∨
      e = .refreshStarted r.id r.attempt.expectedUsername ∧
        r.attempt.generation = m.sessionGeneration)
    (hsent : ∀ k, (∃ r ∈ m.refreshes, r.id = k ∧ r.phase = .sent) ∨ e = .refreshSent k →
      ∃ r ∈ m'.refreshes, r.id = k ∧ r.phase = .sent)
    (hstarted : ∀ k user, m.refreshPromise = some k ∨ e = .refreshStarted k user →
      e = .refreshSettled k ∨ m'.refreshPromise = some k)
    (hawaited : ∀ v ∈ m'.revocations, ∀ k, v.phase = .awaiting k → m'.refreshPromise = some k)
    (hearlier : ∀ v ∈ m'.revocations, ∃ u ∈ m.revocations, u.id = v.id ∧
      ∀ k, u.phase = .awaiting k → e = .refreshSettled k ∨ v.phase = .awaiting k)
    (hnext : m.nextId ≤ m'.nextId)
    (hnumbered : ∀ q caller, e = .revoking q caller → q = m.nextId ∧ m.nextId < m'.nextId) :
    Kept m' where
  shared := hshared
  counted := by simp [hlog, hgeneration, h.counted, countP_append, countP_singleton]
  attempts r hr := by
    rw [hlog]
    refine once_concat.mpr ?_
    rcases hattempts r hr with hold | ⟨he, hnow⟩
    · exact .inr (h.attempts r hold)
    · exact .inl ⟨he, hnow.trans h.counted⟩
  sent k hk := by
    rw [hlog, mem_append, mem_singleton] at hk
    rcases hk with hk | rfl
    · rcases h.sent k hk with hanswered | hflight
      · exact .inl (hlog ▸ mem_append_left _ hanswered)
      · exact .inr (hsent k (.inl hflight))
    · exact .inr (hsent k (.inr rfl))
  started k user hk := by
    rw [hlog, mem_append, mem_singleton] at hk
    have hnow : m.refreshPromise = some k ∨ e = .refreshStarted k user →
        .refreshSettled k ∈ m'.log ∨ m'.refreshPromise = some k := fun hopen =>
      (hstarted k user hopen).imp_left fun he => by rw [hlog, he]; simp
    rcases hk with hk | rfl
    · rcases h.started k user hk with hsettled | hpromise
      · exact .inl (hlog ▸ mem_append_left _ hsettled)
      · exact hnow (.inl hpromise)
    · exact hnow (.inr rfl)
  awaited := hawaited
  earlier v hv k user hk := by
    obtain ⟨u, hu, hid, hphase⟩ := hearlier v hv
    rw [hlog] at hk ⊢
    rcases once_concat.mp hk with ⟨⟨caller, rfl⟩, -⟩ | hk
    · have hlt := h.known u hu
      rw [hid, (hnumbered v.id caller rfl).1] at hlt
      exact absurd hlt (Nat.lt_irrefl _)
    · rcases h.earlier u hu k user (hid ▸ hk) with hsettled | hawaits
      · exact .inl (mem_append_left _ hsettled)
      · exact (hphase k hawaits).imp_left fun he => by simp [he]
  known v hv := by
    obtain ⟨u, hu, hid, -⟩ := hearlier v hv
    exact hid ▸ (h.known u hu).trans_le hnext
  numbered q caller hq := by
    rw [hlog, mem_append, mem_singleton] at hq
    rcases hq with hq | rfl
    · exact (h.numbered q caller hq).trans_le hnext
    · obtain ⟨rfl, hlt⟩ := hnumbered q caller rfl
      exact hlt
  allowed := hlog ▸ always_concat.mpr ⟨h.allowed, hallowed⟩

/-- One more plain event, with the generation that goes with it. -/
theorem grow (hplain : Plain e) (hallowed : Allowed m.log e)
    (session : Option AuthSession) (pending : Bool) :
    Kept { m with
      currentSession := session
      revocationPending := pending
      sessionGeneration := m.sessionGeneration + if e.changes then 1 else 0
      log := m.log ++ [e] } := by
  refine h.concat rfl hallowed rfl h.shared (fun r hr => .inl hr) ?_ ?_ h.awaited
    (fun v hv => ⟨v, hv, rfl, fun _ => .inr⟩) le_rfl ?_
  · rintro k (hflight | rfl)
    · exact hflight
    · exact hplain.elim
  · rintro k user (hpromise | rfl)
    · exact .inr hpromise
    · exact hplain.elim
  · rintro q caller rfl
    exact hplain.elim

theorem emit (hplain : Plain e) (hallowed : Allowed m.log e)
    (hchanges : e.changes = false) : Kept (m.emit e) := by
  have hgrow := h.grow hplain hallowed m.currentSession m.revocationPending
  simp only [hchanges, Bool.false_eq_true, if_false, Nat.add_zero] at hgrow
  exact hgrow

theorem clearAuthSession : Kept m.clearAuthSession :=
  h.grow (e := .cleared) trivial trivial none m.revocationPending

theorem installAuthSession (session : AuthSession) : Kept (m.installAuthSession session) :=
  h.grow (e := .loggedIn session) trivial trivial (some session) false

end

/-! ### Refresh -/

section

variable (h : Kept m)

include h

theorem setPhase (phase : RefreshPhase)
    (hsent : .refreshSent k ∈ m.log → .refreshAnswered k ∈ m.log ∨ phase = .sent) :
    Kept (m.setPhase k phase) where
  __ := h
  shared := by
    refine Eq.trans ?_ h.shared
    simp only [SessionModule.setPhase, map_map]
    refine map_congr_left fun r _ => ?_
    by_cases hr : r.id = k <;> simp [hr]
  attempts r hr := by
    obtain ⟨r', hr', rfl⟩ := mem_map.mp hr
    have hattempt := h.attempts r' hr'
    by_cases hk : r'.id = k
    · rw [if_pos hk]
      exact hattempt
    · rw [if_neg hk]
      exact hattempt
  sent j hj := by
    rcases h.sent j hj with hanswered | ⟨r, hr, rfl, hphase⟩
    · exact .inl hanswered
    · by_cases hk : r.id = k
      · rcases hsent (hk ▸ hj) with hanswered | rfl
        · exact .inl (hk ▸ hanswered)
        · exact .inr ⟨{ r with phase := .sent }, mem_map.mpr ⟨r, hr, if_pos hk⟩, rfl, rfl⟩
      · exact .inr ⟨r, mem_map.mpr ⟨r, hr, if_neg hk⟩, rfl, hphase⟩

section

variable (hr : r ∈ m.refreshes)

include hr

theorem emitSent (hphase : r.phase = .sent) : Kept (m.emit (.refreshSent r.id)) := by
  refine h.concat rfl trivial rfl h.shared (fun r hr => .inl hr) ?_ ?_ h.awaited
    (fun v hv => ⟨v, hv, rfl, fun _ => .inr⟩) le_rfl nofun
  · rintro k (hflight | heq)
    · exact hflight
    · exact ⟨r, hr, Event.refreshSent.inj heq, hphase⟩
  · rintro k user (hpromise | heq)
    · exact .inr hpromise
    · cases heq

theorem startRefresh (hphase : r.phase = .waiting) : Kept (m.startRefresh r) := by
  unfold SessionModule.startRefresh
  split
  · have hset := h.setPhase (k := r.id) .sent fun _ => .inr rfl
    exact hset.emitSent (r := { r with phase := .sent }) (mem_map.mpr ⟨r, hr, if_pos rfl⟩) rfl
  · refine h.setPhase _ fun hsent => .inl ?_
    -- the request of a waiting refresh has not been sent in its own name
    rcases h.sent r.id hsent with hanswered | ⟨r', hr', -, hsent'⟩
    · exact hanswered
    · rw [h.eq_of_id hr' hr, hphase] at hsent'
      cases hsent'

/-- A response becomes current only if the generation has not moved since the start. -/
theorem allowed_refreshed (hcurrent : m.attemptCurrent r.attempt = true) {session : AuthSession}
    (hname : ∀ name ∈ r.attempt.expectedUsername, session.username = name) :
    Allowed m.log (.refreshed r.id session) := by
  have hgeneration : m.sessionGeneration = r.attempt.generation := by
    simp only [attemptCurrent, Bool.and_eq_true, beq_iff_eq] at hcurrent
    exact hcurrent.1.2
  obtain ⟨before, e, after, hlog, rfl, hcount⟩ := h.attempts r hr
  refine ⟨r.attempt.expectedUsername, ⟨before, _, after, hlog, rfl, fun x hx => ?_⟩, hname⟩
  rw [h.counted, hcount, hlog, countP_append] at hgeneration
  have hnone : (Event.refreshStarted r.id r.attempt.expectedUsername :: after).countP
      Event.changes = 0 := by omega
  rw [countP_eq_zero] at hnone
  simpa using hnone x (mem_cons_of_mem _ hx)

theorem finishRefresh (response : Option Dict) : Kept (m.finishRefresh r response) := by
  have hanswered : Kept (m.emit (.refreshAnswered r.id)) := h.emit trivial trivial rfl
  have hset : ∀ phase, Kept ((m.emit (.refreshAnswered r.id)).setPhase r.id phase) := fun phase =>
    hanswered.setPhase phase fun _ => .inl (by simp [SessionModule.emit])
  unfold SessionModule.finishRefresh
  dsimp only
  split
  · exact hset _
  · rename_i session _
    split
    · rename_i hcurrent
      exact (hset (.settled true)).grow (e := .refreshed r.id session) trivial
        (hanswered.allowed_refreshed hr hcurrent.1 hcurrent.2) (some session) m.revocationPending
    · exact hset _

end

theorem beginRefresh (hnone : m.refreshPromise = none) : Kept m.beginRefresh := by
  have hempty := h.refreshes_eq_nil hnone
  refine h.concat rfl trivial rfl (by simp [SessionModule.beginRefresh, SessionModule.emit, hempty])
    ?_ ?_ ?_ ?_
    (fun v hv => ⟨v, hv, rfl, fun _ => .inr⟩) (Nat.le_succ _) nofun
  · intro r hr
    simp only [SessionModule.beginRefresh, SessionModule.emit, hempty, nil_append,
      mem_singleton] at hr
    subst hr
    exact .inr ⟨rfl, rfl⟩
  · rintro k (⟨r, hr, -⟩ | heq)
    · rw [hempty] at hr
      cases hr
    · cases heq
  · rintro k user (hpromise | heq)
    · rw [hnone] at hpromise
      cases hpromise
    · obtain ⟨rfl, -⟩ := Event.refreshStarted.inj heq
      exact .inr rfl
  · intro v hv k hk
    have hpromise := h.awaited v hv k hk
    rw [hnone] at hpromise
    cases hpromise

end

/-! ### Revocation -/

/-- Revocations that end, or go from one phase to another after the refresh they awaited. -/
theorem setRevocations (h : Kept m) {vs : List Revocation} (pending : Bool)
    (hvs : ∀ v ∈ vs, ∃ u ∈ m.revocations, u.id = v.id ∧
      (v.phase = u.phase ∨ (∀ k, u.phase ≠ .awaiting k) ∧ ∀ k, v.phase ≠ .awaiting k)) :
    Kept { m with revocations := vs, revocationPending := pending } where
  __ := h
  awaited v hv k hk := by
    obtain ⟨u, hu, -, hphase | ⟨-, hphase⟩⟩ := hvs v hv
    · exact h.awaited u hu k (hphase ▸ hk)
    · exact absurd hk (hphase k)
  earlier v hv k user hk := by
    obtain ⟨u, hu, hid, hphase⟩ := hvs v hv
    rcases h.earlier u hu k user (hid ▸ hk) with hsettled | hawaits
    · exact .inl hsettled
    · rcases hphase with hphase | ⟨hphase, -⟩
      · exact .inr (hphase.trans hawaits)
      · exact absurd hawaits (hphase k)
  known v hv := by
    obtain ⟨u, hu, hid, -⟩ := hvs v hv
    exact hid ▸ h.known u hu

/-- A revocation may send its request once no refresh request is in flight. -/
theorem allowed_logoutSent (h : Kept m) (hidle : ∀ r ∈ m.refreshes, r.phase ≠ .sent)
    (hv : v ∈ m.revocations) (hphase : ∀ k, v.phase ≠ .awaiting k) :
    Allowed m.log (.logoutSent v.id) := by
  constructor
  · intro k hk
    rcases h.sent k hk with hanswered | ⟨r, hr, -, hsent⟩
    · exact hanswered
    · exact absurd hsent (hidle r hr)
  · intro k user hk
    rcases h.earlier v hv k user hk with hsettled | hawaits
    · exact hsettled
    · exact absurd hawaits (hphase k)

theorem not_busy (hbusy : m.busy = false) :
    (∀ r ∈ m.refreshes, r.phase ≠ .sent) ∧ ∀ v ∈ m.revocations, v.phase ≠ .sent := by
  simpa [busy] using hbusy

variable (h : Kept m)

include h

theorem movePhase (q : ℕ) (old new : RevocationPhase) (hold : ∀ k, old ≠ .awaiting k)
    (hnew : ∀ k, new ≠ .awaiting k) : Kept { m with revocations := m.revocations.map fun v =>
      if v.id = q ∧ v.phase = old then { v with phase := new } else v } := by
  refine h.setRevocations m.revocationPending fun w hw => ?_
  rcases mem_moved hw with ⟨hw, -⟩ | ⟨u, hu, hq, rfl⟩
  · exact ⟨w, hw, rfl, .inl rfl⟩
  · exact ⟨u, hu, rfl, .inr ⟨hq.2 ▸ hold, hnew⟩⟩

theorem sendLogout (hbusy : m.busy = false) (hv : v ∈ m.revocations)
    (hphase : v.phase = .waiting) : Kept (m.sendLogout v.id) := by
  have hset := h.movePhase v.id .waiting .sent nofun nofun
  refine hset.emit trivial (h.allowed_logoutSent (not_busy hbusy).1 hv ?_) rfl
  rw [hphase]
  exact nofun

theorem answerLogout (q : ℕ) (ok : Bool) : Kept (m.answerLogout q ok) :=
  (h.movePhase q .sent (.answered ok) nofun nofun).emit trivial trivial rfl

theorem settleLogout (q : ℕ) (ok : Bool) : Kept (m.settleLogout q ok) :=
  h.setRevocations _ fun v hv => ⟨v, (mem_filter.mp hv).1, rfl, .inl rfl⟩

/-- The mark is set, under a new number. -/
theorem mark (caller : Caller) : Kept (SessionModule.emit
    { m with revocationPending := true, nextId := m.nextId + 1 } (.revoking m.nextId caller)) := by
  refine h.concat rfl trivial rfl h.shared (fun r hr => .inl hr) ?_ ?_ h.awaited
    (fun v hv => ⟨v, hv, rfl, fun _ => .inr⟩) (Nat.le_succ _) ?_
  · rintro k (hflight | heq)
    · exact hflight
    · cases heq
  · rintro k user (hpromise | heq)
    · exact .inr hpromise
    · cases heq
  · intro q caller' heq
    exact ⟨(Event.revoking.inj heq).1.symm, Nat.lt_succ_self _⟩

theorem addRevocation (hid : v.id < m.nextId)
    (hawaits : ∀ k, v.phase = .awaiting k → m.refreshPromise = some k)
    (hearlier : ∀ k user, StartedBefore k user v.id m.log →
    .refreshSettled k ∈ m.log ∨ v.phase = .awaiting k) :
    Kept { m with revocations := m.revocations ++ [v] } where
  __ := h
  awaited u hu := by
    rcases mem_append.mp hu with hu | hu
    · exact h.awaited u hu
    · exact mem_singleton.mp hu ▸ hawaits
  earlier u hu := by
    rcases mem_append.mp hu with hu | hu
    · exact h.earlier u hu
    · exact mem_singleton.mp hu ▸ hearlier
  known u hu := by
    rcases mem_append.mp hu with hu | hu
    · exact h.known u hu
    · exact mem_singleton.mp hu ▸ hid

theorem revokeRefreshSession (caller : Caller) : Kept (m.revokeRefreshSession caller) := by
  have hmarked := (h.mark caller).clearAuthSession
  have hearlier : ∀ k user, StartedBefore k user m.nextId
      (m.log ++ [.revoking m.nextId caller] ++ [.cleared]) →
      .refreshSettled k ∈ m.log ∨ m.refreshPromise = some k := by
    intro k user hk
    rcases once_concat.mp hk with ⟨⟨_, heq⟩, -⟩ | hk
    · cases heq
    · rcases once_concat.mp hk with ⟨-, hstarted⟩ | ⟨before, e, after, hlog, ⟨c, rfl⟩, -⟩
      · exact h.started k user hstarted
      · exact absurd (h.numbered m.nextId c (by rw [hlog]; simp)) (Nat.lt_irrefl _)
  have hlift : ∀ {k}, .refreshSettled k ∈ m.log →
      Event.refreshSettled k ∈ m.log ++ [.revoking m.nextId caller] ++ [.cleared] :=
    fun hk => mem_append_left _ (mem_append_left _ hk)
  cases hpromise : m.refreshPromise with
  | some k =>
    have hadded := hmarked.addRevocation (v := ⟨m.nextId, caller, .awaiting k⟩)
      (Nat.lt_succ_self _) (fun j hj => ?_) (fun j user hj => ?_)
    · simpa [SessionModule.revokeRefreshSession, SessionModule.clearAuthSession,
        SessionModule.emit, hpromise] using hadded
    · rw [← RevocationPhase.awaiting.inj hj]
      exact hpromise
    · rcases hearlier j user hj with hsettled | hsome
      · exact .inl (hlift hsettled)
      · rw [hpromise] at hsome
        exact .inr (congrArg RevocationPhase.awaiting (Option.some.inj hsome))
  | none =>
    have hadded : ∀ phase, (∀ k, phase ≠ RevocationPhase.awaiting k) → Kept _ := fun phase hphase =>
      hmarked.addRevocation (v := ⟨m.nextId, caller, phase⟩) (Nat.lt_succ_self _)
        (fun j hj => absurd hj (hphase j)) (fun j user hj => by
          rcases hearlier j user hj with hsettled | hsome
          · exact .inl (hlift hsettled)
          · rw [hpromise] at hsome
            cases hsome)
    have hempty := h.refreshes_eq_nil hpromise
    cases hlocks : m.locks with
    | true =>
      simpa [SessionModule.revokeRefreshSession, SessionModule.clearAuthSession,
        SessionModule.emit, hpromise, hlocks] using hadded .waiting nofun
    | false =>
      have hsent := hadded .sent nofun
      have hidle := hsent.allowed_logoutSent (v := ⟨m.nextId, caller, .sent⟩) (fun r hr => by
          have hr' : r ∈ m.refreshes := hr
          rw [hempty] at hr'
          cases hr') (by simp) nofun
      simpa [SessionModule.revokeRefreshSession, SessionModule.clearAuthSession,
        SessionModule.emit, hpromise, hlocks] using
          hsent.emit (e := .logoutSent m.nextId) trivial hidle rfl

/-- Revocations that await nothing send their requests one after the other. -/
theorem emitLogouts (hidle : ∀ r ∈ m.refreshes, r.phase ≠ .sent)
    (vs : List Revocation) (hvs : ∀ v ∈ vs, v ∈ m.revocations ∧ ∀ k, v.phase ≠ .awaiting k) :
    Kept { m with log := m.log ++ vs.map fun v => .logoutSent v.id } := by
  induction vs generalizing m with
  | nil => simpa using h
  | cons v vs ih =>
    have hv := hvs v mem_cons_self
    have hfirst := h.emit (e := .logoutSent v.id) trivial (h.allowed_logoutSent hidle hv.1 hv.2) rfl
    have hrest := ih hfirst hidle fun u hu => hvs u (mem_cons_of_mem _ hu)
    simpa [SessionModule.emit] using hrest

variable (hr : r ∈ m.refreshes)

include hr

/-- The shared promise is cleared, and what awaited it goes on to another phase. -/
theorem clearPromise (hphase : r.phase ≠ .sent)
    (phase : RevocationPhase) (hnew : ∀ k, phase ≠ .awaiting k) :
    Kept { m with
      refreshes := []
      refreshPromise := none
      revocations := m.revocations.map fun v =>
        if v.phase == .awaiting r.id then { v with phase } else v
      log := m.log ++ [.refreshSettled r.id] } := by
  have hpromise := h.promise_of_mem hr
  refine h.concat rfl trivial rfl rfl nofun ?_ ?_ ?_ ?_ le_rfl nofun
  · rintro k (⟨r', hr', -, hsent⟩ | heq)
    · rw [h.eq_of_id hr' hr] at hsent
      exact absurd hsent hphase
    · cases heq
  · rintro k user (hsome | heq)
    · rw [hpromise] at hsome
      exact .inl (by rw [Option.some.inj hsome])
    · cases heq
  · intro v hv k hk
    rcases mem_moved hv with ⟨hv, hne⟩ | ⟨u, -, -, rfl⟩
    · have hsome := h.awaited v hv k hk
      rw [hpromise] at hsome
      rw [hk, Option.some.inj hsome] at hne
      simp at hne
    · exact absurd hk (hnew k)
  · intro v hv
    obtain ⟨u, hu, rfl⟩ := mem_map.mp hv
    refine ⟨u, hu, by split <;> rfl, fun k hk => .inl ?_⟩
    have hsome := h.awaited u hu k hk
    rw [hpromise] at hsome
    rw [Option.some.inj hsome]

theorem settleRefresh_eq :
    m.settleRefresh r.id = proceed { m with
      refreshes := []
      refreshPromise := none
      log := m.log ++ [.refreshSettled r.id] } (fun v => v.phase == .awaiting r.id) := by
  have hfilter : m.refreshes.filter (fun x => x.id ≠ r.id) = [] := by
    rw [filter_eq_nil_iff]
    intro x hx
    simp [h.eq_of_id hx hr]
  unfold settleRefresh
  rw [hfilter, h.promise_of_mem hr, if_pos rfl]
  rfl

theorem settleRefresh (hphase : r.phase ≠ .sent) : Kept (m.settleRefresh r.id) := by
  rw [h.settleRefresh_eq hr, proceed]
  dsimp only
  split
  · exact h.clearPromise hr hphase .waiting nofun
  · have hcleared := h.clearPromise hr hphase .sent nofun
    have hsent := hcleared.emitLogouts nofun
      ((m.revocations.filter fun v => v.phase == .awaiting r.id).map fun v => { v with phase := .sent })
      fun v hv => by
        obtain ⟨u, hu, rfl⟩ := mem_map.mp hv
        obtain ⟨hu, hawaits⟩ := mem_filter.mp hu
        exact ⟨mem_map.mpr ⟨u, hu, if_pos hawaits⟩, nofun⟩
    rw [map_map] at hsent
    exact hsent

end Kept

/-! ## Runs of the tab -/

theorem Kept.step {t : Tab} {i : Input} {m m' : SessionModule} (h : Kept m)
    (hs : ModuleStep t i m m') : Kept m' := by
  cases hs with
  | clear => exact h.clearAuthSession
  | install => exact h.installAuthSession _
  | begin _ hnone => exact h.beginRefresh hnone
  | start hr hphase => exact h.startRefresh hr hphase
  | finish _ hr => exact h.finishRefresh hr _
  | settle hr hphase => exact h.settleRefresh hr hphase
  | revoke caller => exact h.revokeRefreshSession caller
  | sendLogout hbusy hv hphase => exact h.sendLogout hbusy hv hphase
  | answerLogout q ok => exact h.answerLogout q ok
  | settleLogout => exact h.settleLogout _ _

theorem Tab.loaded_kept (locks pending : Bool) : Kept (loaded locks pending).module where
  shared := rfl
  counted := rfl
  attempts := nofun
  sent := nofun
  started := nofun
  awaited := nofun
  earlier := nofun
  known := nofun
  numbered := nofun
  allowed := always_nil

theorem Tab.after_kept (locks pending : Bool) (inputs : List Input) :
    Kept (after locks pending inputs).module :=
  Machine.run_preserves (I := fun t : Tab => Kept t.module)
    (fun _ _ h => exec_keeps h fun _ _ => .step)
    (loaded_kept locks pending) inputs

end SuperMew.Frontend
