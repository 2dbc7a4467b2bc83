import SuperMew.Runs.History

/-! What the events of a pause and of a request to cancel say. The board leaves it open; here a
call shows as a move together with the data of these events. -/

namespace SuperMew.Runs

open Relational

/-- A move of run `r` under the environment of a call, with what its events say. -/
inductive Told (env : Env) (r : RunId) : Deed → RunState → RunState → Prop where
  | pause {x worker token c name waiting required clock} : x.status = .running →
      required.get? "hitl_token" = some (.str env.hitlToken) →
      Told env r (.pause worker token) x
        (((((x.setCheckpoint c ⟨name, env.hitlToken, false, none, none⟩).released
          .waitingInput).replying .waitingInput).record r .runWaitingInput waiting clock).record r
          .hitlRequired required clock)
  | mark {x data clock} : x.status = .pending ∨ x.status = .running ∨ x.status = .waitingInput →
      data.get? "code" = some (.str "CANCEL_REQUESTED") →
      Told env r .mark x ({ x with status := .cancelling }.record r .warningCreated data clock)
  | other {deed x y} : deed ≠ .mark → (∀ worker token, deed ≠ .pause worker token) →
      Move r deed x y → Told env r deed x y

section Calls

variable {env : Env} {s : System} {op : Op} {r : RunId}

theorem PendingCancel.deed_mark {p : PendingCancel} (h : p.deed = some .mark) :
    cancelPlan p.current.status = .mark := by
  unfold PendingCancel.deed at h
  split at h
  · cases h
  · cases h
  · assumption

variable [ErrorCodec]

theorem does_pause {worker : String} {token : ℕ} (h : Call.Does env s op r (.pause worker token)) :
    ∃ q, op = .recordPause q ∧ q.runId = r := by
  cases h with
  | recordPause q => exact ⟨q, rfl, rfl⟩
  | consumeResume q hq => cases hq
  | requestCancel _ _ _ hdeed | writeCancel _ _ hdeed =>
    rcases PendingCancel.deed_eq hdeed with heq | heq <;> cases heq

variable [Platform]

/-- A call that marks a run runs `mark_cancelling` on it. -/
theorem transaction_mark (h : Call.Does env s op r .mark) :
    ∃ username, Call.transaction ⟨env, op⟩ s = (markCancelling env username r s.store).map (·.2) := by
  cases h with
  | markCancelling username r => exact ⟨username, rfl⟩
  | consumeResume q hq => cases hq
  | requestCancel username r hread hdeed =>
    rename_i p
    obtain rfl := readCancel_run hread
    refine ⟨p.username, ?_⟩
    simp [Call.transaction, requestCancel, hread, ok_bind, writeCancel,
      PendingCancel.deed_mark hdeed]
  | writeCancel position hp hdeed =>
    rename_i p
    refine ⟨p.username, ?_⟩
    simp [Call.transaction, hp, writeCancel, PendingCancel.deed_mark hdeed]

variable {call : Call} {x : RunState}

theorem exec_store {store : Store} (h : call.transaction s = .ok store) : (exec s call).store = store := by
  simp [exec, h]

section

variable (hw : s.store.Wf)

include hw

section

variable (hr : s.store.board r = some x)

include hr

theorem told_pause {worker : String} {token : ℕ}
    (h : Call.Does call.env s call.op r (.pause worker token)) :
    (exec s call).store.board r = some x ∨
      ∃ y, Told call.env r (.pause worker token) x y ∧ (exec s call).store.board r = some y := by
  obtain ⟨env, op⟩ := call
  obtain ⟨q, rfl, rfl⟩ := does_pause h
  cases hp : recordPause env q s.store with
  | error fault => exact .inl (by simpa [exec, Call.transaction, hp, Except.map] using hr)
  | ok result =>
    obtain ⟨pause, store⟩ := result
    have hstore : (exec s ⟨env, .recordPause q⟩).store = store :=
      exec_store (by simp [Call.transaction, hp, Except.map])
    rw [hstore]
    rcases recordPause_shows hw hp with rfl | ⟨run, waiting, hget, -, hstatus, -, hshows⟩
    · exact .inl hr
    · cases hr.symm.trans (Store.board_of_run hget)
      have hboard := hshows.board
      refine .inr ⟨_, .pause hstatus ?_, by rw [hboard, Function.update_self]⟩
      rfl

theorem told_mark
    (h : Call.Does call.env s call.op r .mark) : (exec s call).store.board r = some x ∨
      ∃ y, Told call.env r .mark x y ∧ (exec s call).store.board r = some y := by
  obtain ⟨username, htransaction⟩ := transaction_mark h
  cases hm : markCancelling call.env username r s.store with
  | error fault => exact .inl (by simpa [exec, htransaction, hm, Except.map] using hr)
  | ok result =>
    obtain ⟨record, store⟩ := result
    have hstore : (exec s call).store = store :=
      exec_store (by rw [htransaction, hm]; rfl)
    rw [hstore]
    rcases markCancelling_shows hw hm with rfl | ⟨run, hget, hsource, hshows⟩
    · exact .inl hr
    · cases hr.symm.trans (Store.board_of_run hget)
      have hboard := hshows.board
      refine .inr ⟨_, .mark hsource ?_, by rw [hboard, Function.update_self]⟩
      rfl

/-- A call leaves a run as it is, moves it and says so, or promotes it. -/
theorem exec_told :
    (exec s call).store.board r = some x ∨
      (∃ deed y, Call.Does call.env s call.op r deed ∧ Told call.env r deed x y ∧
        (exec s call).store.board r = some y) ∨ x.status = .queued ∧ (exec s call).store.board r =
        some ({ x with status := .pending }.replying .streaming) := by
  rcases (exec_steps hw : call.Steps s _).2 with hsame | ⟨action, hacts, hstep⟩
  · exact .inl (hsame ▸ hr)
  · rcases hstep.one hr with h | ⟨deed, y, rfl, hm, h⟩ | h
    · exact .inl h
    · obtain ⟨-⟩ | hdoes := hacts
      by_cases hmark : deed = .mark
      · subst hmark
        exact (told_mark hw hr hdoes).imp_right fun ⟨y, hy⟩ => .inl ⟨_, y, hdoes, hy⟩
      · by_cases hpause : ∃ worker token, deed = .pause worker token
        · obtain ⟨worker, token, rfl⟩ := hpause
          exact (told_pause hw hr hdoes).imp_right fun ⟨y, hy⟩ => .inl ⟨_, y, hdoes, hy⟩
        · have hother : ∀ worker token, deed ≠ .pause worker token := fun worker token heq =>
            hpause ⟨worker, token, heq⟩
          exact .inr (.inl ⟨deed, y, hdoes, .other hmark hother hm, h⟩)
    · exact .inr (.inr h)

end

/-- A run that a call brings onto the board is as its reservation leaves it. -/
theorem exec_new (hr : s.store.board r = none) (hx : (exec s call).store.board r = some x) :
    x.Fresh r ∧ (x.status = .pending ∨ x.status = .queued) := by
  have hold : ∀ r' x', s.store.board r' = some x' → r' ≠ r := by
    rintro r' x' hr' rfl
    rw [hr] at hr'
    cases hr'
  have hmove : ∀ r' deed x' y', Move r' deed x' y' → r' ≠ r →
      (r' = r → x'.Fresh r ∧ (x'.status = .pending ∨ x'.status = .queued)) →
      r' = r → y'.Fresh r ∧ (y'.status = .pending ∨ y'.status = .queued) :=
    fun _ _ _ _ _ hne _ heq => absurd heq hne
  refine exec_forall ?_ hmove ?_ hw ?_ ?_ r x hx rfl
  · rintro r' x' hfresh hstatus rfl
    exact ⟨hfresh, hstatus⟩
  · rintro r' x' - h rfl
    obtain ⟨hfresh, -⟩ := h rfl
    exact ⟨⟨hfresh.owner, hfresh.lease, hfresh.checkpoints, hfresh.journal, hfresh.last⟩, .inl rfl⟩
  · exact fun r' _ x' _ hr' => hold r' x' hr'
  · exact fun r' x' hr' heq => absurd heq (hold r' x' hr')

end

/-- What holds of a fresh run, is kept by every told move and survives promotion holds of the run
in every system that the calls reach. -/
theorem after_told {P : RunState → Prop} {ok : System → Call → Prop}
    (fresh : ∀ x, x.Fresh r → x.status = .pending ∨ x.status = .queued → P x)
    (told : ∀ s call deed x y, ok s call → s.store.board r = some x →
      Call.Does call.env s call.op r deed → Told call.env r deed x y → P x → P y)
    (promote : ∀ x, x.status = .queued → P x →
      P ({ x with status := .pending }.replying .streaming))
    {users : Table Id User} {calls : List Call}
    (hok : Machine.Along exec ok ⟨Store.initial users, []⟩ calls) :
    ∀ x, (System.after users calls).store.board r = some x → P x := by
  have hrun := Machine.run_preserves_along
    (I := fun s : System => s.store.Wf ∧ ∀ x, s.store.board r = some x → P x) (fun s call hI hcall => ?_)
    ⟨Store.wf_initial users, fun x hr => by simp [board_initial] at hr⟩ hok
  · exact hrun.2
  · refine ⟨exec_wf hI.1, fun y hy => ?_⟩
    cases hr : s.store.board r with
    | none =>
      obtain ⟨hfresh, hstatus⟩ := exec_new hI.1 hr hy
      exact fresh y hfresh hstatus
    | some x =>
      have hx := hI.2 x hr
      rcases exec_told hI.1 hr with h | ⟨deed, z, hdoes, htold, h⟩ | ⟨hq, h⟩ <;>
        cases h.symm.trans hy
      · exact hx
      · exact told s call deed x _ hcall hr hdoes htold hx
      · exact promote x hq hx

end Calls

end SuperMew.Runs
