import SuperMew.Runs.Refinement.Ends

/-! The reservation of a run as a new entry of the board. -/

namespace SuperMew.Runs

open Relational Store Table

variable {s s' : Store} {env : Env} {r : RunId} {run : Run} {t : Id} {thread : Thread}

/-! ## Threads -/

/-- Thread `t` is the one in which a request of the user under this name is reserved. -/
def Store.Home (s : Store) (username threadId : String) (t : Id) : Prop :=
  ∃ user row thread, s.userNamed username = some (user, row) ∧
    s.threadOf user threadId = some (t, thread)

def Board.Unused (b : Board) (t : Id) : Prop := ∀ r x, b r = some x → x.thread ≠ t

theorem unused_nextThread (hw : s.Wf) : s.board.Unused s.nextThread := by
  intro r x hr ht
  obtain ⟨run, hget, rfl⟩ := run_of_board hr
  obtain ⟨row, hrow, -⟩ := hw.thread r run hget
  rw [show run.threadRefId = s.nextThread from ht, hw.threads _ (Nat.le_refl _)] at hrow
  cases hrow

theorem getOrCreateThread_ok (hw : s.Wf) {now : Time} {user : Id} {threadId : String}
    {title : Option String} {allowCreate : Bool}
    (h : s.getOrCreateThread now user threadId title allowCreate = .ok (t, thread, s')) :
    s'.Wf ∧ s'.board = s.board ∧ s'.users = s.users ∧ s'.threads.get t = some thread ∧
      ((∃ old, s.threadOf user threadId = some (t, old)) ∨ s.board.Unused t) := by
  unfold getOrCreateThread at h
  split at h
  · rename_i t' old hold
    obtain ⟨rfl, rfl, rfl⟩ := Prod.mk.inj (Except.ok.inj h) |>.imp_right Prod.mk.inj
    refine ⟨(keeps_putThread (find_eq_some hold).1 ?_).wf hw, rfl, rfl, ?_, .inl ⟨old, hold⟩⟩
    · split <;> rfl
    · simp [putThread, get_put]
  · simp only [ok_rules] at h
    obtain ⟨_, -, rfl, rfl, rfl⟩ := h
    refine ⟨?_, rfl, rfl, by simp [putThread, get_put], .inr (unused_nextThread hw)⟩
    refine ⟨fun r run hr => ?_, hw.user, hw.question, hw.reply, hw.own, hw.messages, fun k hk => ?_,
      hw.checkpoints, hw.events⟩
    · obtain ⟨row, hrow, hle⟩ := hw.thread r run hr
      have hne : run.threadRefId ≠ s.nextThread := by
        intro heq
        rw [hw.threads _ (by rw [heq])] at hrow
        cases hrow
      exact ⟨row, by simp [putThread, get_put, hne, hrow], hle⟩
    · have hlt : s.nextThread < k := hk
      simp [putThread, get_put, hlt.ne', hw.threads k hlt.le]

/-! ## New runs -/

/-- The tables after the messages and the row of a new run are written. -/
structure Inserted (s s' : Store) (t : Id) (thread : Thread) (r : RunId) (run : Run) : Prop where
  users : s'.users = s.users
  runs : s'.runs.get = Function.update s.runs.get r (some run)
  question : run.userMessageId = some s.nextMessage
  reply : run.assistantMessageId = some (s.nextMessage + 1)
  home : run.threadRefId = t
  messages : ∀ m < s.nextMessage, s'.messages.get m = s.messages.get m
  number : (s'.messages.get s.nextMessage).map Message.sequence = some (thread.lastSequence + 1)
  answer : s'.messages.get (s.nextMessage + 1) ≠ none
  fresh : ∀ m, s.nextMessage + 2 ≤ m → s'.messages.get m = s.messages.get m
  threads : ∀ k, k ≠ t → s'.threads.get k = s.threads.get k
  thread : ∃ row, s'.threads.get t = some row ∧ row.lastSequence = thread.lastSequence + 2
  nextMessage : s'.nextMessage = s.nextMessage + 2
  nextThread : s'.nextThread = s.nextThread
  checkpoints : s'.checkpoints = s.checkpoints
  nextCheckpoint : s'.nextCheckpoint = s.nextCheckpoint
  events : s'.events = s.events

theorem inserted_addMessages (s : Store) (now : Time) (t : Id) (thread : Thread) (r : RunId)
    (run : Run) (text : String) (ht : run.threadRefId = t) :
    Inserted s ((s.addMessages now t thread r run text).2.putRun r
      (s.addMessages now t thread r run text).1) t thread r
        (s.addMessages now t thread r run text).1 := by
  constructor
  case home => exact ht
  case messages | fresh =>
    intro m hm
    have h₀ : m ≠ s.nextMessage := by grind
    have h₁ : m ≠ s.nextMessage + 1 := by grind
    simp [addMessages, putRun, putThread, putMessage, get_put, h₀, h₁]
  case threads =>
    intro k hk
    simp [addMessages, putRun, putThread, putMessage, get_put, hk]
  all_goals
    simp [addMessages, putRun, putThread, putMessage, get_put]

namespace Inserted

variable (h : Inserted s s' t thread r run)

include h

theorem old_messages (hw : s.Wf) {m : Id} (hm : s.messages.get m ≠ none) :
    s'.messages.get m = s.messages.get m := by
  refine h.messages m ?_
  by_contra hge
  exact hm (hw.messages m (Nat.le_of_not_lt hge))

theorem old_number (hw : s.Wf) {r' : RunId} {old : Run} (hr : s.runs.get r' = some old) :
    s'.numberOf old = s.numberOf old := by
  obtain ⟨m, hm, hne⟩ := hw.question r' old hr
  simp [numberOf, hm, h.old_messages hw hne]

theorem old_reply (hw : s.Wf) {r' : RunId} {old : Run} (hr : s.runs.get r' = some old) :
    s'.replyOf old = s.replyOf old := by
  obtain ⟨m, hm, hne⟩ := hw.reply r' old hr
  simp [replyOf, hm, h.old_messages hw hne]

theorem numberOf : s'.numberOf run = thread.lastSequence + 1 := by
  simp [Store.numberOf, h.question, h.number]

theorem runs_ne_none {r' : RunId} (hr : s.runs.get r' ≠ none) : s'.runs.get r' ≠ none := by
  rw [h.runs]
  by_cases heq : r' = r
  · subst heq
    simp
  · simpa [heq] using hr

theorem wf (hw : s.Wf) (hthread : s.threads.get t = some thread) (hnew : s.runs.get r = none)
    (huser : s.users.get run.userId ≠ none) : s'.Wf := by
  have hold : ∀ {r' old}, s'.runs.get r' = some old →
      r' = r ∧ old = run ∨ s.runs.get r' = some old := by
    intro r' old hr'
    rw [h.runs] at hr'
    obtain ⟨rfl, rfl⟩ | ⟨-, hr'⟩ := update_eq_some.mp hr'
    · exact .inl ⟨rfl, rfl⟩
    · exact .inr hr'
  obtain ⟨row, hrow, hlast⟩ := h.thread
  constructor
  · intro r' old hr'
    rcases hold hr' with ⟨rfl, rfl⟩ | hr'
    · exact ⟨row, h.home ▸ hrow, by rw [h.numberOf, hlast]; omega⟩
    · obtain ⟨old', hget, hle⟩ := hw.thread r' old hr'
      rw [h.old_number hw hr']
      by_cases heq : old.threadRefId = t
      · rw [heq, hthread] at hget
        cases hget
        exact ⟨row, heq ▸ hrow, by omega⟩
      · exact ⟨old', by rw [h.threads _ heq, hget], hle⟩
  · intro r' old hr'
    rw [h.users]
    rcases hold hr' with ⟨rfl, rfl⟩ | hr'
    · exact huser
    · exact hw.user r' old hr'
  · intro r' old hr'
    rcases hold hr' with ⟨rfl, rfl⟩ | hr'
    · refine ⟨_, h.question, fun hnone => ?_⟩
      have hnumber := h.number
      rw [hnone] at hnumber
      cases hnumber
    · obtain ⟨m, hm, hne⟩ := hw.question r' old hr'
      exact ⟨m, hm, by rw [h.old_messages hw hne]; exact hne⟩
  · intro r' old hr'
    rcases hold hr' with ⟨rfl, rfl⟩ | hr'
    · exact ⟨_, h.reply, h.answer⟩
    · obtain ⟨m, hm, hne⟩ := hw.reply r' old hr'
      exact ⟨m, hm, by rw [h.old_messages hw hne]; exact hne⟩
  · have hfresh : ∀ {r' old}, s.runs.get r' = some old →
        old.assistantMessageId ≠ some (s.nextMessage + 1) := by
      intro r' old hr' heq
      obtain ⟨m, hm, hne⟩ := hw.reply r' old hr'
      obtain rfl := Option.mem_unique heq hm
      exact hne (hw.messages _ (Nat.le_succ _))
    intro r₁ r₂ run₁ run₂ hr₁ hr₂ heq
    rcases hold hr₁ with ⟨rfl, rfl⟩ | hr₁ <;> rcases hold hr₂ with ⟨rfl, rfl⟩ | hr₂
    · rfl
    · exact absurd (heq.symm.trans h.reply) (hfresh hr₂)
    · exact absurd (heq.trans h.reply) (hfresh hr₁)
    · exact hw.own r₁ r₂ run₁ run₂ hr₁ hr₂ heq
  · intro m hm
    rw [h.nextMessage] at hm
    rw [h.fresh m hm]
    exact hw.messages m (Nat.le_of_succ_le (Nat.le_of_succ_le hm))
  · intro k hk
    rw [h.nextThread] at hk
    have hne : k ≠ t := by
      rintro rfl
      rw [hw.threads k hk] at hthread
      cases hthread
    rw [h.threads k hne]
    exact hw.threads k hk
  · intro c row hc
    rw [h.checkpoints] at hc
    rw [h.nextCheckpoint]
    exact ⟨(hw.checkpoints c row hc).1, h.runs_ne_none (hw.checkpoints c row hc).2⟩
  · intro e he
    rw [h.events] at he
    exact h.runs_ne_none (hw.events e he)

theorem board (hw : s.Wf) : s'.board = Function.update s.board r (some (s'.view r run)) := by
  refine board_eq_update (by simp [h.runs]) rfl (fun r' hne => by simp [h.runs, hne])
    fun r' old _ hr' => view_congr (h.old_number hw hr') (h.old_reply hw hr') ?_ ?_
  · simp [eventsOf, h.events]
  · funext c
    simp [checkpointsOf, h.checkpoints]

/-- Nothing refers to a run that is not there yet. -/
theorem nothing_old (hw : s.Wf) (hnew : s.runs.get r = none) :
    s'.eventsOf r = [] ∧ s'.checkpointsOf r = fun _ => none := by
  constructor
  · rw [eventsOf, h.events, List.filter_eq_nil_iff]
    intro e he heq
    rw [beq_iff_eq] at heq
    exact hw.events e he (heq ▸ hnew)
  · funext c
    cases hc : s'.checkpointsOf r c with
    | none => rfl
    | some state =>
      obtain ⟨row, hget, hrun, -⟩ := checkpointsOf_eq_some.mp hc
      rw [h.checkpoints] at hget
      exact absurd (hrun ▸ hnew) (hw.checkpoints c row hget).2

theorem appendEvent_fresh (hw : s.Wf) (hnew : s.runs.get r = none)
    (howner : run.ownerWorkerId = none) (hlease : run.leaseExpiresAt = none)
    (hlast : run.lastEventSequence = 0) (data : Dict) (clock : Time) :
    ((s'.view r run).record r .runCreated data clock).Fresh r := by
  obtain ⟨hevents, hcheckpoints⟩ := h.nothing_old hw hnew
  exact ⟨howner, hlease, hcheckpoints, ⟨data, clock, by simp [view, hevents, hlast]⟩,
    by simp [view, hlast]⟩

end Inserted

theorem activeRun_eq_none : s.activeRun t = none ↔ ¬ s.board.Active t := by
  rw [activeRun, firstBy_eq_none, List.eq_nil_iff_forall_not_mem, board_active]
  simp [Prod.forall, mem_select, not_and, not_exists]

/-- A transaction keeps the tables well-formed, and the board shows nothing of it or a new run
in the thread of the request. -/
def Created (env : Env) (username threadId : String) (s s' : Store) : Prop :=
  s'.Wf ∧ (s'.board = s.board ∨ ∃ t, (s.Home username threadId t ∨ s.board.Unused t) ∧
    Step (.create env.runId t env.now) s.board s'.board)

variable {request : ReserveRequest} {input : ReserveInput} {reservation : RunReservation}

theorem normalize_threadId [Platform] (h : request.normalize env = .ok input) :
    input.threadId = request.threadId := by
  simp only [ReserveRequest.normalize, ok_rules] at h
  obtain ⟨threadId, hthread, _, _, _, _, _, _, _, _, rfl⟩ := h
  unfold validateThreadId at hthread
  dsimp only at hthread
  split at hthread
  · exact (Except.ok.inj hthread).symm
  · cases hthread

variable [ErrorCodec]

theorem insertRun_created (hw : s.Wf) (ht : s.threads.get t = some thread) {user : Id}
    (huser : s.users.get user ≠ none) {active : Option RunId}
    (hactive : active = none ↔ ¬ s.board.Active t)
    (h : insertRun env request input user t thread active s = .ok (reservation, s')) :
    s'.Wf ∧ Step (.create env.runId t env.now) s.board s'.board := by
  simp only [insertRun, ok_rules, writeRun_eq_ok] at h
  obtain ⟨_, hnew, s₁, ⟨-, rfl⟩, -, rfl⟩ := h
  have hnew : s.runs.get env.runId = none := by simpa using hnew
  have hin := inserted_addMessages s env.now t thread env.runId (newRun env request input user t
    (if active.isSome then .queued else .pending)
    (if input.strategy = .cancelPrevious then active else none)) request.message rfl
  have hget := congrFun hin.runs env.runId
  rw [Function.update_self] at hget
  refine ⟨(keeps_appendEvent _ _ _ _ _).wf (hin.wf hw ht hnew huser), ?_⟩
  rw [board_appendEvent hget, hin.board hw, Function.update_idem]
  refine .create (board_eq_none.mpr hnew) (hin.appendEvent_fresh hw hnew rfl rfl rfl _ _) ?_ ?_
  · cases active with
    | none => exact .inl ⟨rfl, hactive.mp rfl⟩
    | some a => exact .inr ⟨rfl, by_contra fun hidle => by simpa using hactive.mpr hidle⟩
  · intro r' x' hr' hthread
    obtain ⟨old, hold, rfl⟩ := run_of_board hr'
    obtain ⟨row, hrow, hle⟩ := hw.thread r' old hold
    have hhome : old.threadRefId = t := hthread
    rw [hhome, ht] at hrow
    cases hrow
    exact (Nat.lt_succ_of_le hle).trans_eq hin.numberOf.symm

theorem reserveTransaction_created (hw : s.Wf)
    (h : reserveTransaction env request input s = .ok (reservation, s')) :
    Created env request.username input.threadId s s' := by
  simp only [reserveTransaction, ok_rules] at h
  obtain ⟨⟨user, row⟩, huser, ⟨t, thread, s₁⟩, hthread, h⟩ := h
  obtain ⟨hw₁, hboard, husers, ht, hhome⟩ := getOrCreateThread_ok hw hthread
  split at h
  · simp only [ok_rules] at h
    obtain ⟨_, _, -, rfl⟩ := h
    exact ⟨hw₁, .inl hboard⟩
  · simp only [ok_rules] at h
    obtain ⟨_, _, _, _, h⟩ := h
    have hknown : s₁.users.get user ≠ none := by
      rw [husers, (find_eq_some huser).1]
      simp
    obtain ⟨hw₂, hstep⟩ := insertRun_created hw₁ ht hknown
      (by rw [Option.map_eq_none_iff, activeRun_eq_none]) h
    refine ⟨hw₂, .inr ⟨t, hhome.imp_left ?_, hboard ▸ hstep⟩⟩
    rintro ⟨old, hold⟩
    exact ⟨user, row, old, huser, hold⟩

end SuperMew.Runs
