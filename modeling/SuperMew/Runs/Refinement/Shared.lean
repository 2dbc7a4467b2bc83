import SuperMew.Runs.View

/-! Writes in a row as one move of a run on the board. -/

namespace SuperMew.Runs

open Relational

variable {s s' : Store} {env : Env} {r : RunId} {run : Run} {x : RunState} {b : Board}

/-! ## Chains of writes -/

/-- The board `b`, on which run `r` has come to show `x` by the writes so far. -/
structure Shows (s : Store) (r : RunId) (b : Board) (x : RunState)
    (link : Id × Id × Option Id × Option Id) : Prop where
  wf : s.Wf
  board : s.board = Function.update b r (some x)
  run : ∃ run, s.runs.get r = some run ∧ run.link = link

variable {link : Id × Id × Option Id × Option Id}

namespace Shows

theorem start (hw : s.Wf) (hr : s.runs.get r = some run) :
    Shows s r s.board (s.view r run) run.link where
  wf := hw
  board := by rw [← Store.board_of_run hr, Function.update_eq_self]
  run := ⟨run, hr, rfl⟩

variable (h : Shows s r b x link)

include h

theorem view : ∃ run, s.runs.get r = some run ∧ run.link = link ∧ x = s.view r run := by
  obtain ⟨run, hr, hlink⟩ := h.run
  have hboard := Store.board_of_run hr
  rw [h.board, Function.update_self] at hboard
  exact ⟨run, hr, hlink, Option.some.inj hboard⟩

theorem view_eq (hr : s.runs.get r = some run) : s.view r run = x := by
  obtain ⟨run', hr', -, rfl⟩ := h.view
  rw [hr] at hr'
  rw [Option.some.inj hr']

theorem keep (hk : s.Keeps s') {y : RunState}
    (hb : s'.board = Function.update s.board r (some y)) : Shows s' r b y link where
  wf := hk.wf h.wf
  board := by rw [hb, h.board, Function.update_idem]
  run := by
    obtain ⟨run, hr, rfl⟩ := h.run
    have hlink := hk.links r
    rw [hr, Option.map_some] at hlink
    exact Option.map_eq_some_iff.mp hlink

theorem putRun (f : RunState → RunState) {old : Run}
    (hr : s.runs.get r = some old) (hlink : run.link = old.link)
    (hf : s.view r run = f (s.view r old)) : Shows (s.putRun r run) r b (f x) link := by
  rw [← h.view_eq hr, ← hf]
  exact h.keep (keeps_putRun hr hlink) (board_putRun s r run)

theorem setMessageStatus (status : MessageStatus) (clock : Time) :
    Shows (s.setMessageStatus link.2.2.2 status clock) r b (x.replying status) link := by
  obtain ⟨run, hr, rfl, rfl⟩ := h.view
  exact h.keep (keeps_setMessageStatus s _ _ _) (board_setMessageStatus h.wf hr rfl status clock)

theorem appendEvent (type : RunEventType) (data : Dict) (clock : Time) :
    Shows (s.appendEvent r type data clock) r b (x.record r type data clock) link := by
  obtain ⟨run, hr, rfl, rfl⟩ := h.view
  exact h.keep (keeps_appendEvent s r _ _ _) (board_appendEvent hr type data clock)

theorem completeMessage (hlink : run.link = link) (request : FinalizeRequest)
    (e : Ending) (now : Time) : Shows (s.completeMessage run request e now) r b
      { x with reply := ⟨e.content, e.messageStatus⟩ } link := by
  obtain ⟨row, hr, hrow, rfl⟩ := h.view
  obtain ⟨m, hm, hne⟩ := h.wf.reply r row hr
  obtain ⟨message, hmessage⟩ := Option.ne_none_iff_exists'.mp hne
  have hreply : run.assistantMessageId = some m := by
    rw [← hm]
    exact congrArg (fun l => l.2.2.2) (hlink.trans hrow.symm)
  have hset : s.completeMessage run request e now = s.putMessage m { message with
      content := e.content
      status := e.messageStatus
      ragTrace := request.ragTrace
      updatedAt := now } := by
    simp [Store.completeMessage, hreply, hmessage]
  rw [hset]
  exact h.keep (keeps_putMessage hmessage (by rfl)) (board_putMessage h.wf hr hm hmessage (by rfl))

theorem putCheckpoint {c : Id} {old new : RunCheckpoint}
    (hc : s.checkpoints.get c = some old) (hold : old.runId = r) (hnew : new.runId = r) :
    Shows (s.putCheckpoint c new) r b (x.setCheckpoint c new.entry) link := by
  obtain ⟨run, hr, -, rfl⟩ := h.view
  refine h.keep (keeps_putCheckpoint hc (hnew.trans hold.symm)) (board_putCheckpoint hr ?_ hnew)
  intro old' hc'
  rw [hc] at hc'
  exact Option.some.inj hc' ▸ hold

theorem addCheckpoint {row : RunCheckpoint} (hrow : row.runId = r) :
    Shows { s.putCheckpoint s.nextCheckpoint row with nextCheckpoint := s.nextCheckpoint + 1 } r b
      (x.setCheckpoint s.nextCheckpoint row.entry) link := by
  obtain ⟨run, hr, -, rfl⟩ := h.view
  refine h.keep (keeps_addCheckpoint (by simp [hrow, hr])) ?_
  refine board_putCheckpoint hr (fun old hold => ?_) hrow
  exact absurd (h.wf.checkpoints _ _ hold).1 (Nat.lt_irrefl _)

theorem putThread {t : Id} {old new : Thread} (ht : s.threads.get t = some old)
    (hlast : new.lastSequence = old.lastSequence) : Shows (s.putThread t new) r b x link where
  wf := (keeps_putThread ht hlast).wf h.wf
  board := h.board
  run := h.run

end Shows

theorem writeRun_eq_ok : s.writeRun r run = .ok s' ↔
    ¬ (run.status.active = true ∧ s.otherActive run.threadRefId r = true) ∧ s' = s.putRun r run := by
  simp only [Store.writeRun, ok_rules, exists_const, eq_comm (a := s')]

theorem transition_eq_ok {target : RunStatus} {run' : Run} : transition env run target = .ok run' ↔
    run.status.canTransition target = true ∧
      run' = { run with status := target, updatedAt := env.utcnow } := by
  simp only [transition, ok_rules, Bool.not_eq_false, exists_const, eq_comm (a := run')]

/-- A transaction keeps the tables well-formed, and the board shows nothing of it or a move
of one run. -/
def Moved (s s' : Store) (r : RunId) (deed : Deed) : Prop :=
  s'.Wf ∧ (s'.board = s.board ∨ Step (.does r deed) s.board s'.board)

theorem Moved.same (hw : s.Wf) {deed : Deed} : Moved s s r deed := ⟨hw, .inl rfl⟩

theorem Shows.moved {deed : Deed} {y : RunState}
    (h : Shows s' r s.board y link) (hr : s.runs.get r = some run)
    (hm : Move r deed (s.view r run) y) (hy : y.status.terminal = false) : Moved s s' r deed := by
  refine ⟨h.wf, .inr ?_⟩
  rw [h.board]
  exact .move (Store.board_of_run hr) hm hy

end SuperMew.Runs
