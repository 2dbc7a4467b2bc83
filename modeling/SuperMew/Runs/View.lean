import SuperMew.Runs.Lanes
import SuperMew.Runs.Checkpoints

/-! How the tables show on the board, and what each write does to it. -/

namespace SuperMew.Runs

open Relational Store Table Function

def RunCheckpoint.entry (row : RunCheckpoint) : CheckpointState :=
  ⟨row.checkpointId, row.hitlToken, row.consumedAt.isSome, row.resumeIdempotencyKey,
    row.resumeAnswer⟩

def Message.reply (row : Message) : Reply := ⟨row.content, row.status⟩

namespace Store

variable (s : Store)

def eventsOf (r : RunId) : List RunEvent := s.events.filter fun e => e.runId == r

def checkpointsOf (r : RunId) : Id → Option CheckpointState := fun c =>
  ((s.checkpoints.get c).filter fun row => row.runId == r).map RunCheckpoint.entry

def numberOf (run : Run) : ℕ := ((run.userMessageId.bind s.messages.get).map Message.sequence).getD 0

def replyOf (run : Run) : Reply :=
  ((run.assistantMessageId.bind s.messages.get).map Message.reply).getD ⟨"", .queued⟩

def view (r : RunId) (run : Run) : RunState where
  thread := run.threadRefId
  number := s.numberOf run
  created := run.createdAt
  status := run.status
  owner := run.ownerWorkerId
  lease := run.leaseExpiresAt
  token := run.fencingToken
  reply := s.replyOf run
  last := run.lastEventSequence
  journal := s.eventsOf r
  checkpoints := s.checkpointsOf r

def board : Board := fun r => (s.runs.get r).map (s.view r)

end Store

variable {s s' : Store} {r : RunId} {run : Run} {x : RunState}

theorem Store.board_of_run (h : s.runs.get r = some run) : s.board r = some (s.view r run) := by
  simp [board, h]

theorem Store.run_of_board (h : s.board r = some x) :
    ∃ run, s.runs.get r = some run ∧ x = s.view r run := by
  obtain ⟨run, hrun, rfl⟩ := Option.map_eq_some_iff.mp h
  exact ⟨run, hrun, rfl⟩

/-- A run shows the same where its number, its reply, its events and its checkpoints do. -/
theorem Store.view_congr (hnumber : s'.numberOf run = s.numberOf run)
    (hreply : s'.replyOf run = s.replyOf run) (hevents : s'.eventsOf r = s.eventsOf r)
    (hcheckpoints : s'.checkpointsOf r = s.checkpointsOf r) : s'.view r run = s.view r run := by
  simp [view, hnumber, hreply, hevents, hcheckpoints]

theorem Store.board_eq_none : s.board r = none ↔ s.runs.get r = none := by
  simp [board]

theorem Store.board_eq_update (hr : s'.runs.get r = some run) (hx : s'.view r run = x)
    (hruns : ∀ r', r' ≠ r → s'.runs.get r' = s.runs.get r')
    (hview : ∀ r' run', r' ≠ r → s.runs.get r' = some run' → s'.view r' run' = s.view r' run') :
    s'.board = update s.board r (some x) := by
  funext r'
  by_cases h : r' = r
  · rw [h, update_self, board_of_run hr, hx]
  · rw [update_of_ne h, board, board, hruns r' h]
    exact Option.map_congr fun run' hr' => hview r' run' h hr'

/-- The columns that connect a run with the other tables. -/
def Run.link (run : Run) : Id × Id × Option Id × Option Id :=
  (run.threadRefId, run.userId, run.userMessageId, run.assistantMessageId)

/-! ## Well-formed tables -/

/-- Foreign keys lead to rows, each run has two messages, no two runs share a reply, and
generated keys are below their sequences. -/
structure Store.Wf (s : Store) : Prop where
  thread : ∀ r run, s.runs.get r = some run → ∃ thread,
    s.threads.get run.threadRefId = some thread ∧ s.numberOf run ≤ thread.lastSequence
  user : ∀ r run, s.runs.get r = some run → s.users.get run.userId ≠ none
  question : ∀ r run, s.runs.get r = some run →
    ∃ m, run.userMessageId = some m ∧ s.messages.get m ≠ none
  reply : ∀ r run, s.runs.get r = some run →
    ∃ m, run.assistantMessageId = some m ∧ s.messages.get m ≠ none
  own : ∀ r r' run run', s.runs.get r = some run → s.runs.get r' = some run' →
    run.assistantMessageId = run'.assistantMessageId → r = r'
  messages : ∀ m, s.nextMessage ≤ m → s.messages.get m = none
  threads : ∀ t, s.nextThread ≤ t → s.threads.get t = none
  checkpoints : ∀ c row, s.checkpoints.get c = some row →
    c < s.nextCheckpoint ∧ s.runs.get row.runId ≠ none
  events : ∀ e ∈ s.events, s.runs.get e.runId ≠ none

theorem Store.wf_initial (users : Table Id User) : (initial users).Wf := by
  constructor <;> simp [initial]

/-- The rows of `s'` stand where those of `s` do, apart from new checkpoints and events. -/
structure Store.Keeps (s s' : Store) : Prop where
  users : s'.users = s.users
  links : ∀ r, (s'.runs.get r).map Run.link = (s.runs.get r).map Run.link
  sequences : ∀ m, (s'.messages.get m).map Message.sequence = (s.messages.get m).map Message.sequence
  lastSequences : ∀ t,
    (s'.threads.get t).map Thread.lastSequence = (s.threads.get t).map Thread.lastSequence
  nextMessage : s'.nextMessage = s.nextMessage
  nextThread : s'.nextThread = s.nextThread
  nextCheckpoint : s.nextCheckpoint ≤ s'.nextCheckpoint
  checkpoints : ∀ c row, s'.checkpoints.get c = some row →
    (∃ old, s.checkpoints.get c = some old ∧ old.runId = row.runId) ∨
      c < s'.nextCheckpoint ∧ s.runs.get row.runId ≠ none
  events : ∀ e ∈ s'.events, e ∈ s.events ∨ s.runs.get e.runId ≠ none

namespace Store.Keeps

theorem refl (s : Store) : s.Keeps s where
  users := rfl
  links _ := rfl
  sequences _ := rfl
  lastSequences _ := rfl
  nextMessage := rfl
  nextThread := rfl
  nextCheckpoint := Nat.le_refl _
  checkpoints _ row h := .inl ⟨row, h, rfl⟩
  events _ h := .inl h

variable (h : s.Keeps s')

include h

theorem run_ne_none : s'.runs.get r ≠ none ↔ s.runs.get r ≠ none := by
  have hlink := h.links r
  cases hs : s.runs.get r <;> cases hs' : s'.runs.get r <;> simp [hs, hs'] at hlink ⊢

theorem old_run (hr : s'.runs.get r = some run) :
    ∃ old, s.runs.get r = some old ∧ old.link = run.link := by
  have hlink := h.links r
  rw [hr] at hlink
  obtain ⟨old, hold, heq⟩ := Option.map_eq_some_iff.mp hlink.symm
  exact ⟨old, hold, heq⟩

theorem message_ne_none {m : Id} : s'.messages.get m ≠ none ↔ s.messages.get m ≠ none := by
  have hseq := h.sequences m
  cases hs : s.messages.get m <;> cases hs' : s'.messages.get m <;> simp [hs, hs'] at hseq ⊢

theorem numberOf {old : Run} (hlink : old.link = run.link) : s'.numberOf run = s.numberOf old := by
  simp only [Run.link, Prod.mk.injEq] at hlink
  simp only [Store.numberOf, hlink.2.2.1]
  cases run.userMessageId with
  | none => rfl
  | some m =>
    simp only [Option.bind_some]
    rw [h.sequences m]

theorem wf (hw : s.Wf) : s'.Wf where
  thread r run hr := by
    obtain ⟨old, hold, hlink⟩ := h.old_run hr
    obtain ⟨thread, hthread, hle⟩ := hw.thread r old hold
    have hthread' : old.threadRefId = run.threadRefId := congrArg Prod.fst hlink
    have hlast := h.lastSequences run.threadRefId
    rw [← hthread', hthread, Option.map_some] at hlast
    obtain ⟨thread', hget, heq⟩ := Option.map_eq_some_iff.mp hlast
    exact ⟨thread', hthread' ▸ hget, by rw [h.numberOf hlink, heq]; exact hle⟩
  user r run hr := by
    obtain ⟨old, hold, hlink⟩ := h.old_run hr
    have huser : old.userId = run.userId := congrArg (fun l => l.2.1) hlink
    rw [h.users, ← huser]
    exact hw.user r old hold
  question r run hr := by
    obtain ⟨old, hold, hlink⟩ := h.old_run hr
    obtain ⟨m, hm, hget⟩ := hw.question r old hold
    have hmessage : old.userMessageId = run.userMessageId := congrArg (fun l => l.2.2.1) hlink
    exact ⟨m, hmessage ▸ hm, h.message_ne_none.mpr hget⟩
  reply r run hr := by
    obtain ⟨old, hold, hlink⟩ := h.old_run hr
    obtain ⟨m, hm, hget⟩ := hw.reply r old hold
    have hmessage : old.assistantMessageId = run.assistantMessageId :=
      congrArg (fun l => l.2.2.2) hlink
    exact ⟨m, hmessage ▸ hm, h.message_ne_none.mpr hget⟩
  own r r' run run' hr hr' heq := by
    obtain ⟨old, hold, hlink⟩ := h.old_run hr
    obtain ⟨old', hold', hlink'⟩ := h.old_run hr'
    simp only [Run.link, Prod.mk.injEq] at hlink hlink'
    exact hw.own r r' old old' hold hold' (by rw [hlink.2.2.2, hlink'.2.2.2, heq])
  messages m hm := by
    by_contra hne
    exact h.message_ne_none.mp hne (hw.messages m (h.nextMessage ▸ hm))
  threads t ht := by
    have hlast := h.lastSequences t
    rw [hw.threads t (h.nextThread ▸ ht)] at hlast
    simpa using hlast
  checkpoints c row hc := by
    obtain ⟨old, hold, hrun⟩ | ⟨hlt, hrun⟩ := h.checkpoints c row hc
    · obtain ⟨hlt, hne⟩ := hw.checkpoints c old hold
      exact ⟨hlt.trans_le h.nextCheckpoint, h.run_ne_none.mpr (hrun ▸ hne)⟩
    · exact ⟨hlt, h.run_ne_none.mpr hrun⟩
  events e he := by
    rcases h.events e he with he | he
    · exact h.run_ne_none.mpr (hw.events e he)
    · exact h.run_ne_none.mpr he

end Store.Keeps

/-! ## Writes -/

theorem keeps_putRun {old : Run} (hr : s.runs.get r = some old) (hlink : run.link = old.link) :
    s.Keeps (s.putRun r run) :=
  { Store.Keeps.refl s with links := map_get_put hr hlink }

theorem runs_putRun (s : Store) (r : RunId) (run : Run) :
    (s.putRun r run).runs.get r = some run := by
  simp [putRun, get_put]

theorem board_putRun (s : Store) (r : RunId) (run : Run) :
    (s.putRun r run).board = update s.board r (some (s.view r run)) :=
  board_eq_update (runs_putRun s r run) rfl
    (fun _ h => by simp [putRun, get_put, h]) fun _ _ _ _ => rfl

theorem keeps_putThread {t : Id} {old new : Thread} (ht : s.threads.get t = some old)
    (hlast : new.lastSequence = old.lastSequence) : s.Keeps (s.putThread t new) :=
  { Store.Keeps.refl s with lastSequences := map_get_put ht hlast }

theorem keeps_putMessage {m : Id} {old new : Message} (hm : s.messages.get m = some old)
    (hseq : new.sequence = old.sequence) : s.Keeps (s.putMessage m new) :=
  { Store.Keeps.refl s with sequences := map_get_put hm hseq }

theorem board_putMessage (hw : s.Wf) (hr : s.runs.get r = some run) {m : Id} {old new : Message}
    (hreply : run.assistantMessageId = some m) (hm : s.messages.get m = some old)
    (hseq : new.sequence = old.sequence) :
    (s.putMessage m new).board =
      update s.board r (some { s.view r run with reply := new.reply }) := by
  have hnumber : ∀ run' : Run, (s.putMessage m new).numberOf run' = s.numberOf run' :=
    fun run' => (keeps_putMessage hm hseq).numberOf rfl
  have hrun : (s.putMessage m new).runs.get r = some run := hr
  refine board_eq_update hrun ?_ (fun _ _ => rfl) ?_
  · have hshown : (s.putMessage m new).replyOf run = new.reply := by
      simp [replyOf, putMessage, hreply, get_put]
    simp only [view, hnumber, hshown]
    rfl
  · intro r' run' h hr'
    obtain ⟨m', hreply', -⟩ := hw.reply r' run' hr'
    have hne : m' ≠ m := by
      rintro rfl
      exact h (hw.own r' r run' run hr' hr (by rw [hreply, hreply']))
    have hshown : (s.putMessage m new).replyOf run' = s.replyOf run' := by
      simp [replyOf, putMessage, hreply', get_put, hne]
    exact view_congr (hnumber run') hshown rfl rfl

theorem keeps_setMessageStatus (s : Store) (message : Option Id) (status : MessageStatus)
    (clock : Time) : s.Keeps (s.setMessageStatus message status clock) := by
  unfold setMessageStatus
  split
  · rename_i m row hm
    obtain ⟨m', -, hget⟩ := Option.bind_eq_some_iff.mp hm
    obtain ⟨row', hrow, heq⟩ := Option.map_eq_some_iff.mp hget
    cases heq
    exact keeps_putMessage hrow rfl
  · exact .refl s

theorem board_setMessageStatus (hw : s.Wf) (hr : s.runs.get r = some run) {message : Option Id}
    (hreply : run.assistantMessageId = message) (status : MessageStatus) (clock : Time) :
    (s.setMessageStatus message status clock).board =
      update s.board r (some ((s.view r run).replying status)) := by
  subst hreply
  obtain ⟨m, hm, hne⟩ := hw.reply r run hr
  obtain ⟨row, hrow⟩ := Option.ne_none_iff_exists'.mp hne
  have hset : s.setMessageStatus run.assistantMessageId status clock =
      s.putMessage m { row with status := status, updatedAt := clock } := by
    simp [setMessageStatus, hm, hrow]
  have hreply : s.replyOf run = row.reply := by simp [replyOf, hm, hrow]
  have hput : (s.putMessage m { row with status := status, updatedAt := clock }).board = _ :=
    board_putMessage hw hr hm hrow rfl
  rw [hset, hput]
  simp only [RunState.replying, view, hreply]
  rfl

theorem keeps_appendEvent (s : Store) (r : RunId) (type : RunEventType) (data : Dict)
    (clock : Time) : s.Keeps (s.appendEvent r type data clock) := by
  unfold appendEvent
  split
  · exact .refl s
  · rename_i run hr
    have h : s.Keeps (s.putRun r { run with lastEventSequence := run.lastEventSequence + 1 }) :=
      keeps_putRun hr rfl
    refine { h with events := fun e he => ?_ }
    rw [List.mem_append, List.mem_singleton] at he
    rcases he with he | rfl
    · exact .inl he
    · exact .inr (by simp [Run.nextEvent, hr])

theorem runs_appendEvent (hr : s.runs.get r = some run) (type : RunEventType) (data : Dict)
    (clock : Time) : (s.appendEvent r type data clock).runs.get r =
      some { run with lastEventSequence := run.lastEventSequence + 1 } := by
  simp [appendEvent, hr, putRun, get_put]

theorem board_appendEvent (hr : s.runs.get r = some run) (type : RunEventType) (data : Dict)
    (clock : Time) : (s.appendEvent r type data clock).board =
      update s.board r (some ((s.view r run).record r type data clock)) := by
  have hevents : ∀ r', r' ≠ r → (s.appendEvent r type data clock).eventsOf r' = s.eventsOf r' := by
    intro r' h
    have hne : r ≠ r' := fun heq => h heq.symm
    simp [appendEvent, hr, eventsOf, Run.nextEvent, hne]
  refine board_eq_update (runs_appendEvent hr type data clock) ?_ (fun r' h => ?_)
    fun r' run' h hr' => ?_
  · simp only [appendEvent, hr, view, RunState.record, eventsOf, Run.nextEvent,
      List.filter_append, List.filter_cons, beq_self_eq_true, if_true, List.filter_nil]
    rfl
  · simp [appendEvent, hr, putRun, get_put, h]
  · refine view_congr ?_ ?_ (hevents r' h) ?_ <;> simp only [appendEvent, hr] <;> rfl

theorem keeps_putCheckpoint {c : Id} {old new : RunCheckpoint}
    (hc : s.checkpoints.get c = some old) (hrun : new.runId = old.runId) :
    s.Keeps (s.putCheckpoint c new) := by
  refine { Store.Keeps.refl s with checkpoints := fun c' row h => ?_ }
  rw [putCheckpoint, get_put] at h
  obtain ⟨rfl, rfl⟩ | ⟨-, h⟩ := update_eq_some.mp h
  · exact .inl ⟨old, hc, hrun.symm⟩
  · exact .inl ⟨row, h, rfl⟩

theorem board_putCheckpoint {c : Id} {new : RunCheckpoint} (hr : s.runs.get r = some run)
    (hold : ∀ old, s.checkpoints.get c = some old → old.runId = r) (hrun : new.runId = r) :
    (s.putCheckpoint c new).board =
      update s.board r (some ((s.view r run).setCheckpoint c new.entry)) := by
  have hown : (s.putCheckpoint c new).checkpointsOf r =
      update (s.checkpointsOf r) c (some new.entry) := by
    funext c'
    by_cases hc : c' = c
    · subst hc
      simp [checkpointsOf, putCheckpoint, get_put, hrun]
    · simp [checkpointsOf, putCheckpoint, get_put, hc]
  have hother : ∀ r', r' ≠ r → (s.putCheckpoint c new).checkpointsOf r' = s.checkpointsOf r' := by
    intro r' h
    funext c'
    by_cases hc : c' = c
    · subst hc
      have hne : ¬ new.runId = r' := fun heq => h (heq.symm.trans hrun)
      cases hget : s.checkpoints.get c' with
      | none => simp [checkpointsOf, putCheckpoint, get_put, hget, hne]
      | some old =>
        have hne' : ¬ old.runId = r' := fun heq => h (heq.symm.trans (hold old hget))
        simp [checkpointsOf, putCheckpoint, get_put, hget, Option.filter, hne, hne']
    · simp [checkpointsOf, putCheckpoint, get_put, hc]
  have hkept : (s.putCheckpoint c new).runs.get r = some run := hr
  refine board_eq_update hkept ?_ (fun _ _ => rfl)
    fun r' _ h _ => view_congr rfl rfl rfl (hother r' h)
  simp only [view, RunState.setCheckpoint, hown]
  rfl

theorem keeps_addCheckpoint {row : RunCheckpoint} (hr : s.runs.get row.runId ≠ none) :
    s.Keeps { s.putCheckpoint s.nextCheckpoint row with nextCheckpoint := s.nextCheckpoint + 1 } := by
  refine { Store.Keeps.refl s with
    nextCheckpoint := Nat.le_succ _
    checkpoints := fun c' row' h => ?_ }
  rw [putCheckpoint, get_put] at h
  obtain ⟨rfl, rfl⟩ | ⟨-, h⟩ := update_eq_some.mp h
  · exact .inr ⟨Nat.lt_succ_self _, hr⟩
  · exact .inl ⟨row', h, rfl⟩

theorem checkpointsOf_eq_some {c : Id} {state : CheckpointState} :
    s.checkpointsOf r c = some state ↔
      ∃ row, s.checkpoints.get c = some row ∧ row.runId = r ∧ row.entry = state := by
  simp only [checkpointsOf, Option.map_eq_some_iff, Option.filter_eq_some_iff, beq_iff_eq,
    and_assoc]

end SuperMew.Runs
