import SuperMew.Runs.Cancellation

/-! The journal of a run: its events are numbered from one without a gap, and the message and
the end of the run are its last two events. -/

namespace SuperMew.Runs

open List Relational RunState Runs.System

/-! ## Numbers -/

variable {type : RunEventType}

section Journal

variable {r : RunId} {deed : Deed} {x y : RunState}

def RunState.Numbered (x : RunState) : Prop :=
  x.journal.map RunEvent.sequence = List.range' 1 x.last

theorem RunState.Numbered.record (h : x.Numbered) (r : RunId) (type : RunEventType) (data : Dict)
    (clock : Time) : (x.record r type data clock).Numbered := by
  rw [RunState.Numbered, record_journal, record_last, map_append, h, List.range'_1_concat]
  simp [Nat.add_comm]

theorem Move.numbered (h : Move r deed x y) (hx : x.Numbered) : y.Numbered := by
  cases h with
  | start | suspend | accept | resume | mark | note => exact hx.record ..
  | renew => exact hx
  | pause | acceptStart => exact (hx.record ..).record ..
  | @finish _ token target code reply e _ _ _ _ _ =>
    cases husage : e.usage with
    | none =>
      simp only [closed, used, husage]
      exact (hx.record ..).record ..
    | some usage =>
      simp only [closed, used, husage]
      exact ((hx.record ..).record ..).record ..

theorem fresh_numbered (h : x.Fresh r) : x.Numbered := by
  obtain ⟨data, clock, hjournal⟩ := h.journal
  simp [RunState.Numbered, hjournal, h.last]

theorem RunState.Numbered.sequences (h : x.Numbered) :
    x.journal.map RunEvent.sequence = List.range' 1 x.journal.length := by
  have hlength : x.journal.length = x.last := by
    rw [← length_map RunEvent.sequence, h, length_range']
  rw [hlength]
  exact h

/-! ## Growth -/

theorem closed_grows {target : RunStatus} {reply : Reply} {e : Closing} :
    x.journal <+: (x.closed r target reply e).journal := by
  have hused : x.journal <+: ({ x with status := target, lease := none, reply := reply }.used r e.usage
      e.clock).journal := by
    unfold used
    split
    · exact prefix_append ..
    · exact prefix_rfl
  exact (hused.trans (prefix_append ..)).trans (prefix_append ..)

theorem Move.grows (h : Move r deed x y) : x.journal <+: y.journal := by
  cases h with
  | renew => exact prefix_rfl
  | finish => exact closed_grows
  | pause | acceptStart => exact (prefix_append ..).trans (prefix_append ..)
  | _ => exact prefix_append ..

theorem Step.grows {action : Action} {b b' : Board} (hs : Step action b b') (hr : b r = some x) :
    ∃ y, b' r = some y ∧ x.journal <+: y.journal := by
  rcases hs.one hr with h | ⟨_, y, -, hm, h⟩ | ⟨-, h⟩
  · exact ⟨x, h, prefix_rfl⟩
  · exact ⟨y, h, hm.grows⟩
  · exact ⟨_, h, prefix_rfl⟩

/-! ## The end of a journal -/

/-- An event that does not belong to the end of a run. -/
def RunEventType.Open (type : RunEventType) : Prop :=
  type ≠ .messageCompleted ∧ type.terminal = false

/-- The last two events are the message of the run and its end, and no other event is one of
these. -/
def RunState.Closed (x : RunState) : Prop :=
  ∃ before m e, x.journal = before ++ [m, e] ∧ (∀ e' ∈ before, e'.type.Open) ∧
    m.type = .messageCompleted ∧ e.type = terminalType x.status ∧
    m.data.get? "content" = some (.str x.reply.content) ∧
    m.data.get? "status" = some (.str x.reply.status.value)

structure RunState.Journaled (x : RunState) : Prop where
  numbered : x.Numbered
  going : x.status.terminal = false → ∀ e ∈ x.journal, e.type.Open
  closed : x.status.terminal = true → x.Closed

/-- The events of a run that goes on are open, with one more of that kind. -/
theorem open_record {data : Dict} {clock : Time} (h : ∀ e ∈ x.journal, e.type.Open)
    (htype : type.Open) : ∀ e ∈ (x.record r type data clock).journal, e.type.Open := by
  intro e he
  rw [record_journal, mem_append, mem_singleton] at he
  rcases he with he | rfl
  · exact h e he
  · exact htype

theorem Move.going (h : Move r deed x y) (hnote : ∀ w f type, deed = .note w f type → type.Open)
    (hx : ∀ e ∈ x.journal, e.type.Open) (hy : y.status.terminal = false) :
    ∀ e ∈ y.journal, e.type.Open := by
  cases h with
  | start | suspend | accept | resume | mark => exact open_record hx ⟨by decide, rfl⟩
  | renew => exact hx
  | pause | acceptStart => exact open_record (open_record hx ⟨by decide, rfl⟩) ⟨by decide, rfl⟩
  | note => exact open_record hx (hnote _ _ _ rfl)
  | finish _ htarget =>
    rw [closed_status, endStatus_terminal htarget] at hy
    cases hy

theorem Move.closes (h : Move r deed x y) (hx : ∀ e ∈ x.journal, e.type.Open)
    (hy : y.status.terminal = true) : y.Closed := by
  cases h with
  | @finish _ token target code reply e _ _ _ _ hshows =>
    refine ⟨_, _, _, append_assoc .., ?_, rfl, ?_, ?_, ?_⟩
    · cases husage : e.usage with
      | none => exact hx
      | some usage => exact open_record hx ⟨by decide, rfl⟩
    · rw [closed_status]
    · rw [closed_reply]
      exact hshows.content
    · rw [closed_reply]
      exact hshows.status
  | renew _ _ hstatus | note _ _ hstatus =>
    rcases hstatus with hs | hs <;> simp [hs, RunStatus.terminal] at hy
  | _ => simp [RunStatus.terminal] at hy

/-- A move that appends no closing event of its own keeps the journal. -/
theorem Move.journaled (h : Move r deed x y)
    (hnote : ∀ w f type, deed = .note w f type → type.Open) (hx : x.Journaled) : y.Journaled where
  numbered := h.numbered hx.numbered
  going hy := h.going hnote (hx.going h.not_terminal) hy
  closed hy := h.closes (hx.going h.not_terminal) hy

theorem fresh_journaled (h : x.Fresh r) (hstatus : x.status = .pending ∨ x.status = .queued) :
    x.Journaled := by
  obtain ⟨data, clock, hjournal⟩ := h.journal
  refine ⟨fresh_numbered h, fun _ e he => ?_, fun hterm => ?_⟩
  · rw [hjournal, mem_singleton] at he
    exact he ▸ ⟨by simp, rfl⟩
  · rcases hstatus with hs | hs <;> simp [hs, RunStatus.terminal] at hterm

theorem promoted_journaled (hq : x.status = .queued) (hx : x.Journaled) :
    ({ x with status := .pending }.replying .streaming).Journaled where
  numbered := hx.numbered
  going _ := hx.going (by rw [hq]; rfl)
  closed hterm := by simp [RunStatus.terminal] at hterm

end Journal

/-! ## Reachable journals -/

/-- The owner of a run appends no event that belongs to its end. -/
def Call.AppendsOpen (call : Call) : Prop :=
  ∀ r type data worker token, call.op = .append r type data worker token → type.Open

variable {calls : List Call}

section Reachable

variable [ErrorCodec]

theorem does_note {env : Env} {s : System} {op : Op} {r : RunId} {w : String} {f : ℕ}
    (h : Call.Does env s op r (.note w f type)) : ∃ data, op = .append r type data w f := by
  cases h with
  | append r type data worker token => exact ⟨data, rfl⟩
  | consumeResume q hq => cases hq
  | requestCancel _ _ _ hdeed | writeCancel _ _ hdeed =>
    rcases PendingCancel.deed_eq hdeed with heq | heq <;> cases heq

variable [Platform]

/-- The notes on the board are of the types that the calls append. -/
theorem allowed_notes {types : RunEventType → Prop} {s : System}
    (hok : ∀ call ∈ calls, ∀ r type data w f, call.op = .append r type data w f → types type) :
    Machine.Along exec (Allowed fun _ deed _ => ∀ w f type, deed = .note w f type → types type) s
      calls := by
  refine Machine.along_of_mem fun call hcall s r deed x hdoes _ w f type hdeed => ?_
  obtain ⟨data, hop⟩ := does_note (hdeed ▸ hdoes)
  exact hok call hcall r type data w f hop

theorem after_journaled {users : Table Id User} (hok : ∀ call ∈ calls, call.AppendsOpen) :
    ∀ r x, (after users calls).store.board r = some x → x.Journaled :=
  after_forall (P := fun _ x => x.Journaled) (fun _ _ hx hstatus => fresh_journaled hx hstatus)
    (fun _ _ _ _ hm hnote hx => hm.journaled hnote hx)
    (fun _ _ hq hx => promoted_journaled hq hx) (allowed_notes hok)

omit [ErrorCodec] [Platform] in
theorem terminalType_terminal {status : RunStatus} : (terminalType status).terminal = true := by
  cases status <;> rfl

/-- In every reachable system the events of a run are numbered from one without a gap. The run
has ended exactly if one of them is terminal: that one is the last, fits the status and comes
right after the only `message.completed`, which shows the reply with the text that is cleaned
when it is stored. An ended run keeps its status. -/
theorem journal_of_run (users : Table Id User) (calls : List Call)
    (hok : ∀ call ∈ calls, call.AppendsOpen) {r : RunId} {run : Run}
    (hr : (after users calls).store.runs.get r = some run) :
    ((after users calls).store.eventsOf r).map RunEvent.sequence =
        List.range' 1 run.lastEventSequence ∧
      (run.status.terminal = true ↔
        ∃ e ∈ (after users calls).store.eventsOf r, e.type.terminal = true) ∧
      (run.status.terminal = true → ∃ before m e message text,
        (after users calls).store.eventsOf r = before ++ [m, e] ∧
        (∀ e' ∈ before, e'.type ≠ .messageCompleted ∧ e'.type.terminal = false) ∧
        m.type = .messageCompleted ∧ e.type = terminalType run.status ∧
        run.assistantMessageId.bind (after users calls).store.messages.get = some message ∧
        m.data.get? "content" = some (.str text) ∧ message.stored.content = cleanText text ∧
        m.data.get? "status" = some (.str message.status.value)) ∧
      (run.status.terminal = true → ∀ later, ∃ run',
        (after users (calls ++ later)).store.runs.get r = some run' ∧
        run'.status = run.status) := by
  have hw := after_wf users calls
  have hx := after_journaled hok r _ (Store.board_of_run hr)
  refine ⟨hx.numbered, ⟨fun hterm => ?_, ?_⟩, fun hterm => ?_, fun hterm later => ?_⟩
  · obtain ⟨before, m, e, hjournal, -, -, htype, -⟩ := hx.closed hterm
    refine ⟨e, ?_, htype ▸ terminalType_terminal⟩
    rw [show (after users calls).store.eventsOf r = before ++ [m, e] from hjournal]
    simp
  · rintro ⟨e, he, hterm⟩
    by_contra hgoing
    rw [Bool.not_eq_true] at hgoing
    have hopen := hx.going hgoing e he
    rw [hopen.2] at hterm
    cases hterm
  · obtain ⟨before, m, e, hjournal, hbefore, hm, htype, hcontent, hstatus⟩ := hx.closed hterm
    obtain ⟨a, ha, hne⟩ := hw.reply r run hr
    obtain ⟨message, hmessage⟩ := Option.ne_none_iff_exists'.mp hne
    have hreply : (after users calls).store.replyOf run = message.reply := by
      simp [Store.replyOf, ha, hmessage]
    refine ⟨before, m, e, message, message.content, hjournal, hbefore, hm, htype,
      by simp [ha, hmessage], ?_, rfl, ?_⟩
    · rw [hcontent]
      exact congrArg (fun reply => some (Json.str reply.content)) hreply
    · rw [hstatus]
      exact congrArg (fun reply => some (Json.str reply.status.value)) hreply
  · have hlater := run_ended hw (Store.board_of_run hr) hterm later
    rw [← after_append] at hlater
    obtain ⟨run', hr', hview⟩ := Store.run_of_board hlater
    exact ⟨run', hr', (congrArg status hview).symm⟩

end Reachable

namespace Sample

def note (now : Time) (r : RunId) (type : RunEventType) : Call :=
  ⟨env now r, .append r type [] "w" 3⟩

def answered : List Call :=
  [ask 1 "a", take 2 "a" "w", note 3 "a" .messageDelta, finish 4 "a" (some 3) .succeeded]

end Sample

open PlainPlatform Sample in
/-- The owner appends `run.completed` itself, and the run goes on. -/
theorem terminal_event_of_running_run :
    ((after users [ask 1 "a", take 2 "a" "w", note 3 "a" .runCompleted]).store.runs.get
      "a").map Run.status = some .running ∧
    ((after users [ask 1 "a", take 2 "a" "w", note 3 "a" .runCompleted]).store.eventsOf
      "a").map RunEvent.type = [.runCreated, .runStarted, .runCompleted] := by
  decide +kernel

open PlainPlatform Sample in
theorem journal_of_answered :
    ∃ before m e, (after users answered).store.eventsOf "a" = before ++ [m, e] ∧
      m.type = .messageCompleted ∧ e.type = .runCompleted := by
  have hstatus : ((after users answered).store.runs.get "a").map Run.status =
      some .succeeded := by decide +kernel
  obtain ⟨run, hr, hsucceeded⟩ := Option.map_eq_some_iff.mp hstatus
  have hok : ∀ call ∈ answered, call.AppendsOpen := by
    intro call hcall r type data worker token hop
    simp only [answered, List.mem_cons, List.not_mem_nil, or_false] at hcall
    rcases hcall with rfl | rfl | rfl | rfl <;> cases hop
    exact ⟨by decide, rfl⟩
  obtain ⟨before, m, e, -, -, hjournal, -, hm, he, -⟩ :=
    (journal_of_run users answered hok hr).2.2.1 (by rw [hsucceeded]; rfl)
  exact ⟨before, m, e, hjournal, hm, by rw [he, hsucceeded]; rfl⟩

end SuperMew.Runs
