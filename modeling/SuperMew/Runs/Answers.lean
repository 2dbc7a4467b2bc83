import SuperMew.Runs.History

/-! Answers to checkpoints. A checkpoint takes one answer, the journal shows it once, and
a repetition of the request changes nothing. -/

namespace SuperMew.Runs

open Relational Runs.System Function

/-! ## Checkpoints of one run -/

/-- How often a journal shows that the checkpoint of this name was answered. -/
def resumptions (journal : List RunEvent) (name : String) : ℕ :=
  journal.countP fun e => e.type == .hitlResumed && e.data.get? "checkpoint_id" == some (.str name)

section Board

variable {r : RunId} {deed : Deed} {x y : RunState}
  {data : Dict} {clock : Time} {state : CheckpointState}

/-- Only `hitl.resumed` counts. -/
theorem resumptions_record {type : RunEventType} (htype : type ≠ .hitlResumed) (name : String) :
    resumptions (x.record r type data clock).journal name = resumptions x.journal name := by
  simp [resumptions, htype]

theorem resumptions_resumed {own : String}
    (hdata : data.get? "checkpoint_id" = some (.str own)) (name : String) :
    resumptions (x.record r .hitlResumed data clock).journal name =
      resumptions x.journal name + if name = own then 1 else 0 := by
  by_cases h : name = own
  · simp [resumptions, hdata, h]
  · simp [resumptions, hdata, h, Ne.symm h]

structure RunState.Answered (x : RunState) : Prop where
  /-- A checkpoint without answer is the last one, and the run does not go on. -/
  waiting : ∀ k state, x.checkpoints k = some state → state.consumed = false → x.Latest k ∧
    (x.status = .waitingInput ∨ x.status = .cancelling ∨ x.status.terminal = true) ∧
    state.key = none ∧ state.answer = none
  names : ∀ k k' state state', x.checkpoints k = some state → x.checkpoints k' = some state' →
    state.name = state'.name → k = k'
  once : ∀ k state, x.checkpoints k = some state →
    resumptions x.journal state.name = if state.consumed then 1 else 0
  known : ∀ name, (∀ k state, x.checkpoints k = some state → state.name ≠ name) →
    resumptions x.journal name = 0
  /-- A run that waits after `hitl.required` waits for an answer. -/
  paused : x.status = .waitingInput →
    (∃ before e, x.journal = before ++ [e] ∧ e.type = .hitlRequired) →
    ∃ k state, x.checkpoints k = some state ∧ state.consumed = false

/-- Nothing is asked and nothing is answered. -/
theorem RunState.Answered.keep (h : x.Answered) (hcheckpoints : y.checkpoints = x.checkpoints)
    (hjournal : ∀ name, resumptions y.journal name = resumptions x.journal name)
    (hstatus : x.status = .waitingInput ∨ x.status = .cancelling ∨ x.status.terminal = true →
      y.status = .waitingInput ∨ y.status = .cancelling ∨ y.status.terminal = true)
    (hpaused : y.status = .waitingInput →
      (∃ before e, y.journal = before ++ [e] ∧ e.type = .hitlRequired) →
      ∃ k state, y.checkpoints k = some state ∧ state.consumed = false) : y.Answered where
  waiting k state hk hopen := by
    rw [hcheckpoints] at hk
    obtain ⟨hlatest, hwait, hnone⟩ := h.waiting k state hk hopen
    exact ⟨fun k' state' hk' => hlatest k' state' (hcheckpoints ▸ hk'), hstatus hwait, hnone⟩
  names k k' state state' hk hk' := h.names k k' state state' (hcheckpoints ▸ hk) (hcheckpoints ▸ hk')
  once k state hk := by
    rw [hjournal]
    exact h.once k state (hcheckpoints ▸ hk)
  known name hname := by
    rw [hjournal]
    exact h.known name (hcheckpoints ▸ hname)
  paused := hpaused

theorem last_record {type : RunEventType} (htype : type ≠ .hitlRequired) :
    ¬ ∃ before e, (x.record r type data clock).journal = before ++ [e] ∧ e.type = .hitlRequired := by
  rintro ⟨before, e, hjournal, he⟩
  rw [RunState.record_journal] at hjournal
  obtain ⟨-, heq⟩ := List.append_inj' hjournal rfl
  obtain rfl := List.singleton_inj.mp heq
  exact htype he

/-- A run that goes on has no open checkpoint. -/
theorem RunState.Answered.consumed (h : x.Answered) (hstatus : x.status = .pending ∨ x.status = .running)
    {k : Id} (hk : x.checkpoints k = some state) : state.consumed = true := by
  by_contra hopen
  obtain ⟨-, hwait, -⟩ := h.waiting k state hk (by simpa using hopen)
  rcases hstatus with hs | hs <;> simp [hs, RunStatus.terminal] at hwait

theorem RunState.Answered.ask (h : x.Answered) (hrunning : x.status = .running) {c : Id}
    (hstate : state.consumed = false ∧ state.key = none ∧ state.answer = none)
    (hnew : ∀ k state', x.checkpoints k = some state' → k < c ∧ state'.name ≠ state.name)
    (hcheckpoints : y.checkpoints = update x.checkpoints c (some state))
    (hjournal : ∀ name, resumptions y.journal name = resumptions x.journal name)
    (hstatus : y.status = .waitingInput) : y.Answered := by
  have hcases : ∀ {k state'}, y.checkpoints k = some state' →
      k = c ∧ state' = state ∨ k ≠ c ∧ x.checkpoints k = some state' :=
    fun hk => update_eq_some.mp (hcheckpoints ▸ hk)
  have hself : y.checkpoints c = some state := by rw [hcheckpoints, update_self]
  refine ⟨fun k state' hk hopen => ?_, fun k k' state' state'' hk hk' hname => ?_,
    fun k state' hk => ?_, fun name hname => ?_, fun _ _ => ⟨c, state, hself, hstate.1⟩⟩
  · rcases hcases hk with ⟨rfl, rfl⟩ | ⟨-, hk⟩
    · refine ⟨fun k' state'' hk' => ?_, .inl hstatus, hstate.2⟩
      rcases hcases hk' with ⟨rfl, -⟩ | ⟨-, hk'⟩
      · exact Nat.le_refl _
      · exact (hnew k' state'' hk').1.le
    · rw [h.consumed (.inr hrunning) hk] at hopen
      cases hopen
  · rcases hcases hk with ⟨rfl, rfl⟩ | ⟨-, hk⟩ <;> rcases hcases hk' with ⟨rfl, rfl⟩ | ⟨-, hk'⟩
    · rfl
    · exact absurd hname.symm (hnew k' state'' hk').2
    · exact absurd hname (hnew k state' hk).2
    · exact h.names k k' state' state'' hk hk' hname
  · rw [hjournal]
    rcases hcases hk with ⟨rfl, rfl⟩ | ⟨-, hk⟩
    · rw [hstate.1]
      exact h.known state'.name fun k' state'' hk' => (hnew k' state'' hk').2
    · exact h.once k state' hk
  · rw [hjournal]
    refine h.known name fun k' state'' hk' => hname k' state'' ?_
    rw [hcheckpoints, update_of_ne (hnew k' state'' hk').1.ne]
    exact hk'

theorem RunState.Answered.take (h : x.Answered) {c : Id} {state' : CheckpointState}
    (hc : x.checkpoints c = some state) (hopen : state.consumed = false)
    (hstate : state'.consumed = true ∧ state'.name = state.name)
    (hcheckpoints : y.checkpoints = update x.checkpoints c (some state'))
    (hjournal : ∀ name, resumptions y.journal name =
    resumptions x.journal name + if name = state.name then 1 else 0)
    (hstatus : y.status = .pending ∨ y.status = .running) : y.Answered := by
  have hcases : ∀ {k entry}, y.checkpoints k = some entry →
      k = c ∧ entry = state' ∨ k ≠ c ∧ x.checkpoints k = some entry :=
    fun hk => update_eq_some.mp (hcheckpoints ▸ hk)
  have hother : ∀ {k entry}, k ≠ c → x.checkpoints k = some entry → entry.name ≠ state.name :=
    fun hne hk heq => hne (h.names _ c _ state hk hc heq)
  refine ⟨fun k entry hk hwaiting => ?_, fun k k' entry entry' hk hk' hname => ?_,
    fun k entry hk => ?_, fun name hname => ?_, fun hwaiting => ?_⟩
  · rcases hcases hk with ⟨rfl, rfl⟩ | ⟨hne, hk⟩
    · rw [hstate.1] at hwaiting
      cases hwaiting
    · -- two open checkpoints would both be the last one
      have hlatest := (h.waiting k entry hk hwaiting).1
      have hlatest' := (h.waiting c state hc hopen).1
      exact absurd (Nat.le_antisymm (hlatest' k entry hk) (hlatest c state hc)) hne
  · rcases hcases hk with ⟨rfl, rfl⟩ | ⟨hne, hk⟩ <;> rcases hcases hk' with ⟨rfl, rfl⟩ | ⟨hne', hk'⟩
    · rfl
    · exact absurd (hname.symm.trans hstate.2) (hother hne' hk')
    · exact absurd (hname.trans hstate.2) (hother hne hk)
    · exact h.names k k' entry entry' hk hk' hname
  · rw [hjournal]
    rcases hcases hk with ⟨rfl, rfl⟩ | ⟨hne, hk⟩
    · rw [hstate.2, h.once k state hc, hopen, hstate.1]
      simp
    · rw [h.once k entry hk, if_neg (hother hne hk), Nat.add_zero]
  · have hself : y.checkpoints c = some state' := by rw [hcheckpoints, update_self]
    rw [hjournal, if_neg fun heq => hname c state' hself (hstate.2.trans heq.symm), Nat.add_zero]
    refine h.known name fun k entry hk heq => ?_
    by_cases hkc : k = c
    · subst hkc
      obtain rfl := Option.mem_unique hc hk
      exact hname k state' hself (hstate.2.trans heq)
    · exact hname k entry (by rw [hcheckpoints, update_of_ne hkc]; exact hk) heq
  · rcases hstatus with hs | hs <;> simp [hs] at hwaiting

theorem resumptions_closed {target : RunStatus} {reply : Reply} {e : Closing} (name : String) :
    resumptions (x.closed r target reply e).journal name = resumptions x.journal name := by
  have hterminal : terminalType target ≠ .hitlResumed := by cases target <;> decide
  rw [RunState.closed, resumptions_record hterminal, resumptions_record (by decide)]
  unfold RunState.used
  split
  · exact resumptions_record (by decide) name
  · rfl

theorem Move.answered (h : Move r deed x y)
    (hnote : ∀ w f type, deed = .note w f type → type ≠ .hitlResumed) (hx : x.Answered) :
    y.Answered := by
  cases h with
  | start hstatus =>
    refine hx.keep rfl (resumptions_record (by decide)) (fun hwait => ?_) (fun hw => by simp at hw)
    rcases hstatus with hs | hs <;> simp [hs, RunStatus.terminal] at hwait
  | renew => exact hx.keep rfl (fun _ => rfl) id hx.paused
  | suspend =>
    exact hx.keep rfl (resumptions_record (by decide)) (fun _ => .inl rfl)
      (fun _ hlast => absurd hlast (last_record (by decide)))
  | pause _ _ hstatus hnew =>
    refine hx.ask hstatus ⟨rfl, rfl, rfl⟩ hnew rfl (fun name => ?_) rfl
    rw [resumptions_record (by decide), resumptions_record (by decide)]
    rfl
  | accept _ hc hopen hdata =>
    exact hx.take hc hopen (by exact ⟨rfl, rfl⟩) rfl (resumptions_resumed hdata) (.inl rfl)
  | acceptStart _ hc hopen hdata =>
    refine hx.take hc hopen (by exact ⟨rfl, rfl⟩) rfl (fun name => ?_) (.inr rfl)
    rw [resumptions_record (by decide)]
    exact resumptions_resumed hdata name
  | resume hstatus =>
    refine hx.keep rfl (resumptions_record (by decide)) (fun hwait => ?_) (fun hw => by simp at hw)
    simp [hstatus, RunStatus.terminal] at hwait
  | mark =>
    exact hx.keep rfl (resumptions_record (by decide)) (fun _ => .inr (.inl rfl))
      (fun hw => by simp at hw)
  | note _ _ hstatus =>
    refine hx.keep rfl (resumptions_record (hnote _ _ _ rfl)) id (fun hw => ?_)
    rcases hstatus with hs | hs <;> simp [hs] at hw
  | finish _ htarget =>
    exact hx.keep (RunState.closed_checkpoints ..) resumptions_closed
      (fun _ => .inr (.inr (closed_terminal htarget))) (fun hw => absurd hw (closed_ne htarget rfl))

theorem fresh_answered (h : x.Fresh r) (hstatus : x.status = .pending ∨ x.status = .queued) :
    x.Answered := by
  have hnone : ∀ k, x.checkpoints k = none := fun k => by rw [h.checkpoints]
  obtain ⟨data, clock, hjournal⟩ := h.journal
  refine ⟨by simp [hnone], by simp [hnone], by simp [hnone], fun _ _ => ?_, fun hwait => ?_⟩
  · simp [hjournal, resumptions]
  · rcases hstatus with hs | hs <;> simp [hs] at hwait

theorem promoted_answered (hq : x.status = .queued) (hx : x.Answered) :
    ({ x with status := .pending }.replying .streaming).Answered :=
  hx.keep rfl (fun _ => rfl) (fun hwait => by simp [hq, RunStatus.terminal] at hwait)
    (fun hw => by simp at hw)

/-- A checkpoint keeps its name, and its answer once it has one. -/
def CheckpointState.Keeps (state state' : CheckpointState) : Prop :=
  state.consumed = true → state' = state

abbrev RunState.KeepsAnswers (x y : RunState) : Prop :=
  Evolves (fun _ => CheckpointState.Keeps) x.checkpoints y.checkpoints

theorem RunState.KeepsAnswers.refl (x : RunState) : x.KeepsAnswers x :=
  Evolves.refl (fun _ _ _ => rfl) _

theorem Move.checkpoints (h : Move r deed x y) : x.KeepsAnswers y := by
  have hput : ∀ {c new}, (∀ state, x.checkpoints c = some state → state.consumed = false) →
      x.KeepsAnswers { x with checkpoints := update x.checkpoints c (some new) } := by
    intro c new hopen
    refine Evolves.update (fun _ _ _ => rfl) fun state hstate hconsumed => ?_
    rw [hopen state hstate] at hconsumed
    cases hconsumed
  cases h with
  | pause _ _ _ hnew =>
    exact hput fun state hstate => absurd (hnew _ state hstate).1 (Nat.lt_irrefl _)
  | accept _ hc hopen | acceptStart _ hc hopen =>
    exact hput fun state hstate => Option.some.inj (hc.symm.trans hstate) ▸ hopen
  | finish =>
    rw [RunState.KeepsAnswers, RunState.closed_checkpoints]
    exact RunState.KeepsAnswers.refl x
  | _ => exact RunState.KeepsAnswers.refl x

end Board

/-! ## Stored answers -/

section Reachable

variable {users : Table Id User} {calls : List Call} {s : Store} {env : Env}
  {request : ResumeRequest} {run : Run} {c : Id} {row : RunCheckpoint}

def Call.Appends (call : Call) (type : RunEventType) : Prop :=
  ∃ r data worker token, call.op = .append r type data worker token

theorem Step.answers {action : Action} {b b' : Board} (hs : Step action b b') :
    Evolves (fun _ => RunState.KeepsAnswers) b b' := by
  intro r x hr
  rcases hs.one hr with h | ⟨deed, y, -, hm, h⟩ | ⟨-, h⟩
  · exact ⟨x, h, .refl x⟩
  · exact ⟨y, h, hm.checkpoints⟩
  · exact ⟨_, h, .refl x⟩

/-- What the tables say about checkpoints and their answers. -/
structure Store.AnsweredOnce (s : Store) : Prop where
  unanswered : ∀ c row, s.checkpoints.get c = some row → row.consumedAt = none →
    row.resumeIdempotencyKey = none ∧ row.resumeAnswer = none
  resumed : ∀ c row, s.checkpoints.get c = some row →
    resumptions (s.eventsOf row.runId) row.checkpointId = if row.consumedAt.isSome then 1 else 0
  single : ∀ c c' row row', s.checkpoints.get c = some row → s.checkpoints.get c' = some row' →
    row.runId = row'.runId → row.consumedAt = none → row'.consumedAt = none → c = c'
  paused : ∀ r run before e, s.runs.get r = some run → run.status = .waitingInput →
    s.eventsOf r = before ++ [e] → e.type = .hitlRequired → ∃ c row,
      s.checkpoints.get c = some row ∧ row.runId = r ∧ row.consumedAt = none ∧
      s.latestCheckpoint r = some c

section Consumed

variable {s' : Store} {answer : String} {thread : Thread} {user : User} {result : ConsumedResume}
  (hrow : s.resumeRow request = some (c, row, run, thread, user)) (hconsumed : row.consumedAt ≠ none)

include hrow hconsumed

theorem consumeTransaction_consumed
    (h : consumeTransaction env request answer s = .ok (result, s')) :
    resumeAgain env request answer c row run thread s = .ok (result, s') := by
  simp only [consumeTransaction, ok_rules, hrow, Option.some.injEq] at h
  obtain ⟨_, rfl, _, -, _, -, h⟩ := h
  dsimp only at h
  rwa [if_pos hconsumed] at h

/-- Another key or another answer than the stored one is refused. -/
theorem consumeTransaction_other
    (hother : row.resumeIdempotencyKey ≠ some request.idempotencyKey ∨
      row.resumeAnswer ≠ some answer) :
    consumeTransaction env request answer s ≠ .ok (result, s') := by
  intro h
  have hagain := consumeTransaction_consumed hrow hconsumed h
  simp only [resumeAgain, ok_rules] at hagain
  obtain ⟨_, hsame, -⟩ := hagain
  exact hsame hother

end Consumed

theorem consumeResume_error
    (h : ∀ result s', consumeTransaction env request (strip request.answer) s ≠ .ok (result, s')) :
    ∃ fault, consumeResume env request s = .error fault := by
  cases hresult : consumeResume env request s with
  | error fault => exact ⟨fault, rfl⟩
  | ok p =>
    simp only [consumeResume, ok_rules] at hresult
    obtain ⟨_, -, hresult⟩ := hresult
    split at hresult
    · simp at hresult
    · exact absurd hresult (h p.1 p.2)

variable [ErrorCodec] [Platform]

theorem after_answered (hok : ∀ call ∈ calls, ¬ call.Appends .hitlResumed) :
    ∀ r x, (after users calls).store.board r = some x → x.Answered :=
  after_forall (P := fun _ x => x.Answered) (fun _ _ hx hstatus => fresh_answered hx hstatus)
    (fun _ _ _ _ hm hnote hx => hm.answered hnote hx) (fun _ _ hq hx => promoted_answered hq hx)
    (allowed_notes fun call hcall r _ data w f hop htype =>
      hok call hcall ⟨r, data, w, f, htype ▸ hop⟩)

theorem run_answers {s : System} (hw : s.store.Wf) (calls : List Call) :
    Evolves (fun _ => RunState.KeepsAnswers) s.store.board
      (Machine.run exec s calls).store.board := by
  have hkeeps : ∀ (_ : Id) (a b c : CheckpointState), a.Keeps b → b.Keeps c → a.Keeps c := by
    intro _ a b c hab hbc ha
    obtain rfl := hab ha
    exact hbc ha
  refine run_keeps hw (Evolves.refl (fun _ => .refl) _) (fun hs h => ?_) calls
  exact h.trans (fun _ _ _ _ hxy hyz => hxy.trans hkeeps hyz) hs.answers

omit [ErrorCodec] [Platform] in
theorem latestCheckpoint_of_latest {r : RunId} (hc : s.checkpoints.get c = some row)
    (hrun : row.runId = r) (h : (s.view r run).Latest c) : s.latestCheckpoint r = some c := by
  refine List.max?_eq_some_iff.mpr ⟨?_, fun k hk => ?_⟩
  · exact List.mem_map.mpr ⟨(c, row), Table.mem_select.mpr ⟨hc, by simp [hrun]⟩, rfl⟩
  · obtain ⟨⟨k', row'⟩, hmem, rfl⟩ := List.mem_map.mp hk
    obtain ⟨hget, hp⟩ := Table.mem_select.mp hmem
    exact h k' _ (checkpointsOf_eq_some.mpr ⟨row', hget, by simpa using hp, rfl⟩)

omit [ErrorCodec] [Platform] in
theorem answeredOnce_of_board (hw : s.Wf) (h : ∀ r x, s.board r = some x → x.Answered) :
    s.AnsweredOnce := by
  have hrow : ∀ {c row}, s.checkpoints.get c = some row → ∃ run, s.runs.get row.runId = some run ∧
      (s.view row.runId run).checkpoints c = some row.entry := by
    intro c row hc
    obtain ⟨run, hr⟩ := Option.ne_none_iff_exists'.mp (hw.checkpoints c row hc).2
    exact ⟨run, hr, checkpointsOf_eq_some.mpr ⟨row, hc, rfl, rfl⟩⟩
  have hopen : ∀ {row : RunCheckpoint}, row.consumedAt = none → row.entry.consumed = false := by
    intro row hnone
    simp [RunCheckpoint.entry, hnone]
  refine ⟨fun c row hc hnone => ?_, fun c row hc => ?_, fun c c' row row' hc hc' hrun hnone hnone' => ?_,
    fun r run before e hr hwait hjournal he => ?_⟩
  · obtain ⟨run, hr, hentry⟩ := hrow hc
    exact ((h _ _ (Store.board_of_run hr)).waiting c _ hentry (hopen hnone)).2.2
  · obtain ⟨run, hr, hentry⟩ := hrow hc
    exact (h _ _ (Store.board_of_run hr)).once c _ hentry
  · obtain ⟨run, hr, hentry⟩ := hrow hc
    have hentry' : (s.view row.runId run).checkpoints c' = some row'.entry :=
      checkpointsOf_eq_some.mpr ⟨row', hc', hrun.symm, rfl⟩
    have hx := h _ _ (Store.board_of_run hr)
    exact Nat.le_antisymm ((hx.waiting c' _ hentry' (hopen hnone')).1 c _ hentry)
      ((hx.waiting c _ hentry (hopen hnone)).1 c' _ hentry')
  · have hx := h _ _ (Store.board_of_run hr)
    obtain ⟨c, state, hstate, hconsumed⟩ := hx.paused hwait ⟨before, e, hjournal, he⟩
    obtain ⟨row, hc, hrun, rfl⟩ := checkpointsOf_eq_some.mp hstate
    refine ⟨c, row, hc, hrun, by simpa [RunCheckpoint.entry] using hconsumed, ?_⟩
    exact latestCheckpoint_of_latest hc hrun (hx.waiting c _ hstate hconsumed).1

/-! ## Repeated answers -/

/-- A call that leaves the tables as they are if it is answered leaves them so if it is not. -/
theorem exec_consume_same {s : System}
    (h : ∀ result s', consumeTransaction env request (strip request.answer) s.store =
    .ok (result, s') → s' = s.store) :
    (exec s ⟨env, .consumeResume request⟩).store = s.store := by
  unfold exec
  dsimp only
  split
  · rename_i store hok
    simp only [Call.transaction, ok_rules, map_eq_ok, Prod.exists] at hok
    obtain ⟨_, -, result, s', hok, rfl⟩ := hok
    exact h result s' hok
  · rfl

/-- A checkpoint takes one answer. In every reachable system the tables show the answer once,
later systems keep it, a repetition without a worker changes nothing, and another key or answer
is refused. -/
theorem one_answer_per_token (users : Table Id User) (calls : List Call)
    (hok : ∀ call ∈ calls, ¬ call.Appends .hitlResumed) :
    (after users calls).store.AnsweredOnce ∧
    (∀ later c row, (after users calls).store.checkpoints.get c = some row →
      row.consumedAt ≠ none → ∃ row',
        (after users (calls ++ later)).store.checkpoints.get c = some row' ∧
        row'.runId = row.runId ∧ row'.consumedAt ≠ none ∧
        row'.resumeIdempotencyKey = row.resumeIdempotencyKey ∧ row'.resumeAnswer = row.resumeAnswer) ∧
    (∀ env request c row run thread user,
      (after users calls).store.resumeRow request = some (c, row, run, thread, user) →
      row.consumedAt ≠ none →
      (request.worker = none → row.resumeIdempotencyKey = some request.idempotencyKey →
        row.resumeAnswer = some (strip request.answer) →
        (exec (after users calls) ⟨env, .consumeResume request⟩).store =
          (after users calls).store) ∧
      (row.resumeIdempotencyKey ≠ some request.idempotencyKey ∨
          row.resumeAnswer ≠ some (strip request.answer) →
        (∃ fault, consumeResume env request (after users calls).store = .error fault) ∧
        (exec (after users calls) ⟨env, .consumeResume request⟩).store =
          (after users calls).store)) := by
  have hw := after_wf users calls
  refine ⟨answeredOnce_of_board hw (after_answered hok), fun later c row hc hconsumed => ?_,
    fun env request c row run thread user hrow hconsumed => ⟨fun hworker _ _ => ?_, fun hother => ?_⟩⟩
  · obtain ⟨run, hr⟩ := Option.ne_none_iff_exists'.mp (hw.checkpoints c row hc).2
    obtain ⟨y, hy, hkeeps⟩ := run_answers hw later row.runId _ (Store.board_of_run hr)
    obtain ⟨state, hstate, hsame⟩ :=
      hkeeps c row.entry (checkpointsOf_eq_some.mpr ⟨row, hc, rfl, rfl⟩)
    obtain ⟨run', -, rfl⟩ := Store.run_of_board hy
    obtain ⟨row', hc', hrun', rfl⟩ := checkpointsOf_eq_some.mp hstate
    have hentry := hsame (Option.isSome_iff_ne_none.mpr hconsumed)
    simp only [RunCheckpoint.entry, CheckpointState.mk.injEq] at hentry
    rw [after_append]
    refine ⟨row', hc', hrun', ?_, hentry.2.2.2.1, hentry.2.2.2.2⟩
    rw [← Option.isSome_iff_ne_none, hentry.2.2.1, Option.isSome_iff_ne_none]
    exact hconsumed
  · refine exec_consume_same fun result s' hok => ?_
    obtain ⟨hc, hrun, -, hr⟩ := resumeRow_some hrow
    rcases resumeAgain_ok hw hr hc hrun hconsumed (consumeTransaction_consumed hrow hconsumed hok)
      with hsame | ⟨worker, hsome, -⟩
    · exact hsame
    · rw [hworker] at hsome
      cases hsome
  · have hrefused : ∀ result s', consumeTransaction env request (strip request.answer)
        (after users calls).store ≠ .ok (result, s') :=
      fun result s' => consumeTransaction_other hrow hconsumed hother
    exact ⟨consumeResume_error hrefused,
      exec_consume_same fun result s' hok => absurd hok (hrefused result s')⟩

end Reachable

namespace Sample

def resumed : List Call :=
  [ask 1 "a", take 2 "a" "w", pause 3 "a" "w" 3, answer 4 "a" "key" "yes" none]

theorem resumed_appends : ∀ call ∈ resumed, ∀ type, ¬ call.Appends type := by
  rintro call hcall type ⟨r, data, worker, token, hop⟩
  simp only [resumed, List.mem_cons, List.not_mem_nil, or_false] at hcall
  rcases hcall with rfl | rfl | rfl | rfl <;> cases hop

end Sample

open PlainPlatform Sample in
theorem answer_stored_once :
    ∃ row, (after users resumed).store.checkpoints.get 1 = some row ∧
      row.resumeAnswer = some "yes" ∧
      resumptions ((after users resumed).store.eventsOf row.runId) row.checkpointId = 1 := by
  have hrow : ((after users resumed).store.checkpoints.get 1).map
      (fun row => (row.resumeAnswer, row.consumedAt.isSome)) = some (some "yes", true) := by
    decide +kernel
  obtain ⟨row, hc, heq⟩ := Option.map_eq_some_iff.mp hrow
  obtain ⟨hanswer, hconsumed⟩ := Prod.mk.inj heq
  have honce := (one_answer_per_token users resumed fun call hcall =>
    resumed_appends call hcall _).1.resumed 1 row hc
  exact ⟨row, hc, hanswer, by rw [honce, hconsumed]; rfl⟩

end SuperMew.Runs
