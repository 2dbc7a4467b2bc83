import SuperMew.Runs.Answers

/-! Accepted answers. An answer that is accepted without a worker leaves an ordinary pending
run behind, and whoever takes up the run next should do so with the answer. -/

namespace SuperMew.Runs

open Relational Runs.System

/-! ## Open answers -/

/-- One event of a journal: an answer is open from `hitl.resumed` to the next `run.started`. -/
def nextAnswer (answer : Option Json) (e : RunEvent) : Option Json :=
  match e.type with
  | .hitlResumed => e.data.get? "checkpoint_id"
  | .runStarted => none
  | _ => answer

/-- The checkpoint whose answer no start of the run has taken up yet. -/
def openAnswer (journal : List RunEvent) : Option Json := journal.foldl nextAnswer none

/-- Each start that follows an open answer resumes the run at its checkpoint. -/
def ResumesAnswers (journal : List RunEvent) : Prop :=
  ∀ before e after c, journal = before ++ e :: after → e.type = .runStarted →
    openAnswer before = some c → e.data.get? "resume_checkpoint_id" = some c

variable {r : RunId}

section Board

variable {deed : Deed} {x y : RunState} {type : RunEventType} {data : Dict} {clock : Time}

theorem openAnswer_record : openAnswer (x.record r type data clock).journal =
    nextAnswer (openAnswer x.journal) ⟨r, x.last + 1, type, data, clock⟩ := by
  simp [openAnswer]

theorem openAnswer_other (htype : type ≠ .hitlResumed ∧ type ≠ .runStarted) :
    openAnswer (x.record r type data clock).journal = openAnswer x.journal := by
  rw [openAnswer_record, nextAnswer]
  split
  · exact absurd ‹_› htype.1
  · exact absurd ‹_› htype.2
  · rfl

theorem ResumesAnswers.record (h : ResumesAnswers x.journal)
    (hstart : type = .runStarted → ∀ c, openAnswer x.journal = some c →
      data.get? "resume_checkpoint_id" = some c) :
    ResumesAnswers (x.record r type data clock).journal := by
  intro before e after c hjournal htype hopen
  rw [RunState.record_journal] at hjournal
  rcases List.eq_nil_or_concat after with rfl | ⟨rest, last, rfl⟩
  · obtain ⟨rfl, heq⟩ := List.append_inj' hjournal rfl
    obtain rfl := List.singleton_inj.mp heq
    exact hstart htype c hopen
  · rw [List.concat_eq_append, ← List.cons_append, ← List.append_assoc] at hjournal
    exact h before e rest c (List.append_inj' hjournal rfl).1 htype hopen

structure RunState.Resumes (x : RunState) : Prop where
  started : ResumesAnswers x.journal
  /-- An answer is open while the run is pending, unless the run is cancelled or ends. -/
  answer : ∀ c, openAnswer x.journal = some c →
    (x.status = .pending ∧ ∃ k state, x.checkpoints k = some state ∧ x.Latest k ∧ c = .str state.name) ∨
      x.status = .cancelling ∨ x.status.terminal = true

theorem RunState.Resumes.no_answer (h : x.Resumes) (hstatus : x.status = .running ∨
    x.status = .waitingInput ∨ x.status = .queued) : openAnswer x.journal = none := by
  cases hopen : openAnswer x.journal with
  | none => rfl
  | some c =>
    have hwait := h.answer c hopen
    rcases hstatus with hs | hs | hs <;> simp [hs, RunStatus.terminal] at hwait

theorem RunState.Resumes.unasked (h : x.Resumes) (hstatus : x.status = .pending)
    (hnone : ∀ k, x.checkpoints k = none) : openAnswer x.journal = none := by
  cases hopen : openAnswer x.journal with
  | none => rfl
  | some c =>
    rcases h.answer c hopen with ⟨-, k, state, hk, -⟩ | hwait
    · rw [hnone k] at hk
      cases hk
    · simp [hstatus, RunStatus.terminal] at hwait

/-- A start that no answer waits for, or that takes up the open answer. -/
theorem resumes_start (h : ResumesAnswers x.journal) (hdata : ∀ c, openAnswer x.journal = some c →
    data.get? "resume_checkpoint_id" = some c) : (x.record r .runStarted data clock).Resumes := by
  refine ⟨h.record fun _ => hdata, fun c hopen => ?_⟩
  rw [openAnswer_record] at hopen
  cases hopen

/-- A run without an open answer appends another event. -/
theorem resumes_note (h : ResumesAnswers x.journal) (hnone : openAnswer x.journal = none)
    (htype : type ≠ .hitlResumed ∧ type ≠ .runStarted) : (x.record r type data clock).Resumes := by
  refine ⟨h.record fun heq => absurd heq htype.2, fun c hopen => ?_⟩
  rw [openAnswer_other htype, hnone] at hopen
  cases hopen

theorem resumes_closed {target : RunStatus} {reply : Reply} {e : Closing} (h : x.Resumes)
    (htarget : target.terminal = true) : (x.closed r target reply e).Resumes := by
  have htype : terminalType target ≠ .runStarted := by cases target <;> decide
  refine ⟨?_, fun c _ => .inr (.inr (by rw [RunState.closed_status]; exact htarget))⟩
  rw [RunState.closed]
  refine ResumesAnswers.record (ResumesAnswers.record ?_ (fun heq => by cases heq))
    (fun heq => absurd heq htype)
  unfold RunState.used
  split
  · exact ResumesAnswers.record h.started (fun heq => by cases heq)
  · exact h.started

/-- A run is not claimed while it is pending with a checkpoint, and its owner appends no start
and no answer. -/
structure Undisturbed (deed : Deed) (x : RunState) : Prop where
  claim : ∀ w, deed = .start w → x.status = .pending → ∀ k, x.checkpoints k = none
  note : ∀ w f type, deed = .note w f type → type ≠ .hitlResumed ∧ type ≠ .runStarted

theorem Move.resumes (h : Move r deed x y) (hok : Undisturbed deed x) (ha : x.Answered)
    (hx : x.Resumes) : y.Resumes := by
  cases h with
  | start hstatus =>
    refine resumes_start hx.started fun c hopen => ?_
    have hnone : openAnswer x.journal = none := by
      rcases hstatus with hs | hs
      · exact hx.unasked hs (hok.claim _ rfl hs)
      · exact hx.no_answer (.inl hs)
    exact absurd (hnone.symm.trans hopen) (by simp)
  | renew => exact ⟨hx.started, hx.answer⟩
  | suspend _ _ hcan =>
    refine resumes_note hx.started (hx.no_answer ?_) ⟨by decide, by decide⟩
    cases hs : x.status <;> simp [hs, RunStatus.canTransition, RunStatus.allowedTransitions] at hcan ⊢
  | pause _ _ hstatus =>
    have hnone := hx.no_answer (.inl hstatus)
    refine resumes_note (hx.started.record fun heq => by cases heq) ?_ ⟨by decide, by decide⟩
    rw [openAnswer_other ⟨by decide, by decide⟩]
    exact hnone
  | @accept _ c state _ _ _ _ _ hc hopen hdata =>
    refine ⟨hx.started.record fun heq => (by cases heq), fun a ha' => .inl ⟨rfl, c, _,
      Function.update_self .., fun k entry hk => ?_, ?_⟩⟩
    · rcases update_eq_some.mp hk with ⟨rfl, -⟩ | ⟨-, hk⟩
      · exact Nat.le_refl _
      · exact (ha.waiting c state hc hopen).1 k entry hk
    · rw [openAnswer_record] at ha'
      exact Option.some.inj (ha'.symm.trans hdata)
  | acceptStart _ hc hopen hdata hstarted =>
    refine resumes_start (hx.started.record fun heq => by cases heq) fun a ha' => ?_
    rw [openAnswer_record] at ha'
    rw [hstarted, ← hdata]
    exact ha'
  | resume hstatus hc _ hlatest hdata =>
    refine resumes_start hx.started fun c hopen => ?_
    rcases hx.answer c hopen with ⟨-, k, state, hk, hlast, rfl⟩ | hwait
    · obtain rfl := Nat.le_antisymm (hlatest k state hk) (hlast _ _ hc)
      rw [hc] at hk
      rw [hdata, Option.some.inj hk]
    · simp [hstatus, RunStatus.terminal] at hwait
  | mark =>
    exact ⟨hx.started.record fun heq => (by cases heq), fun _ _ => .inr (.inl rfl)⟩
  | note _ _ hstatus =>
    have htype := hok.note _ _ _ rfl
    refine ⟨hx.started.record fun heq => absurd heq htype.2, fun c hopen => ?_⟩
    rw [openAnswer_other htype] at hopen
    exact hx.answer c hopen
  | finish _ htarget => exact resumes_closed hx (endStatus_terminal htarget)

theorem fresh_resumes (h : x.Fresh r) : x.Resumes := by
  obtain ⟨data, clock, hjournal⟩ := h.journal
  have hone : x.journal = ({ x with last := 0, journal := [] }.record r .runCreated data clock).journal := by
    rw [hjournal]
    rfl
  have hnone : openAnswer x.journal = none := by
    rw [hone, openAnswer_other ⟨by decide, by decide⟩]
    rfl
  refine ⟨hone ▸ ResumesAnswers.record (fun before e after c heq => ?_) (fun heq => by cases heq),
    fun c hopen => absurd (hnone.symm.trans hopen) (by simp)⟩
  simp at heq

theorem promoted_resumes (hq : x.status = .queued) (hx : x.Resumes) :
    ({ x with status := .pending }.replying .streaming).Resumes :=
  ⟨hx.started, fun _ hopen =>
    absurd ((hx.no_answer (.inr (.inr hq))).symm.trans hopen) (by simp)⟩

/-- A run starts with `run.started`, and with its open answer if there is one. -/
theorem Move.starts (h : Move r deed x y) (hok : Undisturbed deed x) (ha : x.Answered)
    (hx : x.Resumes) (hidle : x.status ≠ .running) (hrunning : y.status = .running) :
    ∃ before e, y.journal = before ++ [e] ∧ e.type = .runStarted ∧
      ∀ c, openAnswer x.journal = some c → e.data.get? "resume_checkpoint_id" = some c ∧
        ∃ k w, deed = .resume k w := by
  have hy := (h.resumes hok ha hx).started
  cases h with
  | start hstatus =>
    have hnone := hx.unasked (hstatus.resolve_right hidle) (hok.claim _ rfl (hstatus.resolve_right hidle))
    exact ⟨_, _, rfl, rfl, fun c hopen => absurd (hnone.symm.trans hopen) (by simp)⟩
  | acceptStart hstatus =>
    have hnone := hx.no_answer (.inr (.inl hstatus))
    exact ⟨_, _, rfl, rfl, fun c hopen => absurd (hnone.symm.trans hopen) (by simp)⟩
  | resume =>
    exact ⟨_, _, rfl, rfl, fun c hopen => ⟨hy x.journal _ [] c rfl rfl hopen, _, _, rfl⟩⟩
  | finish _ htarget => exact absurd hrunning (closed_ne htarget rfl)
  | renew | note => exact absurd hrunning hidle
  | _ => cases hrunning

end Board

/-! ## Dispatched runs -/

variable {s : System}

section Reachable

variable {users : Table Id User} {calls : List Call}

/-- A pending run is claimed only if it never asked its user. -/
def ClaimsUnasked (s : System) (call : Call) : Prop :=
  ∀ r w lease run, call.op = .claim r w lease → s.store.runs.get r = some run →
    run.status = .pending → ∀ c row, s.store.checkpoints.get c = some row → row.runId ≠ r

variable [ErrorCodec]

theorem does_start {env : Env} {op : Op} {w : String}
    (h : Call.Does env s op r (.start w)) : ∃ lease, op = .claim r w lease := by
  cases h with
  | claim r w lease => exact ⟨lease, rfl⟩
  | consumeResume q hq => cases hq
  | requestCancel _ _ _ hdeed | writeCancel _ _ hdeed =>
    rcases PendingCancel.deed_eq hdeed with heq | heq <;> cases heq

theorem does_resume {env : Env} {op : Op} {c : Id} {w : String}
    (h : Call.Does env s op r (.resume c w)) : ∃ request, op = .consumeResume request := by
  cases h with
  | consumeResume q => exact ⟨q, rfl⟩
  | requestCancel _ _ _ hdeed | writeCancel _ _ hdeed =>
    rcases PendingCancel.deed_eq hdeed with heq | heq <;> cases heq

theorem allowed_undisturbed {call : Call} (hclaim : ClaimsUnasked s call)
    (hnote : ¬ call.Appends .hitlResumed ∧ ¬ call.Appends .runStarted) :
    Allowed (fun _ => Undisturbed) s call := by
  intro r deed x hdoes hr
  obtain ⟨run, hrun, rfl⟩ := Store.run_of_board hr
  refine ⟨fun w hdeed hpending k => ?_, fun w f type hdeed => ?_⟩
  · obtain ⟨lease, hop⟩ := does_start (hdeed ▸ hdoes)
    by_contra hk
    obtain ⟨state, hk⟩ := Option.ne_none_iff_exists'.mp hk
    obtain ⟨row, hrow, hown, -⟩ := checkpointsOf_eq_some.mp hk
    exact hclaim r w lease run hop hrun hpending k row hrow hown
  · obtain ⟨data, hop⟩ := does_note (hdeed ▸ hdoes)
    refine ⟨?_, ?_⟩ <;> rintro rfl
    · exact hnote.1 ⟨r, data, w, f, hop⟩
    · exact hnote.2 ⟨r, data, w, f, hop⟩

variable [Platform]

/-- Every answer is taken up by the next start of its run. -/
theorem after_resumes (hclaims : Machine.Along exec ClaimsUnasked ⟨Store.initial users, []⟩ calls)
    (hnotes : ∀ call ∈ calls, ¬ call.Appends .hitlResumed ∧ ¬ call.Appends .runStarted) :
    ∀ r x, (after users calls).store.board r = some x → x.Answered ∧ x.Resumes := by
  have hallowed : Machine.Along exec (Allowed fun _ => Undisturbed) ⟨Store.initial users, []⟩ calls :=
    (hclaims.and (Machine.along_of_mem fun call hcall _ => hnotes call hcall)).imp
      fun _ _ h => allowed_undisturbed h.1 h.2
  refine after_forall (P := fun _ x => x.Answered ∧ x.Resumes)
    (fun _ _ hx hstatus => ⟨fresh_answered hx hstatus, fresh_resumes hx⟩)
    (fun _ _ _ _ hm hok hx => ⟨hm.answered (fun w f type hd => (hok.note w f type hd).1) hx.1,
      hm.resumes hok hx.1 hx.2⟩)
    (fun _ _ hq hx => ⟨promoted_answered hq hx.1, promoted_resumes hq hx.2⟩) hallowed

/-- Where pending runs that asked their user are not claimed, every answer is taken up: each
start in a journal that follows an accepted answer names its checkpoint, and a call that
brings a run with an open answer to `RUNNING` resumes the run at that checkpoint. -/
theorem accepted_answer_is_resumed (users : Table Id User) (calls : List Call)
    (hclaims : Machine.Along exec ClaimsUnasked ⟨Store.initial users, []⟩ calls)
    (hnotes : ∀ call ∈ calls, ¬ call.Appends .hitlResumed ∧ ¬ call.Appends .runStarted) :
    (∀ r run, (after users calls).store.runs.get r = some run →
      ResumesAnswers ((after users calls).store.eventsOf r)) ∧
    ∀ call r run run', ClaimsUnasked (after users calls) call →
      ¬ call.Appends .hitlResumed ∧ ¬ call.Appends .runStarted →
      (after users calls).store.runs.get r = some run →
      (exec (after users calls) call).store.runs.get r = some run' →
      run.status ≠ .running → run'.status = .running →
      ∃ before e, (exec (after users calls) call).store.eventsOf r = before ++ [e] ∧
        e.type = .runStarted ∧
        ∀ c, openAnswer ((after users calls).store.eventsOf r) = some c →
          e.data.get? "resume_checkpoint_id" = some c ∧ ∃ request, call.op = .consumeResume request := by
  have hx := after_resumes hclaims hnotes
  refine ⟨fun r run hr => (hx r _ (Store.board_of_run hr)).2.started,
    fun call r run run' hclaim hnote hr hr' hidle hrunning => ?_⟩
  have hb := Store.board_of_run hr
  have hb' := Store.board_of_run hr'
  have hchanged : ¬ (exec (after users calls) call).store.board r =
      some ((after users calls).store.view r run) := by
    intro hsame
    have heq := congrArg RunState.status (Option.some.inj (hb'.symm.trans hsame))
    exact hidle (heq.symm.trans hrunning)
  rcases (exec_steps (after_wf users calls) : call.Steps _ _).2 with hsame | ⟨action, hacts, hs⟩
  · exact absurd (hsame ▸ hb) hchanged
  · rcases hs.one hb with hsame | ⟨deed, y, rfl, hm, hy⟩ | ⟨-, hpromoted⟩
    · exact absurd hsame hchanged
    · cases hacts with
      | does hdoes =>
        cases hb'.symm.trans hy
        have hok := allowed_undisturbed hclaim hnote r deed _ hdoes hb
        obtain ⟨ha, hres⟩ := hx r _ hb
        obtain ⟨before, e, hjournal, htype, hopen⟩ := hm.starts hok ha hres hidle hrunning
        refine ⟨before, e, hjournal, htype, fun c hc => ?_⟩
        obtain ⟨hdata, k, w, rfl⟩ := hopen c hc
        exact ⟨hdata, does_resume hdoes⟩
    · have heq := congrArg RunState.status (Option.some.inj (hb'.symm.trans hpromoted))
      exact absurd (hrunning.symm.trans heq) (by simp)

end Reachable

open PlainPlatform Sample in
/-- The recovery of another worker lists the answered run as pending, and its claim starts the
run without the answer. -/
theorem claim_bypasses_answer :
    (listPending 500 (after users resumed).store).map (fun e => e.2.id) = ["a"] ∧
    openAnswer ((after users resumed).store.eventsOf "a") = some (.str "checkpoint") ∧
    ((after users (resumed ++ [take 5 "a" "v"])).store.runs.get "a").map Run.status =
      some .running ∧
    ((after users (resumed ++ [take 5 "a" "v"])).store.eventsOf "a").getLast?.map
      (fun e => (e.type, e.data.get? "resume_checkpoint_id")) = some (.runStarted, none) := by
  decide +kernel

theorem claimsUnasked_of_all {call : Call}
    (h : (s.store.checkpoints.rows.all fun e => e.2.runId != call.env.runId) = true)
    (hop : ∀ r w lease, call.op = .claim r w lease → r = call.env.runId) : ClaimsUnasked s call := by
  intro r w lease run hclaim _ _ c row hc
  simpa [hop r w lease hclaim] using List.all_eq_true.mp h (c, row) (Table.mem_rows.mpr hc)

open PlainPlatform Sample in
theorem worker_resumes_answer :
    ∃ before e, (after users (resumed ++ [answer 5 "a" "key" "yes" (some "v")])).store.eventsOf
        "a" = before ++ [e] ∧ e.type = .runStarted ∧
      e.data.get? "resume_checkpoint_id" = some (.str "checkpoint") := by
  have hclaims : Machine.Along exec ClaimsUnasked ⟨Store.initial users, []⟩ resumed := by
    refine ⟨?_, claimsUnasked_of_all (by decide +kernel) ?_, ?_, ?_, trivial⟩
    · rintro r w lease run ⟨⟩
    · rintro r w lease ⟨⟩
      rfl
    · rintro r w lease run ⟨⟩
    · rintro r w lease run ⟨⟩
  have hstatus : ((after users resumed).store.runs.get "a").map Run.status = some .pending ∧
      ((exec (after users resumed) (answer 5 "a" "key" "yes" (some "v"))).store.runs.get
        "a").map Run.status = some .running := by decide +kernel
  obtain ⟨run, hr, hpending⟩ := Option.map_eq_some_iff.mp hstatus.1
  obtain ⟨run', hr', hrunning⟩ := Option.map_eq_some_iff.mp hstatus.2
  obtain ⟨before, e, hjournal, htype, hopen⟩ := (accepted_answer_is_resumed users resumed hclaims
    fun call hcall => ⟨resumed_appends call hcall _, resumed_appends call hcall _⟩).2
      (answer 5 "a" "key" "yes" (some "v")) "a" run run' (by rintro r w lease _ ⟨⟩)
      ⟨by rintro ⟨_, _, _, _, ⟨⟩⟩, by rintro ⟨_, _, _, _, ⟨⟩⟩⟩ hr hr' (by simp [hpending]) hrunning
  rw [after_append]
  exact ⟨before, e, hjournal, htype, (hopen (.str "checkpoint") (by decide +kernel)).1⟩

end SuperMew.Runs
