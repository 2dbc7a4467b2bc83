import SuperMew.Runs.Told
import SuperMew.Frontend.RunEvents
import Mathlib.Data.Bool.AllAny

/-! The stored run and the browser's view of its journal agree. -/

namespace SuperMew.Frontend

open Runs Relational System

/-! ## The view of a journal -/

variable {type : RunEventType} {status : RunStatus} {x : RunState} {clock : Time} {data : Dict}

section View

variable (stamp : Time → String) (r : RunId) (threadId : String)

def received (e : RunEventV1) : RuntimeRunEvent :=
  ⟨e.runId, e.threadId, e.sequence, .known e.type, stamp e.createdAt, e.data⟩

def eventAt (sequence : ℕ) (type : RunEventType) (data : Dict) (clock : Time) : RuntimeRunEvent :=
  received stamp ⟨⟨r, sequence, type, data, clock⟩, threadId⟩

/-- The events that a worker appends while it works on a run: they tell nothing about the run
itself. -/
def streamed : RunEventType → Bool
  | .plannerStarted | .plannerCompleted | .toolStarted | .toolProgress | .toolCompleted
  | .toolFailed | .toolDenied | .retrievalStarted | .retrievalCandidates
  | .retrievalRerankCompleted | .retrievalCompleted | .messageDelta | .usageUpdated
  | .artifactCreated => true
  | _ => false

theorem streamed_going (h : streamed type = true) : type.terminal = false := by
  cases type <;> first | rfl | cases h

theorem settled_not_running {status : RunTimelineStatus} (h : status ≠ .running)
    {timeline : List RunTimelineItem} {item : RunTimelineItem}
    (hitem : item ∈ settleRunningTimelineItems status timeline) : item.status ≠ .running := by
  obtain ⟨old, -, rfl⟩ := List.mem_map.mp hitem
  split
  · exact h
  · assumption

/-- How an ended run shows. -/
def endedStatus : RunStatus → RunLifecycleStatus
  | .succeeded => .completed
  | .failed => .failed
  | _ => .cancelled

variable [Browser]

def projected (journal : List RunEvent) : RunEventState :=
  (journal.map fun e => received stamp ⟨e, threadId⟩).foldl applyRunEvent
    (initialRunEventState r threadId)

/-- A view that has taken the first `last` events and awaits the next one. -/
structure Follows (last : ℕ) (view : RunEventState) : Prop where
  runId : view.runId = r
  threadId : view.threadId = threadId
  last : view.lastSequence = last
  going : view.terminalSequence = none

variable {stamp r threadId} {last : ℕ} {view : RunEventState}

theorem Follows.apply (h : Follows r threadId last view) :
    applyRunEvent view (eventAt stamp r threadId (last + 1) type data clock) =
      reduceEvent view (eventAt stamp r threadId (last + 1) type data clock) := by
  have hnext : ¬ (r ≠ view.runId ∨ threadId ≠ view.threadId ∨ last + 1 ≤ view.lastSequence ∨
      view.terminalSequence ≠ none) := by
    rw [h.runId, h.threadId, h.last, h.going]
    simp
  have hseq : ¬ last + 1 ≠ view.lastSequence + 1 := by rw [h.last, not_not]
  unfold applyRunEvent
  exact (if_neg hnext).trans (if_neg hseq)

theorem Follows.reduce (h : Follows r threadId last view) (htype : type.terminal = false) :
    Follows r threadId (last + 1)
      (reduceEvent view (eventAt stamp r threadId (last + 1) type data clock)) := by
  obtain ⟨hrun, hthread, hlast, hterminal⟩ :=
    reduceEvent_frame view (eventAt stamp r threadId (last + 1) type data clock)
  have hends : runReader.ends (eventAt stamp r threadId (last + 1) type data clock) = false := htype
  refine ⟨hrun.trans h.runId, hthread.trans h.threadId, hlast, ?_⟩
  rw [hterminal, hends]
  exact h.going

section

variable (h : Follows r threadId x.last (projected stamp r threadId x.journal))

include h

theorem projected_record :
    projected stamp r threadId (x.record r type data clock).journal =
      reduceEvent (projected stamp r threadId x.journal)
        (eventAt stamp r threadId (x.last + 1) type data clock) := by
  rw [← h.apply]
  simp [projected, eventAt]

theorem Follows.record (htype : type.terminal = false) :
    Follows r threadId (x.record r type data clock).last
      (projected stamp r threadId (x.record r type data clock).journal) := by
  rw [projected_record h]
  exact h.reduce htype

end

/-! ## What events do to the view -/

theorem reduceEvent_streamed (view : RunEventState) (event : RuntimeRunEvent)
    (htype : event.type = .known type) (h : streamed type = true) :
    (reduceEvent view event).status = view.status ∧
      (reduceEvent view event).pendingHitl = view.pendingHitl ∧
      (reduceEvent view event).terminal = view.terminal := by
  obtain ⟨runId, threadId, sequence, name, timestamp, data⟩ := event
  subst htype
  cases type
  case toolProgress =>
    simp only [reduceEvent]
    split <;> exact ⟨rfl, rfl, rfl⟩
  case artifactCreated =>
    simp only [reduceEvent]
    split <;> exact ⟨rfl, rfl, rfl⟩
  all_goals first | exact ⟨rfl, rfl, rfl⟩ | cases h

/-- A view of an ended run: its status shows, its question is gone and nothing goes on. -/
structure Ended (status : RunStatus) (text : String) (view : RunEventState) : Prop where
  terminal : view.terminal = true
  status : view.status = endedStatus status
  text : view.messageText = text
  silent : view.pendingHitl = none
  settled : ∀ item ∈ view.timeline, item.status ≠ .running

theorem finish_ended (view : RunEventState) (status : RunStatus) (event : RuntimeRunEvent)
    (settled : RunTimelineStatus) (hsettled : settled ≠ .running) (error : Option PublicErrorInfo)
    (title : String) :
    Ended status view.messageText (view.finish event settled (endedStatus status) error title) where
  terminal := rfl
  status := rfl
  text := rfl
  silent := rfl
  settled item hitem := by
    rcases List.mem_append.mp hitem with hitem | hitem
    · exact settled_not_running hsettled hitem
    · rw [List.mem_singleton.mp hitem]
      exact hsettled

theorem reduceEvent_ended {sequence : ℕ} (h : status.terminal = true) :
    Ended status view.messageText
      (reduceEvent view (eventAt stamp r threadId sequence (terminalType status) data clock)) := by
  cases status with
  | succeeded =>
    exact finish_ended { view with lastSequence := sequence } .succeeded _ .completed (by decide) _ _
  | failed =>
    exact finish_ended { view with lastSequence := sequence } .failed _ .failed (by decide) _ _
  | cancelled =>
    exact finish_ended { view with lastSequence := sequence } .cancelled _ .failed (by decide) _ _
  | _ => cases h

end View

/-! ## Tokens -/

/-- A token of `record_pause`: `hitl_` and the hexadecimal digits of a UUID. -/
def Generated (token : String) : Prop :=
  ∃ hex : List Char, token.toList = "hitl_".toList ++ hex ∧ hex.length = 32 ∧
    ∀ c ∈ hex, isHexDigit c = true

theorem isJsSpace_hexDigit {c : Char} (h : isHexDigit c = true) : isJsSpace c = false := by
  simp only [isHexDigit, Bool.or_eq_true, Bool.and_eq_true, decide_eq_true_eq, Char.le_def,
    UInt32.le_iff_toNat_le] at h
  have hbound : 48 ≤ c.toNat ∧ c.toNat ≤ 102 := by
    rcases h with ⟨hlow, hhigh⟩ | ⟨hlow, hhigh⟩
    · exact ⟨hlow, le_trans hhigh (by decide)⟩
    · exact ⟨le_trans (by decide) hlow, hhigh⟩
  simp only [isJsSpace, Bool.or_eq_false_iff, Bool.and_eq_false_iff, decide_eq_false_iff_not,
    beq_eq_false_iff_ne]
  omega

theorem trim_of_no_space {s : String} (h : ∀ c ∈ s.toList, isJsSpace c = false) : trim s = s := by
  have hdrop : ∀ l : List Char, (∀ c ∈ l, isJsSpace c = false) → l.dropWhile isJsSpace = l := by
    intro l hl
    cases l with
    | nil => rfl
    | cons c l => simp [hl c List.mem_cons_self]
  unfold trim
  rw [hdrop _ h, hdrop _ fun c hc => h c (List.mem_reverse.mp hc), List.reverse_reverse,
    String.ofList_toList]

/-- The browser takes a generated token as it is. -/
theorem safeString_generated {token : String} (h : Generated token) :
    safeString (some (.str token)) = some token := by
  obtain ⟨hex, htoken, -, hhex⟩ := h
  have hspace : ∀ c ∈ token.toList, isJsSpace c = false := by
    intro c hc
    rw [htoken, List.mem_append] at hc
    rcases hc with hc | hc
    · revert c
      exact List.all_iff_forall_prop.mp (by decide)
    · exact isJsSpace_hexDigit (hhex c hc)
  have hne : token ≠ "" := by
    rintro rfl
    cases htoken
  simp [safeString, trim_of_no_space hspace, hne]

/-! ## The run and its view -/

/-- The run waits since a pause, whose last event asks the user. -/
def Paused (x : RunState) : Prop :=
  x.status = .waitingInput ∧ x.journal.getLast?.map RunEvent.type = some .hitlRequired

theorem not_paused (h : x.status ≠ .waitingInput) : ¬ Paused x := fun hp => h hp.1

theorem not_paused_record {r : RunId}
    (h : type ≠ .hitlRequired) : ¬ Paused (x.record r type data clock) := by
  rintro ⟨-, hlast⟩
  simp only [RunState.record_journal, List.getLast?_concat, Option.map_some,
    Option.some.injEq] at hlast
  exact h hlast

/-- Checkpoint `c` is the only one without an answer. -/
def Asks (x : RunState) (c : Id) (state : CheckpointState) : Prop :=
  x.checkpoints c = some state ∧ state.consumed = false ∧
    ∀ k other, x.checkpoints k = some other → other.consumed = false → k = c

def Answered (x : RunState) : Prop := ∀ k state, x.checkpoints k = some state → state.consumed = true

variable {state : CheckpointState} {c : Id} {code : Option String}

section Mirror

variable [Browser] (stamp : Time → String) (r : RunId) (threadId : String)

/-- What the view of its journal says about a run that goes on. -/
structure Going (x : RunState) : Prop where
  follows : Follows r threadId x.last (projected stamp r threadId x.journal)
  going : (projected stamp r threadId x.journal).terminal = false
  cancelling : x.status = .cancelling →
    (projected stamp r threadId x.journal).status = .cancelling
  idle : x.status = .waitingInput → x.owner = none
  asks : Paused x → ∃ c state, Asks x c state ∧
    (projected stamp r threadId x.journal).pendingHitl.bind RunHitlState.hitlToken =
      some state.hitlToken
  silent : ¬ Paused x → (projected stamp r threadId x.journal).pendingHitl = none
  answered : ¬ Paused x → Answered x

/-- What the view of its journal says about a run. -/
structure Mirrors (x : RunState) : Prop where
  going : x.status.terminal = false → Going stamp r threadId x
  ended : x.status.terminal = true →
    Ended x.status x.reply.content (projected stamp r threadId x.journal)
  told : x.status.terminal = true → ∃ e ∈ x.journal, e.type = .messageCompleted ∧
    e.data.get? "content" = some (.str x.reply.content)

variable {stamp r threadId} {y : RunState}

theorem Going.mirrors (h : Going stamp r threadId x) (hx : x.status.terminal = false) :
    Mirrors stamp r threadId x :=
  ⟨fun _ => h, fun hterm => Bool.noConfusion (hx.symm.trans hterm),
    fun hterm => Bool.noConfusion (hx.symm.trans hterm)⟩

/-- One more event of a run that has nothing to ask. -/
theorem going_record (hf : Follows r threadId x.last (projected stamp r threadId x.journal))
    (htype : type.terminal = false) (hask : type ≠ .hitlRequired)
    (hgoing : (reduceEvent (projected stamp r threadId x.journal)
      (eventAt stamp r threadId (x.last + 1) type data clock)).terminal = false)
    (hcancel : x.status = .cancelling → (reduceEvent (projected stamp r threadId x.journal)
      (eventAt stamp r threadId (x.last + 1) type data clock)).status = .cancelling)
    (hidle : x.status = .waitingInput → x.owner = none)
    (hsilent : (reduceEvent (projected stamp r threadId x.journal)
      (eventAt stamp r threadId (x.last + 1) type data clock)).pendingHitl = none)
    (hanswered : Answered x) : Going stamp r threadId (x.record r type data clock) := by
  have hview : projected stamp r threadId (x.record r type data clock).journal = _ :=
    projected_record hf
  refine ⟨hf.record htype, ?_, ?_, hidle, fun hp => absurd hp (not_paused_record hask), ?_,
    fun _ => hanswered⟩
  · rw [hview]
    exact hgoing
  · rw [hview]
    exact hcancel
  · intro _
    rw [hview]
    exact hsilent

/-! ### Moves -/

section

variable (h : Going stamp r threadId x)

include h

theorem Going.start (hx : x.status ≠ .waitingInput) (worker : String)
    (lease : Time) : Going stamp r threadId ((x.taken worker lease).record r .runStarted data clock) :=
  going_record (x := x.taken worker lease) h.follows rfl (by decide) h.going nofun nofun
    (h.silent (not_paused hx)) (h.answered (not_paused hx))

/-- `run.started` of a run that a worker holds already. -/
theorem Going.restart (hx : x.status = .running) :
    Going stamp r threadId (x.record r .runStarted data clock) := by
  have hquiet : ¬ Paused x := not_paused (by rw [hx]; decide)
  exact going_record h.follows rfl (by decide) h.going (fun heq => by rw [hx] at heq; cases heq)
    h.idle (h.silent hquiet) (h.answered hquiet)

theorem Going.renew (lease : Option Time) : Going stamp r threadId { x with lease := lease } :=
  ⟨h.follows, h.going, h.cancelling, h.idle, h.asks, h.silent, h.answered⟩

theorem Going.suspend {worker : String}
    (howner : x.owner = some worker) : Going stamp r threadId
      (((x.released .waitingInput).replying .waitingInput).record r .runWaitingInput data clock) := by
  have hx : x.status ≠ .waitingInput := by
    intro hwaiting
    rw [h.idle hwaiting] at howner
    cases howner
  exact going_record (x := (x.released .waitingInput).replying .waitingInput) h.follows rfl
    (by decide) h.going nofun (fun _ => rfl) (h.silent (not_paused hx)) (h.answered (not_paused hx))

/-- An accepted answer was the only one missing. -/
theorem Going.accept
    (hc : x.checkpoints c = some state) (hopen : state.consumed = false) (key answer : Option String) :
    Answered (x.setCheckpoint c { state with consumed := true, key := key, answer := answer }) := by
  have hpaused : Paused x := by
    by_contra hp
    rw [h.answered hp c state hc] at hopen
    cases hopen
  obtain ⟨c', state', ⟨-, -, honly⟩, -⟩ := h.asks hpaused
  intro k other hk
  by_cases hkc : k = c
  · subst hkc
    rw [RunState.setCheckpoint_checkpoints, Function.update_self] at hk
    rw [← Option.some.inj hk]
  · rw [RunState.setCheckpoint_checkpoints, Function.update_of_ne hkc] at hk
    by_contra hother
    rw [Bool.not_eq_true] at hother
    exact hkc ((honly k other hk hother).trans (honly c state hc hopen).symm)

end

section

variable (hf : Follows r threadId x.last (projected stamp r threadId x.journal))

include hf

variable (hgoing : (projected stamp r threadId x.journal).terminal = false)

include hgoing

/-- `hitl.resumed` withdraws the question. -/
theorem going_resumed (hcancel : x.status ≠ .cancelling) (hwait : x.status ≠ .waitingInput)
    (hanswered : Answered x) : Going stamp r threadId (x.record r .hitlResumed data clock) :=
  going_record hf rfl (by decide) hgoing (fun heq => absurd heq hcancel)
    (fun heq => absurd heq hwait) rfl hanswered

/-- `hitl.required` asks under the token of the checkpoint. -/
theorem going_required (hx : x.status = .waitingInput) (howner : x.owner = none)
    (hasks : Asks x c state) (hdata : data.get? "hitl_token" = some (.str state.hitlToken))
    (htoken : Generated state.hitlToken) :
    Going stamp r threadId (x.record r .hitlRequired data clock) := by
  have hview : projected stamp r threadId (x.record r .hitlRequired data clock).journal = _ :=
    projected_record hf
  have hpaused : Paused (x.record r .hitlRequired data clock) := by
    refine ⟨hx, ?_⟩
    simp [RunState.record_journal]
  refine ⟨hf.record rfl, ?_, ?_, fun _ => howner, fun _ => ⟨c, state, hasks, ?_⟩,
    fun hp => absurd hpaused hp, fun hp => absurd hpaused hp⟩
  · rw [hview]
    exact hgoing
  · intro hcancel
    rw [RunState.record_status, hx] at hcancel
    cases hcancel
  · rw [hview]
    change safeString (data.get? "hitl_token") = some state.hitlToken
    rw [hdata]
    exact safeString_generated htoken

end

section

variable (h : Going stamp r threadId x)

include h

/-- A run that pauses asks under the token of its new checkpoint. -/
theorem Going.pause (hx : x.status = .running) {name token : String} {waiting required : Dict}
    (hrequired : required.get? "hitl_token" = some (.str token)) (htoken : Generated token) :
    Going stamp r threadId (((((x.setCheckpoint c ⟨name, token, false, none, none⟩).released
      .waitingInput).replying .waitingInput).record r .runWaitingInput waiting clock).record r
        .hitlRequired required clock) := by
  have hquiet : Answered x := h.answered (not_paused (by rw [hx]; decide))
  have hasks : Asks (x.setCheckpoint c ⟨name, token, false, none, none⟩) c
      ⟨name, token, false, none, none⟩ := by
    refine ⟨Function.update_self .., rfl, fun k other hk hother => ?_⟩
    by_contra hkc
    rw [RunState.setCheckpoint_checkpoints, Function.update_of_ne hkc] at hk
    rw [hquiet k other hk] at hother
    cases hother
  refine going_required (Follows.record h.follows rfl) ?_ rfl rfl hasks hrequired htoken
  have hfirst : projected stamp r threadId
      ((((x.setCheckpoint c ⟨name, token, false, none, none⟩).released .waitingInput).replying
        .waitingInput).record r .runWaitingInput waiting clock).journal = _ :=
    projected_record h.follows
  rw [hfirst]
  exact h.going

theorem Going.mark (hquiet : ¬ Paused x)
    (hdata : data.get? "code" = some (.str "CANCEL_REQUESTED")) : Going stamp r threadId
      ({ x with status := .cancelling }.record r .warningCreated data clock) := by
  refine going_record (x := { x with status := .cancelling }) h.follows rfl (by decide) h.going
    (fun _ => ?_) nofun (h.silent hquiet) (h.answered hquiet)
  exact if_pos hdata

theorem Going.note (hx : x.status ≠ .waitingInput)
    (htype : streamed type = true) : Going stamp r threadId (x.record r type data clock) := by
  obtain ⟨hstatus, hsilent, hgoing⟩ := reduceEvent_streamed (projected stamp r threadId x.journal)
    (eventAt stamp r threadId (x.last + 1) type data clock) rfl htype
  have hask : type ≠ .hitlRequired := by
    rintro rfl
    cases htype
  exact going_record h.follows (streamed_going htype) hask (hgoing.trans h.going)
    (fun hcancel => hstatus.trans (h.cancelling hcancel)) h.idle
    (hsilent.trans (h.silent (not_paused hx))) (h.answered (not_paused hx))

end

section

variable (hf : Follows r threadId x.last (projected stamp r threadId x.journal))

include hf

theorem Follows.used
    (usage : Option Dict) : Follows r threadId (x.used r usage clock).last
      (projected stamp r threadId (x.used r usage clock).journal) := by
  cases usage with
  | none => exact hf
  | some usage => exact hf.record rfl

/-- The message of a finished run is the last text that its view shows. -/
theorem Follows.ended (hstatus : status.terminal = true) {reply : Reply} {e : Closing}
    (hshows : e.Shows reply code) :
    Ended status reply.content (projected stamp r threadId
      ((x.record r .messageCompleted e.message e.clock).record r (terminalType status) e.final
        e.clock).journal) := by
  have htext : (reduceEvent (projected stamp r threadId x.journal) (eventAt stamp r threadId
      (x.last + 1) .messageCompleted e.message e.clock)).messageText = reply.content := by
    change ((orElse (e.message.get? "content") none).map textOf).getD _ = reply.content
    rw [hshows.content]
    rfl
  rw [projected_record (hf.record rfl), projected_record hf, ← htext]
  exact reduceEvent_ended hstatus

end

theorem Going.finish (h : Going stamp r threadId x)
    (hstatus : status.terminal = true) {reply : Reply} {e : Closing}
    (hshows : e.Shows reply code) : Mirrors stamp r threadId (x.closed r status reply e) where
  going hterm := by
    rw [RunState.closed_status, hstatus] at hterm
    cases hterm
  ended _ := by
    rw [RunState.closed_status, RunState.closed_reply]
    exact Follows.ended (Follows.used
      (x := { x with status := status, lease := none, reply := reply }) h.follows e.usage)
      hstatus hshows
  told _ := by
    rw [RunState.closed_reply]
    exact ⟨_, List.mem_append_left _ (List.mem_append_right _ List.mem_cons_self), rfl,
      hshows.content⟩

/-! ### Whole runs -/

theorem fresh_mirrors (h : x.Fresh r) (hstatus : x.status = .pending ∨ x.status = .queued) :
    Mirrors stamp r threadId x := by
  obtain ⟨data, clock, hjournal⟩ := h.journal
  have hwait : x.status ≠ .waitingInput := by
    rcases hstatus with hs | hs <;> rw [hs] <;> decide
  have hcancel : x.status ≠ .cancelling := by
    rcases hstatus with hs | hs <;> rw [hs] <;> decide
  have hstart : Follows r threadId 0 (initialRunEventState r threadId) := ⟨rfl, rfl, rfl, rfl⟩
  have hview : projected stamp r threadId x.journal = reduceEvent (initialRunEventState r threadId)
      (eventAt stamp r threadId 1 .runCreated data clock) := by
    rw [hjournal]
    exact hstart.apply
  refine Going.mirrors ⟨?_, ?_, fun heq => absurd heq hcancel, fun heq => absurd heq hwait,
    fun hp => absurd hp.1 hwait, fun _ => ?_, fun _ k state hk => ?_⟩ ?_
  · rw [hview, h.last]
    exact hstart.reduce rfl
  · rw [hview]
    rfl
  · rw [hview]
    rfl
  · rw [h.checkpoints] at hk
    cases hk
  · rcases hstatus with hs | hs <;> rw [hs] <;> rfl

theorem promoted_mirrors (hq : x.status = .queued) (h : Mirrors stamp r threadId x) :
    Mirrors stamp r threadId ({ x with status := .pending }.replying .streaming) := by
  have hx := h.going (by rw [hq]; rfl)
  have hquiet : ¬ Paused x := not_paused (by rw [hq]; decide)
  exact Going.mirrors ⟨hx.follows, hx.going, nofun, nofun, fun hp => (nomatch hp.1),
    fun _ => hx.silent hquiet, fun _ => hx.answered hquiet⟩ rfl

theorem Move.mirrors {deed : Deed} (hm : Move r deed x y) (hmark : deed ≠ .mark)
    (hpause : ∀ worker token, deed ≠ .pause worker token)
    (hnote : ∀ worker token type, deed = .note worker token type → streamed type = true)
    (h : Going stamp r threadId x) : Mirrors stamp r threadId y := by
  cases hm with
  | start hstatus =>
    refine (h.start ?_ _ _).mirrors rfl
    rcases hstatus with hs | hs <;> rw [hs] <;> decide
  | renew _ _ hstatus =>
    refine (h.renew _).mirrors ?_
    rcases hstatus with hs | hs <;> rw [hs] <;> rfl
  | suspend howner => exact (h.suspend howner).mirrors rfl
  | pause => exact absurd rfl (hpause _ _)
  | accept _ hc hopen =>
    refine Going.mirrors ?_ rfl
    refine going_resumed ?_ ?_ nofun nofun ?_
    · exact h.follows
    · exact h.going
    · exact h.accept hc hopen _ _
  | acceptStart _ hc hopen =>
    refine Going.mirrors ?_ rfl
    refine Going.restart ?_ rfl
    refine going_resumed ?_ ?_ nofun nofun ?_
    · exact h.follows
    · exact h.going
    · exact h.accept hc hopen _ _
  | resume hstatus => exact (h.start (by rw [hstatus]; decide) _ _).mirrors rfl
  | mark => exact absurd rfl hmark
  | note _ _ hstatus =>
    refine (h.note ?_ (hnote _ _ _ rfl)).mirrors ?_
    · rcases hstatus with hs | hs <;> rw [hs] <;> decide
    · rw [RunState.record_status]
      rcases hstatus with hs | hs <;> rw [hs] <;> rfl
  | finish _ htarget _ _ hshows => exact h.finish (endStatus_terminal htarget) hshows

end Mirror

/-! ## Agreement -/

/-- The replies that the journal of a run shows are texts that the engine leaves alone. -/
def ShowsClean [Platform] (s : Store) (r : RunId) : Prop :=
  ∀ e ∈ s.eventsOf r, e.type = .messageCompleted →
    ∀ text, e.data.get? "content" = some (.str text) →
    cleanText text = text

/-- What the browser should show of the stored run. -/
structure Agrees [Platform] (s : Store) (r : RunId) (run : Run) (view : RunEventState) : Prop where
  terminal : view.terminal = true ↔ run.status.terminal = true
  status : run.status.terminal = true → view.status = endedStatus run.status
  text : run.status.terminal = true → ∃ message,
    run.assistantMessageId.bind s.messages.get = some message ∧
    view.messageText = message.stored.content
  settled : run.status.terminal = true → ∀ item ∈ view.timeline, item.status ≠ .running
  cancelling : run.status = .cancelling → view.status = .cancelling
  asks : Paused (s.view r run) → ∃ c row, s.checkpoints.get c = some row ∧ row.runId = r ∧
    row.consumedAt = none ∧
    (∀ k other, s.checkpoints.get k = some other → other.runId = r → other.consumedAt = none → k = c) ∧
    view.pendingHitl.bind RunHitlState.hitlToken = some row.hitlToken
  silent : ¬ Paused (s.view r run) → view.pendingHitl = none

section Agreement

variable [Browser] [Platform]
  {stamp : Time → String} {r : RunId} {threadId : String} {s : Store} {run : Run}

omit [Browser] [Platform] in
/-- A question on the board is one of the stored checkpoints. -/
theorem asks_row (h : Asks (s.view r run) c state) :
    ∃ row, s.checkpoints.get c = some row ∧ row.runId = r ∧ row.consumedAt = none ∧
      (∀ k other, s.checkpoints.get k = some other → other.runId = r → other.consumedAt = none →
        k = c) ∧ row.hitlToken = state.hitlToken := by
  obtain ⟨hc, hopen, honly⟩ := h
  obtain ⟨row, hrow, hrun, rfl⟩ := checkpointsOf_eq_some.mp hc
  refine ⟨row, hrow, hrun, Option.isSome_eq_false_iff.mp hopen |> Option.isNone_iff_eq_none.mp, ?_, rfl⟩
  intro k other hk hother hnone
  refine honly k other.entry (checkpointsOf_eq_some.mpr ⟨other, hk, hother, rfl⟩) ?_
  simp [RunCheckpoint.entry, hnone]

theorem Mirrors.agrees (hw : s.Wf) (hr : s.runs.get r = some run) (hclean : ShowsClean s r)
    (h : Mirrors stamp r threadId (s.view r run)) :
    Agrees s r run (projected stamp r threadId (s.eventsOf r)) := by
  obtain ⟨m, hm, hne⟩ := hw.reply r run hr
  obtain ⟨message, hmessage⟩ := Option.ne_none_iff_exists'.mp hne
  have hreply : (s.view r run).reply.content = message.content := by
    simp [Store.view, Store.replyOf, hm, hmessage, Message.reply]
  cases hterm : run.status.terminal with
  | true =>
    have hended := h.ended hterm
    obtain ⟨e, he, htype, hcontent⟩ := h.told hterm
    have hstored : (s.view r run).reply.content = message.stored.content := by
      rw [← hclean e he htype _ hcontent, hreply]
      rfl
    have hquiet : ¬ Paused (s.view r run) := fun hp => by
      rw [show run.status = .waitingInput from hp.1] at hterm
      cases hterm
    refine ⟨⟨fun _ => hterm, fun _ => hended.terminal⟩, fun _ => hended.status,
      fun _ => ⟨message, by simp [hm, hmessage], hended.text.trans hstored⟩,
      fun _ => hended.settled, fun hcancel => ?_, fun hp => absurd hp hquiet,
      fun _ => hended.silent⟩
    rw [hcancel] at hterm
    cases hterm
  | false =>
    have hgoing := h.going hterm
    have hopen : ¬ run.status.terminal = true := by rw [hterm]; decide
    refine ⟨⟨fun hview => ?_, fun hend => absurd hend hopen⟩, fun hend => absurd hend hopen,
      fun hend => absurd hend hopen, fun hend => absurd hend hopen, hgoing.cancelling,
      fun hp => ?_, hgoing.silent⟩
    · rw [show (projected stamp r threadId (s.eventsOf r)).terminal = false from
        hgoing.going] at hview
      cases hview
    · obtain ⟨c, state, hasks, htoken⟩ := hgoing.asks hp
      obtain ⟨row, hrow, hrun, hnone, honly, hsame⟩ := asks_row hasks
      exact ⟨c, row, hrow, hrun, hnone, honly, hsame ▸ htoken⟩

variable [ErrorCodec]

omit [Browser] [Platform] in
/-- A call does not mark run `r` as being cancelled while it waits for an answer. -/
def SparesPaused (r : RunId) (s : System) (call : Call) : Prop :=
  Call.Does call.env s call.op r .mark → ∀ run, s.store.runs.get r = some run →
    ¬ Paused (s.store.view r run)

/-- In every run of the backend that marks no paused run as being cancelled and whose reply the
engine stores as it is, the view of the journal agrees with the stored run. -/
theorem projection_agrees (users : Table Id User) (calls : List Call) (stamp : Time → String)
    (r : RunId)
    (happend : ∀ call ∈ calls, ∀ type data worker token,
      call.op = .append r type data worker token → streamed type = true)
    (htoken : ∀ call ∈ calls, Generated call.env.hitlToken)
    (hspares : Machine.Along exec (SparesPaused r) ⟨Store.initial users, []⟩ calls)
    (hclean : ShowsClean (after users calls).store r)
    (run : Run) (threadId : String) (hr : (after users calls).store.runs.get r = some run) :
    Agrees (after users calls).store r run
      (projected stamp r threadId ((after users calls).store.eventsOf r)) := by
  have hcalls : Machine.Along exec (fun _ call => (∀ type data worker token,
      call.op = .append r type data worker token → streamed type = true) ∧
      Generated call.env.hitlToken) ⟨Store.initial users, []⟩ calls :=
    Machine.along_of_mem fun call hcall _ => ⟨happend call hcall, htoken call hcall⟩
  refine Mirrors.agrees (after_wf users calls) hr hclean ?_
  refine after_told (P := fun x => Mirrors stamp r threadId x)
    (fun x hfresh hstatus => fresh_mirrors hfresh hstatus) (fun s call deed x y hok hx hdoes htold h => ?_)
    (fun x hq h => promoted_mirrors hq h) (hcalls.and hspares) _ (Store.board_of_run hr)
  obtain ⟨⟨hstreamed, hgenerated⟩, hspare⟩ := hok
  cases htold with
  | pause hstatus hrequired =>
    exact (Going.pause (h.going (by rw [hstatus]; rfl)) hstatus hrequired hgenerated).mirrors rfl
  | mark hstatus hdata =>
    obtain ⟨run', hrun', rfl⟩ := Store.run_of_board hx
    refine (Going.mark (h.going ?_) (hspare hdoes run' hrun') hdata).mirrors rfl
    rcases hstatus with hs | hs | hs <;> rw [hs] <;> rfl
  | other hmark hpause hm =>
    refine Move.mirrors hm hmark hpause (fun worker token type hdeed => ?_) (h.going hm.not_terminal)
    obtain ⟨data, hop⟩ := does_note (hdeed ▸ hdoes)
    exact hstreamed type data worker token hop

end Agreement

/-! ### Pauses and requests to cancel -/

namespace Sample

open PlainPlatform PlainBrowser Runs.Sample

def drawn (call : Call) : Call :=
  { call with env := { call.env with hitlToken := "hitl_0123456789abcdef0123456789abcdef" } }

def asking : List Call :=
  [drawn (ask 1 "a"), drawn (take 2 "a" "w"), drawn (pause 3 "a" "w" 3)]

def replying : List Call :=
  [drawn (ask 1 "a"), drawn (take 2 "a" "w"), drawn (finish 3 "a" (some 3) .succeeded)]

/-- The request to cancel reads the running run and writes after the pause. -/
def overtaken : List Call :=
  [drawn (ask 1 "a"), drawn (take 2 "a" "w"), drawn ⟨env 3 "a", .readCancel "user" "a"⟩,
    drawn (pause 4 "a" "w" 3), drawn ⟨env 5 "a", .writeCancel 0⟩]

def stored (calls : List Call) : Store := (after users calls).store

def shown (calls : List Call) : RunEventState :=
  projected toString "a" "thread" ((stored calls).eventsOf "a")

end Sample

section Sampled

open PlainPlatform PlainBrowser Sample

theorem sampled_calls {call : Call} (h : call ∈ asking ++ replying) :
    (∀ type data worker token,
      call.op = .append "a" type data worker token → streamed type = true) ∧
      Generated call.env.hitlToken ∧ ∀ s, SparesPaused "a" s call := by
  have htoken : Generated "hitl_0123456789abcdef0123456789abcdef" :=
    ⟨"0123456789abcdef0123456789abcdef".toList, by decide, by decide,
      List.all_iff_forall_prop.mp (by decide)⟩
  simp only [asking, replying, List.mem_append, List.mem_cons, List.not_mem_nil, or_false] at h
  rcases h with (rfl | rfl | rfl) | (rfl | rfl | rfl) <;>
    exact ⟨fun _ _ _ _ hop => (by cases hop), htoken, fun _ hdoes => (by cases hdoes)⟩

theorem showsClean_of_text {calls : List Call} (h : ∀ e ∈ (stored calls).eventsOf "a",
    e.type = .messageCompleted → e.data.get? "content" = some (.str "text")) :
    ShowsClean (stored calls) "a" := by
  intro e he htype text htext
  obtain rfl : "text" = text := by simpa using (h e he htype).symm.trans htext
  decide +kernel

/-- A paused run shows its question under the token of its checkpoint, and an ended one the
reply. -/
theorem projection_agrees_asking :
    (∃ run c row, (stored asking).runs.get "a" = some run ∧ run.status = .waitingInput ∧
      (stored asking).checkpoints.get c = some row ∧ row.consumedAt = none ∧
      (shown asking).pendingHitl.bind RunHitlState.hitlToken = some row.hitlToken) ∧
    ∃ run message, (stored replying).runs.get "a" = some run ∧ run.status = .succeeded ∧
      run.assistantMessageId.bind (stored replying).messages.get = some message ∧
      (shown replying).messageText = message.stored.content := by
  have hstatus : ((stored asking).runs.get "a").map Run.status = some .waitingInput := by
    decide +kernel
  have hended : ((stored replying).runs.get "a").map Run.status = some .succeeded := by
    decide +kernel
  obtain ⟨run, hr, hwaiting⟩ := Option.map_eq_some_iff.mp hstatus
  obtain ⟨run', hr', hcompleted⟩ := Option.map_eq_some_iff.mp hended
  have hlast : ((stored asking).eventsOf "a").getLast?.map RunEvent.type = some .hitlRequired := by
    decide +kernel
  have hsample {call : Call} (h : call ∈ asking) := sampled_calls (List.mem_append_left _ h)
  have hsample' {call : Call} (h : call ∈ replying) := sampled_calls (List.mem_append_right _ h)
  obtain ⟨c, row, hrow, -, hnone, -, htoken⟩ := (projection_agrees _ asking toString "a"
    (fun _ h => (hsample h).1) (fun _ h => (hsample h).2.1)
    (Machine.along_of_mem fun _ h => (hsample h).2.2) (showsClean_of_text (by decide +kernel)) run
    "thread" hr).asks ⟨hwaiting, hlast⟩
  obtain ⟨message, hmessage, htext⟩ := (projection_agrees _ replying toString "a"
    (fun _ h => (hsample' h).1) (fun _ h => (hsample' h).2.1)
    (Machine.along_of_mem fun _ h => (hsample' h).2.2) (showsClean_of_text (by decide +kernel)) run'
    "thread" hr').text (by rw [hcompleted]; rfl)
  exact ⟨⟨run, c, row, hr, hwaiting, hrow, hnone, htoken⟩,
    run', message, hr', hcompleted, hmessage, htext⟩

/-- A request to cancel that a pause overtakes leaves a question on a run that is being
cancelled. -/
theorem question_of_cancelling_run :
    ((stored Sample.overtaken).runs.get "a").map Run.status = some .cancelling ∧
      (shown Sample.overtaken).pendingHitl.bind RunHitlState.hitlToken =
        some "hitl_0123456789abcdef0123456789abcdef" := by
  decide +kernel

end Sampled

end SuperMew.Frontend
