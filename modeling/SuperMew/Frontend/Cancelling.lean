import SuperMew.Frontend.RunEvents

/-! A request to cancel a run that fails after some events. An event replaces the object of its
run in the store, a request to cancel writes to the object that it found there. -/

namespace SuperMew.Frontend

/-- `applyRunEvent` returns the object that it is given. -/
abbrev Returns (state : RunEventState) (event : RuntimeRunEvent) : Prop :=
  (event.runId ≠ state.runId ∨ event.threadId ≠ state.threadId ∨
      event.sequence ≤ state.lastSequence ∨ state.terminalSequence ≠ none) ∨
    event.sequence ≠ state.lastSequence + 1 ∧ state.hasGap = true

/-- The objects that `byId` has held for one run, by their addresses; it holds the last one. -/
structure RunObjects where
  runId : String
  objects : List RunEventState
  own : ∀ state ∈ objects, state.runId = runId

/-- The object that `cancel` holds while its request is pending, and what it had before. -/
structure PendingRequest where
  address : ℕ
  status : RunLifecycleStatus
  terminal : Bool
  error : Option PublicErrorInfo

namespace RunObjects

variable (run : RunObjects)

def current : Option RunEventState := run.objects.getLast?

/-- A new object for the run. -/
def add (state : RunEventState) (h : state.runId = run.runId) : RunObjects where
  runId := run.runId
  objects := run.objects ++ [state]
  own := List.forall_mem_append.mpr ⟨run.own, List.forall_mem_singleton.mpr h⟩

/-- A changed copy in the place of the object, if there is one. -/
def replace (change : RunEventState → RunEventState)
    (h : ∀ state, (change state).runId = state.runId) : RunObjects where
  runId := run.runId
  objects := run.objects ++ (run.current.map change).toList
  own := by
    refine List.forall_mem_append.mpr ⟨run.own, fun state hstate => ?_⟩
    obtain ⟨last, hlast, rfl⟩ := Option.map_eq_some_iff.mp (Option.mem_toList.mp hstate)
    exact (h last).trans (run.own last (List.mem_of_getLast? hlast))

/-- The fields of an object that `cancel` writes. -/
def write (address : ℕ) (status : RunLifecycleStatus) (terminal : Bool)
    (error : Option PublicErrorInfo) : RunObjects where
  runId := run.runId
  objects := run.objects.modify address fun state => { state with status, terminal, error }
  own := by
    intro state hstate
    obtain ⟨i, hi⟩ := List.mem_iff_getElem?.mp hstate
    rw [List.getElem?_modify] at hi
    obtain ⟨before, hbefore, rfl⟩ := Option.map_eq_some_iff.mp hi
    have hown := run.own before (List.mem_of_getElem? hbefore)
    split <;> exact hown

def ensure (threadId : String) : RunObjects :=
  match run.current with
  | some _ => run
  | none => run.add (initialRunEventState run.runId threadId) rfl

/-- `cancel` up to its request. -/
def beginCancel : RunObjects × Option PendingRequest :=
  match run.current with
  | none => (run, none)
  | some state =>
    let address := run.objects.length - 1
    (if state.terminal then run else run.write address .cancelling state.terminal state.error,
      some ⟨address, state.status, state.terminal, state.error⟩)

/-- `cancel` after its request has failed. -/
def failCancel : Option PendingRequest → RunObjects
  | none => run
  | some held =>
    if run.objects[held.address]?.any (·.terminal) then run
    else run.write held.address held.status held.terminal held.error

end RunObjects

variable {events : List RuntimeRunEvent} {state : RunEventState} {old : List RunEventState}
  {run : RunObjects} {rest : List RunEventState}

theorem write_length (status : RunLifecycleStatus)
    (terminal : Bool) (error : Option PublicErrorInfo) (hrun : run.objects = old ++ state :: rest) :
    (run.write old.length status terminal error).objects =
      old ++ { state with status, terminal, error } :: rest := by
  change run.objects.modify old.length _ = _
  rw [hrun]
  clear hrun
  induction old <;> simp_all

theorem beginCancel_open (hrun : run.objects = old ++ [state]) (h : state.terminal = false) :
    run.beginCancel.1.objects = old ++ [{ state with status := .cancelling }] ∧
      run.beginCancel.2 = some ⟨old.length, state.status, state.terminal, state.error⟩ := by
  simp [RunObjects.beginCancel, RunObjects.current, hrun, h, write_length _ _ _ hrun]

variable {status : RunLifecycleStatus}

theorem failCancel_open
    (hrun : run.objects = old ++ { state with status } :: rest) (h : state.terminal = false) :
    (run.failCancel (some ⟨old.length, state.status, state.terminal, state.error⟩)).objects =
      old ++ state :: rest := by
  rw [RunObjects.failCancel, if_neg (by simp [hrun, h]), write_length _ _ _ hrun]

section

variable [Browser]

theorem applyRunEvent_runId (state : RunEventState) (event : RuntimeRunEvent) :
    (applyRunEvent state event).runId = state.runId := by
  unfold applyRunEvent
  split_ifs
  · rfl
  · rfl
  · rfl
  · exact (reduceEvent_frame state event).1

/-- `apply`, as the objects of one run see it. -/
def RunObjects.apply (run : RunObjects) (event : RuntimeRunEvent) : RunObjects :=
  if event.runId ≠ run.runId then run
  else
    let run := run.ensure event.threadId
    if run.current.any fun state => Returns state event then run
    else run.replace (applyRunEvent · event) fun state => applyRunEvent_runId state event

/-- A request to cancel that fails after the events. -/
def RunObjects.cancelAround (run : RunObjects) (events : List RuntimeRunEvent) : RunObjects :=
  (events.foldl RunObjects.apply run.beginCancel.1).failCancel run.beginCancel.2

/-! ## Objects -/

theorem Returns.same {event : RuntimeRunEvent} (h : Returns state event) :
    applyRunEvent state event = state := by
  unfold applyRunEvent
  grind

theorem apply_concat (hrun : run.objects = old ++ [state]) (event : RuntimeRunEvent) :
    (run.apply event).objects = if Returns state event then old ++ [state]
      else old ++ [state] ++ [applyRunEvent state event] := by
  have hown : state.runId = run.runId := run.own state (by simp [hrun])
  have hcurrent : run.current = some state := by rw [RunObjects.current, hrun, List.getLast?_concat]
  unfold RunObjects.apply
  by_cases hother : event.runId ≠ run.runId
  · rw [if_pos hother, if_pos (.inl (.inl (hown ▸ hother))), hrun]
  · rw [if_neg hother]
    by_cases hreturns : Returns state event <;>
      simp [RunObjects.ensure, RunObjects.replace, hcurrent, hreturns, hrun]

theorem foldl_returned (hrun : run.objects = old ++ [state])
    (h : ∀ event ∈ events, Returns state event) :
    (events.foldl RunObjects.apply run).objects = old ++ [state] ∧
      events.foldl applyRunEvent state = state := by
  induction events generalizing run with
  | nil => exact ⟨hrun, rfl⟩
  | cons event events ih =>
    obtain ⟨hevent, hevents⟩ := List.forall_mem_cons.mp h
    rw [List.foldl_cons, List.foldl_cons, hevent.same]
    exact ih (by rw [apply_concat hrun, if_pos hevent]) hevents

/-- Once an event has replaced the object, the run has a copy with all events applied. -/
theorem foldl_copied (hrun : run.objects = old ++ [state])
    (h : ¬ ∀ event ∈ events, Returns state event) :
    ∃ copies, (events.foldl RunObjects.apply run).objects =
      old ++ state :: (copies ++ [events.foldl applyRunEvent state]) := by
  induction events generalizing run old state with
  | nil => simp at h
  | cons event events ih =>
    have hnext := apply_concat hrun event
    rw [List.foldl_cons, List.foldl_cons]
    by_cases hevent : Returns state event
    · rw [if_pos hevent] at hnext
      rw [hevent.same]
      exact ih hnext fun hevents => h (List.forall_mem_cons.mpr ⟨hevent, hevents⟩)
    · rw [if_neg hevent] at hnext
      by_cases hall : ∀ event' ∈ events, Returns (applyRunEvent state event) event'
      · obtain ⟨hlater, hlast⟩ := foldl_returned hnext hall
        rw [hlater, hlast]
        exact ⟨[], by simp⟩
      · obtain ⟨copies, hlater⟩ := ih hnext hall
        exact ⟨applyRunEvent state event :: copies, by simpa using hlater⟩

/-! ## The status -/

def setsStatus (event : RuntimeRunEvent) : Bool :=
  match event.type with
  | .known .runCreated | .known .runStarted | .known .runWaitingInput | .known .runCompleted
  | .known .runFailed | .known .runCancelled | .known .hitlRequired | .known .hitlResumed => true
  | .known .warningCreated => event.data.get? "code" = some (Json.str "CANCEL_REQUESTED")
  | _ => false

/-- The event is the next one of an open view. -/
def Takes (state : RunEventState) (event : RuntimeRunEvent) : Prop :=
  event.runId = state.runId ∧ event.threadId = state.threadId ∧
    event.sequence = state.lastSequence + 1 ∧ state.terminalSequence = none

/-- An event that is taken says what the status is. -/
def StatusWritten : RunEventState → List RuntimeRunEvent → Prop
  | _, [] => False
  | state, event :: events =>
    Takes state event ∧ setsStatus event ∨ StatusWritten (applyRunEvent state event) events

theorem reduceEvent_status (state : RunEventState) (event : RuntimeRunEvent)
    (status : RunLifecycleStatus) :
    reduceEvent { state with status } event = if setsStatus event then reduceEvent state event
      else { reduceEvent state event with status } := by
  obtain ⟨runId, threadId, sequence, type, timestamp, data⟩ := event
  cases type with
  | unknown name => rfl
  | known type =>
    cases type
    case toolProgress =>
      simp only [reduceEvent]
      split <;> rfl
    case artifactCreated =>
      simp only [reduceEvent]
      split <;> rfl
    case warningCreated =>
      simp only [reduceEvent, setsStatus, decide_eq_true_eq]
      split <;> rfl
    all_goals rfl

theorem applyRunEvent_status (state : RunEventState) (event : RuntimeRunEvent)
    (status : RunLifecycleStatus) :
    (Takes state event ∧ setsStatus event →
        applyRunEvent { state with status } event = applyRunEvent state event) ∧
      (¬ (Takes state event ∧ setsStatus event) → applyRunEvent { state with status } event =
        { applyRunEvent state event with status }) := by
  by_cases htakes : Takes state event
  · have htaken (state' : RunEventState) (h : Takes state' event) :
        applyRunEvent state' event = reduceEvent state' event := by
      obtain ⟨hrun, hthread, hnext, hopen⟩ := h
      simp [applyRunEvent, hrun, hthread, hnext, hopen]
    rw [htaken state htakes, htaken { state with status } htakes, reduceEvent_status]
    simp only [htakes, true_and]
    split <;> simp_all
  · refine ⟨fun h => absurd h.1 htakes, fun _ => ?_⟩
    unfold applyRunEvent
    dsimp only
    split
    · rfl
    · rename_i hguard
      have hnext : event.sequence ≠ state.lastSequence + 1 := by
        unfold Takes at htakes
        grind
      rw [if_pos hnext, if_pos hnext]
      split <;> rfl

theorem foldl_status (status : RunLifecycleStatus) (state : RunEventState)
    (events : List RuntimeRunEvent) :
    (StatusWritten state events →
        events.foldl applyRunEvent { state with status } = events.foldl applyRunEvent state) ∧
      (¬ StatusWritten state events → events.foldl applyRunEvent { state with status } =
        { events.foldl applyRunEvent state with status }) := by
  induction events generalizing state with
  | nil => exact ⟨fun h => h.elim, fun _ => rfl⟩
  | cons event events ih =>
    obtain ⟨hset, hkept⟩ := applyRunEvent_status state event status
    simp only [List.foldl_cons, StatusWritten]
    by_cases hevent : Takes state event ∧ setsStatus event
    · rw [hset hevent]
      exact ⟨fun _ => rfl, fun h => absurd (.inl hevent) h⟩
    · rw [hkept hevent]
      simpa [hevent] using ih (applyRunEvent state event)

/-- Another status at the start is seen at the end, unless an event says what it is. -/
theorem foldl_status_eq_iff :
    events.foldl applyRunEvent { state with status } = events.foldl applyRunEvent state ↔
      state.status = status ∨ StatusWritten state events := by
  obtain ⟨hset, hkept⟩ := foldl_status status state events
  by_cases hwritten : StatusWritten state events
  · exact iff_of_true (hset hwritten) (.inr hwritten)
  · have hsame := congrArg RunEventState.status
      ((foldl_status state.status state events).2 hwritten)
    have hstatus : (events.foldl applyRunEvent state).status = state.status := hsame
    rw [hkept hwritten, or_iff_left hwritten]
    constructor
    · intro h
      rw [← hstatus, ← h]
    · rintro rfl
      rw [← hstatus]

/-! ## Requests that fail -/

/-- A request to cancel that fails leaves no trace iff there was no open run to write to, the run
was being cancelled before, no event replaced the object that was written to, or an event said what
the status is. -/
theorem cancel_without_trace_iff (run : RunObjects) (events : List RuntimeRunEvent) :
    (run.cancelAround events).current = (events.foldl RunObjects.apply run).current ↔
      ∀ state, run.current = some state → state.terminal = true ∨
        state.status = .cancelling ∨ (∀ event ∈ events, Returns state event) ∨
        StatusWritten state events := by
  cases hrun : run.objects using List.reverseRecOn with
  | nil =>
    simp [RunObjects.cancelAround, RunObjects.beginCancel, RunObjects.failCancel,
      RunObjects.current, hrun]
  | append_singleton old state =>
    have hcurrent : run.current = some state := by
      rw [RunObjects.current, hrun, List.getLast?_concat]
    simp only [hcurrent, Option.some.injEq, forall_eq', RunObjects.cancelAround]
    cases hterminal : state.terminal with
    | true =>
      refine iff_of_true ?_ (.inl rfl)
      by_cases hall : ∀ event ∈ events, Returns state event
      · simp [RunObjects.beginCancel, hcurrent, RunObjects.failCancel,
          (foldl_returned hrun hall).1, hterminal, hrun]
      · obtain ⟨copies, hlater⟩ := foldl_copied hrun hall
        simp [RunObjects.beginCancel, hcurrent, RunObjects.failCancel, hlater, hterminal, hrun]
    | false =>
      obtain ⟨hbegun, hheld⟩ := beginCancel_open hrun hterminal
      rw [hheld]
      by_cases hall : ∀ event ∈ events, Returns state event
      · refine iff_of_true ?_ (.inr (.inr (.inl hall)))
        rw [RunObjects.current, RunObjects.current, (foldl_returned hrun hall).1,
          failCancel_open (foldl_returned hbegun hall).1 hterminal]
      · obtain ⟨copies, hlater⟩ := foldl_copied hrun hall
        have hall' : ¬ ∀ event ∈ events, Returns { state with status := .cancelling } event := hall
        obtain ⟨copies', hlater'⟩ := foldl_copied hbegun hall'
        have hlast (copies : List RunEventState) (last : RunEventState) :
            (old ++ state :: (copies ++ [last])).getLast? = some last := by
          rw [← List.cons_append, ← List.append_assoc, List.getLast?_concat]
        rw [RunObjects.current, RunObjects.current, hlater,
          failCancel_open hlater' hterminal, hlast,
          hlast, Option.some.injEq, foldl_status_eq_iff]
        simp [hall]

end

section Answering

open PlainBrowser

def answering : RunObjects :=
  [eventOf "run_1" 1 .runCreated, eventOf "run_1" 2 .runStarted].foldl RunObjects.apply
    ⟨"run_1", [], List.forall_mem_nil _⟩

/-- The answer goes on while the request is pending, and the run is shown as being cancelled after
the request has failed. -/
theorem failed_cancel_shown :
    let events := [eventOf "run_1" 3 .messageDelta]
    (answering.cancelAround events).current.map RunEventState.status = some .cancelling ∧
      (events.foldl RunObjects.apply answering).current.map RunEventState.status =
        some .running := by
  decide +kernel

end Answering

end SuperMew.Frontend
