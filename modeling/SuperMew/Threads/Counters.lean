import Mathlib.Data.List.Range
import SuperMew.Runs.Calls
import SuperMew.Runs.Refinement.Shared
import SuperMew.Threads.Repository

/-! The counters of a thread against its messages, over every interleaving of the calls that
write them. -/

namespace SuperMew.Threads

open Relational Runs Table Store

/-! ## Journals -/

def counters (thread : Thread) : ℕ × ℕ × ℕ :=
  (thread.version, thread.messageCount, thread.lastSequence)

def place (row : Message) : Id × ℕ := (row.threadRefId, row.sequence)

def name (thread : Thread) : Id × String := (thread.userId, thread.threadId)

def sequences (s : Store) (t : Id) : List ℕ :=
  (s.messages.select fun _ m => m.threadRefId == t).map fun e => e.2.sequence

/-- The two states have the same threads with the same counters, and the same messages at
the same places. -/
structure SameJournal (s s' : Store) : Prop where
  counters : ∀ t, (s'.threads.get t).map counters = (s.threads.get t).map counters
  places : ∀ m, (s'.messages.get m).map place = (s.messages.get m).map place

theorem sequences_eq (s : Store) (t : Id) :
    sequences s t = ((s.messages.rows.map fun e => (e.1, place e.2)).filter
      fun e => e.2.1 == t).map fun e => e.2.2 := by
  rw [List.filter_map, List.map_map]
  rfl

theorem SameJournal.perm {s s' : Store} (h : SameJournal s s') (t : Id) :
    (sequences s' t).Perm (sequences s t) := by
  rw [sequences_eq, sequences_eq]
  exact ((perm_column h.places).filter _).map _

/-- The counters agree with the journal, threads have names of their own, every message and
run has its thread, and generated keys are below their sequences. -/
structure Counted (s : Store) : Prop where
  counts : ∀ t thread, s.threads.get t = some thread →
    thread.version = thread.lastSequence ∧ thread.messageCount = thread.lastSequence
  journal : ∀ t thread, s.threads.get t = some thread →
    (sequences s t).Perm (List.range' 1 thread.lastSequence)
  names : ∀ t t' thread thread', s.threads.get t = some thread → s.threads.get t' = some thread' →
    name thread' = name thread → t' = t
  home : ∀ m row, s.messages.get m = some row → s.threads.get row.threadRefId ≠ none
  runs : ∀ r run, s.runs.get r = some run → s.threads.get run.threadRefId ≠ none
  messages : ∀ m, s.nextMessage ≤ m → s.messages.get m = none
  threads : ∀ t, s.nextThread ≤ t → s.threads.get t = none

theorem counted_initial (users : Table Id User) : Counted (initial users) := by
  constructor <;> simp [initial]

variable {s s' s'' : Store} {t : Id} {thread : Thread}

/-! ## Writes that leave the journal alone -/

/-- Users stay, threads keep their names and messages their threads. -/
structure Kept (s s' : Store) : Prop where
  users : s'.users = s.users
  threads : Evolves (fun _ old new => name new = name old) s.threads.get s'.threads.get
  messages : Evolves (fun _ old new => new.threadRefId = old.threadRefId) s.messages.get
    s'.messages.get

theorem Kept.refl (s : Store) : Kept s s :=
  ⟨rfl, fun _ thread ht => ⟨thread, ht, rfl⟩, fun _ row hm => ⟨row, hm, rfl⟩⟩

theorem Kept.trans (h : Kept s s') (h' : Kept s' s'') : Kept s s'' where
  users := h'.users.trans h.users
  threads := Evolves.trans (fun _ _ _ _ hab hbc => hbc.trans hab) h.threads h'.threads
  messages := Evolves.trans (fun _ _ _ _ hab hbc => hbc.trans hab) h.messages h'.messages

theorem Kept.of_tables (h : Kept s s') (husers : s''.users = s'.users)
    (hthreads : s''.threads = s'.threads) (hmessages : s''.messages = s'.messages) : Kept s s'' :=
  ⟨husers.trans h.users, hthreads ▸ h.threads, hmessages ▸ h.messages⟩

variable {new : Thread}

theorem Kept.putThread (h : Kept s s') {old : Thread} (ht : s'.threads.get t = some old)
    (hname : name new = name old) : Kept s (s'.putThread t new) := by
  refine h.trans { Kept.refl s' with threads := fun t' row hrow => ?_ }
  simp only [Store.putThread, get_put]
  exact Evolves.write (R := fun _ old new => name new = name old)
    (fun _ _ => rfl) ht hname t' row hrow

variable {m : Id}

theorem Kept.addMessage (h : Kept s s') (hm : s'.messages.get m = none) (row : Message) :
    Kept s (s'.putMessage m row) := by
  refine h.trans { Kept.refl s' with messages := fun m' old hold => ⟨old, ?_, rfl⟩ }
  have hne : m' ≠ m := by
    rintro rfl
    rw [hm] at hold
    cases hold
  simp [putMessage, get_put, hne, hold]

section

variable {α β : Type} {f : α → β} {x y : Option α} (h : x.map f = y.map f)

include h

theorem exists_of_map_eq {a : α} (hx : x = some a) : ∃ b, y = some b ∧ f b = f a :=
  Option.map_eq_some_iff.mp (h ▸ hx ▸ rfl)

theorem none_of_map_eq (hy : y = none) : x = none :=
  Option.map_eq_none_iff.mp (h.trans (hy ▸ rfl))

end

structure Quiet (s s' : Store) : Prop extends SameJournal s s' where
  users : s'.users = s.users
  names : ∀ t, (s'.threads.get t).map name = (s.threads.get t).map name
  clients : ∀ m, (s'.messages.get m).map Message.clientMessageId =
    (s.messages.get m).map Message.clientMessageId
  runs : ∀ r, (s'.runs.get r).map Run.threadRefId = (s.runs.get r).map Run.threadRefId
  nextMessage : s'.nextMessage = s.nextMessage
  nextThread : s'.nextThread = s.nextThread

namespace Quiet

theorem refl (s : Store) : Quiet s s :=
  ⟨⟨fun _ => rfl, fun _ => rfl⟩, rfl, fun _ => rfl, fun _ => rfl, fun _ => rfl, rfl, rfl⟩

theorem trans (h : Quiet s s') (h' : Quiet s' s'') : Quiet s s'' where
  counters t := (h'.counters t).trans (h.counters t)
  places m := (h'.places m).trans (h.places m)
  users := h'.users.trans h.users
  names t := (h'.names t).trans (h.names t)
  clients m := (h'.clients m).trans (h.clients m)
  runs r := (h'.runs r).trans (h.runs r)
  nextMessage := h'.nextMessage.trans h.nextMessage
  nextThread := h'.nextThread.trans h.nextThread

variable (h : Quiet s s')

include h

theorem kept : Kept s s' where
  users := h.users
  threads t _ ht := exists_of_map_eq (h.names t).symm ht
  messages m row hm := by
    obtain ⟨row', hrow', hplace⟩ := exists_of_map_eq (h.places m).symm hm
    exact ⟨row', hrow', congrArg Prod.fst hplace⟩

theorem putThread (old : Thread) (ht : s'.threads.get t = some old)
    (hnew : (name new, Threads.counters new) = (name old, Threads.counters old)) :
    Quiet s (s'.putThread t new) :=
  h.trans { refl s' with
    counters := map_get_put ht (Prod.mk.inj hnew).2
    names := map_get_put ht (Prod.mk.inj hnew).1 }

theorem putMessage {old new : Message} (hm : s'.messages.get m = some old)
    (hnew : (place new, new.clientMessageId) = (place old, old.clientMessageId)) :
    Quiet s (s'.putMessage m new) :=
  h.trans { refl s' with
    places := map_get_put hm (Prod.mk.inj hnew).1
    clients := map_get_put hm (Prod.mk.inj hnew).2 }

theorem putRun {r : RunId} {old new : Run} (hr : s'.runs.get r = some old)
    (hnew : new.threadRefId = old.threadRefId) : Quiet s (s'.putRun r new) :=
  h.trans { refl s' with runs := map_get_put hr hnew }

theorem appendEvent (r : RunId) (type : RunEventType) (data : Dict)
    (clock : Time) : Quiet s (s'.appendEvent r type data clock) := by
  unfold Store.appendEvent
  split
  · exact h
  · rename_i run hr
    have hput : Quiet s (s'.putRun r { run with lastEventSequence := run.lastEventSequence + 1 }) :=
      h.putRun hr rfl
    exact { hput with }

theorem setMessageStatus (message : Option Id) (status : MessageStatus)
    (clock : Time) : Quiet s (s'.setMessageStatus message status clock) := by
  unfold Store.setMessageStatus
  split
  · rename_i m row hm
    simp only [Option.bind_eq_some_iff, Option.map_eq_some_iff, Prod.mk.injEq] at hm
    obtain ⟨_, -, _, hrow, rfl, rfl⟩ := hm
    exact h.putMessage hrow rfl
  · exact h

end Quiet

theorem Counted.quiet (h : Counted s) (hq : Quiet s s') : Counted s' := by
  have hhome : ∀ t, s.threads.get t ≠ none → s'.threads.get t ≠ none :=
    fun t ht hnone => ht (none_of_map_eq (hq.counters t).symm hnone)
  constructor
  · intro t thread ht
    obtain ⟨old, hold, heq⟩ := exists_of_map_eq (hq.counters t) ht
    simp only [counters, Prod.mk.injEq] at heq
    have hcounts := h.counts t old hold
    omega
  · intro t thread ht
    obtain ⟨old, hold, heq⟩ := exists_of_map_eq (hq.counters t) ht
    simp only [counters, Prod.mk.injEq] at heq
    rw [← heq.2.2]
    exact (hq.perm t).trans (h.journal t old hold)
  · intro t t' thread thread' ht ht' hname
    obtain ⟨old, hold, hsame⟩ := exists_of_map_eq (hq.names t) ht
    obtain ⟨old', hold', hsame'⟩ := exists_of_map_eq (hq.names t') ht'
    exact h.names t t' old old' hold hold' (by rw [hsame, hsame', hname])
  · intro m row hm
    obtain ⟨old, hold, hplace⟩ := exists_of_map_eq (hq.places m) hm
    have hsame : old.threadRefId = row.threadRefId := congrArg Prod.fst hplace
    rw [← hsame]
    exact hhome _ (h.home m old hold)
  · intro r run hr
    obtain ⟨old, hold, hthread⟩ := exists_of_map_eq (hq.runs r) hr
    rw [← hthread]
    exact hhome _ (h.runs r old hold)
  · exact fun m hm => none_of_map_eq (hq.places m) (h.messages m (hq.nextMessage ▸ hm))
  · exact fun t ht => none_of_map_eq (hq.counters t) (h.threads t (hq.nextThread ▸ ht))

/-! ## New rows -/

theorem get_putThread_ne_none {t' : Id} (h : s.threads.get t' ≠ none) :
    (s.putThread t thread).threads.get t' ≠ none := by
  change (s.threads.put t thread).get t' ≠ none
  rw [get_put, Function.update_apply]
  split
  · simp
  · exact h

/-- Every thread after a write of one is the new row, or stood there before. -/
theorem get_putThread {t' : Id} {row : Thread}
    (h : (s.putThread t thread).threads.get t' = some row) :
    t' = t ∧ row = thread ∨ t' ≠ t ∧ s.threads.get t' = some row := by
  change (s.threads.put t thread).get t' = some row at h
  rw [get_put] at h
  exact update_eq_some.mp h

theorem sequences_add (hm : s.messages.get m = none) (row : Message) (t : Id) :
    sequences (s.putMessage m row) t =
      if row.threadRefId = t then row.sequence :: sequences s t else sequences s t := by
  simp only [sequences, select, putMessage, rows_put_of_none hm, List.filter_cons, beq_iff_eq]
  split <;> rfl

section

variable (h : Counted s)

include h

theorem Counted.addThread (hname : ∀ t old, s.threads.get t = some old → name old ≠ name thread)
    (hthread : counters thread = (0, 0, 0)) :
    Counted { s.putThread s.nextThread thread with nextThread := s.nextThread + 1 } := by
  have hnone := h.threads s.nextThread le_rfl
  simp only [counters, Prod.mk.injEq] at hthread
  have hempty : sequences s s.nextThread = [] := by
    rw [sequences, List.map_eq_nil_iff, select, List.filter_eq_nil_iff]
    rintro ⟨m, row⟩ hm
    have hhome := h.home m row (mem_rows.mp hm)
    rintro heq
    exact hhome (by rw [beq_iff_eq.mp heq]; exact hnone)
  constructor
  · intro t row ht
    rcases get_putThread ht with ⟨-, rfl⟩ | ⟨-, ht⟩
    · omega
    · exact h.counts t row ht
  · intro t row ht
    rcases get_putThread ht with ⟨rfl, rfl⟩ | ⟨-, ht⟩
    · change (sequences s s.nextThread).Perm _
      rw [hempty, hthread.2.2]
      exact .nil
    · exact h.journal t row ht
  · intro t t' row row' ht ht' hsame
    rcases get_putThread ht with ⟨rfl, rfl⟩ | ⟨-, hold⟩ <;>
      rcases get_putThread ht' with ⟨rfl, rfl⟩ | ⟨-, hold'⟩
    · rfl
    · exact absurd hsame (hname t' row' hold')
    · exact absurd hsame.symm (hname t row hold)
    · exact h.names t t' row row' hold hold' hsame
  · exact fun m row hm => get_putThread_ne_none (h.home m row hm)
  · exact fun r run hr => get_putThread_ne_none (h.runs r run hr)
  · exact h.messages
  · exact get_put_next h.threads thread

section

variable (ht : s.threads.get t = some thread)

include ht

theorem Counted.add {row : Message} (hrow : place row = (t, thread.lastSequence + 1))
    (hnew : (name new, counters new) = (name thread,
      (thread.version + 1, thread.messageCount + 1, thread.lastSequence + 1))) :
    Counted { (s.putMessage s.nextMessage row).putThread t new with
      nextMessage := s.nextMessage + 1 } := by
  obtain ⟨hhome, hsequence⟩ := Prod.mk.inj hrow
  obtain ⟨hname, hnew⟩ := Prod.mk.inj hnew
  simp only [counters, Prod.mk.injEq] at hnew
  have hnone := h.messages s.nextMessage le_rfl
  have hcounts := h.counts t thread ht
  constructor
  · intro t' row' ht'
    rcases get_putThread ht' with ⟨-, rfl⟩ | ⟨-, ht'⟩
    · omega
    · exact h.counts t' row' ht'
  · intro t' row' ht'
    change (sequences (s.putMessage s.nextMessage row) t').Perm _
    rw [sequences_add hnone]
    rcases get_putThread ht' with ⟨rfl, rfl⟩ | ⟨hne, ht'⟩
    · rw [if_pos hhome, hnew.2.2, hsequence, List.range'_concat, Nat.one_mul, Nat.add_comm 1]
      exact ((h.journal t' thread ht).cons _).trans (List.perm_append_singleton _ _).symm
    · rw [if_neg (fun heq => hne (heq.symm.trans hhome))]
      exact h.journal t' row' ht'
  · intro t₁ t₂ row₁ row₂ h₁ h₂ hsame
    have hold : ∀ {t' row'}, (s.putThread t new).threads.get t' = some row' →
        ∃ old, s.threads.get t' = some old ∧ name old = name row' := by
      intro t' row' ht'
      rcases get_putThread ht' with ⟨rfl, rfl⟩ | ⟨-, ht'⟩
      · exact ⟨thread, ht, hname.symm⟩
      · exact ⟨row', ht', rfl⟩
    obtain ⟨old₁, hold₁, hname₁⟩ := hold h₁
    obtain ⟨old₂, hold₂, hname₂⟩ := hold h₂
    exact h.names t₁ t₂ old₁ old₂ hold₁ hold₂ (by rw [hname₁, hname₂, hsame])
  · intro m row' hm
    apply get_putThread_ne_none
    change (s.messages.put s.nextMessage row).get m = some row' at hm
    rw [get_put] at hm
    rcases update_eq_some.mp hm with ⟨-, rfl⟩ | ⟨-, hm⟩
    · rw [hhome]
      simp [putMessage, ht]
    · exact h.home m row' hm
  · exact fun r run hr => get_putThread_ne_none (h.runs r run hr)
  · exact get_put_next h.messages row
  · intro t' ht'
    have hne : t' ≠ t := by
      rintro rfl
      simp [h.threads t' ht'] at ht
    change (s.threads.put t new).get t' = none
    rw [get_put, Function.update_of_ne hne]
    exact h.threads t' ht'

theorem Counted.addTwo
    {first second : Message} (hfirst : place first = (t, thread.lastSequence + 1))
    (hsecond : place second = (t, thread.lastSequence + 2))
    (hnew : (name new, counters new) = (name thread,
      (thread.version + 2, thread.messageCount + 2, thread.lastSequence + 2))) :
    Counted { ((s.putMessage s.nextMessage first).putMessage (s.nextMessage + 1) second).putThread
      t new with nextMessage := s.nextMessage + 2 } := by
  let mid : Thread := {
    thread with
    version := thread.version + 1
    messageCount := thread.messageCount + 1
    lastSequence := thread.lastSequence + 1 }
  have hone := h.add ht hfirst (rfl : (name mid, counters mid) = _)
  have hmid : (s.threads.put t mid).get t = some mid := by simp [get_put]
  have htwo := hone.add hmid hsecond hnew
  simp only [putMessage, putThread, put, AList.insert_insert] at htwo ⊢
  exact htwo

end

theorem Counted.putRun {r : RunId} {run : Run}
    (ht : s.threads.get run.threadRefId ≠ none) : Counted (s.putRun r run) :=
  { h with
    runs := forall_put (P := fun _ (run : Run) => s.threads.get run.threadRefId ≠ none)
      h.runs ht }

end

/-! ## The thread of a call -/

/-- A thread has been found, or created without messages. -/
structure Opened (s s' : Store) (t : Id) (thread : Thread) : Prop where
  counted : Counted s'
  kept : Kept s s'
  thread : s'.threads.get t = some thread
  runs : s'.runs = s.runs
  messages : s'.messages = s.messages
  old : s.threads.get t ≠ none → SameJournal s s'

theorem opened_old (h : Counted s) (hq : Quiet s s') (ht : s'.threads.get t = some thread)
    (hruns : s'.runs = s.runs) (hmessages : s'.messages = s.messages) : Opened s s' t thread :=
  ⟨h.quiet hq, hq.kept, ht, hruns, hmessages, fun _ => hq.toSameJournal⟩

theorem opened_new (h : Counted s) (hfind : s.threadOf thread.userId thread.threadId = none)
    (hthread : counters thread = (0, 0, 0)) :
    Opened s { s.putThread s.nextThread thread with nextThread := s.nextThread + 1 }
      s.nextThread thread where
  counted := by
    refine h.addThread (fun t old ht heq => ?_) hthread
    simp only [name, Prod.mk.injEq] at heq
    have hother := find_eq_none.mp hfind t old ht
    simp [heq] at hother
  kept := { Kept.refl s with
    threads := fun t old ht => by
      have hne : t ≠ s.nextThread := by
        rintro rfl
        rw [h.threads _ le_rfl] at ht
        cases ht
      exact ⟨old, by simp [putThread, get_put, hne, ht], rfl⟩ }
  thread := by simp [putThread, get_put]
  runs := rfl
  messages := rfl
  old hold := absurd (h.threads _ le_rfl) hold

variable {threadId : String} {user : Id}

theorem threadOf_some (h : s.threadOf user threadId = some (t, thread)) :
    s.threads.get t = some thread :=
  (find_eq_some h).1

variable {title : Option String}

/-- `_get_or_create_thread` of the runs. -/
theorem openRun (h : Counted s) {now : Time} {allowCreate : Bool}
    (hopen : s.getOrCreateThread now user threadId title allowCreate = .ok (t, thread, s')) :
    Opened s s' t thread := by
  simp only [Store.getOrCreateThread] at hopen
  split at hopen
  · rename_i t' old hfind
    have hold := threadOf_some hfind
    obtain ⟨rfl, rfl, rfl⟩ : t' = t ∧ _ = thread ∧ _ = s' := by
      simpa only [Except.ok.injEq, Prod.mk.injEq] using hopen
    refine opened_old h ((Quiet.refl s).putThread old hold ?_) ?_ rfl rfl
    · split <;> rfl
    · simp [Store.putThread, get_put]
  · rename_i hfind
    simp only [ok_rules] at hopen
    obtain ⟨_, _, rfl, rfl, rfl⟩ := hopen
    exact opened_new h hfind rfl

/-- `_get_or_create_thread` of the threads. -/
theorem openThread (h : Counted s) {env : Env}
    (hopen : getOrCreateThread env user threadId title s = (t, thread, s')) :
    Opened s s' t thread := by
  simp only [getOrCreateThread] at hopen
  split at hopen
  · rename_i hfind
    obtain ⟨rfl, rfl, rfl⟩ : _ = t ∧ _ = thread ∧ s = s' := by
      simpa only [Prod.mk.injEq] using hopen
    exact opened_old h (.refl s) (threadOf_some hfind) rfl rfl
  · rename_i hfind
    obtain ⟨rfl, rfl, rfl⟩ : _ = t ∧ _ = thread ∧ _ = s' := by
      simpa only [Prod.mk.injEq] using hopen
    exact opened_new h hfind rfl

/-! ## Calls -/

theorem completeMessage_threads (run : Run) (r : FinalizeRequest) (e : Ending) (now : Time) :
    (s.completeMessage run r e now).threads = s.threads := by
  unfold completeMessage
  split <;> rfl

theorem completeMessage_quiet (h : Quiet s s') (run : Run) (r : FinalizeRequest) (e : Ending)
    (now : Time) : Quiet s (s'.completeMessage run r e now) := by
  unfold completeMessage
  split
  · rename_i m row hm
    simp only [Option.bind_eq_some_iff, Option.map_eq_some_iff, Prod.mk.injEq] at hm
    obtain ⟨_, -, _, hrow, rfl, rfl⟩ := hm
    exact h.putMessage hrow rfl
  · exact h

theorem promoteNextQueued_quiet (h : Quiet s s') {now : Time} {t : Id}
    (hs : promoteNextQueued now t s' = .ok s'') : Quiet s s'' := by
  unfold promoteNextQueued at hs
  split at hs
  · exact Except.ok.inj hs ▸ h
  · rename_i r queued hnext
    have hr : s'.runs.get r = some queued := by
      have hmem := firstBy_mem hnext
      exact (mem_select.mp hmem).1
    simp only [ok_rules, writeRun_eq_ok] at hs
    obtain ⟨s₁, ⟨-, rfl⟩, rfl⟩ := hs
    refine Quiet.setMessageStatus (h.putRun hr ?_) _ _ _
    rfl

variable {answer : RunReservation} {r : AppendRequest}

section Calls

variable [ErrorCodec]

theorem appendEnd_quiet (h : Quiet s s') (run : Run) (r : FinalizeRequest) (e : Ending)
    (clock : Time) : Quiet s (s'.appendEnd run r e clock) := by
  unfold appendEnd
  refine Quiet.appendEvent (Quiet.appendEvent ?_ _ _ _ _) _ _ _ _
  split
  · exact h.appendEvent _ _ _ _
  · exact h

theorem finalize_quiet {env : Env} {r : FinalizeRequest} {record : RunRecord}
    (hs : finalize env r s = .ok (record, s')) : Quiet s s' := by
  unfold finalize at hs
  split at hs
  · cases hs
  simp only [ok_rules, orAttributeError_eq_ok] at hs
  obtain ⟨run, hr, thread, ht, _, _, _, _, hs⟩ := hs
  split at hs
  · simp only [ok_rules] at hs
    obtain ⟨_, _, -, rfl⟩ := hs
    exact .refl s
  · simp only [ok_rules, transition_eq_ok, writeRun_eq_ok] at hs
    obtain ⟨run', ⟨-, rfl⟩, s₁, ⟨-, rfl⟩, s₂, hpromote, -, rfl⟩ := hs
    refine promoteNextQueued_quiet (appendEnd_quiet (Quiet.putThread
      (completeMessage_quiet ((Quiet.refl s).putRun hr ?_) _ _ _ _) thread ?_ ?_) _ _ _ _) hpromote
    · rfl
    · rw [completeMessage_threads]
      exact ht
    · rfl

theorem reserveTransaction_counted (h : Counted s) {env : Env} {r : ReserveRequest}
    {input : ReserveInput} (hs : reserveTransaction env r input s = .ok (answer, s')) :
    Counted s' ∧ Kept s s' ∧ (answer.created = false → SameJournal s s') := by
  simp only [reserveTransaction, ok_rules] at hs
  obtain ⟨⟨user, _⟩, -, ⟨t, thread, s₁⟩, hopen, hs⟩ := hs
  have hopened := openRun h hopen
  split at hs
  · rename_i runId existing hfind
    simp only [ok_rules] at hs
    obtain ⟨_, _, -, rfl⟩ := hs
    refine ⟨hopened.counted, hopened.kept, fun _ => hopened.old ?_⟩
    obtain ⟨hr, hkey⟩ := find_eq_some hfind
    simp only [Bool.and_eq_true, beq_iff_eq] at hkey
    rw [hopened.runs] at hr
    exact hkey.1.2 ▸ h.runs runId existing hr
  · simp only [ok_rules, insertRun, writeRun_eq_ok] at hs
    obtain ⟨_, _, _, _, _, _, s₂, ⟨-, rfl⟩, rfl, rfl⟩ := hs
    have hnone := hopened.counted.messages
    refine ⟨?_, ?_, by simp⟩
    · refine Counted.quiet (Counted.putRun (hopened.counted.addTwo hopened.thread ?_ ?_ ?_) ?_)
        ((Quiet.refl _).appendEvent _ _ _ _)
      · rfl
      · rfl
      · rfl
      · change (s₁.threads.put t _).get t ≠ none
        simp [get_put]
    · refine Kept.trans ?_ ((Quiet.refl _).appendEvent _ _ _ _).kept
      refine Kept.of_tables (((hopened.kept.addMessage (hnone _ le_rfl) _).addMessage
        ?_ _).putThread hopened.thread ?_) rfl rfl rfl
      · simp [putMessage, get_put, hnone]
      · rfl

variable [Platform] {env : Env}

theorem reserve_counted (h : Counted s) {r : ReserveRequest}
    (hs : reserve env r s = .ok (answer, s')) :
    Counted s' ∧ Kept s s' ∧ (answer.created = false → SameJournal s s') := by
  simp only [reserve, ok_rules] at hs
  obtain ⟨input, -, hs⟩ := hs
  split at hs
  · split at hs
    · simp only [ok_rules] at hs
      obtain ⟨-, rfl⟩ := hs
      exact ⟨h, .refl s, fun _ => (Quiet.refl s).toSameJournal⟩
    · simp at hs
  · simp only [ok_rules] at hs
    obtain ⟨⟨answer, s₁⟩, hreserve, _, _, rfl, rfl⟩ := hs
    exact reserveTransaction_counted h hreserve

omit [ErrorCodec] in
theorem existingMessage_eq_some {key : Option String} {row : Message}
    (h : existingMessage t key s = some (m, row)) :
    s.messages.get m = some row ∧ row.threadRefId = t ∧ key ≠ none ∧ key ≠ some "" ∧
      row.stored.clientMessageId = key.map cleanText := by
  unfold existingMessage at h
  split at h
  · rename_i text htext
    obtain ⟨rfl, hne⟩ := Option.filter_eq_some_iff.mp htext
    obtain ⟨hm, hp⟩ := find_eq_some h
    simp only [Bool.and_eq_true, beq_iff_eq] at hp
    exact ⟨hm, hp.1, by simp, by simpa using hne, hp.2⟩
  · cases h

variable [TraceCodec] {answer : Option MessageRecord}

omit [ErrorCodec] in
/-- An appended message is new, or the journal stays as it is. -/
theorem appendTransaction_counted (h : Counted s)
    (hs : appendTransaction env r s = .ok (answer, s')) :
    Counted s' ∧ Kept s s' ∧
      ((∀ record ∈ answer, s.messages.get record.id ≠ none) → SameJournal s s') := by
  unfold appendTransaction at hs
  split at hs
  · cases hs
    exact ⟨h, .refl s, fun _ => (Quiet.refl s).toSameJournal⟩
  · rename_i user _ _
    rcases hopen : getOrCreateThread env user (cleanText r.threadId) r.title s with ⟨t, thread, s₁⟩
    have hopened := openThread h hopen
    simp only [hopen, ok_rules] at hs
    obtain ⟨_, -, hs⟩ := hs
    split at hs
    · rename_i m existing hfind
      simp only [ok_rules] at hs
      obtain ⟨record, -, -, rfl⟩ := hs
      refine ⟨hopened.counted, hopened.kept, fun _ => hopened.old ?_⟩
      obtain ⟨hm, hhome, -⟩ := existingMessage_eq_some hfind
      rw [hopened.messages] at hm
      exact hhome ▸ h.home m existing hm
    · simp only [insertMessage, messageRecord, ok_rules] at hs
      obtain ⟨trace, -, _, -, record, ⟨trace', -, rfl⟩, rfl, rfl⟩ := hs
      have hnone := hopened.counted.messages s₁.nextMessage le_rfl
      refine ⟨hopened.counted.add hopened.thread rfl rfl, ?_, fun hold => ?_⟩
      · refine Kept.of_tables ((hopened.kept.addMessage hnone _).putThread hopened.thread ?_)
          rfl rfl rfl
        rfl
      · rw [hopened.messages] at hnone
        exact absurd hnone (hold _ rfl)

omit [ErrorCodec] in
theorem appendMessage_counted (h : Counted s) (hs : appendMessage env r s = .ok (answer, s')) :
    Counted s' ∧ Kept s s' ∧
      ((∀ record ∈ answer, s.messages.get record.id ≠ none) → SameJournal s s') := by
  unfold appendMessage at hs
  split at hs
  · cases hs
  · exact appendTransaction_counted h hs

omit [ErrorCodec] in
theorem finalizeMessage_quiet {r : FinalizeMessageRequest}
    (hs : finalizeMessage env r s = .ok (answer, s')) : Quiet s s' := by
  have hsame : (answer, s') = (none, s) → Quiet s s' := by
    rintro heq
    exact (Prod.mk.inj heq).2 ▸ .refl s
  unfold finalizeMessage at hs
  split at hs
  · exact hsame (Except.ok.inj hs).symm
  split at hs
  · exact hsame (Except.ok.inj hs).symm
  rename_i hthread
  split at hs
  · exact hsame (Except.ok.inj hs).symm
  rename_i row hrow
  obtain ⟨hrow, -⟩ := Option.filter_eq_some_iff.mp hrow
  simp only [ok_rules] at hs
  obtain ⟨trace, -, hs⟩ := hs
  split at hs
  · simp only [ok_rules] at hs
    obtain ⟨_, -, -, rfl⟩ := hs
    exact .refl s
  · simp only [ok_rules] at hs
    obtain ⟨_, -, -, rfl⟩ := hs
    refine ((Quiet.refl s).putMessage hrow ?_).putThread _ (threadOf_some hthread) ?_
    · rfl
    · rfl

/-! ## Runs -/

/-- The answer shows something that was not there before: a new run or a new message. -/
def Reply.IsNew (s : Store) : Reply → Prop
  | .reserved reservation => reservation.created = true
  | .finalized _ => False
  | .message answer => ∃ record ∈ answer, s.messages.get record.id = none

theorem commit_counted (h : Counted s) {call : Call} {reply : Reply}
    (hs : call.commit s = .ok (reply, s')) :
    Counted s' ∧ Kept s s' ∧ (¬ reply.IsNew s → SameJournal s s') := by
  obtain ⟨env, op⟩ := call
  cases op with
  | reserve r =>
    obtain ⟨⟨answer, _⟩, hop, heq⟩ := map_eq_ok.mp hs
    cases heq
    obtain ⟨hcounted, hkept, hreplay⟩ := reserve_counted h hop
    exact ⟨hcounted, hkept, fun hnew => hreplay (Bool.not_eq_true _ ▸ hnew)⟩
  | finalize r =>
    obtain ⟨⟨answer, _⟩, hop, heq⟩ := map_eq_ok.mp hs
    cases heq
    have hquiet := finalize_quiet hop
    exact ⟨h.quiet hquiet, hquiet.kept, fun _ => hquiet.toSameJournal⟩
  | appendMessage r | createAssistantPlaceholder username threadId runId expectedVersion =>
    obtain ⟨⟨answer, _⟩, hop, heq⟩ := map_eq_ok.mp hs
    cases heq
    obtain ⟨hcounted, hkept, hreplay⟩ := appendMessage_counted h hop
    exact ⟨hcounted, hkept,
      fun hnew => hreplay fun record hrecord hnone => hnew ⟨record, hrecord, hnone⟩⟩
  | finalizeMessage r =>
    obtain ⟨⟨answer, _⟩, hop, heq⟩ := map_eq_ok.mp hs
    cases heq
    have hquiet := finalizeMessage_quiet hop
    exact ⟨h.quiet hquiet, hquiet.kept, fun _ => hquiet.toSameJournal⟩

theorem exec_counted (h : Counted s) (call : Call) : Counted (exec s call) := by
  unfold exec
  split
  · rename_i hs
    exact (commit_counted h hs).1
  · exact h

theorem after_counted (users : Table Id User) (calls : List Call) : Counted (after users calls) :=
  Machine.run_preserves (I := Counted) (fun _ call h => exec_counted h call)
    (counted_initial users) calls

/-- In every reachable state the counters of each thread agree with its journal, whose
numbers are 1, 2, and so on without gap or repetition; a call that raises, or whose answer
shows nothing new, leaves all of them as they are. -/
theorem counters_agree_with_journal (users : Table Id User) (calls : List Call) :
    (∀ t thread, (after users calls).threads.get t = some thread →
      thread.version = thread.messageCount ∧ thread.messageCount = thread.lastSequence ∧
      thread.lastSequence = (sequences (after users calls) t).length ∧
      (sequences (after users calls) t).Perm (List.range' 1 thread.lastSequence)) ∧ ∀ call : Call,
      (∀ fault, call.commit (after users calls) = .error fault →
        exec (after users calls) call = after users calls) ∧
      ∀ reply s', call.commit (after users calls) = .ok (reply, s') →
        ¬ reply.IsNew (after users calls) → SameJournal (after users calls) s' := by
  have h := after_counted users calls
  refine ⟨fun t thread ht => ?_, fun call => ⟨fun fault hs => ?_, fun reply s' hs => ?_⟩⟩
  · obtain ⟨hversion, hcount⟩ := h.counts t thread ht
    have hjournal := h.journal t thread ht
    refine ⟨by omega, hcount, ?_, hjournal⟩
    rw [hjournal.length_eq, List.length_range']
  · simp [exec, hs]
  · exact (commit_counted h hs).2.2

end Calls

-- a reservation, a message of the user, and the reservation again
open PlainPlatform Runs.Sample in
example :
    let ask : Call := ⟨env 1 "run", .reserve {
      username := "user"
      threadId := "thread"
      message := "question"
      idempotencyKey := "key"
      allowImplicitThread := true }⟩
    let note : Call := ⟨env 2 "none", .appendMessage {
      username := "user"
      threadId := "thread"
      message := { role := .human, content := "note" }
      expectedVersion := some 2 }⟩
    ((after users [ask, note, ask]).threads.get 1).map counters = some (3, 3, 3) := by
  decide +kernel

end SuperMew.Threads
