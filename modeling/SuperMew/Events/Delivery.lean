import SuperMew.Events.Bus
import SuperMew.Library.Feed
import SuperMew.Runs.History
import Mathlib.Data.List.ReduceOption

/-! What a subscription delivers. Whatever is appended beside it, it follows the journal of its
run without gap and repetition, and it ends when it has yielded a terminal event. -/

namespace SuperMew.Events

open List Runs Relational Machine Subscription System

/-! ## Batches -/

section Batches

variable {s : Store} {r : RunId} {run : Run}

def batchSize (limit : ℤ) : ℕ := (max 1 (min limit 1000)).toNat

theorem batchSize_pos (limit : ℤ) : 0 < batchSize limit := by
  unfold batchSize
  omega

theorem eventsAfter_eq (hn : (s.view r run).Numbered) (c : ℕ) (limit : ℤ) :
    s.eventsAfter r c limit = ((s.eventsOf r).drop c).take (batchSize limit) := by
  have hseq : (s.eventsOf r).map RunEvent.sequence = List.range' 1 (s.eventsOf r).length := hn.sequences
  have hfilter : (s.events.filter fun e => e.runId == r && decide (max (c : ℤ) 0 < (e.sequence : ℤ))) =
      (s.eventsOf r).drop c := by
    rw [← Nat.add_sub_cancel c 1, ← Feed.filter_numbered hseq c, Store.eventsOf, filter_filter]
    refine filter_congr fun e _ => ?_
    rw [Bool.and_comm]
    congr 1
    simp
  have hsorted : ((s.eventsOf r).drop c).Pairwise fun a b => a.sequence ≤ b.sequence :=
    ((Feed.pairwise_numbered hseq).imp Nat.le_of_lt).sublist (drop_sublist ..)
  rw [Store.eventsAfter, hfilter, hsorted.insertionSort_eq]
  rfl

/-- Without a user, a batch is the next part of the journal. -/
theorem readAfter_eq (hw : s.Wf) (hr : s.runs.get r = some run) (hn : (s.view r run).Numbered)
    (c : ℕ) (limit : ℤ) : ∃ thread, readAfter r c limit none s =
      .ok ((((s.eventsOf r).drop c).take (batchSize limit)).map fun e => ⟨e, thread⟩) := by
  obtain ⟨thread, ht, -⟩ := hw.thread r run hr
  refine ⟨thread.threadId, ?_⟩
  simp only [readAfter, hr, ht, Option.bind_eq_bind, Option.bind_some]
  rw [← eventsAfter_eq hn]
  simp

end Batches

/-! ## Rounds -/

section Rounds

variable {s : Store} {r : RunId} {run : Run} {k : ℕ} {journal : List RunEvent} {sub : Subscription}

/-- The subscription follows the journal of run `r` from behind its first `k` events. -/
structure Subscription.Tracks (sub : Subscription) (r : RunId) (k : ℕ) (journal : List RunEvent) :
    Prop where
  run : sub.runId = r
  follows : Feed.Follows (fun e : RunEvent => e.type.terminal) journal k sub.cursor
    (sub.events.map RunEventV1.toRunEvent) sub.returned

@[simp] theorem events_yieldEvent (e : RunEventV1) : (sub.yieldEvent e).events = sub.events ++ [e] := by
  simp [yieldEvent, events, reduceOption_append, reduceOption_cons_of_some]

theorem Subscription.Tracks.yieldEvent (h : sub.Tracks r k journal) (hopen : sub.returned = false)
    (hnumber : journal.map RunEvent.sequence = List.range' 1 journal.length)
    (hlt : sub.cursor < journal.length) (thread : String) :
    (sub.yieldEvent ⟨journal[sub.cursor], thread⟩).Tracks r k journal := by
  refine ⟨h.run, ?_⟩
  have hfollows := h.follows
  rw [hopen] at hfollows
  have hnext := hfollows.next (List.getElem?_eq_getElem hlt)
  rw [← Feed.number_getElem hnumber hlt] at hnext
  rw [events_yieldEvent, map_append]
  exact hnext

/-- The loop over a batch yields the events of the journal up to a terminal one, or all of the
batch. -/
theorem deliver_tracks (hnumber : journal.map RunEvent.sequence = List.range' 1 journal.length)
    (thread : String) (n : ℕ) (h : sub.Tracks r k journal) (hopen : sub.returned = false) :
    (sub.deliver (((journal.drop sub.cursor).take n).map fun e => ⟨e, thread⟩)).Tracks r k journal ∧
      ((sub.deliver (((journal.drop sub.cursor).take n).map fun e => ⟨e, thread⟩)).returned = true ∨
        min (sub.cursor + n) journal.length ≤
          (sub.deliver (((journal.drop sub.cursor).take n).map fun e => ⟨e, thread⟩)).cursor) := by
  induction n generalizing sub with
  | zero => exact ⟨by simpa [deliver] using h, .inr (by simp [deliver])⟩
  | succ n ih =>
    by_cases hlt : sub.cursor < journal.length
    · have hyield := h.yieldEvent hopen hnumber hlt thread
      have hseq : journal[sub.cursor].sequence = sub.cursor + 1 := Feed.number_getElem hnumber hlt
      rw [drop_eq_getElem_cons hlt, take_succ_cons, map_cons, deliver, if_neg (by rw [hseq]; omega)]
      split
      · rename_i hterm
        exact ⟨hyield, .inl hterm⟩
      · rename_i hterm
        have hcursor : (sub.yieldEvent ⟨journal[sub.cursor], thread⟩).cursor = sub.cursor + 1 := hseq
        have hrest := ih hyield (by simpa [yieldEvent] using hterm)
        rw [hcursor] at hrest
        refine ⟨hrest.1, hrest.2.imp_right fun hle => ?_⟩
        rwa [Nat.add_right_comm] at hle
    · have hnil : journal.drop sub.cursor = [] := drop_eq_nil_of_le (Nat.le_of_not_lt hlt)
      rw [hnil, take_nil, map_nil, deliver]
      exact ⟨h, .inr (by omega)⟩

/-- A round keeps the subscription on its journal, and moves it on unless it is at the end. -/
theorem round_tracks (hw : s.Wf) (hr : s.runs.get r = some run) (hn : (s.view r run).Numbered)
    (h : sub.Tracks r k (s.eventsOf r)) (p : Round) :
    (sub.round p s).Tracks r k (s.eventsOf r) ∧ ((sub.round p s).returned = true ∨
      min (sub.cursor + 1) (s.eventsOf r).length ≤ (sub.round p s).cursor) := by
  unfold Subscription.round
  by_cases hret : sub.returned = true
  · rw [if_pos hret]
    exact ⟨h, .inl hret⟩
  rw [if_neg hret]
  obtain ⟨thread, hread⟩ := readAfter_eq hw hr hn sub.cursor p.limit
  have hseq : (s.eventsOf r).map RunEvent.sequence = List.range' 1 (s.eventsOf r).length := hn.sequences
  obtain ⟨htracks, hmoves⟩ := deliver_tracks hseq thread (batchSize p.limit) h (by simpa using hret)
  have hmin : ∀ c, min (sub.cursor + batchSize p.limit) (s.eventsOf r).length ≤ c →
      min (sub.cursor + 1) (s.eventsOf r).length ≤ c := by
    have := batchSize_pos p.limit
    omega
  rw [h.run, hread]
  split
  · rename_i e events heq
    rw [← Except.ok.inj heq]
    dsimp only
    split
    · exact ⟨htracks, hmoves.imp_right (hmin _)⟩
    · exact ⟨⟨htracks.run, htracks.follows⟩, hmoves.imp_right (hmin _)⟩
  · -- an empty batch leaves the cursor where it is
    rename_i heq
    rw [show _ = [] from Except.ok.inj heq] at hmoves
    have hend := hmoves.imp_right (hmin _)
    split
    · refine ⟨⟨rfl, ?_⟩, hend⟩
      have hevents : (sub.yielded ++ [none]).reduceOption = sub.events := by
        rw [reduceOption_append]
        exact append_nil _
      rw [events, hevents]
      exact h.follows
    · exact ⟨h, hend⟩
  · rename_i heq
    cases heq

end Rounds

/-! ## Whole subscriptions -/

section Streams

variable [ErrorCodec] {w : Stream} {r : RunId} {k : ℕ}

theorem allowed_all (s : System) (call : Call) : Allowed (fun _ _ _ => True) s call :=
  fun _ _ _ _ _ => trivial

variable [Platform]

/-- The run is there with a numbered journal, and the subscription follows it. -/
structure Stream.Sound (w : Stream) (r : RunId) (k : ℕ) : Prop where
  wf : w.system.store.Wf
  numbered : ∀ r x, w.system.store.board r = some x → x.Numbered
  found : ∃ run, w.system.store.runs.get r = some run
  tracks : w.subscription.Tracks r k (w.system.store.eventsOf r)

theorem exec_numbered {s : System} {call : Call} (hw : s.store.Wf)
    (h : ∀ r x, s.store.board r = some x → x.Numbered) :
    ∀ r x, (exec s call).store.board r = some x → x.Numbered :=
  exec_forall (P := fun _ x => x.Numbered) (fun _ _ hx _ => fresh_numbered hx)
    (fun _ _ _ _ hm _ hx => hm.numbered hx) (fun _ _ _ hx => hx) hw (allowed_all s call) h

/-- A call only adds to the journal of a run. -/
theorem exec_grows {s : System} {call : Call} (hw : s.store.Wf) {run : Run}
    (hr : s.store.runs.get r = some run) : ∃ run', (exec s call).store.runs.get r = some run' ∧
      s.store.eventsOf r <+: (exec s call).store.eventsOf r := by
  obtain ⟨y, hy, hgrows⟩ : ∃ y, (exec s call).store.board r = some y ∧
      s.store.eventsOf r <+: y.journal := by
    refine exec_keeps (P := fun b => ∃ y, b r = some y ∧ s.store.eventsOf r <+: y.journal) hw
      ⟨_, Store.board_of_run hr, prefix_rfl⟩ fun _ _ _ hs => ?_
    exact hs.grows (Store.board_of_run hr)
  obtain ⟨run', hr', rfl⟩ := Store.run_of_board hy
  exact ⟨run', hr', hgrows⟩

section

variable (h : w.Sound r k)

include h

theorem Stream.Sound.step (input : Input) : (step w input).Sound r k := by
  obtain ⟨run, hr⟩ := h.found
  cases input with
  | call call =>
    obtain ⟨run', hr', hgrows⟩ := exec_grows h.wf hr
    exact ⟨exec_wf h.wf, exec_numbered h.wf h.numbered, ⟨run', hr'⟩,
      h.tracks.run, h.tracks.follows.extend hgrows⟩
  | round p =>
    exact ⟨h.wf, h.numbered, ⟨run, hr⟩,
      (round_tracks h.wf hr (h.numbered r _ (Store.board_of_run hr)) h.tracks p).1⟩

theorem Stream.Sound.run (inputs : List Input) : (run Events.step w inputs).Sound r k :=
  run_preserves (I := fun w : Stream => w.Sound r k) (fun _ input h => h.step input) h inputs

theorem step_grows (input : Input) :
    w.system.store.eventsOf r <+: (step w input).system.store.eventsOf r := by
  obtain ⟨run, hr⟩ := h.found
  cases input with
  | call call => exact (exec_grows h.wf hr).choose_spec.2
  | round p => exact prefix_rfl

theorem run_grows (inputs : List Input) :
    w.system.store.eventsOf r <+: (run step w inputs).system.store.eventsOf r := by
  induction inputs generalizing w with
  | nil => exact prefix_rfl
  | cons input inputs ih => exact (step_grows h input).trans (ih (h.step input))

end

theorem run_returned (h : w.subscription.returned = true) (inputs : List Input) :
    (run step w inputs).subscription.returned = true := by
  refine run_preserves (I := fun w : Stream => w.subscription.returned = true)
    (fun w input h => ?_) h inputs
  cases input with
  | call call => exact h
  | round p => simp [step, Subscription.round, h]

/-- Once the journal is complete, each round moves the subscription on by an event at least,
until it returns or reaches the end. -/
theorem run_moves (h : w.Sound r k) (rest : List Input)
    (hend : (run step w rest).system.store.eventsOf r = w.system.store.eventsOf r) :
    (run step w rest).subscription.returned = true ∨
      min (w.subscription.cursor + rest.countP Input.isRound) (w.system.store.eventsOf r).length ≤
        (run step w rest).subscription.cursor := by
  induction rest generalizing w with
  | nil => exact .inr (by simp)
  | cons input rest ih =>
    have hstep := h.step input
    -- between two equal journals there is no third one
    have hsame : (step w input).system.store.eventsOf r = w.system.store.eventsOf r := by
      refine (List.IsPrefix.eq_of_length_le (step_grows h input) ?_).symm
      rw [← hend]
      exact (run_grows hstep rest).length_le
    have hrest := ih hstep (hend.trans hsame.symm)
    rw [hsame] at hrest
    rw [run_cons]
    cases input with
    | call call =>
      rw [countP_cons_of_neg (by simp [Input.isRound])]
      exact hrest
    | round p =>
      obtain ⟨run, hr⟩ := h.found
      have hn := h.numbered r _ (Store.board_of_run hr)
      rcases (round_tracks h.wf hr hn h.tracks p).2 with hreturned | hcursor
      · exact .inl (run_returned hreturned rest)
      · refine hrest.imp_right fun hle => ?_
        change min ((w.subscription.round p w.system.store).cursor + _) _ ≤ _ at hle
        rw [countP_cons_of_pos rfl]
        omega

theorem subscribe_sound {users : Table Id User} {calls : List Call} {username : String} {after : ℤ}
    {heartbeat now : Time} {sub : Subscription}
    (h : subscribe username r after heartbeat now (System.after users calls).store = .ok sub) :
    Stream.Sound ⟨System.after users calls, sub⟩ r after.toNat := by
  simp only [subscribe, assertAccess, ok_rules] at h
  obtain ⟨_, ⟨⟨run, thread⟩, hrow, -⟩, rfl⟩ := h
  obtain ⟨hr, -⟩ := ownedRun_some hrow
  have hcursor : (max after 0).toNat = after.toNat := by omega
  refine ⟨after_wf users calls, ?_, ⟨run, hr⟩, rfl, ?_⟩
  · exact after_forall (P := fun _ x => x.Numbered) (fun _ _ hx _ => fresh_numbered hx)
      (fun _ _ _ _ hm _ hx => hm.numbered hx) (fun _ _ _ hx => hx)
      (along_of_forall allowed_all)
  · exact hcursor ▸ Feed.follows_start ..

omit [ErrorCodec] [Platform] in
/-- A subscription that starts behind the end of the journal does not return before a new event
comes. -/
theorem late_not_returned (h : w.Sound r k) (hlate : (w.system.store.eventsOf r).length ≤ k) :
    w.subscription.returned = false := by
  by_contra hreturned
  obtain ⟨before, e, hout, -⟩ := h.tracks.follows.stopped (by simpa using hreturned)
  have hnone : ((w.system.store.eventsOf r).take w.subscription.cursor).drop k = [] :=
    drop_eq_nil_of_le ((length_take_le' ..).trans hlate)
  rw [h.tracks.follows.taken, hnone] at hout
  simp at hout

/-- A subscription whose run has appended its last event, a terminal one, and which goes through
as many rounds as there are events, has ended with all events after its cursor if and only if the
last event is the only terminal one after the cursor. What it yields is in order in any case. -/
theorem subscription_exact_iff {users : Table Id User} {calls : List Call} {username : String}
    {after : ℤ} {heartbeat now : Time} {sub : Subscription}
    (hsub : subscribe username r after heartbeat now (System.after users calls).store = .ok sub)
    (inputs rest : List Input) {w w' : Stream}
    (hw : w = run step ⟨System.after users calls, sub⟩ inputs)
    (hw' : w' = run step w rest) {before : List RunEvent} {e : RunEvent}
    (hjournal : w.system.store.eventsOf r = before ++ [e]) (hterminal : e.type.terminal = true)
    (hcomplete : w'.system.store.eventsOf r = w.system.store.eventsOf r)
    (hrounds : (before ++ [e]).length ≤ rest.countP Input.isRound) :
    (w'.subscription.events.map fun e' => e'.sequence).Pairwise (· < ·) ∧
    (w'.subscription.returned = true ∧ w'.subscription.events.map RunEventV1.toRunEvent =
        (w'.system.store.eventsOf r).filter (fun e' => after.toNat < e'.sequence) ↔
      after.toNat < e.sequence ∧
        ∀ e' ∈ before, e'.type.terminal = true → e'.sequence ≤ after.toNat) := by
  subst hw
  have hstart := (subscribe_sound hsub).run inputs
  have hsound : w'.Sound r after.toNat := hw' ▸ hstart.run rest
  have hend : w'.subscription.returned = true ∨
      (w'.system.store.eventsOf r).length ≤ w'.subscription.cursor := by
    rw [hcomplete]
    subst hw'
    refine (run_moves hstart rest hcomplete).imp_right fun hle => ?_
    rw [hjournal] at hle ⊢
    omega
  obtain ⟨run, hr⟩ := hsound.found
  have hseq : (w'.system.store.eventsOf r).map RunEvent.sequence =
      List.range' 1 (w'.system.store.eventsOf r).length :=
    (hsound.numbered r _ (Store.board_of_run hr)).sequences
  have hlog := hcomplete.trans hjournal
  have hfollows := hsound.tracks.follows
  refine ⟨?_, ?_⟩
  · have hsub : (w'.subscription.events.map RunEventV1.toRunEvent).Pairwise
        fun a b => a.sequence < b.sequence := by
      rw [hfollows.taken]
      exact ((Feed.pairwise_numbered hseq).sublist (List.take_sublist ..)).sublist (List.drop_sublist ..)
    rw [List.pairwise_map] at hsub ⊢
    exact hsub
  · have hexact := hfollows.exact_iff hlog hterminal hend
    have hdrop : (w'.system.store.eventsOf r).filter (fun e' => after.toNat < e'.sequence) =
        (w'.system.store.eventsOf r).drop after.toNat := Feed.filter_numbered hseq after.toNat
    rw [hdrop, hexact]
    rw [hlog] at hseq ⊢
    obtain ⟨hbefore, hlast⟩ := Feed.numbered_concat hseq
    have hfilter : before.filter (fun e' => after.toNat < e'.sequence) = before.drop after.toNat :=
      Feed.filter_numbered hbefore after.toNat
    rw [← hfilter, hlast, List.length_append, List.length_singleton]
    refine and_congr_right fun _ => forall_congr' fun e' => ?_
    rw [List.mem_filter, and_imp]
    refine forall_congr' fun _ => ?_
    rw [decide_eq_true_iff, ← not_imp_not, Nat.not_lt, Bool.not_eq_false]

end Streams

namespace Sample

open Runs.Sample

def reader (after : ℕ) : Subscription := ⟨"a", 60, after, 60, [], false⟩

def rounds (n : ℕ) : List Input := List.replicate n (.round ⟨2, 1, 1⟩)

end Sample

theorem run_rounds_system [ErrorCodec] [Platform] {w : Stream} (inputs : List Round) :
    (run step w (inputs.map .round)).system = w.system := by
  induction inputs generalizing w with
  | nil => rfl
  | cons p inputs ih => exact ih

open PlainPlatform Runs.Sample Sample in
theorem answered_journal : (after users answered).store.eventsOf "a" ≠ [] ∧
    ((after users answered).store.eventsOf "a").length ≤ 5 := by
  decide +kernel

open PlainPlatform Runs.Sample Sample in
/-- A client that has seen the last event of an ended run and connects again waits for ever. -/
theorem late_subscription_never_returns :
    ((after users answered).store.eventsOf "a").getLast?.map
      (fun e => (e.sequence, e.type)) = some (5, .runCompleted) ∧
    subscribe "user" "a" 5 60 0 (after users answered).store = .ok (reader 5) ∧
    ∀ inputs : List Round, (run step ⟨after users answered, reader 5⟩
      (inputs.map .round)).subscription.returned = false := by
  have hsub : subscribe "user" "a" 5 60 0 (after users answered).store = .ok (reader 5) := rfl
  refine ⟨by decide +kernel, hsub, fun inputs => ?_⟩
  refine late_not_returned ((subscribe_sound hsub).run (inputs.map .round)) ?_
  rw [run_rounds_system]
  exact answered_journal.2

open PlainPlatform Runs.Sample Sample in
theorem subscription_from_start_returns :
    (run step ⟨after users answered, reader 0⟩ (rounds 5)).subscription.returned = true ∧
    (run step ⟨after users answered, reader 0⟩
      (rounds 5)).subscription.events.map RunEventV1.toRunEvent =
        ((after users answered).store.eventsOf "a").filter (fun e => 0 < e.sequence) := by
  have hsub : subscribe "user" "a" 0 60 0 (after users answered).store = .ok (reader 0) := rfl
  exact (subscription_exact_iff hsub [] (rounds 5) rfl rfl
    (List.dropLast_append_getLast answered_journal.1).symm (by decide +kernel) rfl
    (by decide +kernel)).2.mpr ⟨by decide +kernel, by decide +kernel⟩

end SuperMew.Events
