import SuperMew.Threads.Counters

/-! A second `append_message` with the arguments of one that succeeded. The version is checked
before the client id is looked up, so the retry of a call that gave the version it expected
finds the version that its own first attempt has made. -/

namespace SuperMew.Threads

open Relational Runs Table

section

variable [Platform] {s s' : Store} {m t : Id} {row : Message}

/-! ## What happens in between -/

/-- What any operations in between can have done: rows may be new, changed or gone, but users
stay, threads keep their names and messages their threads, and the constraints of the tables
hold. -/
structure Later (s s' : Store) : Prop where
  users : s'.users = s.users
  names : ∀ t thread thread', s.threads.get t = some thread → s'.threads.get t = some thread' →
    name thread' = name thread
  homes : ∀ m row row', s.messages.get m = some row → s'.messages.get m = some row' →
    row'.threadRefId = row.threadRefId
  unique : ∀ t t' thread thread', s'.threads.get t = some thread →
    s'.threads.get t' = some thread' → name thread' = name thread → t' = t
  home : ∀ m row, s'.messages.get m = some row → s'.threads.get row.threadRefId ≠ none
  clients : checkClientIds s' = .ok ()

theorem later_of_kept (h : Kept s s') (hcounted : Counted s')
    (hclients : checkClientIds s' = .ok ()) :
    Later s s' where
  users := h.users
  names t thread thread' ht ht' := by
    obtain ⟨found, hfound, hname⟩ := h.threads t thread ht
    rw [Option.mem_unique ht' hfound]
    exact hname
  homes m row row' hm hm' := by
    obtain ⟨found, hfound, hhome⟩ := h.messages m row hm
    rw [Option.mem_unique hm' hfound]
    exact hhome
  unique := hcounted.names
  home := hcounted.home
  clients := hclients

/-- A client id names at most one message of a thread. -/
theorem checkClientIds_eq_ok : checkClientIds s = .ok () ↔
    ∀ m row m' row', s.messages.get m = some row → s.messages.get m' = some row' →
      row.threadRefId = row'.threadRefId → row.clientMessageId ≠ none →
      row.stored.clientMessageId = row'.stored.clientMessageId → m = m' := by
  simp only [checkClientIds, violatedIf_eq_ok, List.any_eq_true, Prod.exists, mem_rows,
    Bool.and_eq_true, bne_iff_ne, beq_iff_eq, Option.ne_none_iff_isSome]
  constructor
  · intro h m row m' row' hm hm' hthread hsome hkey
    by_contra hne
    exact h ⟨m, row, hm, m', row', hm', ⟨⟨hne, hthread⟩, hsome⟩, hkey⟩
  · rintro h ⟨m, row, hm, m', row', hm', ⟨⟨hne, hthread⟩, hsome⟩, hkey⟩
    exact hne (h m row m' row' hm hm' hthread hsome hkey)

theorem clients_of_quiet (h : checkClientIds s = .ok ()) (hq : Quiet s s') :
    checkClientIds s' = .ok () := by
  have hold : ∀ {m row}, s'.messages.get m = some row → ∃ old, s.messages.get m = some old ∧
      old.threadRefId = row.threadRefId ∧ old.clientMessageId = row.clientMessageId := by
    intro m row hm
    obtain ⟨old, hold, hplace⟩ := exists_of_map_eq (hq.places m) hm
    obtain ⟨_, hsame, hclient⟩ := exists_of_map_eq (hq.clients m) hm
    cases hold.symm.trans hsame
    exact ⟨old, hold, congrArg Prod.fst hplace, hclient⟩
  refine checkClientIds_eq_ok.mpr fun m row m' row' hm hm' hthread hsome hkey => ?_
  obtain ⟨old, hget, hhome, hclient⟩ := hold hm
  obtain ⟨old', hget', hhome', hclient'⟩ := hold hm'
  refine checkClientIds_eq_ok.mp h m old m' old' hget hget' ?_ ?_ ?_
  · rw [hhome, hhome', hthread]
  · rwa [hclient]
  · simpa only [Message.stored, hclient, hclient'] using hkey

theorem checkMessage_client (h : checkMessage row s = .ok ()) {old : Message}
    (hm : s.messages.get m = some old) (hthread : old.threadRefId = row.threadRefId)
    (hsome : old.clientMessageId ≠ none) :
    old.stored.clientMessageId ≠ row.stored.clientMessageId := by
  intro hkey
  simp only [checkMessage, ok_rules, List.any_eq_true, Prod.exists, mem_rows,
    Bool.and_eq_true, beq_iff_eq, ← Option.ne_none_iff_isSome] at h
  obtain ⟨_, -, _, -, h⟩ := h
  exact h ⟨m, old, hm, ⟨hthread, hsome⟩, hkey⟩

theorem clients_of_insert (h : checkClientIds s = .ok ()) (hrow : checkMessage row s = .ok ())
    (hmessages : s'.messages = s.messages.put m row) : checkClientIds s' = .ok () := by
  rw [checkClientIds_eq_ok] at h ⊢
  intro m₁ row₁ m₂ row₂ h₁ h₂ hthread hsome hkey
  rw [hmessages, get_put] at h₁ h₂
  rcases update_eq_some.mp h₁ with ⟨rfl, rfl⟩ | ⟨-, hold₁⟩ <;>
    rcases update_eq_some.mp h₂ with ⟨rfl, rfl⟩ | ⟨-, hold₂⟩
  · rfl
  · refine absurd hkey.symm (checkMessage_client hrow hold₂ hthread.symm fun hnone => ?_)
    simp [Message.stored, hnone, hsome] at hkey
  · exact absurd hkey (checkMessage_client hrow hold₁ hthread hsome)
  · exact h m₁ row₁ m₂ row₂ hold₁ hold₂ hthread hsome hkey

end

variable {r : AppendRequest} {answer : Option MessageRecord} {record : MessageRecord}
  {threadId : String} {thread : Thread}

section Records

variable {env : Env} {s s' : Store} {m t : Id} {row : Message}

theorem assertVersion_eq_ok {expected : Option ℕ} :
    assertVersion thread expected = .ok () ↔ ∀ version ∈ expected, thread.version = version := by
  simp [assertVersion, raiseIf_eq_ok]

theorem messageRecord_id [TraceCodec] (h : messageRecord m row threadId = .ok record) :
    record.id = m ∧ record.clientMessageId = row.clientMessageId := by
  simp only [messageRecord, ok_rules] at h
  obtain ⟨_, -, rfl⟩ := h
  exact ⟨rfl, rfl⟩

/-! ## The calls that return a record -/

/-- The thread that a request opens. -/
theorem getOrCreateThread_spec {user : Id} {title : Option String} {s₁ : Store}
    (h : getOrCreateThread env user threadId title s = (t, thread, s₁)) :
    s₁.threads.get t = some thread ∧ name thread = (user, threadId) ∧ s₁.users = s.users ∧
      s₁.messages = s.messages ∧ s₁.nextMessage = s.nextMessage := by
  unfold getOrCreateThread at h
  split at h
  · rename_i hfind
    obtain ⟨rfl, rfl, rfl⟩ : _ = t ∧ _ = thread ∧ s = s₁ := by simpa only [Prod.mk.injEq] using h
    obtain ⟨ht, hname⟩ := find_eq_some hfind
    simp only [Bool.and_eq_true, beq_iff_eq] at hname
    exact ⟨ht, Prod.ext hname.1 hname.2, rfl, rfl, rfl⟩
  · obtain ⟨rfl, rfl, rfl⟩ : _ = t ∧ _ = thread ∧ _ = s₁ := by simpa only [Prod.mk.injEq] using h
    refine ⟨?_, rfl, rfl, rfl, rfl⟩
    simp [Store.putThread, get_put]

variable [Platform] [TraceCodec]

theorem appendMessage_eq_ok :
    appendMessage env r s = .ok (answer, s') ↔ appendTransaction env r s = .ok (answer, s') := by
  unfold appendMessage
  split
  · rename_i h
    simp [h]
  · rfl

theorem appendTransaction_none (h : appendTransaction env r s = .ok (none, s')) : s' = s := by
  unfold appendTransaction at h
  split at h
  · exact (Prod.mk.inj (Except.ok.inj h)).2.symm
  · simp only [ok_rules] at h
    obtain ⟨_, -, h⟩ := h
    split at h
    · simp at h
    · simp [insertMessage] at h

/-- A call that returns a record has found the message, or it has added it. -/
theorem appendTransaction_cases (h : appendTransaction env r s = .ok (some record, s')) :
    ∃ user account t thread s₁, s.userNamed r.username = some (user, account) ∧
      getOrCreateThread env user (cleanText r.threadId) r.title s = (t, thread, s₁) ∧
      (∀ version ∈ r.expectedVersion, thread.version = version) ∧
      ((∃ row, existingMessage t r.message.clientMessageId s₁ = some (record.id, row) ∧
        messageRecord record.id row.stored r.threadId = .ok record ∧ s' = s₁) ∨
      ∃ row new, messageRecord record.id row r.threadId = .ok record ∧
        checkMessage row s₁ = .ok () ∧
        row.threadRefId = t ∧ row.clientMessageId = r.message.clientMessageId ∧
        row.content = r.message.content ∧ name new = name thread ∧
        s' = { (s₁.putMessage record.id row).putThread t new with
          nextMessage := s₁.nextMessage + 1 }) := by
  unfold appendTransaction at h
  split at h
  · cases h
  · rename_i user account huser
    rcases hopen : getOrCreateThread env user (cleanText r.threadId) r.title s with ⟨t, thread, s₁⟩
    simp only [hopen, ok_rules] at h
    obtain ⟨_, hversion, h⟩ := h
    refine ⟨user, account, t, thread, s₁, huser, hopen, assertVersion_eq_ok.mp hversion, ?_⟩
    split at h
    · rename_i m row hfind
      simp only [ok_rules, Option.some.injEq] at h
      obtain ⟨_, hrecord, rfl, rfl⟩ := h
      obtain ⟨rfl, -⟩ := messageRecord_id hrecord
      exact .inl ⟨row, hfind, hrecord, rfl⟩
    · simp only [insertMessage, ok_rules, Option.some.injEq] at h
      obtain ⟨_, -, _, hcheck, _, hrecord, rfl, rfl⟩ := h
      have hid := (messageRecord_id hrecord).1
      refine .inr ⟨_, _, hid ▸ hrecord, hcheck, rfl, rfl, rfl, ?_, by rw [hid]⟩
      rfl

end Records

/-! ## Runs -/

section Runs

variable [ErrorCodec] [Platform] [TraceCodec] {s s' : Store}

omit [ErrorCodec] in
theorem appendMessage_clients (h : checkClientIds s = .ok ()) {env : Env}
    (hs : appendMessage env r s = .ok (answer, s')) : checkClientIds s' = .ok () := by
  rw [appendMessage_eq_ok] at hs
  cases answer with
  | none => exact appendTransaction_none hs ▸ h
  | some record =>
    obtain ⟨_, _, t, thread, s₁, -, hopen, -, hcase⟩ := appendTransaction_cases hs
    have hmessages := (getOrCreateThread_spec hopen).2.2.2.1
    have h₁ : checkClientIds s₁ = .ok () := by
      simpa only [checkClientIds, hmessages] using h
    rcases hcase with ⟨_, -, -, rfl⟩ | ⟨row, new, -, hcheck, -, -, -, -, rfl⟩
    · exact h₁
    · exact clients_of_insert h₁ hcheck rfl

theorem commit_clients (h : checkClientIds s = .ok ()) {call : Call} {reply : Reply}
    (hs : call.commit s = .ok (reply, s')) : checkClientIds s' = .ok () := by
  obtain ⟨env, op⟩ := call
  cases op with
  | reserve r =>
    obtain ⟨⟨answer, _⟩, hop, heq⟩ := map_eq_ok.mp hs
    cases heq
    simp only [reserve, ok_rules] at hop
    obtain ⟨input, -, hop⟩ := hop
    split at hop
    · split at hop
      · simp only [ok_rules] at hop
        exact hop.2 ▸ h
      · simp at hop
    · simp only [ok_rules] at hop
      obtain ⟨_, -, _, hclients, -, rfl⟩ := hop
      exact hclients
  | finalize r =>
    obtain ⟨⟨answer, _⟩, hop, heq⟩ := map_eq_ok.mp hs
    cases heq
    exact clients_of_quiet h (finalize_quiet hop)
  | appendMessage r | createAssistantPlaceholder username threadId runId expectedVersion =>
    obtain ⟨⟨answer, _⟩, hop, heq⟩ := map_eq_ok.mp hs
    cases heq
    exact appendMessage_clients h hop
  | finalizeMessage r =>
    obtain ⟨⟨answer, _⟩, hop, heq⟩ := map_eq_ok.mp hs
    cases heq
    exact clients_of_quiet h (finalizeMessage_quiet hop)

/-- Whatever calls are made, the rows keep their keys and the constraints hold. -/
theorem run_later (h : Counted s) (hclients : checkClientIds s = .ok ()) (calls : List Call) :
    Later s (Machine.run exec s calls) := by
  have hstep : ∀ s₁ call, Counted s₁ ∧ Kept s s₁ ∧ checkClientIds s₁ = .ok () →
      Counted (exec s₁ call) ∧ Kept s (exec s₁ call) ∧ checkClientIds (exec s₁ call) = .ok () := by
    intro s₁ call hI
    unfold exec
    split
    · rename_i hs
      obtain ⟨hcounted, hkept, -⟩ := commit_counted hI.1 hs
      exact ⟨hcounted, hI.2.1.trans hkept, commit_clients hI.2.2 hs⟩
    · exact hI
  have hrun := Machine.run_preserves hstep ⟨h, .refl s, hclients⟩ calls
  exact later_of_kept hrun.2.1 hrun.1 hrun.2.2

end Runs

section Retry

variable [Platform] [TraceCodec] {env env' : Env} {s s' s₂ : Store} {key : String} {m t : Id}

/-- After the first call the message stands in its thread as the record shows it. -/
theorem stored_of_append (hfirst : appendTransaction env r s = .ok (some record, s'))
    (hkey : r.message.clientMessageId = some key)
    (hgiven : s' = s ∨ cleanText key = key ∧ cleanText r.message.content = r.message.content) :
    ∃ user account row thread, s'.userNamed r.username = some (user, account) ∧
      s'.messages.get record.id = some row ∧ s'.threads.get row.threadRefId = some thread ∧
      name thread = (user, cleanText r.threadId) ∧
      messageRecord record.id row.stored r.threadId = .ok record ∧
      row.stored.clientMessageId = some (cleanText key) := by
  obtain ⟨user, account, t, thread, s₁, huser, hopen, -, hcase⟩ := appendTransaction_cases hfirst
  obtain ⟨hthread, hname, husers, -, hnext⟩ := getOrCreateThread_spec hopen
  have huser₁ : s₁.userNamed r.username = some (user, account) := by
    simpa only [Store.userNamed, husers] using huser
  rcases hcase with ⟨row, hfind, hrecord, rfl⟩ |
    ⟨row, new, hrecord, -, rfl, hclient, hcontent, hnew, rfl⟩
  · obtain ⟨hm, rfl, -, -, hclient⟩ := existingMessage_eq_some hfind
    refine ⟨user, account, row, thread, huser₁, hm, hthread, hname, hrecord, ?_⟩
    rw [hclient, hkey, Option.map_some]
  · -- a new row shows what is stored only if the engine leaves its texts alone
    obtain ⟨hcleanKey, hcleanContent⟩ := hgiven.resolve_left fun hsame => by
      have hmore := congrArg Store.nextMessage hsame
      simp [← hnext] at hmore
    rw [hkey] at hclient
    have hstored : row.stored = row := by
      unfold Message.stored
      rw [hclient, hcontent, Option.map_some, hcleanKey, hcleanContent, ← hclient, ← hcontent]
    refine ⟨user, account, row, new, huser₁, ?_, ?_, hnew.trans hname, by rwa [hstored], ?_⟩
    · simp [Store.putMessage, Store.putThread, get_put]
    · simp [Store.putThread, get_put]
    · simp [Message.stored, hclient]

omit [TraceCodec] in
/-- A thread is still found under its name. -/
theorem Later.threadOf (hlater : Later s' s₂) {user : Id} {thread₂ : Thread}
    (ht : s'.threads.get t = some thread) (hname : name thread = (user, threadId))
    (ht₂ : s₂.threads.get t = some thread₂) : s₂.threadOf user threadId = some (t, thread₂) := by
  have hname₂ := (hlater.names _ _ _ ht ht₂).trans hname
  obtain ⟨huserId, hthreadId⟩ := Prod.mk.inj hname₂
  refine find_unique ht₂ (by simp [huserId, hthreadId]) fun t' thread' ht' hp => ?_
  simp only [Bool.and_eq_true, beq_iff_eq] at hp
  exact hlater.unique _ _ _ _ ht₂ ht' ((Prod.ext hp.1 hp.2).trans hname₂.symm)

omit [TraceCodec] in
/-- A message is found under its client id. -/
theorem existingMessage_eq {row : Message} (hclients : checkClientIds s = .ok ())
    (hm : s.messages.get m = some row) (hhome : row.threadRefId = t) (hne : key ≠ "")
    (hclient : row.stored.clientMessageId = some (cleanText key)) :
    existingMessage t (some key) s = some (m, row) := by
  have hfilter : (some key).filter (· ≠ "") = some key := by simp [hne]
  simp only [existingMessage, hfilter]
  refine find_unique hm (by simp [hhome, hclient]) fun m' row' hm' hp => ?_
  simp only [Bool.and_eq_true, beq_iff_eq] at hp
  refine checkClientIds_eq_ok.mp hclients m' row' m row hm' hm ?_ ?_ ?_
  · rw [hp.1, hhome]
  · rintro hnone
    simp [Message.stored, hnone] at hp
  · rw [hp.2, hclient]

/-- The retry of a call that has succeeded returns the same record and changes nothing exactly
if its client id is not empty, the thread has the version that the request expects, and the
message shows what it showed after the first call, provided that the engine leaves the texts of
a new message alone. What has happened in between is arbitrary. -/
theorem append_message_retry (hkey : r.message.clientMessageId = some key)
    (hfirst : appendMessage env r s = .ok (some record, s'))
    (hgiven : s' = s ∨ cleanText key = key ∧ cleanText r.message.content = r.message.content)
    (hlater : Later s' s₂) :
    ∃ row, s'.messages.get record.id = some row ∧
      (appendMessage env' r s₂ = .ok (some record, s₂) ↔
        key ≠ "" ∧
        (∀ thread, s₂.threads.get row.threadRefId = some thread →
          ∀ version ∈ r.expectedVersion, thread.version = version) ∧
        ∃ row₂, s₂.messages.get record.id = some row₂ ∧
          messageRecord record.id row₂.stored r.threadId =
            messageRecord record.id row.stored r.threadId) := by
  rw [appendMessage_eq_ok] at hfirst
  obtain ⟨user, account, row, thread, huser, hm, ht, hname, hshow, hclient⟩ :=
    stored_of_append hfirst hkey hgiven
  refine ⟨row, hm, appendMessage_eq_ok.trans ⟨fun h => ?_, ?_⟩⟩
  · obtain ⟨_, _, t₂, thread₂, s₃, -, hopen, hversion, hcase⟩ := appendTransaction_cases h
    obtain ⟨ht₂, -, -, -, hnext⟩ := getOrCreateThread_spec hopen
    rcases hcase with ⟨row₂, hfind, hrecord, rfl⟩ | ⟨_, _, -, -, -, -, -, -, hsame⟩
    · obtain ⟨hm₂, rfl, -, hne, -⟩ := existingMessage_eq_some hfind
      rw [← hlater.homes _ _ _ hm hm₂]
      refine ⟨fun hempty => hne (hempty ▸ hkey), fun thread' ht' => ?_, row₂, hm₂, ?_⟩
      · rwa [Option.mem_unique ht' ht₂]
      · rw [hrecord, hshow]
    · have hmore := congrArg Store.nextMessage hsame
      simp [hnext] at hmore
  · rintro ⟨hne, hversion, row₂, hm₂, hsame⟩
    have hhome := hlater.homes _ _ _ hm hm₂
    obtain ⟨thread₂, ht₂⟩ := Option.ne_none_iff_exists'.mp (hlater.home _ _ hm₂)
    rw [hhome] at ht₂
    have hthread := hlater.threadOf ht hname ht₂
    have hshow₂ := hsame.trans hshow
    have hclient₂ : row₂.stored.clientMessageId = some (cleanText key) := by
      rw [← (messageRecord_id hshow₂).2, (messageRecord_id hshow).2, hclient]
    have hfind : existingMessage row.threadRefId r.message.clientMessageId s₂ =
        some (record.id, row₂) := by
      rw [hkey]
      exact existingMessage_eq hlater.clients hm₂ hhome hne hclient₂
    have huser₂ : s₂.userNamed r.username = some (user, account) := by
      simpa only [Store.userNamed, hlater.users] using huser
    have hopen : getOrCreateThread env' user (cleanText r.threadId) r.title s₂ =
        (row.threadRefId, thread₂, s₂) := by
      simp [getOrCreateThread, hthread]
    simp only [appendTransaction, huser₂, hopen, assertVersion_eq_ok.mpr (hversion thread₂ ht₂),
      ok_bind, hfind, hshow₂]
    rfl

end Retry

namespace Sample

open PlainPlatform Runs.Sample

def note (expectedVersion : Option ℕ) : AppendRequest where
  username := "user"
  threadId := "thread"
  message := { role := .human, content := "note", clientMessageId := some "id" }
  expectedVersion := expectedVersion

def noted (expectedVersion : Option ℕ) : Store :=
  match appendMessage (env 1 "none") (note expectedVersion) (.initial users) with
  | .ok (_, s) => s
  | .error _ => .initial users

def notedRecord : MessageRecord :=
  ⟨1, "thread", 1, .human, "note", .completed, none, some "id", 1, 1, none⟩

/-- Another message is appended before the retry. -/
def notedTwice : Store :=
  Machine.run exec (noted none) [⟨env 2 "none", .appendMessage {
    username := "user"
    threadId := "thread"
    message := { role := .ai, content := "reply" } }⟩]

/-- Without an expected version the retry is answered with the record. -/
theorem append_message_retry_without_version :
    appendMessage (env 3 "none") (note none) notedTwice = .ok (some notedRecord, notedTwice) := by
  have hfirst : appendMessage (env 1 "none") (note none) (.initial users) =
      .ok (some notedRecord, noted none) := rfl
  have hlater : Later (noted none) notedTwice :=
    run_later (appendMessage_counted (counted_initial users) hfirst).1 rfl _
  obtain ⟨row, hm, hretry⟩ := append_message_retry rfl hfirst (.inr ⟨rfl, rfl⟩) hlater
  cases hm
  exact hretry.mpr ⟨by decide, by decide, _, rfl, rfl⟩

/-- With the expected version, the retry of a call that has succeeded is a conflict. -/
theorem retry_conflicts :
    appendMessage (env 1 "none") (note (some 0)) (.initial users) =
      .ok (some notedRecord, noted (some 0)) ∧
    appendMessage (env 2 "none") (note (some 0)) (noted (some 0)) = .error (.app {
      code := .conflict
      message := "Thread 已被其他请求更新，请刷新后重试"
      statusCode := 409
      safeDetails := [("current_version", .int 1)] }) :=
  ⟨rfl, rfl⟩

end Sample

end SuperMew.Threads
