import SuperMew.Auth.Ledger

/-! Exchanged and revoked tokens stay so, and the purge makes no difference to an exchange. -/

namespace SuperMew.Auth

open Relational TokenPlatform RefreshToken Machine Ledger

variable {grant : TokenGrant} {t : Time} {row : RefreshToken} {draw : Draw} {call : Call}

section Histories

variable {settings : SecuritySettings} {s s' : Ledger} {seen : List Draw} {now : Time}

/-- The rows of the user are not active after `_revoke_active_for_user`. -/
theorem revokeActive_inactive (userId : ℕ)
    (hrow : row ∈ (s.revokeActiveForUser userId now).2.tokens) (huser : row.userId = userId) :
    row.active now = false := by
  obtain ⟨old, -, rfl⟩ := List.mem_map.mp hrow
  by_cases hp : (old.userId == userId && old.active now) = true
  · simp only [hp, if_true]
    rfl
  · simp only [hp, Bool.false_eq_true, if_false] at huser ⊢
    simpa [huser] using hp

variable [TokenPlatform]

/-! ## Spent tokens -/

/-- The token was drawn, and no row of it can be exchanged any more. -/
def Spent (tokenHash : String) (seen : List Draw) (t : Time) (s : Ledger) : Prop :=
  (∃ d ∈ seen, TokenPlatform.hash d.token = tokenHash) ∧
    ∀ row ∈ s.tokens, row.tokenHash = tokenHash → row.revokedAt.isSome = true ∨ row.expiresAt ≤ t

variable {token : String}

theorem spent_step (settings : SecuritySettings) {tokenHash : String} (hs : Sound seen s)
    (hfresh : call.op.FreshAfter seen) (ht : t ≤ call.now) (h : Spent tokenHash seen t s) :
    Spent tokenHash (seen ++ call.op.draw.toList) call.now (exec settings s call) := by
  obtain ⟨⟨d, hd, hhash⟩, hrows⟩ := h
  refine ⟨⟨d, List.mem_append_left _ hd, hhash⟩, fun new hnew hsame => ?_⟩
  rcases (exec_advance settings hs hfresh).2.old new hnew with ⟨old, hold, hlater⟩ | ⟨d', hd', hdrawn⟩
  · rcases hrows old hold (hlater.hash ▸ hsame) with hrevoked | hexpired
    · exact .inl (hlater.revoked hrevoked)
    · exact .inr (hlater.expires ▸ hexpired.trans ht)
  · have heq : TokenPlatform.hash d.token = TokenPlatform.hash d'.token :=
      hhash.trans (hsame.symm.trans hdrawn)
    exact absurd (hash_injective heq) (hfresh d' hd' d hd).2

section

variable (hs : Sound seen s)

include hs

section

variable (hfresh : draw.Fresh seen)

include hfresh

/-- A successful rotation: the presented row can be exchanged, and the ledger after it. -/
theorem exchanged_row (hok : (rotate settings now (some token) draw s).1 = .ok grant) :
    ∃ row ∈ s.tokens, row.tokenHash = TokenPlatform.hash token ∧ row.active now = true ∧
      grant.refreshToken = draw.token ∧
      (rotate settings now (some token) draw s).2 = s.exchange settings row draw now := by
  obtain ⟨hout, hledger⟩ := Prod.ext_iff.mp (rotate_eq settings now hs (some token) hfresh)
  simp only [hok, outcome] at hout
  rw [hledger]
  rcases rotation_cases settings now (some token) draw s with
    heq | ⟨row, hrow, hlive, hraw, heq | ⟨hunrevoked, -, user, heq⟩⟩ <;> rw [heq] at hout ⊢
  · cases hout
  · cases hout
  · refine ⟨row, hrow, validatedHash_some hraw, ?_, ?_, rfl⟩
    · simpa [active, hlive] using hunrevoked
    · rw [Outcome.exchanged.inj hout]
      rfl

theorem not_exchanged_of_spent (ht : t ≤ now) (h : Spent (hash token) seen t s)
    (grant : TokenGrant) : (rotate settings now (some token) draw s).1 ≠ .ok grant := by
  intro hok
  obtain ⟨row, hrow, hhash, hactive, -⟩ := exchanged_row hs hfresh hok
  simp only [active, expired, Bool.and_eq_true, Option.isNone_iff_eq_none,
    Bool.not_eq_true', decide_eq_false_iff_not] at hactive
  rcases h.2 row hrow hhash with hrevoked | hexpired
  · simp [hactive.1] at hrevoked
  · exact hactive.2 (hexpired.trans ht)

theorem spent_of_exchanged (hok : (rotate settings now (some token) draw s).1 = .ok grant) :
    Spent (hash token) (seen ++ [draw]) now (rotate settings now (some token) draw s).2 := by
  obtain ⟨row, hrow, hhash, -, -, hledger⟩ := exchanged_row hs hfresh hok
  obtain ⟨d, hd, -, -, hdrawn⟩ := hs.drawn row hrow
  rw [hledger]
  refine ⟨⟨d, List.mem_append_left _ hd, hdrawn.symm.trans hhash⟩, fun new hnew hsame => ?_⟩
  rcases List.mem_append.mp hnew with hnew | hnew
  · obtain ⟨old, hold, rfl⟩ := List.mem_map.mp hnew
    have heq : old.tokenHash = row.tokenHash := by
      rw [hhash, ← hsame]
      split <;> rfl
    obtain rfl := hs.eq_of_hash hold hrow heq
    simp [revoked]
  · rw [List.mem_singleton.mp hnew] at hsame
    have heq : TokenPlatform.hash draw.token = TokenPlatform.hash d.token :=
      hsame.trans (hhash.symm.trans hdrawn)
    exact absurd (hash_injective heq).symm (hfresh d hd).2

end

theorem spent_of_inactive (hrow : row ∈ s.tokens)
    (hinactive : row.active now = false) : Spent row.tokenHash seen now s := by
  obtain ⟨d, hd, -, -, hdrawn⟩ := hs.drawn row hrow
  refine ⟨⟨d, hd, hdrawn.symm⟩, fun r hr hsame => ?_⟩
  obtain rfl := hs.eq_of_hash hr hrow hsame
  simpa [active, expired, Option.isSome_iff_ne_none, or_iff_not_imp_left] using hinactive

end

/-! ## Revoked tokens -/

/-- The row of a revoked token is there until it expires. -/
def Retained (old : RefreshToken) (t : Time) (s : Ledger) : Prop :=
  old.expiresAt ≤ t ∨ ∃ row ∈ s.tokens, old.Later row

theorem retained_step (settings : SecuritySettings) {old : RefreshToken}
    (hs : Sound seen s) (hfresh : call.op.FreshAfter seen) (ht : t ≤ call.now)
    (h : Retained old t s) : Retained old call.now (exec settings s call) := by
  rcases h with hexpired | ⟨row, hrow, hlater⟩
  · exact .inl (hexpired.trans ht)
  · by_cases hexpired : old.expiresAt ≤ call.now
    · exact .inl hexpired
    · have hlive : row.expired call.now = false := by
        simpa [expired, hlater.expires] using hexpired
      obtain ⟨new, hnew, hnext⟩ := (exec_advance settings hs hfresh).2.kept row hrow hlive
      exact .inr ⟨new, hnew, hnext.user.trans hlater.user, hnext.hash.trans hlater.hash,
        hnext.expires.trans hlater.expires, fun hr => hnext.revoked (hlater.revoked hr)⟩

/-- A revoked token that has not expired is a replay. -/
theorem replay_of_revoked (settings : SecuritySettings) (hs : Sound seen s)
    (hfresh : draw.Fresh seen) (hsafe : isOpaque token = true) (hrow : row ∈ s.tokens)
    (hhash : row.tokenHash = TokenPlatform.hash token) (hlive : row.expired now = false)
    (hrevoked : row.revokedAt.isSome = true) :
    outcome (rotate settings now (some token) draw s).1 = .replay ∧
      (rotate settings now (some token) draw s).2 = (s.revokeActiveForUser row.userId now).2 := by
  have hraw : validatedHash (some token) = .ok row.tokenHash := by
    simp [validatedHash, hsafe, hhash]
  have hrotate := rotate_eq settings now hs (some token) hfresh
  rw [rotation, presented_eq hs hraw hrow] at hrotate
  simp only [hlive, Bool.false_eq_true, if_false, hrevoked, if_true] at hrotate
  exact ⟨congrArg Prod.fst hrotate, congrArg Prod.snd hrotate⟩

/-! ## The purge -/

/-- The ledgers have the same users, and the same rows that have not expired. -/
structure SameLive (t : Time) (s s' : Ledger) : Prop where
  users : s.users = s'.users
  rows : s.live t = s'.live t

section Live

omit [TokenPlatform]

theorem live_later (ht : t ≤ now) (s : Ledger) :
    s.live now = (s.live t).filter fun row => !row.expired now := by
  rw [live, live, List.filter_filter]
  congr 1
  funext row
  by_cases h : row.expiresAt ≤ t
  · simp [expired, h, h.trans ht]
  · simp [expired, h]

theorem live_revokeWhere (p : RefreshToken → Bool) (t : Time) :
    (s.revokeWhere p now).live t =
      (s.live t).map fun row => if p row then row.revoked now else row := by
  rw [live, revokeWhere, List.filter_map, live]
  congr 2
  funext row
  by_cases hp : p row = true <;> simp [hp, expired, revoked]

theorem live_append (tokens : List RefreshToken) (t : Time) :
    ({ s with tokens := s.tokens ++ tokens } : Ledger).live t =
      s.live t ++ tokens.filter fun row => !row.expired t := by
  simp [live]

end Live

namespace SameLive

omit [TokenPlatform] in
theorem later (h : SameLive t s s') (ht : t ≤ now) : SameLive now s s' where
  users := h.users
  rows := by rw [live_later ht, live_later ht, h.rows]

omit [TokenPlatform] in
theorem revokeWhere (h : SameLive t s s') (p : RefreshToken → Bool) :
    SameLive t (s.revokeWhere p now) (s'.revokeWhere p now) where
  users := h.users
  rows := by rw [live_revokeWhere, live_revokeWhere, h.rows]

omit [TokenPlatform] in
theorem append (h : SameLive t s s') (tokens : List RefreshToken) :
    SameLive t { s with tokens := s.tokens ++ tokens }
      { s' with tokens := s'.tokens ++ tokens } where
  users := h.users
  rows := by rw [live_append, live_append, h.rows]

theorem presented (h : SameLive now s s') (rawToken : Option String) :
    s.presented now rawToken = s'.presented now rawToken := by
  simp [Ledger.presented, h.rows]

end SameLive

/-- A rotation does not tell the two ledgers apart. -/
theorem rotation_same (h : SameLive now s s') (rawToken : Option String) (draw : Draw) :
    (rotation settings now rawToken draw s).1 = (rotation settings now rawToken draw s').1 ∧
      SameLive now (rotation settings now rawToken draw s).2
        (rotation settings now rawToken draw s').2 := by
  simp only [rotation, h.presented, h.users]
  split
  · exact ⟨rfl, h⟩
  · split
    · exact ⟨rfl, h.revokeWhere _⟩
    · split
      · split
        · exact ⟨rfl, (h.revokeWhere _).append _⟩
        · exact ⟨rfl, h⟩
      · exact ⟨rfl, h⟩

theorem purge_same (settings : SecuritySettings) (h : Sound seen s) (t : Time) (batchSize : ℤ) :
    SameLive t (exec settings s ⟨t, .purge batchSize⟩) s := by
  simp only [exec, purgeRefreshTokenBatch]
  split
  · rename_i hpurge
    split at hpurge
    · cases hpurge
    · cases hpurge
      refine ⟨rfl, ?_⟩
      rw [live, List.filter_filter, live]
      refine List.filter_congr fun row hrow => ?_
      by_cases hpurged : row.id ∈ purgeCandidates settings t batchSize.toNat s
      · simp [purged_expired h hrow hpurged]
      · simp [hpurged]
  · exact ⟨rfl, rfl⟩

variable {token : String}

theorem same_step (settings : SecuritySettings) (hs : Sound seen s)
    (hs' : Sound seen s') (hfresh : call.op.FreshAfter seen) (h : SameLive call.now s s') :
    SameLive call.now (exec settings s call) (exec settings s' call) := by
  obtain ⟨now, op⟩ := call
  cases op with
  | issue userId readAt draw =>
    have husers : s.users.get userId = s'.users.get userId := by rw [h.users]
    rw [exec_issue settings hs userId now readAt (hfresh draw rfl),
      exec_issue settings hs' userId now readAt (hfresh draw rfl), husers]
    split
    · exact h.append _
    · exact h
  | rotate rawToken draw =>
    rw [exec_rotate settings now hs rawToken (hfresh draw rfl),
      exec_rotate settings now hs' rawToken (hfresh draw rfl)]
    exact (rotation_same h rawToken draw).2
  | logout rawToken =>
    simp only [exec, logout_eq hs, logout_eq hs', h.presented]
    split
    · split
      · exact h
      · exact h.revokeWhere _
    · exact h
  | logoutAll userId =>
    simp only [exec, logoutAll, h.users]
    split
    · exact h
    · exact h.revokeWhere _
  | purge batchSize =>
    have hpurged := purge_same settings hs now batchSize
    have hpurged' := purge_same settings hs' now batchSize
    exact ⟨hpurged.users.trans (h.users.trans hpurged'.users.symm),
      hpurged.rows.trans (h.rows.trans hpurged'.rows.symm)⟩

/-- Two runs from ledgers that agree end in ledgers that agree. -/
theorem same_run (settings : SecuritySettings) {calls rest : List Call} (hs : Sound seen s)
    (hs' : Sound seen s') (hfresh : FreshDraws seen (calls ++ call :: rest))
    (hclock : Machine.ClockFrom Call.now t (calls ++ call :: rest)) (h : SameLive t s s') :
    ∃ seen', Sound seen' (run (exec settings) s calls) ∧
      Sound seen' (run (exec settings) s' calls) ∧ call.op.FreshAfter seen' ∧
      SameLive call.now (run (exec settings) s calls) (run (exec settings) s' calls) := by
  induction calls generalizing seen t s s' with
  | nil => exact ⟨seen, hs, hs', (freshDraws_cons hfresh).1, h.later hclock.1⟩
  | cons c calls ih =>
    obtain ⟨hfirst, hlater⟩ := freshDraws_cons hfresh
    have hstep := same_step settings hs hs' hfirst (h.later hclock.1)
    exact ih (exec_advance settings hs hfirst).1 (exec_advance settings hs' hfirst).1 hlater
      hclock.2 hstep

/-! ## Every interleaving -/

def Exchanges (settings : SecuritySettings) (s : Ledger) (call : Call) (token : String)
    (grant : TokenGrant) : Prop :=
  ∃ draw, call.op = .rotate (some token) draw ∧
    (rotate settings call.now (some token) draw s).1 = .ok grant

def Replays (settings : SecuritySettings) (s : Ledger) (call : Call) (token : String) : Prop :=
  ∃ draw, call.op = .rotate (some token) draw ∧
    outcome (rotate settings call.now (some token) draw s).1 = .replay

/-- The call is a replay of a token of the user, or a `logout_all` of that user. -/
def RevokesAll (settings : SecuritySettings) (s : Ledger) (call : Call) (userId : ℕ) : Prop :=
  call.op = .logoutAll userId ∨ ∃ token, Replays settings s call token ∧
    ∃ row ∈ s.tokens, row.tokenHash = TokenPlatform.hash token ∧ row.userId = userId

/-- The exchange replaces the row of the token, which was active, by one new active row. -/
structure Replaces (s s' : Ledger) (now : Time) (token : String) (grant : TokenGrant) : Prop where
  presented : ∃ row ∈ s.activeTokens now, row.tokenHash = TokenPlatform.hash token ∧
    row.revoked now ∈ s'.tokens
  replaced : ∃ new, new.active now = true ∧ new.tokenHash = TokenPlatform.hash grant.refreshToken ∧
    s'.activeTokens now =
      (s.activeTokens now).filter (fun row => row.tokenHash != TokenPlatform.hash token) ++ [new]

omit [TokenPlatform] in
theorem activeTokens_revokeWhere (p : RefreshToken → Bool) (now : Time) :
    (s.revokeWhere p now).activeTokens now = (s.activeTokens now).filter fun row => !p row := by
  simp only [activeTokens, revokeWhere]
  induction s.tokens with
  | nil => rfl
  | cons row rows ih =>
    have hrevoked : (row.revoked now).active now = false := rfl
    by_cases hp : p row = true <;> by_cases hactive : row.active now = true <;>
      simp [hp, hactive, hrevoked, ih]

theorem newRow_active (settings : SecuritySettings) (draw : Draw) (userId : ℕ) (now : Time) :
    (newRow settings draw userId now).active now = true := by
  have hspan : 0 < daysSpan settings.refreshTokenExpireDays := by
    have hdays := settings.expires
    exact Nat.mul_pos (by omega) (by decide)
  have hlater : ¬ now + daysSpan settings.refreshTokenExpireDays ≤ now :=
    Nat.not_le_of_gt (Nat.lt_add_of_pos_right hspan)
  simp [active, expired, newRow, hlater]

theorem replaces_of_exchanged (hs : Sound seen s) (hfresh : draw.Fresh seen)
    (hok : (rotate settings now (some token) draw s).1 = .ok grant) :
    Replaces s (rotate settings now (some token) draw s).2 now token grant := by
  obtain ⟨row, hrow, hhash, hactive, hgrant, hledger⟩ := exchanged_row hs hfresh hok
  rw [hledger]
  have hmoved : row.revoked now ∈ (s.revokeWhere (fun r => r.id == row.id) now).tokens :=
    List.mem_map.mpr ⟨row, hrow, by simp⟩
  refine ⟨⟨row, List.mem_filter.mpr ⟨hrow, hactive⟩, hhash, List.mem_append_left _ hmoved⟩,
    newRow settings draw row.userId now, newRow_active .., by rw [hgrant]; rfl, ?_⟩
  have hnew : [newRow settings draw row.userId now].filter (fun r => r.active now) =
      [newRow settings draw row.userId now] := by
    simp [newRow_active]
  have hothers := activeTokens_revokeWhere (s := s) (fun r => r.id == row.id) now
  rw [activeTokens, exchange, List.filter_append, hnew]
  refine congrArg (· ++ _) (hothers.trans ?_)
  refine List.filter_congr fun r hr => ?_
  have hsame : r.id = row.id ↔ r.tokenHash = TokenPlatform.hash token := by
    have hr := List.mem_of_mem_filter hr
    constructor
    · exact fun hid => by rw [hs.eq_of_id hr hrow hid, hhash]
    · exact fun heq => by rw [hs.eq_of_hash hr hrow (heq.trans hhash.symm)]
  simp [bne, beq_eq_decide, hsame]

/-- What the ledger guarantees in one run, at every call of it. -/
structure Guarded (settings : SecuritySettings) (users : Table ℕ Runs.User) (calls : List Call) :
    Prop where
  once : ∀ before first between second rest token grant again,
    calls = before ++ first :: (between ++ second :: rest) →
    Exchanges settings (after settings users before) first token grant →
    ¬ Exchanges settings (after settings users (before ++ first :: between)) second token again
  replaced : ∀ before call rest token grant, calls = before ++ call :: rest →
    Exchanges settings (after settings users before) call token grant →
    Replaces (after settings users before) (after settings users (before ++ [call])) call.now token
      grant
  replayed : ∀ before between call rest token draw,
    calls = before ++ (between ++ call :: rest) → call.op = .rotate (some token) draw →
    ∀ row ∈ (after settings users before).tokens, row.tokenHash = TokenPlatform.hash token →
    row.revokedAt.isSome = true → call.now < row.expiresAt →
    Replays settings (after settings users (before ++ between)) call token ∧
      ∀ r ∈ (after settings users (before ++ between ++ [call])).tokens, r.userId = row.userId →
        r.active call.now = false
  revoked : ∀ before call between later rest userId token grant,
    calls = before ++ call :: (between ++ later :: rest) →
    RevokesAll settings (after settings users before) call userId →
    ∀ row ∈ (after settings users before).tokens, row.userId = userId →
    row.tokenHash = TokenPlatform.hash token →
    ¬ Exchanges settings (after settings users (before ++ call :: between)) later token grant
  purged : ∀ before t batchSize between call rest rawToken draw,
    calls = before ++ ⟨t, .purge batchSize⟩ :: (between ++ call :: rest) →
    call.op = .rotate rawToken draw →
    outcome (rotate settings call.now rawToken draw
      (after settings users (before ++ ⟨t, .purge batchSize⟩ :: between))).1 =
    outcome (rotate settings call.now rawToken draw (after settings users (before ++ between))).1

/-- A spent token is not exchanged by any later call. -/
theorem not_exchanges_of_spent {between rest : List Call} {later : Call}
    (hs : Sound seen s) (hfresh : FreshDraws seen (between ++ later :: rest))
    (hclock : Machine.ClockFrom Call.now t (between ++ later :: rest))
    (hspent : Spent (hash token) seen t s) (grant : TokenGrant) :
    ¬ Exchanges settings (run (exec settings) s between) later token grant := by
  rintro ⟨draw, hop, hok⟩
  obtain ⟨seen', t', hs', hfresh', hclock', hspent'⟩ := run_keeps
    (fun _ _ _ _ => spent_step settings) hs hfresh hclock hspent
  have hdraw : draw.Fresh seen' := (freshDraws_cons hfresh').1 draw (by simp [hop, Op.draw])
  exact not_exchanged_of_spent hs' hdraw hclock'.1 hspent' grant hok

theorem exec_of_rotate {rawToken : Option String} (hop : call.op = .rotate rawToken draw) :
    exec settings s call = (rotate settings call.now rawToken draw s).2 := by
  simp [exec, hop]

/-- A replay of the token of a row has revoked every token of its user. -/
theorem revokes_of_replays (hs : Sound seen s) (hfresh : call.op.FreshAfter seen)
    (h : Replays settings s call token)
    (hrow : row ∈ s.tokens) (hhash : row.tokenHash = TokenPlatform.hash token) :
    exec settings s call = (s.revokeActiveForUser row.userId call.now).2 := by
  obtain ⟨draw, hop, hreplay⟩ := h
  have hdraw : draw.Fresh seen := hfresh draw (by simp [hop, Op.draw])
  obtain ⟨hout, hledger⟩ := Prod.ext_iff.mp (rotate_eq settings call.now hs (some token) hdraw)
  rw [exec_of_rotate hop, hledger]
  rw [hreplay] at hout
  rcases rotation_cases settings call.now (some token) draw s with
    heq | ⟨found, hfound, -, hraw, heq | ⟨-, -, user, heq⟩⟩ <;> rw [heq] at hout ⊢
  · cases hout
  · have hsame : found.tokenHash = row.tokenHash := (validatedHash_some hraw).trans hhash.symm
    rw [hs.eq_of_hash hfound hrow hsame]
  · cases hout

/-- After such a call every token of the user that was there is spent. -/
theorem spent_of_revokesAll (hs : Sound seen s) (hfresh : call.op.FreshAfter seen) {userId : ℕ}
    (h : RevokesAll settings s call userId) (hrow : row ∈ s.tokens) (huser : row.userId = userId) :
    Spent row.tokenHash (seen ++ call.op.draw.toList) call.now (exec settings s call) := by
  have hledger : exec settings s call = (s.revokeActiveForUser userId call.now).2 := by
    rcases h with hop | ⟨token, hreplay, stored, hstored, hhash, howner⟩
    · obtain ⟨user, hfound⟩ := Option.ne_none_iff_exists'.mp (hs.owners row hrow)
      rw [huser] at hfound
      simp [exec, hop, logoutAll, hfound]
    · rw [revokes_of_replays hs hfresh hreplay hstored hhash, howner]
  have hsound := (exec_advance settings hs hfresh).1
  have hmoved : ∃ new ∈ (exec settings s call).tokens,
      new.tokenHash = row.tokenHash ∧ new.userId = userId := by
    rw [hledger]
    refine ⟨_, List.mem_map.mpr ⟨row, hrow, rfl⟩, ?_⟩
    split <;> exact ⟨rfl, huser⟩
  obtain ⟨new, hnew, hhash, howner⟩ := hmoved
  rw [← hhash]
  refine spent_of_inactive hsound hnew ?_
  rw [hledger] at hnew
  exact revokeActive_inactive userId hnew howner

/-- What the operations do to the tokens, in every interleaving of them. -/
theorem refresh_tokens_guarded (settings : SecuritySettings) (users : Table ℕ Runs.User)
    (calls : List Call) (hclock : Machine.ClockFrom Call.now 0 calls)
    (hfresh : FreshDraws [] calls) : Guarded settings users calls := by
  constructor
  case once =>
    rintro before first between second rest token grant again rfl ⟨draw, hop, hok⟩
    obtain ⟨seen, t, hs, hdraws, htime⟩ := after_sound settings users hfresh hclock
    obtain ⟨hfirst, hlater⟩ := freshDraws_cons hdraws
    have hdraw : draw.Fresh seen := hfirst draw (by simp [hop, Op.draw])
    have hspent := spent_of_exchanged hs hdraw hok
    have hstep : seen ++ first.op.draw.toList = seen ++ [draw] := by simp [hop, Op.draw]
    rw [← exec_of_rotate hop, ← hstep] at hspent
    rw [after, run_append, run_cons]
    exact not_exchanges_of_spent (exec_advance settings hs hfirst).1 hlater htime.2 hspent again
  case replaced =>
    rintro before call rest token grant rfl ⟨draw, hop, hok⟩
    obtain ⟨seen, t, hs, hdraws, htime⟩ := after_sound settings users hfresh hclock
    have hdraw : draw.Fresh seen := (freshDraws_cons hdraws).1 draw (by simp [hop, Op.draw])
    rw [after, after, run_append, run_cons, run_nil, exec_of_rotate hop]
    exact replaces_of_exchanged hs hdraw hok
  case replayed =>
    rintro before between call rest token draw rfl hop row hrow hhash hrevoked hlive
    obtain ⟨seen, t, hs, hdraws, htime⟩ := after_sound settings users hfresh hclock
    have hretained : Retained row t (after settings users before) := .inr ⟨row, hrow, .refl row⟩
    obtain ⟨seen', t', hs', hdraws', htime', hkept⟩ := run_keeps
      (fun _ _ _ _ => retained_step settings) hs hdraws htime hretained
    have hdraw : draw.Fresh seen' := (freshDraws_cons hdraws').1 draw (by simp [hop, Op.draw])
    rcases hkept with hexpired | ⟨kept, hkept, hlater⟩
    · exact absurd (hexpired.trans htime'.1) (Nat.not_le_of_gt hlive)
    have hsafe : isOpaque token = true := by
      obtain ⟨d, -, hd, -, hdrawn⟩ := hs'.drawn kept hkept
      have heq : TokenPlatform.hash token = TokenPlatform.hash d.token :=
        hhash.symm.trans (hlater.hash.symm.trans hdrawn)
      rw [hash_injective heq]
      exact hd
    have hunexpired : kept.expired call.now = false := by
      simpa [expired, hlater.expires] using hlive
    obtain ⟨hreplay, hledger⟩ := replay_of_revoked settings hs' hdraw hsafe hkept
      (hlater.hash.trans hhash) hunexpired (hlater.revoked hrevoked)
    rw [after, after, run_append, run_append, run_append, run_cons, run_nil, exec_of_rotate hop]
    refine ⟨⟨draw, hop, hreplay⟩, fun r hr huser => ?_⟩
    have hleft : r ∈ ((run (exec settings) (after settings users before)
        between).revokeActiveForUser kept.userId call.now).2.tokens := by
      rw [← hledger]
      exact hr
    exact revokeActive_inactive kept.userId hleft (huser.trans hlater.user.symm)
  case revoked =>
    rintro before call between later rest userId token grant rfl hrevokes row hrow huser hhash
    obtain ⟨seen, t, hs, hdraws, htime⟩ := after_sound settings users hfresh hclock
    obtain ⟨hcall, hlater⟩ := freshDraws_cons hdraws
    have hspent := spent_of_revokesAll hs hcall hrevokes hrow huser
    rw [hhash] at hspent
    rw [after, run_append, run_cons]
    exact not_exchanges_of_spent (exec_advance settings hs hcall).1 hlater htime.2 hspent grant
  case purged =>
    rintro before t batchSize between call rest rawToken draw rfl hop
    obtain ⟨seen, _, hs, hdraws, htime⟩ := after_sound settings users hfresh hclock
    obtain ⟨hpurge, hlater⟩ := freshDraws_cons hdraws
    have hpurged := (exec_advance settings hs hpurge).1
    have hnone : seen ++ (Op.purge batchSize).draw.toList = seen := by simp [Op.draw]
    rw [hnone] at hlater hpurged
    obtain ⟨seen', hs₁, hs₂, hnext, hsame⟩ := same_run settings hpurged hs hlater
      htime.2 (purge_same settings hs t batchSize)
    have hdraw : draw.Fresh seen' := hnext draw (by simp [hop, Op.draw])
    have hrotate₁ := congrArg Prod.fst (rotate_eq settings call.now hs₁ rawToken hdraw)
    have hrotate₂ := congrArg Prod.fst (rotate_eq settings call.now hs₂ rawToken hdraw)
    rw [after, after, run_append, run_cons, run_append]
    exact hrotate₁.trans ((rotation_same hsame rawToken draw).1.trans hrotate₂.symm)

end Histories

namespace Sample

def settings : SecuritySettings := ⟨1, 1, by decide, by decide⟩

def users : Table ℕ Runs.User := AList.singleton 1 ⟨"user", "member"⟩

def token (c : Char) : String := String.ofList (List.replicate 64 c)

def calls : List Call :=
  [⟨1, .issue 1 0 ⟨"a", token 'a'⟩⟩,
    ⟨2, .rotate (some (token 'a')) ⟨"b", token 'b'⟩⟩,
    ⟨3, .rotate (some (token 'a')) ⟨"c", token 'c'⟩⟩,
    ⟨daysSpan 2, .purge 10⟩,
    ⟨daysSpan 2, .rotate (some (token 'b')) ⟨"d", token 'd'⟩⟩]

end Sample

open PlainPlatform Sample in
theorem stolen_token_guarded :
    (outcome (rotate settings 2 (some (token 'a')) ⟨"b", token 'b'⟩
      (after settings users (calls.take 1))).1 =
        .exchanged (newGrant ⟨"user", "member"⟩ (token 'b') 2) ∧
      outcome (rotate settings 3 (some (token 'a')) ⟨"c", token 'c'⟩
        (after settings users (calls.take 2))).1 = .replay) ∧
    Guarded settings users calls :=
  ⟨by decide +kernel, refresh_tokens_guarded settings users calls
    ⟨by decide, by decide, by decide, by decide, by decide, trivial⟩
    ⟨by decide +kernel, by decide +kernel⟩⟩

end SuperMew.Auth
