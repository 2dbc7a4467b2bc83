import SuperMew.Auth.Tokens

/-! The ledger of refresh tokens over every interleaving of its transactions. -/

namespace SuperMew.Auth

open List Relational Ledger

/-! ## Exchanges -/

/-- What an exchange comes to: a grant, a replay, or a plain failure. -/
inductive Outcome where
  | exchanged (grant : TokenGrant)
  | replay
  | failed
  deriving DecidableEq, Repr

def outcome : Except Failure TokenGrant → Outcome
  | .ok grant => .exchanged grant
  | .error (.rejected .replay) => .replay
  | .error _ => .failed

namespace Ledger

variable (s : Ledger)

def live (now : Time) : List RefreshToken := s.tokens.filter fun row => !row.expired now

def activeTokens (now : Time) : List RefreshToken := s.tokens.filter fun row => row.active now

/-- The row of the token that is presented, unless it has expired. -/
def presented [TokenPlatform] (now : Time) (rawToken : Option String) : Option RefreshToken :=
  match validatedHash rawToken with
  | .ok tokenHash => (s.live now).find? fun row => row.tokenHash == tokenHash
  | .error _ => none

end Ledger

variable {row : RefreshToken}

theorem Ledger.insert_eq_ok {s s' : Ledger} : s.insert row = .ok s' ↔
    (∀ r ∈ s.tokens, r.id ≠ row.id) ∧ (∀ r ∈ s.tokens, r.tokenHash ≠ row.tokenHash) ∧
      s' = { s with tokens := s.tokens ++ [row] } := by
  simp only [insert, ok_rules, any_eq_true, beq_iff_eq, not_exists, not_and,
    exists_const, eq_comm (a := s')]

variable [TokenPlatform] {settings : SecuritySettings} {s s' : Ledger} {seen : List Draw}
  {now : Time}

def Draw.Fresh (draw : Draw) (seen : List Draw) : Prop :=
  ∀ d ∈ seen, d.id ≠ draw.id ∧ d.token ≠ draw.token

/-- Keys and hashes are unique, every token has its user, and was drawn. -/
structure Sound (seen : List Draw) (s : Ledger) : Prop where
  ids : (s.tokens.map RefreshToken.id).Nodup
  hashes : (s.tokens.map RefreshToken.tokenHash).Nodup
  owners : ∀ row ∈ s.tokens, s.users.get row.userId ≠ none
  drawn : ∀ row ∈ s.tokens, ∃ d ∈ seen, isOpaque d.token = true ∧ row.id = d.id ∧
    row.tokenHash = TokenPlatform.hash d.token

theorem sound_empty (users : Table ℕ Runs.User) : Sound [] ⟨users, []⟩ := by
  constructor <;> simp

variable {draw : Draw}

namespace Sound

section

variable (h : Sound seen s)

include h

theorem mono {more : List Draw} (hmore : ∀ d ∈ seen, d ∈ more) : Sound more s :=
  { h with
    drawn := fun row hrow => by
      obtain ⟨d, hd, heq⟩ := h.drawn row hrow
      exact ⟨d, hmore d hd, heq⟩ }

theorem eq_of_hash {a b : RefreshToken} (ha : a ∈ s.tokens) (hb : b ∈ s.tokens)
    (heq : a.tokenHash = b.tokenHash) : a = b :=
  inj_on_of_nodup_map h.hashes ha hb heq

theorem eq_of_id {a b : RefreshToken} (ha : a ∈ s.tokens) (hb : b ∈ s.tokens)
    (heq : a.id = b.id) : a = b :=
  inj_on_of_nodup_map h.ids ha hb heq

/-- A query that holds of one token of the ledger only finds that token. -/
theorem find?_eq (hrow : row ∈ s.tokens) {p : RefreshToken → Bool} (hp : p row = true)
    (hu : ∀ r, p r = true → r.tokenHash = row.tokenHash) : s.tokens.find? p = some row := by
  cases hfind : s.tokens.find? p with
  | none => exact absurd hp (find?_eq_none.mp hfind row hrow)
  | some r =>
    rw [h.eq_of_hash (mem_of_find?_eq_some hfind) hrow (hu r (find?_some hfind))]

end

/-! ## Writes -/

omit [TokenPlatform] in
theorem map_revokeWhere {τ : Type} (f : RefreshToken → τ)
    (hf : ∀ row now, f (row.revoked now) = f row) (p : RefreshToken → Bool) (now : Time) :
    (s.revokeWhere p now).tokens.map f = s.tokens.map f := by
  simp only [revokeWhere, map_map]
  apply map_congr_left
  intro row _
  by_cases hp : p row = true <;> simp [hp, hf]

variable (h : Sound seen s)

include h

theorem revokeWhere (p : RefreshToken → Bool) (now : Time) : Sound seen (s.revokeWhere p now) := by
  have hold : ∀ row ∈ (s.revokeWhere p now).tokens, ∃ old ∈ s.tokens,
      row.id = old.id ∧ row.userId = old.userId ∧ row.tokenHash = old.tokenHash := by
    intro row hrow
    obtain ⟨old, hmem, rfl⟩ := mem_map.mp hrow
    refine ⟨old, hmem, ?_⟩
    split <;> simp [RefreshToken.revoked]
  constructor
  · rw [map_revokeWhere RefreshToken.id (fun _ _ => rfl)]
    exact h.ids
  · rw [map_revokeWhere RefreshToken.tokenHash (fun _ _ => rfl)]
    exact h.hashes
  · intro row hrow
    obtain ⟨old, hmem, -, huser, -⟩ := hold row hrow
    exact huser ▸ h.owners old hmem
  · intro row hrow
    obtain ⟨old, hmem, hid, -, hhash⟩ := hold row hrow
    rw [hid, hhash]
    exact h.drawn old hmem

theorem filter (p : RefreshToken → Bool) : Sound seen { s with tokens := s.tokens.filter p } where
  ids := h.ids.sublist (filter_sublist.map _)
  hashes := h.hashes.sublist (filter_sublist.map _)
  owners row hrow := h.owners row (mem_of_mem_filter hrow)
  drawn row hrow := h.drawn row (mem_of_mem_filter hrow)

theorem insert_fresh (hfresh : draw.Fresh seen) (hid : row.id = draw.id)
    (hhash : row.tokenHash = TokenPlatform.hash draw.token) :
    s.insert row = .ok { s with tokens := s.tokens ++ [row] } := by
  refine insert_eq_ok.mpr ⟨fun r hr => ?_, fun r hr => ?_, rfl⟩
  · obtain ⟨d, hd, -, hrid, -⟩ := h.drawn r hr
    rw [hrid, hid]
    exact (hfresh d hd).1
  · obtain ⟨d, hd, -, -, hrhash⟩ := h.drawn r hr
    rw [hrhash, hhash]
    exact fun heq => (hfresh d hd).2 (TokenPlatform.hash_injective heq)

theorem insert (hfresh : draw.Fresh seen)
    (hsafe : isOpaque draw.token = true) (hid : row.id = draw.id)
    (hhash : row.tokenHash = TokenPlatform.hash draw.token) (huser : s.users.get row.userId ≠ none) :
    Sound (seen ++ [draw]) { s with tokens := s.tokens ++ [row] } := by
  obtain ⟨hids, hhashes, -⟩ := insert_eq_ok.mp (h.insert_fresh hfresh hid hhash)
  constructor
  · rw [map_append, map_singleton]
    refine List.Nodup.append h.ids (nodup_singleton _) ?_
    simpa [disjoint_singleton] using hids
  · rw [map_append, map_singleton]
    refine List.Nodup.append h.hashes (nodup_singleton _) ?_
    simpa [disjoint_singleton] using hhashes
  · intro r hr
    rcases mem_append.mp hr with hr | hr
    · exact h.owners r hr
    · rw [mem_singleton.mp hr]
      exact huser
  · intro r hr
    rcases mem_append.mp hr with hr | hr
    · obtain ⟨d, hd, heq⟩ := h.drawn r hr
      exact ⟨d, mem_append_left _ hd, heq⟩
    · rw [mem_singleton.mp hr]
      exact ⟨draw, by simp, hsafe, hid, hhash⟩

end Sound

/-! ## Rotation -/

/-- A new row takes the place of a row, which is revoked. -/
def Ledger.exchange (s : Ledger) (settings : SecuritySettings) (row : RefreshToken) (draw : Draw)
    (now : Time) : Ledger :=
  { s.revokeWhere (fun r => r.id == row.id) now with
    tokens := (s.revokeWhere (fun r => r.id == row.id) now).tokens ++
      [newRow settings draw row.userId now] }

/-- What `rotate` does, in terms of the rows that have not expired. -/
def rotation (settings : SecuritySettings) (now : Time) (rawToken : Option String) (draw : Draw)
    (s : Ledger) : Outcome × Ledger :=
  match s.presented now rawToken with
  | none => (.failed, s)
  | some row =>
    if row.revokedAt.isSome then (.replay, (s.revokeActiveForUser row.userId now).2)
    else
      match s.users.get row.userId with
      | some user =>
        if isOpaque draw.token then
          (.exchanged (newGrant user draw.token now), s.exchange settings row draw now)
        else (.failed, s)
      | none => (.failed, s)

theorem validatedHash_ne_replay (rawToken : Option String) :
    validatedHash rawToken ≠ .error .replay := by
  unfold validatedHash
  split
  · simp
  · split <;> simp

theorem validatedHash_some {token tokenHash : String}
    (h : validatedHash (some token) = .ok tokenHash) : tokenHash = TokenPlatform.hash token := by
  simp only [validatedHash] at h
  split at h
  · exact (Except.ok.inj h).symm
  · cases h

variable {rawToken : Option String} {calls : List Call}

/-- The token of a row is presented as long as the row has not expired. -/
theorem presented_eq (h : Sound seen s)
    (hraw : validatedHash rawToken = .ok row.tokenHash) (hrow : row ∈ s.tokens) :
    s.presented now rawToken = if row.expired now then none else some row := by
  simp only [presented, hraw]
  split
  · rename_i hexpired
    rw [find?_eq_none]
    intro r hr hhash
    obtain ⟨hmem, hlive⟩ := mem_filter.mp hr
    rw [h.eq_of_hash hmem hrow (beq_iff_eq.mp hhash), hexpired] at hlive
    cases hlive
  · rename_i hlive
    have hmem : row ∈ s.live now := mem_filter.mpr ⟨hrow, by simpa using hlive⟩
    cases hfind : (s.live now).find? fun r => r.tokenHash == row.tokenHash with
    | none => simpa using find?_eq_none.mp hfind row hmem
    | some r =>
      have hr := mem_of_mem_filter (mem_of_find?_eq_some hfind)
      have hhash : r.tokenHash = row.tokenHash := by simpa using find?_some hfind
      rw [h.eq_of_hash hr hrow hhash]

theorem presented_none {tokenHash : String} (hraw : validatedHash rawToken = .ok tokenHash)
    (hnone : ∀ row ∈ s.tokens, row.tokenHash ≠ tokenHash) : s.presented now rawToken = none := by
  simp only [presented, hraw, find?_eq_none, beq_iff_eq]
  exact fun row hrow => hnone row (mem_of_mem_filter hrow)

/-- The two lookups of `rotate` and `logout` find the row of the hash with its user. -/
theorem lookup_eq (h : Sound seen s) (tokenHash : String) :
    (∀ row ∈ s.tokens, row.tokenHash ≠ tokenHash) ∧ s.tokenUserId tokenHash = none ∨
    ∃ row user, row ∈ s.tokens ∧ row.tokenHash = tokenHash ∧
      s.tokenUserId tokenHash = some row.userId ∧
      s.lockToken tokenHash row.userId = some row ∧ s.users.get row.userId = some user := by
  cases hfind : s.tokens.find? fun row => row.tokenHash == tokenHash with
  | none =>
    refine .inl ⟨fun row hrow heq => ?_, by simp [tokenUserId, hfind]⟩
    simpa [heq] using find?_eq_none.mp hfind row hrow
  | some row =>
    have hrow := mem_of_find?_eq_some hfind
    have hhash : row.tokenHash = tokenHash := by simpa using find?_some hfind
    obtain ⟨user, huser⟩ := Option.ne_none_iff_exists'.mp (h.owners row hrow)
    refine .inr ⟨row, user, hrow, hhash, by simp [tokenUserId, hfind], ?_, huser⟩
    refine h.find?_eq hrow (by simp [hhash]) fun r hr => ?_
    simp only [Bool.and_eq_true, beq_iff_eq] at hr
    exact hr.1.trans hhash.symm

theorem replaceToken_eq (settings : SecuritySettings) (now : Time) (h : Sound seen s)
    (hfresh : draw.Fresh seen) (user : Runs.User) (row : RefreshToken) :
    (∃ fault, isOpaque draw.token = false ∧
      replaceToken settings user row draw now s = .error fault) ∨
    isOpaque draw.token = true ∧ replaceToken settings user row draw now s =
      .ok (newGrant user draw.token now, s.exchange settings row draw now) := by
  have hinsert : (s.revokeWhere (fun r => r.id == row.id) now).insert
      (newRow settings draw row.userId now) = .ok _ :=
    (h.revokeWhere (fun r => r.id == row.id) now).insert_fresh hfresh rfl rfl
  cases hsafe : isOpaque draw.token with
  | false =>
    refine .inl ⟨.runtime "refresh token factory returned an unsafe token", rfl, ?_⟩
    simp only [replaceToken, newRefreshToken, hsafe, Bool.false_eq_true, if_false]
    rfl
  | true =>
    refine .inr ⟨rfl, ?_⟩
    simp only [replaceToken, newRefreshToken, hsafe, if_true, ok_bind, hinsert]
    rfl

theorem rotate_eq (settings : SecuritySettings) (now : Time) (h : Sound seen s)
    (rawToken : Option String) (hfresh : draw.Fresh seen) :
    (outcome (rotate settings now rawToken draw s).1, (rotate settings now rawToken draw s).2) =
      rotation settings now rawToken draw s := by
  cases hraw : validatedHash rawToken with
  | error reason =>
    have hne : reason ≠ .replay := fun heq => validatedHash_ne_replay rawToken (heq ▸ hraw)
    have hnone : s.presented now rawToken = none := by simp [presented, hraw]
    simp only [rotate, hraw, rotation, hnone]
    cases reason <;> simp [outcome] at hne ⊢
  | ok tokenHash =>
    rcases lookup_eq h tokenHash with ⟨hnone, huser⟩ | ⟨row, user, hrow, rfl, huser, hlock, hget⟩
    · simp [rotate, hraw, huser, rotation, presented_none hraw hnone, outcome]
    · simp only [rotate, hraw, huser, hget, hlock, rotation, presented_eq h hraw hrow]
      by_cases hexpired : row.expired now = true
      · simp [hexpired, outcome]
      · by_cases hrevoked : row.revokedAt.isSome = true
        · simp [hexpired, hrevoked, outcome]
        · rcases replaceToken_eq settings now h hfresh user row with
            ⟨fault, hsafe, hreplace⟩ | ⟨hsafe, hreplace⟩
          · simp [hexpired, hrevoked, hreplace, hsafe, outcome, hget]
          · simp [hexpired, hrevoked, hreplace, hsafe, outcome, hget]

theorem logout_eq (h : Sound seen s) (rawToken : Option String) :
    (logout now rawToken s).2 = match s.presented now rawToken with
      | some row => if row.revokedAt.isSome then s else s.revokeWhere (fun r => r.id == row.id) now
      | none => s := by
  cases hraw : validatedHash rawToken with
  | error reason => simp [logout, hraw, presented]
  | ok tokenHash =>
    rcases lookup_eq h tokenHash with ⟨hnone, huser⟩ | ⟨row, user, hrow, rfl, huser, hlock, hget⟩
    · simp [logout, hraw, huser, presented_none hraw hnone]
    · simp only [logout, hraw, huser, hget, hlock, presented_eq h hraw hrow]
      by_cases hexpired : row.expired now = true <;>
        by_cases hrevoked : row.revokedAt.isSome = true <;> simp [hexpired, hrevoked]

theorem presented_mem (h : s.presented now rawToken = some row) :
    row ∈ s.tokens ∧ row.expired now = false ∧ validatedHash rawToken = .ok row.tokenHash := by
  unfold presented at h
  split at h
  · rename_i tokenHash hraw
    obtain ⟨hmem, hlive⟩ := mem_filter.mp (mem_of_find?_eq_some h)
    have hhash : row.tokenHash = tokenHash := by simpa using find?_some h
    exact ⟨hmem, by simpa using hlive, hhash ▸ hraw⟩
  · cases h

theorem purged_expired (h : Sound seen s) {batchSize : ℕ} (hrow : row ∈ s.tokens)
    (hpurged : row.id ∈ purgeCandidates settings now batchSize s) : row.expired now = true := by
  obtain ⟨r, hr, hid⟩ := mem_map.mp hpurged
  have hr := (mem_insertionSort _).mp (mem_of_mem_take hr)
  obtain ⟨hmem, hdue⟩ := mem_filter.mp hr
  rw [h.eq_of_id hmem hrow hid] at hdue
  exact decide_eq_true (Nat.le_trans (Nat.le_add_right _ _) (of_decide_eq_true hdue))

/-! ## What a step keeps -/

/-- A row stays the same token, and a revoked one stays revoked. -/
structure RefreshToken.Later (old new : RefreshToken) : Prop where
  user : new.userId = old.userId
  hash : new.tokenHash = old.tokenHash
  expires : new.expiresAt = old.expiresAt
  revoked : old.revokedAt.isSome = true → new.revokedAt.isSome = true

omit [TokenPlatform] in
theorem RefreshToken.Later.refl (row : RefreshToken) : row.Later row := ⟨rfl, rfl, rfl, fun h => h⟩

/-- Rows that have not expired stay, and every other row has the token that was drawn. -/
structure Advance (now : Time) (draw : Option Draw) (s s' : Ledger) : Prop where
  users : s'.users = s.users
  kept : ∀ row ∈ s.tokens, row.expired now = false → ∃ row' ∈ s'.tokens, row.Later row'
  old : ∀ row' ∈ s'.tokens, (∃ row ∈ s.tokens, row.Later row') ∨
    ∃ d ∈ draw, row'.tokenHash = TokenPlatform.hash d.token

theorem Advance.refl (now : Time) (draw : Option Draw) (s : Ledger) : Advance now draw s s where
  users := rfl
  kept row hrow _ := ⟨row, hrow, .refl row⟩
  old row hrow := .inl ⟨row, hrow, .refl row⟩

theorem Advance.revokeWhere (p : RefreshToken → Bool) (now clock : Time) (draw : Option Draw)
    (s : Ledger) : Advance clock draw s (s.revokeWhere p now) := by
  have hlater : ∀ row : RefreshToken, row.Later (if p row then row.revoked now else row) := by
    intro row
    split
    · exact ⟨rfl, rfl, rfl, fun _ => rfl⟩
    · exact .refl row
  refine ⟨rfl, fun row hrow _ => ⟨_, mem_map.mpr ⟨row, hrow, rfl⟩, hlater row⟩, ?_⟩
  intro row' hrow'
  obtain ⟨row, hrow, rfl⟩ := mem_map.mp hrow'
  exact .inl ⟨row, hrow, hlater row⟩

theorem Advance.append (h : Advance now (some draw) s s')
    (hhash : row.tokenHash = TokenPlatform.hash draw.token) :
    Advance now (some draw) s { s' with tokens := s'.tokens ++ [row] } where
  users := h.users
  kept old hold hlive := by
    obtain ⟨new, hnew, hlater⟩ := h.kept old hold hlive
    exact ⟨new, mem_append_left _ hnew, hlater⟩
  old new hnew := by
    rcases mem_append.mp hnew with hnew | hnew
    · exact h.old new hnew
    · rw [mem_singleton.mp hnew]
      exact .inr ⟨draw, rfl, hhash⟩

def Op.FreshAfter (op : Op) (seen : List Draw) : Prop := ∀ draw ∈ op.draw, draw.Fresh seen

/-- A rotation fails, or finds the row of its token, which is a replay or is exchanged. -/
theorem rotation_cases (settings : SecuritySettings) (now : Time) (rawToken : Option String)
    (draw : Draw) (s : Ledger) :
    rotation settings now rawToken draw s = (.failed, s) ∨
    ∃ row ∈ s.tokens, row.expired now = false ∧ validatedHash rawToken = .ok row.tokenHash ∧
      (rotation settings now rawToken draw s = (.replay, (s.revokeActiveForUser row.userId now).2) ∨
        row.revokedAt.isSome = false ∧ isOpaque draw.token = true ∧ ∃ user,
          rotation settings now rawToken draw s =
            (.exchanged (newGrant user draw.token now), s.exchange settings row draw now)) := by
  unfold rotation
  split
  · exact .inl rfl
  · rename_i row hpresented
    obtain ⟨hrow, hlive, hraw⟩ := presented_mem hpresented
    split
    · exact .inr ⟨row, hrow, hlive, hraw, .inl rfl⟩
    · rename_i hunrevoked
      split
      · split
        · rename_i hsafe
          exact .inr ⟨row, hrow, hlive, hraw, .inr ⟨by simpa using hunrevoked, hsafe, _, rfl⟩⟩
        · exact .inl rfl
      · exact .inl rfl

theorem rotation_advance (h : Sound seen s) (hfresh : draw.Fresh seen) :
    Sound (seen ++ [draw]) (rotation settings now rawToken draw s).2 ∧
      Advance now (some draw) s (rotation settings now rawToken draw s).2 := by
  rcases rotation_cases settings now rawToken draw s with
    heq | ⟨row, hrow, -, -, heq | ⟨-, hsafe, user, heq⟩⟩ <;> rw [heq]
  · exact ⟨h.mono fun d hd => mem_append_left _ hd, .refl ..⟩
  · exact ⟨(h.revokeWhere _ now).mono fun d hd => mem_append_left _ hd, .revokeWhere ..⟩
  · exact ⟨(h.revokeWhere _ now).insert hfresh hsafe rfl rfl (h.owners row hrow),
      (Advance.revokeWhere _ now now (some draw) s).append rfl⟩

/-- A fresh token goes into the ledger if it is well formed and its user is there. -/
theorem exec_issue (settings : SecuritySettings) (h : Sound seen s) (userId : ℕ)
    (now readAt : Time) (hfresh : draw.Fresh seen) :
    exec settings s ⟨now, .issue userId readAt draw⟩ =
      if isOpaque draw.token = true ∧ (s.users.get userId).isSome = true then
        { s with tokens := s.tokens ++ [newRow settings draw userId readAt] } else s := by
  have hinsert : s.insert (newRow settings draw userId readAt) = .ok _ :=
    h.insert_fresh hfresh rfl rfl
  cases hsafe : isOpaque draw.token <;> cases huser : s.users.get userId <;>
    simp [exec, issue, newRefreshToken, hsafe, huser, hinsert, ok_bind] <;> rfl

theorem exec_rotate (settings : SecuritySettings) (now : Time) (h : Sound seen s)
    (rawToken : Option String) (hfresh : draw.Fresh seen) :
    exec settings s ⟨now, .rotate rawToken draw⟩ = (rotation settings now rawToken draw s).2 := by
  rw [← rotate_eq settings now h rawToken hfresh]
  rfl

theorem exec_advance (settings : SecuritySettings) (h : Sound seen s) {call : Call}
    (hfresh : call.op.FreshAfter seen) :
    Sound (seen ++ call.op.draw.toList) (exec settings s call) ∧
      Advance call.now call.op.draw s (exec settings s call) := by
  have hsame : Sound (seen ++ call.op.draw.toList) s ∧ Advance call.now call.op.draw s s :=
    ⟨h.mono fun d hd => mem_append_left _ hd, .refl ..⟩
  obtain ⟨now, op⟩ := call
  cases op with
  | issue userId readAt draw =>
    rw [exec_issue settings h userId now readAt (hfresh draw rfl)]
    split
    · rename_i hissue
      exact ⟨h.insert (hfresh draw rfl) hissue.1 rfl rfl (Option.isSome_iff_ne_none.mp hissue.2),
        (Advance.refl now (some draw) s).append rfl⟩
    · exact hsame
  | rotate rawToken draw =>
    rw [exec_rotate settings now h rawToken (hfresh draw rfl)]
    exact rotation_advance h (hfresh draw rfl)
  | logout rawToken =>
    simp only [exec, logout_eq h]
    split
    · split
      · exact hsame
      · exact ⟨(h.revokeWhere _ now).mono fun d hd => mem_append_left _ hd, .revokeWhere ..⟩
    · exact hsame
  | logoutAll userId =>
    simp only [exec, logoutAll]
    split
    · exact hsame
    · exact ⟨(h.revokeWhere _ now).mono fun d hd => mem_append_left _ hd, .revokeWhere ..⟩
  | purge batchSize =>
    simp only [exec, purgeRefreshTokenBatch]
    split
    · rename_i hpurge
      split at hpurge
      · cases hpurge
      · cases hpurge
        refine ⟨(h.filter _).mono fun d hd => mem_append_left _ hd, rfl, ?_, ?_⟩
        · intro row hrow hlive
          refine ⟨row, mem_filter.mpr ⟨hrow, ?_⟩, .refl row⟩
          rw [Bool.not_eq_true', contains_eq_mem, decide_eq_false_iff_not]
          intro hpurged
          rw [purged_expired h hrow hpurged] at hlive
          cases hlive
        · exact fun row hrow => .inl ⟨row, mem_of_mem_filter hrow, .refl row⟩
    · exact hsame

/-! ## Runs -/

def drawsOf (calls : List Call) : List Draw := calls.flatMap fun c => c.op.draw.toList

/-- No identifier and no token is drawn twice. -/
def FreshDraws (seen : List Draw) (calls : List Call) : Prop :=
  ((seen ++ drawsOf calls).map Draw.id).Nodup ∧ ((seen ++ drawsOf calls).map Draw.token).Nodup

omit [TokenPlatform] in
theorem freshDraws_cons {call : Call} (h : FreshDraws seen (call :: calls)) :
    call.op.FreshAfter seen ∧ FreshDraws (seen ++ call.op.draw.toList) calls := by
  have hassoc : seen ++ drawsOf (call :: calls) =
      (seen ++ call.op.draw.toList) ++ drawsOf calls := by
    simp [drawsOf]
  unfold FreshDraws at h
  rw [hassoc] at h
  refine ⟨fun draw hdraw d hd => ?_, h⟩
  have hids := h.1.sublist ((sublist_append_left _ _).map _)
  have htokens := h.2.sublist ((sublist_append_left _ _).map _)
  rw [map_append, nodup_append] at hids htokens
  have hmem : draw ∈ call.op.draw.toList := Option.mem_toList.mpr hdraw
  exact ⟨hids.2.2 _ (mem_map_of_mem hd) _ (mem_map_of_mem hmem),
    htokens.2.2 _ (mem_map_of_mem hd) _ (mem_map_of_mem hmem)⟩

variable {rest : List Call}

/-- What every step keeps, as time goes on and draws are made, holds after every run, at a
time and with draws from which the run can go on. -/
theorem run_keeps {Q : List Draw → Time → Ledger → Prop}
    (step : ∀ seen t s (c : Call), Sound seen s → c.op.FreshAfter seen → t ≤ c.now → Q seen t s →
    Q (seen ++ c.op.draw.toList) c.now (exec settings s c)) {t : Time} (hs : Sound seen s)
    (hfresh : FreshDraws seen (calls ++ rest))
    (hclock : Machine.ClockFrom Call.now t (calls ++ rest)) (hQ : Q seen t s) :
    ∃ seen' t', Sound seen' (Machine.run (exec settings) s calls) ∧ FreshDraws seen' rest ∧
      Machine.ClockFrom Call.now t' rest ∧
      Q seen' t' (Machine.run (exec settings) s calls) := by
  induction calls generalizing seen t s with
  | nil => exact ⟨seen, t, hs, hfresh, hclock, hQ⟩
  | cons c calls ih =>
    obtain ⟨hfirst, hlater⟩ := freshDraws_cons hfresh
    have hstep := step seen t s c hs hfirst hclock.1 hQ
    exact ih (exec_advance settings hs hfirst).1 hlater hclock.2 hstep

theorem after_sound (settings : SecuritySettings) (users : Table ℕ Runs.User)
    (hfresh : FreshDraws [] (calls ++ rest))
    (hclock : Machine.ClockFrom Call.now 0 (calls ++ rest)) :
    ∃ seen t, Sound seen (after settings users calls) ∧ FreshDraws seen rest ∧
      Machine.ClockFrom Call.now t rest := by
  obtain ⟨seen, t, hs, hrest, htime, -⟩ := run_keeps
    (Q := fun _ _ _ => True) (fun _ _ _ _ _ _ _ _ => trivial) (sound_empty users) hfresh hclock
    trivial
  exact ⟨seen, t, hs, hrest, htime⟩

end SuperMew.Auth
