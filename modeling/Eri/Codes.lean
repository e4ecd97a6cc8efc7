/-
  File:      Eri/Codes.lean
  Subject:   Authorization codes: used once, and what a replay does to the grant.

  * `Spent`, `spent_kept` -- a consumed code whose families are all revoked; no later call
    makes it another family, since that takes an unused code;
  * `exchanged_once` -- a code is exchanged at most once;
  * **`authorization_codes`** -- a replay ends what came of the code, for good.
-/
import Eri.Refresh

namespace Eri

open Sql

variable {P : Platform} {M : Machine schema Request Reply} {a db : Db}

/-! ## 1. Consumed codes -/

/-- The code stored under a hash is consumed. -/
def CodeUsed (db : Db) (codeHash : Digest) : Prop :=
  ∃ code ∈ db.rows .authorizationCodes, AuthorizationCodeRow.codeHash code = codeHash ∧
    (AuthorizationCodeRow.consumedAt code).isSome = true

/-- Every family of the code is revoked. -/
def SourceRevoked (db : Db) (code : Uuid) : Prop :=
  ∀ f ∈ db.rows .refreshFamilies, FamilyRow.sourceCodeId f = code →
    (FamilyRow.revokedAt f).isSome = true

/-- **The code is consumed and its families are revoked.** -/
def Spent (db : Db) (code : Uuid) : Prop :=
  (∃ x ∈ db.rows .authorizationCodes, (AuthorizationCodeRow.toCodeRow x).id = code ∧
    (AuthorizationCodeRow.consumedAt x).isSome = true) ∧ SourceRevoked db code

theorem codeUsed_kept (d : Digest) : Kept (contract P) (program P) fun db => CodeUsed db d :=
  kept_row fun r r' hl hq => by
    refine ⟨?_, hl.consumed.isSome hq.2⟩
    rw [hl.keeps]
    exact hq.1

theorem consumed_kept (code : Uuid) : Kept (contract P) (program P) fun db =>
    ∃ x ∈ db.rows .authorizationCodes, (AuthorizationCodeRow.toCodeRow x).id = code ∧
      (AuthorizationCodeRow.consumedAt x).isSome = true :=
  kept_row fun r r' hl hq => by
    refine ⟨?_, hl.consumed.isSome hq.2⟩
    rw [hl.keeps]
    exact hq.1

/-- **A spent code stays spent**: a new family descends from another code. -/
theorem spent_kept (code : Uuid) : Kept (contract P) (program P) fun db => Spent db code := by
  intro c db hgood h
  refine ⟨consumed_kept code c db hgood h.1, fun f hf hsource => ?_⟩
  rcases (credentialChange hgood rfl).family_origin f hf with
    ⟨x, hx, hl⟩ | ⟨raw, stored, session, _, hshown, hredeem, _, rfl⟩
  · rw [hl.keeps] at hsource
    exact hl.revoked.isSome (h.2 x hx hsource)
  · obtain ⟨used, hused, hid, hconsumed⟩ := h.1
    have e : used = stored := same_key hgood.inv hused hshown.stored (hid.trans hsource.symm)
    rw [e, hredeem.unconsumed] at hconsumed
    cases hconsumed

/-- A replay leaves the code spent. -/
theorem spent_replayed {code : AuthorizationCodeRow} {now : Time}
    (hcode : code ∈ a.rows .authorizationCodes) (hused : code.consumedAt.isSome = true) :
    Spent (replayedRows code now a) code.id := by
  refine ⟨⟨code, ?_, rfl, hused⟩, fun f hf hsource => ?_⟩
  · unfold replayedRows
    rwa [Db.update_rows_ne _ _ _ (by decide)]
  · unfold replayedRows at hf
    rw [Db.update_rows_self] at hf
    obtain ⟨x, _, rfl⟩ := List.mem_map.mp hf
    split
    · rfl
    · rename_i hne
      rw [if_neg hne] at hsource
      exact absurd (decide_eq_true hsource) hne

/-- An exchange leaves the code used. -/
theorem codeUsed_exchanged {t : Tape} {code : AuthorizationCodeRow} {session : SessionRow}
    (hcode : code ∈ a.rows .authorizationCodes) :
    CodeUsed (exchangedRows P t code session a) code.codeHash := by
  have hrows : (exchangedRows P t code session a).rows .authorizationCodes =
      (a.rows .authorizationCodes).map fun c =>
        if decide ((AuthorizationCodeRow.toCodeRow c).id = code.id) = true then
          AuthorizationCodeRow.consume (t.now 0) c else c := by
    unfold exchangedRows
    split
    · rw [Db.insert_rows_ne _ _ (by decide), Db.insert_rows_ne _ _ (by decide),
        Db.update_rows_self]
    · rw [Db.update_rows_self]
  refine ⟨code.consume (t.now 0), ?_, rfl, rfl⟩
  rw [hrows]
  exact List.mem_map.mpr ⟨code, hcode, by simp⟩

/-- Codes have hashes of their own. -/
theorem same_codeHash {x y : AuthorizationCodeRow} (hI : (layout P).Integrity a)
    (hx : x ∈ a.rows .authorizationCodes) (hy : y ∈ a.rows .authorizationCodes)
    (e : x.codeHash = y.codeHash) : x = y := by
  have hname : Name.hash x.codeHash ∈ Row.names (t := .authorizationCodes) y := by
    simp [Row.names, e]
  exact hI.unique hx hy (n := .hash x.codeHash) (by simp [Row.names]) hname

/-- A used code cannot be exchanged. -/
theorem not_codeUsed {raw : String} {code : AuthorizationCodeRow} {session : SessionRow}
    {now : Time} (hI : (layout P).Integrity a) (hshown : CodeShown P raw a code session)
    (hredeem : code.Redeemable session now) : ¬CodeUsed a (secretHash P raw) := by
  rintro ⟨x, hx, hhash, hused⟩
  have e : x = code := same_codeHash hI hx hshown.stored (hhash.trans hshown.hash.symm)
  rw [e, hredeem.unconsumed] at hused
  cases hused

/-! ## 2. Runs -/

/-- An exchange of the code `raw` was granted. -/
def Exchanged (e : Entry) (raw : String) : Prop :=
  e.call.call.exchangeOf = some raw ∧ e.reply.granted.isSome = true

theorem exchanged_entry {e : Entry} {raw : String} (h : Reachable P M) (he : e ∈ M.log)
    (hr : Exchanged e raw) : ∃ code session,
      (layout P).Integrity e.before ∧ CodeShown P raw e.before code session ∧
      code.Redeemable session (e.call.tape.now 0) ∧
      e.reply = .exchanged (.ok (exchangedResult e.call.tape code session)) ∧
      e.after = exchangedRows P e.call.tape code session e.before := by
  obtain ⟨x, hx⟩ := Option.isSome_iff_exists.mp hr.2
  obtain ⟨code, session, hshown, hredeem, rfl, hafter⟩ := (entry_change h he).exchanged hr.1 hx
  refine ⟨code, session, (reachable_entry (lawful P) h he).1.inv, hshown, hredeem, ?_, hafter⟩
  unfold Reply.granted at hx
  split at hx
  · rename_i y hy
    cases hx
    exact hy
  · cases hx

/-- **A code is exchanged at most once.** -/
theorem exchanged_once {e e' : Entry} {raw : String} (h : Reachable P M) (he : e ∈ M.log)
    (he' : e' ∈ M.log) (hr : Exchanged e raw) (hr' : Exchanged e' raw) : e = e' := by
  refine kept_once (A := fun e => Exchanged e raw) (lawful P) (codeUsed_kept (secretHash P raw))
    h (fun x hx hrx => ?_) (fun x hx hrx => ?_) he he' hr hr'
  · obtain ⟨code, session, hI, hshown, hredeem, _⟩ := exchanged_entry h hx hrx
    exact not_codeUsed hI hshown hredeem
  · obtain ⟨code, session, _, hshown, _, _, hafter⟩ := exchanged_entry h hx hrx
    rw [hafter, ← hshown.hash]
    exact codeUsed_exchanged hshown.stored

/-- A replay ends in `InvalidGrant` and a spent code. -/
theorem spent_entry {e : Entry} {code : AuthorizationCodeRow} (h : Reachable P M)
    (he : e ∈ M.log) (hr : PresentsUsedCode P e.call e.before code) :
    e.reply = .exchanged (.error .invalidGrant) ∧ Spent e.after code.id := by
  have hreplay := presentsUsedCode_run hr
  rw [(reachable_entry (lawful P) h he).2] at hreplay
  have hafter : e.after = replayedRows code (e.call.tape.now 0) e.before :=
    congrArg Prod.snd hreplay
  obtain ⟨_, _, _, _, hp, hused⟩ := hr
  refine ⟨congrArg Prod.fst hreplay, ?_⟩
  rw [hafter]
  exact spent_replayed (find_mem hp.locked) hused

/-- **Authorization codes.** A code is exchanged at most once and has at most one family; and
    whenever a consumed code is presented as it was issued for, its family is revoked then and
    ever after, so that no token of it is rotated later. -/
theorem authorization_codes (P : Platform) {M : Machine schema Request Reply}
    (h : Reachable P M) :
    (∀ raw, ∀ e ∈ M.log, ∀ e' ∈ M.log, Exchanged e raw → Exchanged e' raw → e = e') ∧
    (∀ f ∈ M.db.rows .refreshFamilies, ∀ f' ∈ M.db.rows .refreshFamilies,
      FamilyRow.sourceCodeId f = FamilyRow.sourceCodeId f' → f = f') ∧
    ∀ e ∈ M.log, ∀ code, PresentsUsedCode P e.call e.before code →
      e.reply = .exchanged (.error .invalidGrant) ∧ SourceRevoked e.after code.id ∧
      SourceRevoked M.db code.id ∧
      ∀ e', Before M e e' → ∀ f ∈ e'.before.rows .refreshFamilies,
        FamilyRow.sourceCodeId f = code.id → PresentsTokenOf P e' (FamilyRow.id f) →
          e'.reply.granted = none := by
  have hI : (layout P).Integrity M.db := reachable_integrity h
  refine ⟨fun raw e he e' he' => exchanged_once h he he', fun f hf f' hf' e => ?_,
    fun e he code hr => ?_⟩
  · have hname : Name.source (FamilyRow.sourceCodeId f) ∈
        Row.names (t := .refreshFamilies) f' := by simp [Row.names, e]
    exact hI.unique hf hf' (n := .source (FamilyRow.sourceCodeId f)) (by simp [Row.names]) hname
  · obtain ⟨hreply, hspent⟩ := spent_entry h he hr
    refine ⟨hreply, hspent.2, (kept_after (lawful P) (spent_kept _) h he hspent).2, ?_⟩
    intro e' hs f hf hsource hp
    have hbefore := kept_between (lawful P) (spent_kept code.id) h hs hspent
    exact revoked_before h (hs.subset (by simp)) ⟨f, hf, rfl, hbefore.2 f hf hsource⟩ hp

/-- The code of a grant is presented again, and then its last token. -/
def Sample.codeReplaySteps : List Step :=
  grantSteps ++
    [(.exchangeCode "code" grant.clientId grant.redirectUri grant.resource verifier, [.replay]),
     (.rotateRefresh "successor" grant.clientId grant.resource, [.last])]

/-- The one exchange of a code that was replayed. -/
theorem authorization_codes_replayed :
    (∃ e ∈ (Sample.machine Sample.codeReplaySteps).log, Exchanged e "code" ∧
      ∀ e' ∈ (Sample.machine Sample.codeReplaySteps).log, Exchanged e' "code" → e = e') ∧
    (Sample.machine Sample.codeReplaySteps).log.map (fun e => e.reply.granted.isSome) =
      [false, false, false, true, true, false, false] ∧
    SourceRevoked (Sample.machine Sample.codeReplaySteps).db 4 := by
  have hreach : Reachable Sample.platform (Sample.machine Sample.codeReplaySteps) :=
    Sample.reachable (by decide)
  obtain ⟨⟨e, he, hx⟩, hgranted, hrevoked⟩ :
      (∃ e ∈ (Sample.machine Sample.codeReplaySteps).log, Exchanged e "code") ∧
      (Sample.machine Sample.codeReplaySteps).log.map (fun e => e.reply.granted.isSome) =
        [false, false, false, true, true, false, false] ∧
      SourceRevoked (Sample.machine Sample.codeReplaySteps).db 4 := by
    unfold Exchanged SourceRevoked
    decide +kernel
  refine ⟨⟨e, he, hx, fun e' he' hx' => ?_⟩, hgranted, hrevoked⟩
  exact (authorization_codes Sample.platform hreach).1 "code" e he e' he' hx hx'

end Eri
