/-
  File:      Eri/Lifetimes.lean
  Subject:   How long sessions, codes, families, transactions and challenges last.

  Each bound is part of what its row promises (`Row.Ok`), and no later version of a row
  changes when it expires (`Row.Later`); so a chain of rotations ends with its session.

  * `Call.lifetime` -- the lifetime a caller asks for and the limit it is checked against;
  * **`lifetimes`**.
-/
import Eri.Grants

namespace Eri

open Sql

variable {P : Platform} {M : Machine schema Request Reply} {c : Request} {t : Tape} {db db' : Db}

/-! ## 1. Lifetimes a caller asks for -/

/-- The lifetime a call is given, and its limit in seconds. -/
def Call.lifetime : Call → Option (Duration × Nat)
  | .createProviderSession _ lifetime => some (lifetime, 30 * 24 * 60 * 60)
  | .issueAuthorizationCode _ _ lifetime => some (lifetime, 60)
  | .completeCallback _ _ lifetime _ => some (lifetime, 30 * 24 * 60 * 60)
  | _ => none

/-- Zero, with a fraction of a second, or over the limit. -/
def Duration.Refused (d : Duration) (maximum : Nat) : Prop :=
  (d.secs = 0 ∧ d.nanos = 0) ∨ d.nanos ≠ 0 ∨ maximum < d.secs

theorem boundedSeconds_refused {ε : Type} {invalid : ε} {d : Duration} {maximum n : Nat}
    (h : boundedSeconds invalid d maximum = .ok n) : ¬d.Refused maximum := by
  unfold boundedSeconds at h
  split at h
  · cases h
  · rename_i hno
    intro hrefused
    rcases hrefused with hzero | hfraction | hover
    · exact hno (Or.inl hzero)
    · exact hno (Or.inr (Or.inr hfraction))
    · exact hno (Or.inr (Or.inl hover))

/-- **A refused lifetime writes nothing.** -/
theorem refused_run {r : Reply} {lifetime : Duration} {maximum : Nat}
    (hcall : c.call.lifetime = some (lifetime, maximum)) (hrefused : lifetime.Refused maximum)
    (h : (program P c).run db = (r, db')) : r.isOk = false ∧ db' = db := by
  obtain ⟨call, t⟩ := c
  cases call with
  | createProviderSession user lifetime =>
      cases hcall
      obtain ⟨x, hx, rfl⟩ := run_of_map h
      rcases createProviderSession_run hx with ⟨e, rfl, hsame⟩ | ⟨seconds, hseconds, _⟩
      · exact ⟨rfl, hsame⟩
      · exact absurd hrefused (boundedSeconds_refused hseconds)
  | issueAuthorizationCode session grant lifetime =>
      cases hcall
      obtain ⟨x, hx, rfl⟩ := run_of_map h
      rcases issueAuthorizationCode_run hx with ⟨e, rfl, hsame⟩ | ⟨seconds, _, hseconds, _⟩
      · exact ⟨rfl, hsame⟩
      · exact absurd hrefused (boundedSeconds_refused hseconds)
  | completeCallback claim identity lifetime registry =>
      cases hcall
      obtain ⟨x, hx, hr⟩ := run_of_map h
      have hno : boundedSeconds BrowserError.invalid lifetime (30 * 24 * 60 * 60) =
          .error .invalid := by
        unfold boundedSeconds
        rw [if_pos]
        rcases hrefused with hzero | hfraction | hover
        · exact Or.inl hzero
        · exact Or.inr (Or.inr hfraction)
        · exact Or.inr (Or.inl hover)
      have hrun : (completeCallback P t claim identity lifetime registry).tx.run db =
          (.error .invalid, db) := by
        unfold completeCallback
        rw [hno]
        rfl
      rw [hrun] at hx
      cases hx
      exact ⟨hr ▸ rfl, rfl⟩
  | _ => cases hcall

/-! ## 2. Answers in time -/

/-- An answer is given before its session expires. -/
theorem granted_in_time {e : Entry} {x : ExchangeResult} (h : Reachable P M) (he : e ∈ M.log)
    (hx : e.reply.granted = some x) : ∃ s ∈ M.db.rows .providerSessions,
      SessionRow.id s = x.sessionId ∧ e.call.tape.now 0 < SessionRow.expiresAt s := by
  have hend : ∀ s ∈ e.before.rows .providerSessions, SessionRow.id s = x.sessionId →
      SessionRow.active s (e.call.tape.now 0) = true → ∃ s ∈ M.db.rows .providerSessions,
        SessionRow.id s = x.sessionId ∧ e.call.tape.now 0 < SessionRow.expiresAt s := by
    intro s hs hid hactive
    obtain ⟨s', hs', hlater⟩ := entry_progress h he .providerSessions s hs
    unfold SessionRow.active at hactive
    rw [Bool.and_eq_true, decide_eq_true_eq] at hactive
    refine ⟨s', hs', ?_⟩
    rw [SessionRow.Later.keeps hlater]
    exact ⟨hid, hactive.2⟩
  have hchange := entry_change h he
  rcases hchange.granted_call hx with ⟨raw, hcall⟩ | ⟨raw, hcall⟩
  · obtain ⟨code, session, hshown, hredeem, rfl, _⟩ := hchange.exchanged hcall hx
    exact hend session hshown.login hshown.ofLogin hredeem.active
  · obtain ⟨member, family, session, hshown, hrotate, rfl, _⟩ := hchange.rotated hcall hx
    exact hend session hshown.login hshown.ofLogin hrotate.active

/-! ## 3. Runs -/

/-- **Lifetimes.** Sessions last at most 30 days from the login, codes at most 60 seconds and
    families at most 30 days from their issue and none longer than its session; transactions
    and logout challenges last at most ten minutes. When a session or a family expires never
    changes. So every grant an exchange or a rotation hands out is handed out within 30 days
    of the login of the code it goes back to, and a refused lifetime writes nothing. -/
theorem lifetimes (P : Platform) {M M' : Machine schema Request Reply} (h : Reachable P M)
    (hs : Steps (program P) (contract P).compat M M') :
    (∀ s ∈ M.db.rows .providerSessions,
      SessionRow.expiresAt s ≤ SessionRow.authTime s + thirtyDays ∧
      ∃ s' ∈ M'.db.rows .providerSessions, SessionRow.id s' = SessionRow.id s ∧
        SessionRow.expiresAt s' = SessionRow.expiresAt s) ∧
    (∀ code ∈ M.db.rows .authorizationCodes, ∃ s ∈ M.db.rows .providerSessions,
      SessionRow.id s = (AuthorizationCodeRow.toCodeRow code).sessionId ∧
      AuthorizationCodeRow.expiresAt code ≤
        min (AuthorizationCodeRow.issuedAt code + 60 * second) (SessionRow.expiresAt s)) ∧
    (∀ f ∈ M.db.rows .refreshFamilies,
      (∃ s ∈ M.db.rows .providerSessions, SessionRow.id s = FamilyRow.sessionId f ∧
        FamilyRow.expiresAt f ≤
          min (FamilyRow.issuedAt f + thirtyDays) (SessionRow.expiresAt s)) ∧
      ∃ f' ∈ M'.db.rows .refreshFamilies, FamilyRow.id f' = FamilyRow.id f ∧
        FamilyRow.expiresAt f' = FamilyRow.expiresAt f) ∧
    (∀ row ∈ M.db.rows .browserAuthorizations, (BrowserRow.toConsentRow row).expiresAt ≤
      BrowserRow.createdAt row + tenMinutes) ∧
    (∀ row ∈ M.db.rows .logoutChallenges,
      LogoutRow.expiresAt row ≤ LogoutRow.createdAt row + tenMinutes) ∧
    (∀ e ∈ M.log, ∀ x, e.reply.granted = some x → ∃ code ∈ M.db.rows .authorizationCodes,
      ∃ s ∈ M.db.rows .providerSessions, PresentsGrant P M.db e.call.call code ∧
        SessionRow.id s = (AuthorizationCodeRow.toCodeRow code).sessionId ∧
        e.call.tape.now 0 < SessionRow.authTime s + thirtyDays) ∧
    ∀ e ∈ M.log, ∀ lifetime maximum, e.call.call.lifetime = some (lifetime, maximum) →
      lifetime.Refused maximum → e.reply.isOk = false ∧ e.after = e.before := by
  have hI : (layout P).Integrity M.db := reachable_integrity h
  have hlater := steps_rely (lawful P) h hs
  refine ⟨fun s hmem => ?_, fun code hmem => ?_, fun f hmem => ⟨?_, ?_⟩,
    fun row hmem => (hI.ok .browserAuthorizations row hmem).lifetime,
    fun row hmem => (hI.ok .logoutChallenges row hmem).1, fun e he x hx => ?_,
    fun e he lifetime maximum hcall hrefused =>
      refused_run hcall hrefused (reachable_entry (lawful P) h he).2⟩
  · obtain ⟨s', hs', hl⟩ := hlater.later hmem
    refine ⟨hI.ok .providerSessions s hmem, s', hs', ?_⟩
    rw [SessionRow.Later.keeps hl]
    exact ⟨rfl, rfl⟩
  · have hok := hI.ok .authorizationCodes code hmem
    obtain ⟨s, hmem', hid, _, hexpires⟩ := hok.session
    exact ⟨s, hmem', hid, le_min hok.lifetime hexpires⟩
  · have hok := hI.ok .refreshFamilies f hmem
    obtain ⟨s, hmem', hid, _, hexpires⟩ := hok.session
    exact ⟨s, hmem', hid, le_min hok.lifetime hexpires⟩
  · obtain ⟨f', hf', hl⟩ := hlater.later hmem
    refine ⟨f', hf', ?_⟩
    rw [FamilyRow.Later.keeps hl]
    exact ⟨rfl, rfl⟩
  · obtain ⟨code, hcode, s, hmem, hof, hpresents, _⟩ := granted_of h he hx
    obtain ⟨s', hmem', hid, htime⟩ := granted_in_time h he hx
    have hsame : s' = s := same_key hI hmem' hmem (hid.trans (hof.session.trans hof.login.symm))
    refine ⟨code, hcode, s, hmem, hpresents, hof.login, lt_of_lt_of_le htime ?_⟩
    rw [hsame]
    exact hI.ok .providerSessions s hmem

namespace Sample

/-- The token of the grant is given back. -/
def revokeSteps : List Step := [(.revokeRefresh "successor" "app", [.replay])]

end Sample

/-- A rotation in time, whose session ends when it did after the token is revoked, and a login
    refused for half a second too much. -/
theorem lifetimes_rotated :
    (∃ e ∈ (Sample.machine Sample.grantSteps).log, e.reply.granted.isSome = true ∧
      e.call.call.rotationOf = some "token" ∧
      ∃ s ∈ (Sample.machine Sample.grantSteps).db.rows .providerSessions,
        e.call.tape.now 0 < SessionRow.authTime s + thirtyDays ∧
        ∃ s' ∈ (Sample.machine (Sample.grantSteps ++ Sample.revokeSteps)).db.rows
          .providerSessions, SessionRow.expiresAt s' = SessionRow.expiresAt s) ∧
    Duration.Refused ⟨30 * 24 * 60 * 60, 500000000⟩ (30 * 24 * 60 * 60) := by
  have hreach : Reachable Sample.platform (Sample.machine Sample.grantSteps) :=
    Sample.reachable (by decide)
  obtain ⟨e, he, hsome, hcall⟩ : ∃ e ∈ (Sample.machine Sample.grantSteps).log,
      e.reply.granted.isSome = true ∧ e.call.call.rotationOf = some "token" := by
    decide +kernel
  obtain ⟨x, hx⟩ := Option.isSome_iff_exists.mp hsome
  obtain ⟨hsessions, _, _, _, _, hanswers, _⟩ := lifetimes Sample.platform hreach
    (Sample.later (by decide : Sample.Apart (Sample.grantSteps ++ Sample.revokeSteps)))
  obtain ⟨_, _, s, hs, _, _, htime⟩ := hanswers e he x hx
  obtain ⟨_, s', hs', _, hexpires⟩ := hsessions s hs
  exact ⟨⟨e, he, hsome, hcall, s, hs, htime, s', hs', hexpires⟩, Or.inr (Or.inl (by decide))⟩

end Eri
