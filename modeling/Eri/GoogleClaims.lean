/-
  File:      Eri/GoogleClaims.lean
  Subject:   Which identities are accepted from Google (src/google.rs, `validate_claims`), and
             what becomes of the time at which the user signed in there.

  * `validateClaims` -- the check of decoded claims, on 64-bit integers;
  * `Accepts`, `validateClaims_isSome` -- **exactly what it accepts**: among it, the times
    between `earliest` and `latest`;
  * `completed_session` -- the session of a login has the time of the identity;
  * `identity_acceptance` -- acceptance, its interval, and what sessions and ID tokens carry.
-/
import Eri.Grants
import Eri.Tokens

namespace Eri

namespace Google

/-! ## 1. Claims -/

/-- `google::Audience`. -/
inductive Audience where
  | one (v : String)
  | many (vs : List String)
  deriving DecidableEq

/-- `google::BoolClaim`. -/
inductive BoolClaim where
  | bool (v : Bool)
  | text (v : String)
  deriving DecidableEq

/-- `google::Claims`. -/
structure Claims where
  iss : String
  sub : String
  aud : Audience
  azp : Option String
  exp : Int64
  iat : Int64
  nbf : Option Int64
  nonce : String
  authTime : Option Int64
  name : Option String
  givenName : Option String
  familyName : Option String
  picture : Option String
  email : Option String
  emailVerified : Option BoolClaim

/-- `CLOCK_SKEW`, in seconds. -/
def clockSkew : Int64 := 30

/-- `i64::saturating_add`. -/
def saturatingAdd (a b : Int64) : Int64 := Int64.ofIntClamp (a.toInt + b.toInt)

def BoolClaim.isTrue : BoolClaim → Bool
  | .bool v => v
  | .text v => v == "true"

/-- `str::is_ascii`. -/
def isAscii (s : String) : Bool := (utf8 s).all (· < 128)

/-- The audience names the client, and whether it is a list of several. -/
def Audience.checked (clientId : String) : Audience → Bool × Bool
  | .one v => (v == clientId, false)
  | .many vs => (vs.any (· == clientId), decide (1 < vs.length))

/-- `validate_claims`; `none` is `InvalidIdentityToken`. The sums with `now` wrap around. -/
def validateClaims (claims : Claims) (clientId nonce : String) (now : Int64) :
    Option VerifiedGoogleIdentity :=
  if ¬(claims.iss = "accounts.google.com" ∨ claims.iss = "https://accounts.google.com") ∨
      claims.sub.isEmpty ∨ 255 < (utf8 claims.sub).length ∨ ¬isAscii claims.sub ∨
      claims.nonce ≠ nonce ∨ saturatingAdd claims.exp clockSkew < now ∨ claims.iat < 0 ∨
      now + clockSkew < claims.iat ∨ (claims.nbf.any fun v => now + clockSkew < v) ∨
      (claims.authTime.any fun v => v < 0 || now + clockSkew < v) then none
  else
    let (audOk, multiple) := claims.aud.checked clientId
    if ¬audOk ∨ (claims.azp.any (· != clientId)) ∨
        (multiple ∧ claims.azp ≠ some clientId) then none
    else
      let verifiedEmail :=
        if claims.emailVerified.any BoolClaim.isTrue then claims.email.filter (!·.isEmpty)
        else none
      some
        { subject := claims.sub, name := claims.name, givenName := claims.givenName
          familyName := claims.familyName, picture := claims.picture, verifiedEmail
          authTime := claims.authTime.map Int64.toInt }

/-! ## 2. What is accepted -/

/-- The audiences as a list. -/
def Audience.list : Audience → List String
  | .one v => [v]
  | .many vs => vs

/-- The first second at which the claims are taken: none of them lies further ahead than the
    skew. -/
def Claims.earliest (claims : Claims) : Int :=
  max claims.iat.toInt (max (claims.nbf.getD claims.iat).toInt
    (claims.authTime.getD claims.iat).toInt) - 30

/-- The last second at which the claims are taken. -/
def Claims.latest (claims : Claims) : Int := claims.exp.toInt + 30

/-- **What is accepted at a time.** -/
structure Accepts (claims : Claims) (clientId nonce : String) (now : Int) : Prop where
  issuer : claims.iss = "accounts.google.com" ∨ claims.iss = "https://accounts.google.com"
  subject : 1 ≤ (utf8 claims.sub).length ∧ (utf8 claims.sub).length ≤ 255 ∧
    ∀ b ∈ utf8 claims.sub, b < 128
  nonce : claims.nonce = nonce
  audience : clientId ∈ claims.aud.list
  authorized : claims.azp = none ∨ claims.azp = some clientId
  several : (∃ vs, claims.aud = .many vs ∧ 1 < vs.length) → claims.azp.isSome = true
  issued : 0 ≤ claims.iat
  authenticated : ∀ v, claims.authTime = some v → 0 ≤ v
  time : claims.earliest ≤ now ∧ now ≤ claims.latest

section Time

variable {claims : Claims} {now : Int64}

/-- The sum with the time, where it does not overflow. -/
theorem toInt_skewed (h : now.toInt + 30 < 2 ^ 63) : (now + clockSkew).toInt = now.toInt + 30 := by
  have hlow := now.le_toInt
  rw [Int64.toInt_add, show clockSkew.toInt = 30 from rfl, Int.bmod_eq_of_le] <;> omega

/-- The sum with the expiry does not need the largest integer. -/
theorem saturatingAdd_lt_iff :
    saturatingAdd claims.exp clockSkew < now ↔ claims.latest < now.toInt := by
  have hlow := claims.exp.le_toInt
  have hhigh := now.toInt_le
  have hmax : Int64.maxValue.toInt = 2 ^ 63 - 1 := rfl
  have hmin : Int64.minValue.toInt = -2 ^ 63 := rfl
  rw [Int64.lt_iff_toInt_lt, saturatingAdd, show clockSkew.toInt = 30 from rfl, Claims.latest]
  by_cases hle : claims.exp.toInt + 30 ≤ Int64.maxValue.toInt
  · rw [Int64.toInt_ofIntClamp (by omega) hle]
  · have hclamp : Int64.ofIntClamp (claims.exp.toInt + 30) = Int64.maxValue := by
      rw [Int64.ofIntClamp, dif_pos (by omega), dif_neg hle]
    rw [hclamp]
    omega

theorem skewed_lt_iff (h : now.toInt + 30 < 2 ^ 63) (v : Int64) :
    now + clockSkew < v ↔ now.toInt + 30 < v.toInt := by
  rw [Int64.lt_iff_toInt_lt, toInt_skewed h]

/-- The tests of the times, together. -/
theorem times_iff (h : now.toInt + 30 < 2 ^ 63) :
    ¬saturatingAdd claims.exp clockSkew < now ∧ ¬now + clockSkew < claims.iat ∧
      (∀ v, claims.nbf = some v → ¬now + clockSkew < v) ∧
      (∀ v, claims.authTime = some v → ¬now + clockSkew < v) ↔
    claims.earliest ≤ now.toInt ∧ now.toInt ≤ claims.latest := by
  simp only [saturatingAdd_lt_iff, skewed_lt_iff h, Claims.earliest]
  cases claims.nbf <;> cases claims.authTime <;>
    simp only [Option.getD_none, Option.getD_some, Option.some.injEq, forall_eq', reduceCtorEq,
      false_implies, implies_true, and_true, true_and] <;>
    omega

end Time

section Accepts

variable {claims : Claims} {clientId nonce : String} {now : Int64}

theorem Audience.checked_iff (aud : Audience) :
    ((aud.checked clientId).1 = true ↔ clientId ∈ aud.list) ∧
      ((aud.checked clientId).2 = true ↔ ∃ vs, aud = .many vs ∧ 1 < vs.length) := by
  cases aud with
  | one v =>
      constructor
      · rw [Audience.checked, Audience.list, List.mem_singleton, beq_iff_eq, eq_comm]
      · exact iff_of_false nofun fun ⟨vs, h, _⟩ => nomatch h
  | many vs =>
      constructor
      · simp only [Audience.checked, Audience.list, List.any_eq_true, beq_iff_eq,
          exists_eq_right]
      · simp only [Audience.checked, decide_eq_true_eq, Audience.many.injEq, exists_eq_left']

/-- What the identity of accepted claims is. -/
def Claims.identity (claims : Claims) : VerifiedGoogleIdentity where
  subject := claims.sub
  name := claims.name
  givenName := claims.givenName
  familyName := claims.familyName
  picture := claims.picture
  verifiedEmail :=
    if claims.emailVerified.any BoolClaim.isTrue then claims.email.filter (!·.isEmpty) else none
  authTime := claims.authTime.map Int64.toInt

theorem utf8_isEmpty (s : String) : s.isEmpty = true ↔ (utf8 s).length = 0 := by
  rw [String.isEmpty_iff_utf8ByteSize_eq_zero]
  rfl

/-- The first test of the check. -/
theorem first_iff (h : now.toInt + 30 < 2 ^ 63) :
    ¬(¬(claims.iss = "accounts.google.com" ∨ claims.iss = "https://accounts.google.com") ∨
      claims.sub.isEmpty ∨ 255 < (utf8 claims.sub).length ∨ ¬isAscii claims.sub ∨
      claims.nonce ≠ nonce ∨ saturatingAdd claims.exp clockSkew < now ∨ claims.iat < 0 ∨
      now + clockSkew < claims.iat ∨ (claims.nbf.any fun v => now + clockSkew < v) ∨
      (claims.authTime.any fun v => v < 0 || now + clockSkew < v)) ↔
    (claims.iss = "accounts.google.com" ∨ claims.iss = "https://accounts.google.com") ∧
      (1 ≤ (utf8 claims.sub).length ∧ (utf8 claims.sub).length ≤ 255 ∧
        ∀ b ∈ utf8 claims.sub, b < 128) ∧
      claims.nonce = nonce ∧ 0 ≤ claims.iat ∧ (∀ v, claims.authTime = some v → 0 ≤ v) ∧
      claims.earliest ≤ now.toInt ∧ now.toInt ≤ claims.latest := by
  rw [← times_iff h]
  generalize (claims.iss = "accounts.google.com" ∨
    claims.iss = "https://accounts.google.com") = issuer
  simp only [not_or, not_not, ne_eq, utf8_isEmpty, isAscii, List.all_eq_true, decide_eq_true_eq,
    Option.any_eq_true, Bool.or_eq_true, not_exists, not_and, Int64.not_lt, Nat.not_lt]
  constructor
  · rintro ⟨hiss, hsub, hlength, hascii, hnonce, hexp, hiat, hnow, hnbf, hauth⟩
    exact ⟨hiss, ⟨Nat.pos_of_ne_zero hsub, hlength, hascii⟩, hnonce, hiat,
      fun v hv => (hauth v hv).1, hexp, hnow, hnbf, fun v hv => (hauth v hv).2⟩
  · rintro ⟨hiss, ⟨hsub, hlength, hascii⟩, hnonce, hiat, hauth, hexp, hnow, hnbf, hskew⟩
    exact ⟨hiss, Nat.ne_of_gt hsub, hlength, hascii, hnonce, hexp, hiat, hnow, hnbf,
      fun v hv => ⟨hauth v hv, hskew v hv⟩⟩

/-- The second one. -/
theorem second_iff :
    ¬(¬(claims.aud.checked clientId).1 ∨ (claims.azp.any (· != clientId)) ∨
      ((claims.aud.checked clientId).2 ∧ claims.azp ≠ some clientId)) ↔
    clientId ∈ claims.aud.list ∧ (claims.azp = none ∨ claims.azp = some clientId) ∧
      ((∃ vs, claims.aud = .many vs ∧ 1 < vs.length) → claims.azp.isSome = true) := by
  obtain ⟨haud, hseveral⟩ : (_ ↔ clientId ∈ claims.aud.list) ∧ _ := Audience.checked_iff claims.aud
  rw [← haud, ← hseveral]
  cases claims.azp with
  | none => simp
  | some v =>
      by_cases hv : v = clientId
      · simp [hv]
      · simp [hv]

/-- An accepted identity is the one of the claims, at any time. -/
theorem validateClaims_identity {identity : VerifiedGoogleIdentity}
    (h : validateClaims claims clientId nonce now = some identity) :
    identity = claims.identity := by
  unfold validateClaims at h
  split at h
  · cases h
  · dsimp only at h
    split at h
    · cases h
    · exact (Option.some.inj h).symm

/-- **The check accepts exactly what it should.** -/
theorem validateClaims_isSome (h : now.toInt + 30 < 2 ^ 63) :
    (validateClaims claims clientId nonce now).isSome = true ↔
      Accepts claims clientId nonce now.toInt := by
  unfold validateClaims
  split
  · refine iff_of_false nofun fun a => ?_
    exact (first_iff h).mpr ⟨a.issuer, a.subject, a.nonce, a.issued, a.authenticated, a.time⟩ ‹_›
  · obtain ⟨hissuer, hsubject, hnonce, hissued, hauth, htime⟩ := (first_iff h).mp ‹_›
    dsimp only
    split
    · refine iff_of_false nofun fun a => ?_
      exact second_iff.mpr ⟨a.audience, a.authorized, a.several⟩ ‹_›
    · obtain ⟨haudience, hauthorized, hseveral⟩ := second_iff.mp ‹_›
      exact iff_of_true rfl
        ⟨hissuer, hsubject, hnonce, haudience, hauthorized, hseveral, hissued, hauth, htime⟩

/-- Whether claims are taken at some time besides their times. -/
theorem accepts_interval : ∃ first last, ∀ t,
    Accepts claims clientId nonce t ↔ first ≤ t ∧ t ≤ last := by
  by_cases hsome : ∃ t, Accepts claims clientId nonce t
  · obtain ⟨t₀, h⟩ := hsome
    refine ⟨claims.earliest, claims.latest, fun t => ⟨fun a => a.time, fun ht => ?_⟩⟩
    exact { h with time := ht }
  · refine ⟨1, 0, fun t => iff_of_false (fun a => hsome ⟨t, a⟩) ?_⟩
    omega

/-- The verified address is the one of the claims, if they vouch for it. -/
theorem identity_email (e : String) : claims.identity.verifiedEmail = some e ↔
    (claims.emailVerified = some (.bool true) ∨ claims.emailVerified = some (.text "true")) ∧
      claims.email = some e ∧ e ≠ "" := by
  have htrue : claims.emailVerified.any BoolClaim.isTrue = true ↔
      claims.emailVerified = some (.bool true) ∨ claims.emailVerified = some (.text "true") := by
    rcases claims.emailVerified with _ | ⟨v | v⟩
    · simp
    · cases v <;> simp [BoolClaim.isTrue]
    · simp [BoolClaim.isTrue]
  rw [← htrue]
  unfold Claims.identity
  dsimp only
  split
  · rename_i hverified
    rw [and_iff_right hverified, Option.filter_eq_some_iff, Bool.not_eq_true', ← Bool.not_eq_true,
      String.isEmpty_iff]
  · rename_i hverified
    exact iff_of_false nofun fun h => hverified h.1

end Accepts

/-! ## 3. The time of the sign-in -/

open Sql

/-- The seconds chrono has a date for. -/
def Representable (v : Int) : Prop := -8334601228800 ≤ v ∧ v ≤ 8210266876799

instance (v : Int) : Decidable (Representable v) := by
  unfold Representable
  infer_instance

/-- A time that was stored in full seconds reads back, if there is a date for it. -/
theorem timestamp_fromTimestamp (v : Int) :
    (fromTimestamp v).map timestamp = if Representable v then some v else none := by
  by_cases h : Representable v
  · have hrange : -8334601228800 ≤ v ∧ v ≤ 8210266876799 := h
    rw [fromTimestamp, if_pos hrange, if_pos h, Option.map_some, timestamp,
      Int.mul_ediv_cancel v (by decide)]
  · have hrange : ¬(-8334601228800 ≤ v ∧ v ≤ 8210266876799) := h
    rw [fromTimestamp, if_neg hrange, if_neg h, Option.map_none]

variable {P : Platform} {M : Machine schema Request Reply}

/-- A login that succeeds leaves a session with the time of its identity. -/
theorem login_run {db db' : Db} {t : Tape} {claim : String}
    {identity : VerifiedGoogleIdentity} {lifetime : Duration} {registry : Option ClientRegistry}
    {completion : LoginCompletion}
    (h : (program P ⟨.completeCallback claim identity lifetime registry, t⟩).run db =
      (.completed (.ok completion), db')) :
    ∃ s ∈ db'.rows .providerSessions, SessionRow.id s = completion.session.id ∧
      SessionRow.upstreamAuthTime s = identity.upstreamAuthTime := by
  obtain ⟨x, hx, hsame⟩ := run_of_map h
  cases hsame
  rcases completeCallback_run hx with
    ⟨⟨e, hfailed⟩, _⟩ | ⟨row, _, _, ⟨_, hfailed, _⟩ | ⟨seconds, _, _, hok, rfl⟩⟩
  · cases hfailed
  · cases hfailed
  · cases hok
    refine ⟨loginSession P t identity seconds (identified t identity (t.now 0) db).1, ?_, rfl, rfl⟩
    unfold loggedInRows
    rw [Db.update_rows_ne _ _ _ (by decide), Db.insert_rows_self]
    exact List.mem_append_right _ List.mem_cons_self

/-- **The session of a login has the time of its identity.** -/
theorem completed_session {e : Entry} {claim : String} {identity : VerifiedGoogleIdentity}
    {lifetime : Duration} {registry : Option ClientRegistry} {completion : LoginCompletion}
    (h : Reachable P M) (he : e ∈ M.log)
    (hcall : e.call.call = .completeCallback claim identity lifetime registry)
    (hreply : e.reply = .completed (.ok completion)) :
    ∃ s ∈ M.db.rows .providerSessions, SessionRow.id s = completion.session.id ∧
      SessionRow.upstreamAuthTime s = identity.upstreamAuthTime := by
  obtain ⟨_, hrun⟩ := reachable_entry (lawful P) h he
  have hrequest : e.call = ⟨.completeCallback claim identity lifetime registry, e.call.tape⟩ := by
    rw [← hcall]
  rw [hreply, hrequest] at hrun
  obtain ⟨s, hs, hid, hupstream⟩ := login_run hrun
  obtain ⟨s', hs', hlater⟩ := entry_progress_after h he .providerSessions s hs
  have hkeeps := SessionRow.Later.keeps hlater
  refine ⟨s', hs', ?_, ?_⟩
  · rw [hkeeps]
    exact hid
  · rw [hkeeps]
    exact hupstream

/-- What an exchange or a rotation reports is the time of its session. -/
theorem granted_session {e : Entry} {x : ExchangeResult} {s : SessionRow} (h : Reachable P M)
    (he : e ∈ M.log) (hx : e.reply.granted = some x) (hs : s ∈ M.db.rows .providerSessions)
    (hsame : x.sessionId = s.id) : x.upstreamAuthTime = s.upstreamAuthTime := by
  have hI := reachable_integrity h
  obtain ⟨code, hcode, _, _, hof, _⟩ := granted_of h he hx
  obtain ⟨s', hs', hid, hupstream, _⟩ := (hI.ok .authorizationCodes code hcode).session
  have hkey : s' = s := by
    refine hI.key_inj hs' hs ?_
    have hid : s'.id = s.id := hid.trans (hof.session.symm.trans hsame)
    exact hid
  rw [hof.upstream, ← hkey]
  exact hupstream.symm

/-! ## 4. Results -/

/-- **Which claims are accepted, and what they lead to.** At every time whose sum with the skew
    is a 64-bit integer the check accepts exactly what `Accepts` says, so the times at which
    some claims are taken are an interval. The verified address of an accepted identity is the
    nonempty one the claims vouch for, and its time is their `auth_time`: the session of the
    login has it, and so have the ID tokens of the session. -/
theorem identity_acceptance (claims : Claims) (clientId nonce : String) :
    (∀ now : Int64, now.toInt + 30 < 2 ^ 63 →
      ((validateClaims claims clientId nonce now).isSome = true ↔
        Accepts claims clientId nonce now.toInt)) ∧
    (∃ first last : Int, ∀ now : Int64, now.toInt + 30 < 2 ^ 63 →
      ((validateClaims claims clientId nonce now).isSome = true ↔
        first ≤ now.toInt ∧ now.toInt ≤ last)) ∧
    ∀ now identity, validateClaims claims clientId nonce now = some identity →
      (∀ e, identity.verifiedEmail = some e ↔
        (claims.emailVerified = some (.bool true) ∨ claims.emailVerified = some (.text "true")) ∧
          claims.email = some e ∧ e ≠ "") ∧
      identity.authTime = claims.authTime.map Int64.toInt ∧
      ∀ P M, Reachable P M → ∀ e ∈ M.log, ∀ claim lifetime registry completion,
        e.call.call = .completeCallback claim identity lifetime registry →
        e.reply = .completed (.ok completion) →
        ∃ s ∈ M.db.rows .providerSessions, SessionRow.id s = completion.session.id ∧
          SessionRow.upstreamAuthTime s = (claims.authTime.map Int64.toInt).bind fromTimestamp ∧
          ∀ e' ∈ M.log, ∀ x, e'.reply.granted = some x → x.sessionId = SessionRow.id s →
            ∀ issuer issued, (IdTokenClaims.issued issuer x issued).authTime =
              (claims.authTime.map Int64.toInt).filter (Representable ·) := by
  refine ⟨fun now h => validateClaims_isSome h, ?_, ?_⟩
  · obtain ⟨first, last, htimes⟩ : ∃ first last, ∀ t, Accepts claims clientId nonce t ↔ _ :=
      accepts_interval
    exact ⟨first, last, fun now h => (validateClaims_isSome h).trans (htimes now.toInt)⟩
  · intro now identity haccepted
    obtain rfl := validateClaims_identity haccepted
    refine ⟨identity_email, rfl, ?_⟩
    intro P M h e he claim lifetime registry completion hcall hreply
    obtain ⟨s, hs, hid, hupstream⟩ := completed_session h he hcall hreply
    refine ⟨s, hs, hid, hupstream, fun e' he' x hx hsame issuer issued => ?_⟩
    have htime : x.upstreamAuthTime = (claims.authTime.map Int64.toInt).bind fromTimestamp :=
      (granted_session h he' hx hs hsame).trans hupstream
    show x.upstreamAuthTime.map timestamp = _
    rw [htime]
    cases claims.authTime with
    | none => rfl
    | some v =>
        rw [Option.map_some, Option.bind_some, timestamp_fromTimestamp, Option.filter_some]
        simp only [decide_eq_true_eq]

end Google

/-! ## 5. A run by hand -/

namespace Sample

/-- Claims of a user who signed in at Google some time before. -/
def signedIn : Google.Claims where
  iss := "https://accounts.google.com"
  sub := "subject"
  aud := .many ["google-client", "other"]
  azp := some "google-client"
  exp := 1700003600
  iat := 1700000000
  nbf := none
  nonce := "nonce"
  authTime := some 1699990000
  name := none
  givenName := none
  familyName := none
  picture := none
  email := some "user@app.example"
  emailVerified := some (.text "true")

/-- The user comes back from Google and the client exchanges its code. -/
def signedInSteps : List Step :=
  callbackSteps ++
    [(.completeCallback "claim" signedIn.identity ⟨3600, 0⟩ (some registry), [.cookie, .csrf]),
     (.approvePreAuthorized ⟨"cookie", 6, 3603 * second⟩ ⟨0, "csrf"⟩ registry, [.granted]),
     (.exchangeCode "granted" grant.clientId grant.redirectUri grant.resource verifier,
      [.token])]

/-- The session of a login that succeeded. -/
def sessionOf : Reply → Option Uuid
  | .completed (.ok completion) => some completion.session.id
  | _ => none

theorem sessionOf_eq_some {r : Reply} {u : Uuid} (h : sessionOf r = some u) :
    ∃ completion, r = .completed (.ok completion) ∧ completion.session.id = u := by
  unfold sessionOf at h
  split at h
  · exact ⟨_, rfl, Option.some.inj h⟩
  · cases h

end Sample

namespace Google

/-- The first and the last second of some claims, and the time in their ID token. -/
theorem identity_acceptance_signedIn :
    Accepts Sample.signedIn "google-client" "nonce" 1699999970 ∧
    ∃ x : ExchangeResult, x.sessionId = 6 ∧
      (IdTokenClaims.issued "https://issuer.example" x 0).authTime = some 1699990000 := by
  obtain ⟨hiff, _, haccepted⟩ := identity_acceptance Sample.signedIn "google-client" "nonce"
  constructor
  · have hsome : (validateClaims Sample.signedIn "google-client" "nonce" 1699999970).isSome =
        true := by decide +kernel
    exact (hiff 1699999970 (by decide)).mp hsome
  · have hidentity : validateClaims Sample.signedIn "google-client" "nonce" 1700000000 =
        some Sample.signedIn.identity := by
      have hsome : (validateClaims Sample.signedIn "google-client" "nonce" 1700000000).isSome =
          true := by decide +kernel
      obtain ⟨identity, h⟩ := Option.isSome_iff_exists.mp hsome
      rw [h, validateClaims_identity h]
    have hreach : Reachable Sample.platform (Sample.machine Sample.signedInSteps) :=
      Sample.reachable (by decide)
    obtain ⟨e, he, hcall, hlogin⟩ : ∃ e ∈ (Sample.machine Sample.signedInSteps).log,
        e.call.call = .completeCallback "claim" Sample.signedIn.identity ⟨3600, 0⟩
          (some Sample.registry) ∧ Sample.sessionOf e.reply = some 6 := by
      refine ⟨_, List.mem_append_left _ (List.mem_append_left _ (List.mem_append_right _
        (List.mem_singleton_self _))), rfl, ?_⟩
      decide +kernel
    obtain ⟨e', he', hx⟩ : ∃ e' ∈ (Sample.machine Sample.signedInSteps).log,
        (e'.reply.granted.map (·.sessionId)) = some 6 := by
      refine ⟨_, List.mem_append_right _ (List.mem_singleton_self _), ?_⟩
      decide +kernel
    obtain ⟨completion, hreply, hsix⟩ := Sample.sessionOf_eq_some hlogin
    obtain ⟨x, hgranted, hsession⟩ := Option.map_eq_some_iff.mp hx
    obtain ⟨_, _, hcarried⟩ := haccepted _ _ hidentity
    obtain ⟨s, _, hid, _, htokens⟩ := hcarried _ _ hreach e he _ _ _ completion hcall hreply
    refine ⟨x, hsession, ?_⟩
    rw [htokens e' he' x hgranted (hsession.trans (hsix.symm.trans hid.symm))]
    rfl

end Google

end Eri
