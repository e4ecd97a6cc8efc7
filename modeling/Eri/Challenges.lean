/-
  File:      Eri/Challenges.lean
  Subject:   Which PKCE challenges there are (src/oauth.rs and src/google.rs), and the verifiers
             of the transactions that wait for Google.

  * `Base64Url.decode_encode`, `Base64Url.encode_injective` -- a text stands for one list of
    bytes;
  * `IsChallenge`, `validatePkceChallenge_iff`, `validS256Challenge_iff` -- both checks accept
    the texts of 32 bytes;
  * `IsVerifier`, `s256Challenge_ok_iff` -- verifiers and their challenges;
  * `stored_drawn` -- **the verifiers and nonces that are stored were drawn as secrets**;
  * `challenges_canonical` -- the checks, verifiers, and every run of the server.
-/
import Eri.Grants
import Eri.Google
import Eri.Web

namespace Eri

/-! ## 1. Unpadded base64url -/

namespace Base64Url

theorem value_symbol {n : Nat} (h : n < 64) : value (symbol n) = some n := by
  have hall : ∀ n : Fin 64, value (symbol n) = some n.val := by decide
  exact hall ⟨n, h⟩

/-- Two parts of a byte, put together. -/
theorem byte_eq {n : Nat} {a : UInt8} (h : n = a.toNat) : UInt8.ofNat n = a := by
  rw [h, UInt8.ofNat_toNat]

/-- **What was encoded is decoded.** -/
theorem decode_encode (l : List UInt8) : decode (encode l) = some l := by
  induction l using encode.induct with
  | case1 => rfl
  | case2 a =>
      have ha := a.toNat_lt
      simp (disch := omega) only [encode, decode, value_symbol, Option.bind_eq_bind,
        Option.bind_some]
      rw [if_pos (by omega), byte_eq (a := a) (by omega)]
  | case3 a b =>
      have ha := a.toNat_lt
      have hb := b.toNat_lt
      simp (disch := omega) only [encode, decode, value_symbol, Option.bind_eq_bind,
        Option.bind_some]
      rw [if_pos (by omega), byte_eq (a := a) (by omega), byte_eq (a := b) (by omega)]
  | case4 a b c rest ih =>
      have ha := a.toNat_lt
      have hb := b.toNat_lt
      have hc := c.toNat_lt
      simp (disch := omega) only [encode, decode, value_symbol, ih, Option.bind_eq_bind,
        Option.bind_some]
      rw [byte_eq (a := a) (by omega), byte_eq (a := b) (by omega), byte_eq (a := c) (by omega)]

/-- Every three bytes are four symbols, and what is left over one more than its bytes. -/
theorem length_encode (l : List UInt8) : (encode l).length = (l.length * 4 + 2) / 3 := by
  induction l using encode.induct with
  | case1 => rfl
  | case2 a => simp only [encode, List.length_cons, List.length_nil]
  | case3 a b => simp only [encode, List.length_cons, List.length_nil]
  | case4 a b c rest ih =>
      simp only [encode, List.length_cons, ih]
      omega

theorem encode_injective {l l' : List UInt8} (h : encode l = encode l') : l = l' := by
  have hdecode := decode_encode l
  rw [h, decode_encode] at hdecode
  exact (Option.some.inj hdecode).symm

/-- Only symbols are written. -/
theorem mem_encode {c : Char} {l : List UInt8} (h : c ∈ encode l) : ∃ n < 64, c = symbol n := by
  induction l using encode.induct with
  | case1 => cases h
  | case2 a =>
      have ha := a.toNat_lt
      simp only [encode, List.mem_cons, List.not_mem_nil, or_false] at h
      rcases h with rfl | rfl <;> exact ⟨_, by omega, rfl⟩
  | case3 a b =>
      have ha := a.toNat_lt
      have hb := b.toNat_lt
      simp only [encode, List.mem_cons, List.not_mem_nil, or_false] at h
      rcases h with rfl | rfl | rfl <;> exact ⟨_, by omega, rfl⟩
  | case4 a b c rest ih =>
      have ha := a.toNat_lt
      have hb := b.toNat_lt
      have hc := c.toNat_lt
      simp only [encode, List.mem_cons] at h
      rcases h with rfl | rfl | rfl | rfl | h
      · exact ⟨_, by omega, rfl⟩
      · exact ⟨_, by omega, rfl⟩
      · exact ⟨_, by omega, rfl⟩
      · exact ⟨_, by omega, rfl⟩
      · exact ih h

end Base64Url

/-! ## 2. Challenges -/

/-- The text of exactly one string of 32 bytes. -/
def IsChallenge (c : String) : Prop :=
  ∃! bytes : Vector UInt8 32, c.toList = Base64Url.encode bytes.toList

theorem isChallenge_iff {c : String} :
    IsChallenge c ↔ ∃ bytes, bytes.length = 32 ∧ Base64Url.encode bytes = c.toList := by
  constructor
  · rintro ⟨bytes, h, _⟩
    exact ⟨bytes.toList, bytes.length_toList, h.symm⟩
  · rintro ⟨bytes, hlength, h⟩
    refine ⟨⟨bytes.toArray, hlength⟩, h.symm, fun other hother => ?_⟩
    have hsame : other.toList = bytes := Base64Url.encode_injective (hother.symm.trans h.symm)
    exact Vector.toList_inj.mp hsame

/-- What is known of the characters of a secret or a challenge. -/
theorem symbol_props {n : Nat} (h : n < 64) :
    (Base64Url.symbol n).toNat < 128 ∧ 33 ≤ (Base64Url.symbol n).toNat ∧
      (isAsciiAlphanumeric (UInt8.ofNat (Base64Url.symbol n).toNat) ||
        (UInt8.ofNat (Base64Url.symbol n).toNat == 45 ||
          UInt8.ofNat (Base64Url.symbol n).toNat == 95)) = true := by
  have hall : ∀ n : Fin 64, (Base64Url.symbol n).toNat < 128 ∧ 33 ≤ (Base64Url.symbol n).toNat ∧
      (isAsciiAlphanumeric (UInt8.ofNat (Base64Url.symbol n).toNat) ||
        (UInt8.ofNat (Base64Url.symbol n).toNat == 45 ||
          UInt8.ofNat (Base64Url.symbol n).toNat == 95)) = true := by decide
  exact hall ⟨n, h⟩

/-- The bytes of a text of 32 bytes: 43 symbols. -/
theorem encoded_utf8 {c : String} {bytes : List UInt8} (hlength : bytes.length = 32)
    (h : Base64Url.encode bytes = c.toList) :
    (utf8 c).length = 43 ∧ ∀ b ∈ utf8 c, ∃ n < 64, b = UInt8.ofNat (Base64Url.symbol n).toNat := by
  have hsymbols : ∀ x ∈ c.toList, ∃ n < 64, x = Base64Url.symbol n := by
    intro x hx
    rw [← h] at hx
    exact Base64Url.mem_encode hx
  have hutf8 : utf8 c = c.toList.map fun c => UInt8.ofNat c.toNat := by
    refine utf8_of_ascii fun x hx => ?_
    obtain ⟨n, hn, rfl⟩ := hsymbols x hx
    exact (symbol_props hn).1
  rw [hutf8]
  constructor
  · rw [List.length_map, ← h, Base64Url.length_encode, hlength]
  · intro b hb
    obtain ⟨x, hx, rfl⟩ := List.mem_map.mp hb
    obtain ⟨n, hn, rfl⟩ := hsymbols x hx
    exact ⟨n, hn, rfl⟩

/-- **The check of the token endpoint accepts the texts of 32 bytes.** -/
theorem validatePkceChallenge_iff {c : String} :
    validatePkceChallenge c = .ok () ↔ IsChallenge c := by
  rw [isChallenge_iff]
  unfold validatePkceChallenge
  constructor
  · intro h
    split at h
    · cases h
    · split at h
      · split at h
        · rename_i bytes _ hgood
          exact ⟨bytes, hgood⟩
        · cases h
      · cases h
  · rintro ⟨bytes, hlength, h⟩
    obtain ⟨h43, hbytes⟩ := encoded_utf8 hlength h
    have hdecode : Base64Url.decode c.toList = some bytes := by
      rw [← h, Base64Url.decode_encode]
    rw [if_neg, hdecode]
    · dsimp only
      rw [if_pos ⟨hlength, h⟩]
    · rintro (hne | hbad)
      · exact hne h43
      · refine hbad fun b hb => ?_
        obtain ⟨n, hn, rfl⟩ := hbytes b hb
        exact (symbol_props hn).2.2

/-- **So does the check of the Google adapter.** -/
theorem validS256Challenge_iff {c : String} : Web.validS256Challenge c = true ↔ IsChallenge c := by
  rw [isChallenge_iff]
  unfold Web.validS256Challenge
  rw [Bool.and_eq_true, beq_iff_eq]
  constructor
  · rintro ⟨_, h⟩
    obtain ⟨bytes, _, hgood⟩ := (Option.any_eq_true ..).mp h
    rw [Bool.and_eq_true, beq_iff_eq, beq_iff_eq] at hgood
    exact ⟨bytes, hgood⟩
  · rintro ⟨bytes, hlength, h⟩
    obtain ⟨h43, _⟩ := encoded_utf8 hlength h
    refine ⟨h43, (Option.any_eq_true ..).mpr ⟨bytes, ?_, ?_⟩⟩
    · rw [← h, Base64Url.decode_encode]
    · rw [Bool.and_eq_true, beq_iff_eq, beq_iff_eq]
      exact ⟨hlength, h⟩

/-! ## 3. Verifiers -/

/-- 43 to 128 unreserved ASCII characters. -/
def IsVerifier (v : String) : Prop :=
  43 ≤ v.toList.length ∧ v.toList.length ≤ 128 ∧
    ∀ c ∈ v.toList, c.isAlphanum = true ∨ c = '-' ∨ c = '.' ∨ c = '_' ∨ c = '~'

/-- An unreserved character, by its byte. -/
theorem unreserved_iff {c : Char} (h : c.toNat < 128) :
    (isAsciiAlphanumeric (UInt8.ofNat c.toNat) || isUnreservedMark (UInt8.ofNat c.toNat)) = true ↔
      c.isAlphanum = true ∨ c = '-' ∨ c = '.' ∨ c = '_' ∨ c = '~' := by
  have hall : ∀ n : Fin 128,
      (isAsciiAlphanumeric (UInt8.ofNat n) || isUnreservedMark (UInt8.ofNat n)) =
        ((Char.ofNat n).isAlphanum || (Char.ofNat n == '-' || (Char.ofNat n == '.' ||
          (Char.ofNat n == '_' || Char.ofNat n == '~')))) := by decide
  have hc := hall ⟨c.toNat, h⟩
  rw [Char.ofNat_toNat] at hc
  rw [hc]
  simp only [Bool.or_eq_true, beq_iff_eq]

/-- An unreserved character is an ASCII one. -/
theorem ascii_of_unreserved {c : Char}
    (h : c.isAlphanum = true ∨ c = '-' ∨ c = '.' ∨ c = '_' ∨ c = '~') : c.toNat < 128 := by
  rcases h with h | rfl | rfl | rfl | rfl
  · delta Char.isAlphanum Char.isAlpha Char.isUpper Char.isLower Char.isDigit at h
    simp only [Bool.or_eq_true, Bool.and_eq_true, decide_eq_true_eq, ge_iff_le,
      UInt32.le_iff_toNat_le] at h
    have hchar : c.toNat = c.val.toNat := rfl
    have hupper : 'Z'.val.toNat = 90 := rfl
    have hlower : 'z'.val.toNat = 122 := rfl
    have hdigit : '9'.val.toNat = 57 := rfl
    omega
  all_goals decide

theorem unreserved_lt {b : UInt8} (h : (isAsciiAlphanumeric b || isUnreservedMark b) = true) :
    b < 128 := by
  simp only [isAsciiAlphanumeric, isUnreservedMark, Bool.or_eq_true, Bool.and_eq_true,
    decide_eq_true_eq, beq_iff_eq, UInt8.le_iff_toNat_le, ← UInt8.toNat_inj] at h
  rw [UInt8.lt_iff_toNat_lt]
  simp only [UInt8.reduceToNat] at h ⊢
  omega

/-- **The check of verifiers.** -/
theorem validatePkceVerifier_iff {v : String} :
    validatePkceVerifier v = .ok () ↔ IsVerifier v := by
  have hok : validatePkceVerifier v = .ok () ↔
      (43 ≤ (utf8 v).length ∧ (utf8 v).length ≤ 128) ∧
        ∀ b ∈ utf8 v, (isAsciiAlphanumeric b || isUnreservedMark b) = true := by
    unfold validatePkceVerifier
    split
    · exact iff_of_true rfl ‹_›
    · exact iff_of_false nofun ‹_›
  rw [hok]
  constructor
  · rintro ⟨hlength, hbytes⟩
    have hascii := ascii_of_utf8 fun b hb => unreserved_lt (hbytes b hb)
    rw [utf8_of_ascii hascii] at hlength hbytes
    rw [List.length_map] at hlength
    refine ⟨hlength.1, hlength.2, fun c hc => (unreserved_iff (hascii c hc)).mp ?_⟩
    exact hbytes _ (List.mem_map_of_mem hc)
  · rintro ⟨hlow, hhigh, hchars⟩
    have hascii : ∀ c ∈ v.toList, c.toNat < 128 := fun c hc => ascii_of_unreserved (hchars c hc)
    rw [utf8_of_ascii hascii, List.length_map]
    refine ⟨⟨hlow, hhigh⟩, fun b hb => ?_⟩
    obtain ⟨c, hc, rfl⟩ := List.mem_map.mp hb
    exact (unreserved_iff (hascii c hc)).mpr (hchars c hc)

/-- `google::valid_pkce_verifier`. -/
def Google.validPkceVerifier (value : String) : Bool :=
  decide (43 ≤ (utf8 value).length ∧ (utf8 value).length ≤ 128) &&
    (utf8 value).all fun b => isAsciiAlphanumeric b || isUnreservedMark b

theorem validPkceVerifier_iff {v : String} :
    Google.validPkceVerifier v = true ↔ IsVerifier v := by
  rw [← validatePkceVerifier_iff]
  unfold Google.validPkceVerifier validatePkceVerifier
  rw [Bool.and_eq_true, decide_eq_true_eq, List.all_eq_true]
  split
  · exact iff_of_true ‹_› rfl
  · exact iff_of_false ‹_› nofun

section Digest

variable (P : Platform)

/-- The challenge of a verifier. -/
def challengeOf (v : String) : String :=
  String.ofList (Base64Url.encode (P.digest (utf8 v)).toList)

variable {P}

/-- A verifier has its challenge, and nothing else has one. -/
theorem s256Challenge_ok_iff {v c : String} :
    s256Challenge P v = .ok c ↔ IsVerifier v ∧ c = challengeOf P v := by
  rw [← validatePkceVerifier_iff]
  unfold s256Challenge
  cases validatePkceVerifier v with
  | ok u =>
      refine ⟨fun h => ⟨rfl, ?_⟩, fun ⟨_, h⟩ => ?_⟩
      · exact (Except.ok.inj h).symm
      · rw [h]
        rfl
  | error e => exact iff_of_false nofun fun h => nomatch h.1

theorem isChallenge_challengeOf (v : String) : IsChallenge (challengeOf P v) :=
  isChallenge_iff.mpr ⟨_, Vector.length_toList, String.toList_ofList.symm⟩

/-- **A verifier is taken for its challenge and for no other.** -/
theorem verifyS256_iff {v c : String} :
    verifyS256 P v c = true ↔ IsVerifier v ∧ c = challengeOf P v := by
  rw [← s256Challenge_ok_iff]
  unfold verifyS256
  cases h : s256Challenge P v with
  | ok actual =>
      obtain ⟨_, rfl⟩ := s256Challenge_ok_iff.mp h
      have hvalid := validatePkceChallenge_iff.mpr (isChallenge_challengeOf (P := P) v)
      dsimp only
      rw [Bool.and_eq_true, beq_iff_eq, Except.ok.injEq]
      refine ⟨fun hsame => hsame.2, fun hsame => ⟨?_, hsame⟩⟩
      rw [← hsame, hvalid]
      rfl
  | error e => exact iff_of_false nofun nofun

end Digest

/-! ## 4. Secrets -/

theorem isSecret_encoded {s : String} (h : Web.IsSecret s) :
    (utf8 s).length = 43 ∧ ∀ b ∈ utf8 s, ∃ n < 64, b = UInt8.ofNat (Base64Url.symbol n).toNat := by
  obtain ⟨bytes, h⟩ := h
  exact encoded_utf8 Vector.length_toList h.symm

/-- **Every secret is a verifier.** -/
theorem isVerifier_of_isSecret {s : String} (h : Web.IsSecret s) : IsVerifier s := by
  obtain ⟨hlength, hbytes⟩ := isSecret_encoded h
  rw [← validPkceVerifier_iff, Google.validPkceVerifier, Bool.and_eq_true, decide_eq_true_eq,
    List.all_eq_true]
  refine ⟨by omega, fun b hb => ?_⟩
  obtain ⟨n, hn, rfl⟩ := hbytes b hb
  have hprops := (symbol_props hn).2.2
  simp only [isUnreservedMark, Bool.or_eq_true] at hprops ⊢
  tauto

/-- And it may stand in a query for Google. -/
theorem validOpaque_of_isSecret {s : String} (h : Web.IsSecret s) : Web.validOpaque s = true := by
  obtain ⟨hlength, hbytes⟩ := isSecret_encoded h
  have hsize : s.utf8ByteSize = 43 := hlength
  have hnonempty : s.isEmpty = false := by
    rw [String.isEmpty_eq_utf8ByteSize_beq_zero, hsize]
    rfl
  rw [Web.validOpaque, hnonempty, hsize, Bool.not_false, Bool.true_and, Bool.and_eq_true,
    List.all_eq_true]
  refine ⟨by decide, fun b hb => ?_⟩
  obtain ⟨n, hn, rfl⟩ := hbytes b hb
  have hall : ∀ n : Fin 64, (33 ≤ UInt8.ofNat (Base64Url.symbol n).toNat &&
      UInt8.ofNat (Base64Url.symbol n).toNat ≤ 126) = true := by decide
  exact hall ⟨n, hn⟩

/-! ## 5. Stored transactions -/

open Sql

variable {P : Platform} {M : Machine schema Request Reply}

/-- The verifier and the nonce of a transaction, as far as they are stored, were drawn by the
    call of `e`. -/
structure Drawn (e : Entry) (row : BrowserRow) : Prop where
  verifier : ∀ v, row.upstreamVerifier = some v → v = e.call.tape.secret 3
  nonce : ∀ n, row.upstreamNonce = some n → n = e.call.tape.secret 2

/-- What becomes of the two: they stay, or are cleared. -/
structure Erases (r r' : BrowserRow) : Prop where
  verifier : r'.upstreamVerifier = r.upstreamVerifier ∨ r'.upstreamVerifier = none
  nonce : r'.upstreamNonce = r.upstreamNonce ∨ r'.upstreamNonce = none

theorem Erases.refl (r : BrowserRow) : Erases r r := ⟨Or.inl rfl, Or.inl rfl⟩

theorem Move.erases {t : Tape} {row : BrowserRow} {call : Call} {r : Reply}
    {set : BrowserRow → BrowserRow} (h : Move P t row call r set) : Erases row (set row) := by
  cases h <;> constructor <;> first | exact Or.inl rfl | exact Or.inr rfl

theorem Begins.drawn {e : Entry} {row : BrowserRow} (h : Begins P e.call.tape e.call.call row) :
    Drawn e row := by
  obtain ⟨thread, ⟨call, t⟩, reply, before, after⟩ := e
  cases h with
  | google =>
      constructor
      · intro v hv
        exact (Option.some.inj hv).symm
      · intro n hn
        exact (Option.some.inj hn).symm
  | authenticated => exact ⟨nofun, nofun⟩

/-- The rows one call leaves. -/
theorem drawn_step (e : Entry) (hgood : (contract P).Good e.call e.before)
    (hrun : (program P e.call).run e.before = (e.reply, e.after)) :
    ∀ r ∈ e.after.rows .browserAuthorizations,
      (∃ x ∈ e.before.rows .browserAuthorizations, Erases x r) ∨ Drawn e r := by
  intro r hr
  cases browserChange hgood hrun with
  | same _ hrows => exact Or.inl ⟨r, hrows ▸ hr, .refl r⟩
  | begins _ row hnew hrows =>
      rw [hrows] at hr
      rcases List.mem_append.mp hr with hold | hlast
      · exact Or.inl ⟨r, hold, .refl r⟩
      · rw [List.mem_singleton] at hlast
        exact Or.inr (hlast ▸ hnew.drawn)
  | move row hrow set hmove hrows =>
      rw [hrows, Db.update_rows_self] at hr
      obtain ⟨x, hx, rfl⟩ := List.mem_map.mp hr
      refine Or.inl ⟨x, hx, ?_⟩
      split
      · rename_i hid
        have hsame : x = row := same_key hgood.inv hx hrow (of_decide_eq_true hid)
        rw [hsame]
        exact hmove.erases
      · exact .refl x

theorem Drawn.erases {e : Entry} {r r' : BrowserRow} (h : Drawn e r) (hl : Erases r r') :
    Drawn e r' where
  verifier v hv := by
    rcases hl.verifier with hsame | hnone
    · exact h.verifier v (hsame ▸ hv)
    · rw [hnone] at hv
      cases hv
  nonce n hn := by
    rcases hl.nonce with hsame | hnone
    · exact h.nonce n (hsame ▸ hn)
    · rw [hnone] at hn
      cases hn

/-- **The verifiers and nonces that are stored were drawn by calls of the run.** -/
theorem stored_drawn (h : Reachable P M) :
    ∀ row ∈ M.db.rows .browserAuthorizations, ∃ e ∈ M.log, Drawn e row :=
  reachable_origin Erases (lawful P) rfl (fun _ _ _ hG hl => hG.erases hl)
    (fun e hgood hrun => drawn_step e hgood hrun) h

/-- So were those that a call found. -/
theorem found_drawn {e : Entry} (h : Reachable P M) (he : e ∈ M.log) :
    ∀ row ∈ e.before.rows .browserAuthorizations, ∃ e' ∈ M.log, Drawn e' row := by
  intro row hrow
  obtain ⟨e', hbefore, hdrawn⟩ := reachable_origin_before Erases (lawful P) rfl
    (fun _ _ _ hG hl => hG.erases hl) (fun e hgood hrun => drawn_step e hgood hrun) h he row hrow
  exact ⟨e', hbefore.subset (List.mem_cons_self ..), hdrawn⟩

/-- The verifier and the nonce that a reply hands out. -/
def Reply.upstream : Reply → Option (String × String)
  | .begun (.ok start) => some (start.upstreamVerifier, start.upstreamNonce)
  | .started (.ok (nonce, verifier)) => some (verifier, nonce)
  | .claimed (.ok (_, verifier, nonce)) => some (verifier, nonce)
  | _ => none

/-- A call hands out what it drew, or what it found. -/
theorem upstream_run {c : Request} {r : Reply} {db db' : Db} {v n : String}
    (h : (program P c).run db = (r, db')) (hr : r.upstream = some (v, n)) :
    (v = c.tape.secret 3 ∧ n = c.tape.secret 2) ∨
      ∃ row ∈ db.rows .browserAuthorizations, BrowserRow.upstreamVerifier row = some v ∧
        BrowserRow.upstreamNonce row = some n := by
  obtain ⟨call, t⟩ := c
  cases call with
  | beginGoogle pending state nonce allow =>
      obtain ⟨x, hx, rfl⟩ := run_of_map h
      rcases beginGoogle_run hx with ⟨⟨e, rfl⟩, _⟩ | ⟨rfl, _⟩
      · cases hr
      · cases hr
        exact Or.inl ⟨rfl, rfl⟩
  | startGoogle id state binding =>
      obtain ⟨x, hx, rfl⟩ := run_of_map h
      rcases startGoogle_run hx with ⟨rfl, _⟩ | ⟨row, hrow, _, rfl, _⟩
      · cases hr
      · refine Or.inr ⟨row, hrow, ?_⟩
        unfold BrowserRow.startSecrets at hr
        cases hnonce : row.upstreamNonce <;> cases hverifier : row.upstreamVerifier <;>
          rw [hnonce, hverifier] at hr <;> cases hr
        exact ⟨rfl, rfl⟩
  | claimCallback state binding =>
      obtain ⟨x, hx, rfl⟩ := run_of_map h
      rcases claimCallback_run hx with
        ⟨rfl, _⟩ | ⟨row, hrow, ⟨rfl, _⟩ | ⟨_, rfl, _⟩ | ⟨_, _, hverifier, hnonce, rfl, _⟩⟩
      · cases hr
      · cases hr
      · cases hr
      · cases hr
        exact Or.inr ⟨row, find_mem (t := .browserAuthorizations) hrow, hverifier, hnonce⟩
  | _ =>
      obtain ⟨x, hx, rfl⟩ := run_of_map h
      cases hr

/-- **What a call of the run hands out for Google was drawn in the run.** -/
theorem upstream_drawn {e : Entry} {v n : String} (h : Reachable P M) (he : e ∈ M.log)
    (hr : e.reply.upstream = some (v, n)) :
    (∃ e' ∈ M.log, v = e'.call.tape.secret 3) ∧ ∃ e' ∈ M.log, n = e'.call.tape.secret 2 := by
  rcases upstream_run (reachable_entry (lawful P) h he).2 hr with
    ⟨hv, hn⟩ | ⟨row, hrow, hverifier, hnonce⟩
  · exact ⟨⟨e, he, hv⟩, e, he, hn⟩
  · obtain ⟨e', he', hdrawn⟩ := found_drawn h he row hrow
    exact ⟨⟨e', he', hdrawn.verifier v hverifier⟩, e', he', hdrawn.nonce n hnonce⟩

/-! ## 6. Results -/

namespace Web

/-- The URL at Google, once the state is one to send. -/
def GoogleAdapter.upstreamUrl (C : HttpCrates) (g : GoogleAdapter)
    (state nonce challenge : String) (selectAccount : Bool) : Option String :=
  C.appendPairs g.authorize <|
    [("client_id", g.clientId), ("redirect_uri", g.callback), ("response_type", "code"),
      ("scope", "openid profile email"), ("state", state), ("nonce", nonce),
      ("code_challenge", challenge), ("code_challenge_method", "S256"),
      ("access_type", "online")] ++
    (if selectAccount then [("prompt", "select_account")] else [])

/-- **A verifier and a nonce of a transaction serve their purpose**: the verifier has a
    challenge, the URL at Google is refused for neither, and the code exchange takes both. -/
structure Serves (C : HttpCrates) (v n : String) : Prop where
  verifier : IsVerifier v
  exchange : Google.validPkceVerifier v = true
  nonce : validOpaque n = true
  challenge : s256Challenge C.toPlatform v = .ok (challengeOf C.toPlatform v)
  url : ∀ (g : GoogleAdapter) state select, validOpaque state = true →
    g.authorizationUrl C state n (challengeOf C.toPlatform v) select =
      g.upstreamUrl C state n (challengeOf C.toPlatform v) select

theorem serves_of_secrets {C : HttpCrates} {v n : String} (hv : IsSecret v)
    (hn : validOpaque n = true) : Serves C v n where
  verifier := isVerifier_of_isSecret hv
  exchange := validPkceVerifier_iff.mpr (isVerifier_of_isSecret hv)
  nonce := hn
  challenge := s256Challenge_ok_iff.mpr ⟨isVerifier_of_isSecret hv, rfl⟩
  url g state select hstate := by
    have hchallenge : validS256Challenge (challengeOf C.toPlatform v) = true :=
      validS256Challenge_iff.mpr (isChallenge_challengeOf v)
    rw [GoogleAdapter.authorizationUrl, hstate, hn, hchallenge]
    rfl

/-- **Challenges are canonical**, and no transaction is lost to its verifier: both checks accept
    exactly the texts of 32 bytes; a verifier has a challenge that both accept, is taken for it
    and for no other; and in every run of the server the verifiers and the nonces that are
    stored or handed out serve their purpose. -/
theorem challenges_canonical (C : HttpCrates) :
    (∀ c, (validatePkceChallenge c = .ok () ↔ IsChallenge c) ∧
      (validS256Challenge c = true ↔ IsChallenge c)) ∧
    (∀ v, ((∃ c, s256Challenge C.toPlatform v = .ok c) ↔ IsVerifier v) ∧
      ∀ c, s256Challenge C.toPlatform v = .ok c →
        validatePkceChallenge c = .ok () ∧ validS256Challenge c = true) ∧
    (∀ v c, verifyS256 C.toPlatform v c = true ↔
      IsVerifier v ∧ s256Challenge C.toPlatform v = .ok c) ∧
    (∀ v c c', verifyS256 C.toPlatform v c = true → verifyS256 C.toPlatform v c' = true →
      c = c') ∧
    (∀ s, IsSecret s → IsVerifier s) ∧
    ∀ W, Online C W →
      (∀ row ∈ W.store.db.rows .browserAuthorizations, ∀ v n,
        BrowserRow.upstreamVerifier row = some v → BrowserRow.upstreamNonce row = some n →
        Serves C v n) ∧
      ∀ e ∈ W.store.log, ∀ v n, e.reply.upstream = some (v, n) → Serves C v n := by
  refine ⟨?_, ?_, ?_, ?_, fun s => isVerifier_of_isSecret, ?_⟩
  · exact fun c => ⟨validatePkceChallenge_iff, validS256Challenge_iff⟩
  · intro v
    constructor
    · constructor
      · rintro ⟨c, h⟩
        exact (s256Challenge_ok_iff.mp h).1
      · intro h
        exact ⟨_, s256Challenge_ok_iff.mpr ⟨h, rfl⟩⟩
    · intro c h
      obtain ⟨_, rfl⟩ := s256Challenge_ok_iff.mp h
      exact ⟨validatePkceChallenge_iff.mpr (isChallenge_challengeOf v),
        validS256Challenge_iff.mpr (isChallenge_challengeOf v)⟩
  · intro v c
    rw [verifyS256_iff, s256Challenge_ok_iff]
    exact ⟨fun h => ⟨h.1, h⟩, fun h => h.2⟩
  · intro v c c' h h'
    obtain ⟨_, rfl⟩ := verifyS256_iff.mp h
    exact (verifyS256_iff.mp h').2.symm
  · intro W hW
    have hreach : Eri.Reachable C.toPlatform W.store := hW.reachable
    have hsecret : ∀ e ∈ W.store.log, ∀ k, IsSecret (e.call.tape.secret k) := by
      intro e he
      exact entry_possible (lawful C.toPlatform) hW he
    constructor
    · intro row hrow v n hv hn
      obtain ⟨e, he, hdrawn⟩ := stored_drawn hreach row hrow
      rw [hdrawn.verifier v hv, hdrawn.nonce n hn]
      exact serves_of_secrets (hsecret e he 3) (validOpaque_of_isSecret (hsecret e he 2))
    · intro e he v n hr
      obtain ⟨⟨e₁, he₁, rfl⟩, e₂, he₂, rfl⟩ := upstream_drawn hreach he hr
      exact serves_of_secrets (hsecret e₁ he₁ 3) (validOpaque_of_isSecret (hsecret e₂ he₂ 2))

/-- A transaction that was started. -/
theorem challenges_canonical_started :
    Serves Sample.serverCrates (Sample.secret 3) (Sample.secret 2) ∧
    verifyS256 Sample.serverCrates.toPlatform (Sample.secret 3)
      (challengeOf Sample.serverCrates.toPlatform (Sample.secret 3)) = true := by
  have hrun : (Sample.served Sample.start).store.calls.length ≤ 7 ∧
      ∃ row ∈ (Sample.served Sample.start).store.db.rows .browserAuthorizations,
        BrowserRow.upstreamVerifier row = some (Sample.secret 3) ∧
          BrowserRow.upstreamNonce row = some (Sample.secret 2) := by
    decide +kernel
  obtain ⟨hlength, row, hrow, hverifier, hnonce⟩ := hrun
  obtain ⟨_, _, hverify, _, _, hstored⟩ := challenges_canonical Sample.serverCrates
  have hserves := (hstored _ (Sample.online_served hlength)).1 row hrow _ _ hverifier hnonce
  exact ⟨hserves, (hverify _ _).mpr ⟨hserves.verifier, hserves.challenge⟩⟩

end Web

end Eri
