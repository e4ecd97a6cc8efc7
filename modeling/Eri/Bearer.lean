/-
  File:      Eri/Bearer.lean
  Subject:   Where the userinfo endpoint finds its token (src/web.rs, bearer): in the first
             Authorization header, or in the form.

  * `presentations` -- all tokens that a request presents;
  * `OnePresentation` -- a token is taken only from a request that presents no other;
  * `Unmixed` -- the requests for which it is;
  * `one_presentation` -- **these and no others**.
-/
import Eri.Cookies
import Eri.Escapes
import Eri.Redirects
import Eri.Tokens

namespace Eri

open Web (HeaderMap getAll toStr one Provider)

/-! ## 1. Presentations -/

/-- The token of a header value, readable or not. -/
def bearerValue (value : List UInt8) : Option (List UInt8) :=
  if utf8 "Bearer " <+: value then some (value.drop 7) else none

def headerTokens (h : HeaderMap) : List (List UInt8) :=
  (getAll h "authorization").filterMap bearerValue

def formTokens (form : List (String × String)) : List String :=
  (form.filter fun e => e.1 = "access_token").map (·.2)

/-- **All tokens that a request presents.** -/
def presentations (h : HeaderMap) (form : List (String × String)) : List (List UInt8) :=
  headerTokens h ++ (formTokens form).map utf8

/-- **A token is taken only from a request that presents no other**, and none from a request
    that presents several. -/
def OnePresentation (h : HeaderMap) (form : List (String × String)) : Prop :=
  (∀ token, bearer h form = some token → presentations h form = [utf8 token]) ∧
    (2 ≤ (presentations h form).length → bearer h form = none)

/-- The first Authorization value is a readable bearer token. -/
def Leads (h : HeaderMap) : Prop :=
  ∃ value, (getAll h "authorization").head? = some value ∧ (toStr value).isSome = true ∧
    (bearerValue value).isSome = true

/-- **Where the first header value is a readable token**, the form has exactly one token, or none
    and no other value is a token. Elsewhere a single token of the form stands alone. -/
def Unmixed (h : HeaderMap) (form : List (String × String)) : Prop :=
  (Leads h → (formTokens form).length = 1 ∨
    formTokens form = [] ∧ (headerTokens h).length = 1) ∧
  (¬Leads h → (formTokens form).length = 1 → headerTokens h = [])

/-! ## 2. The header -/

/-- The first lookup of `bearer`. -/
def fromHeader (h : HeaderMap) : Option String :=
  (((getAll h "authorization").head?.bind toStr).bind (stripPrefix "Bearer ")).map String.ofList

/-- A readable value is the text that is read. -/
theorem utf8_of_toStr {value : List UInt8} {text : List Char} (h : toStr value = some text) :
    value = utf8 (String.ofList text) := by
  have hascii := Web.toStr_ascii h
  obtain ⟨hbytes, rfl⟩ := Web.toStr_some h
  rw [utf8_of_ascii (by rwa [String.toList_ofList]), String.toList_ofList, List.map_map]
  refine ((List.map_congr_left fun b hb => ?_).trans (List.map_id value)).symm
  have hchar : (Char.ofNat b.toNat).toNat = b.toNat := toNat_ofNat_ascii ⟨_, hbytes b hb⟩
  rw [Function.comp_apply, hchar, UInt8.ofNat_toNat, id]

/-- The token of a readable value, as bytes. -/
theorem bearerValue_of_toStr {value : List UInt8} {text : List Char}
    (h : toStr value = some text) :
    bearerValue value = (stripPrefix "Bearer " text).map fun t => utf8 (String.ofList t) := by
  obtain ⟨-, htext⟩ := Web.toStr_some h
  unfold bearerValue
  cases hstrip : stripPrefix "Bearer " text with
  | some t =>
      have hvalue : value = utf8 "Bearer " ++ utf8 (String.ofList t) := by
        rw [utf8_of_toStr h, stripPrefix_eq_some.mp hstrip, String.ofList_append,
          String.ofList_toList, Web.utf8_append]
      have hlength : (utf8 "Bearer ").length = 7 := rfl
      rw [if_pos (hvalue ▸ List.prefix_append ..), hvalue, ← hlength, List.drop_left]
      rfl
  | none =>
      rw [if_neg]
      · rfl
      · rintro ⟨rest, hvalue⟩
        have htext : text = "Bearer ".toList ++ rest.map fun b => Char.ofNat b.toNat := by
          rw [htext, ← hvalue, List.map_append]
          rfl
        rw [stripPrefix_eq_some.mpr htext] at hstrip
        cases hstrip

/-- The first lookup finds the token that leads. -/
theorem fromHeader_some {h : HeaderMap} {token : String} (hfound : fromHeader h = some token) :
    Leads h ∧ ∃ rest, headerTokens h = utf8 token :: rest := by
  unfold fromHeader at hfound
  cases hvalues : getAll h "authorization" with
  | nil =>
      rw [hvalues] at hfound
      cases hfound
  | cons value rest =>
      rw [hvalues, List.head?_cons, Option.bind_some] at hfound
      cases htext : toStr value with
      | none =>
          rw [htext] at hfound
          cases hfound
      | some text =>
          rw [htext, Option.bind_some] at hfound
          obtain ⟨t, hstrip, rfl⟩ := Option.map_eq_some_iff.mp hfound
          have hvalue : bearerValue value = some (utf8 (String.ofList t)) := by
            rw [bearerValue_of_toStr htext, hstrip]
            rfl
          refine ⟨⟨value, by rw [hvalues]; rfl, by rw [htext]; rfl, by rw [hvalue]; rfl⟩,
            rest.filterMap bearerValue, ?_⟩
          rw [headerTokens, hvalues, List.filterMap_cons_some hvalue]

theorem fromHeader_none {h : HeaderMap} (hfound : fromHeader h = none) : ¬Leads h := by
  rintro ⟨value, hhead, hreadable, hbearer⟩
  obtain ⟨text, htext⟩ := Option.isSome_iff_exists.mp hreadable
  rw [fromHeader, hhead, Option.bind_some, htext, Option.bind_some, Option.map_eq_none_iff]
    at hfound
  rw [bearerValue_of_toStr htext, hfound] at hbearer
  cases hbearer

/-! ## 3. The form -/

/-- The second lookup finds the only token of the form. -/
theorem one_iff {form : List (String × String)} {token : String} :
    one form "access_token" = some token ↔ formTokens form = [token] := by
  unfold one formTokens
  generalize (form.filter fun e => e.1 = "access_token") = found
  match found with
  | [] => simp
  | [e] => simp
  | _ :: _ :: _ => simp

theorem one_none {form : List (String × String)} (h : one form "access_token" = none) :
    (formTokens form).length ≠ 1 := by
  intro hlength
  obtain ⟨token, htoken⟩ := List.length_eq_one_iff.mp hlength
  rw [one_iff.mpr htoken] at h
  cases h

/-! ## 4. Both -/

theorem bearer_both {h : HeaderMap} {form : List (String × String)} {token other : String}
    (hheader : fromHeader h = some token) (hform : one form "access_token" = some other) :
    bearer h form = none := by
  unfold fromHeader at hheader
  simp only [bearer, hheader, hform]

theorem bearer_header {h : HeaderMap} {form : List (String × String)} {token : String}
    (hheader : fromHeader h = some token) (hform : one form "access_token" = none) :
    bearer h form = some token := by
  unfold fromHeader at hheader
  simp only [bearer, hheader, hform]

theorem bearer_form {h : HeaderMap} {form : List (String × String)}
    (hheader : fromHeader h = none) : bearer h form = one form "access_token" := by
  unfold fromHeader at hheader
  cases hform : one form "access_token" <;> simp only [bearer, hheader, hform]

/-! ## 5. Results -/

/-- **Where a token is taken only from a request that presents no other.** -/
theorem onePresentation_iff (h : HeaderMap) (form : List (String × String)) :
    OnePresentation h form ↔ Unmixed h form := by
  unfold OnePresentation Unmixed presentations
  cases hfound : fromHeader h with
  | some token =>
      obtain ⟨hleads, rest, hrest⟩ := fromHeader_some hfound
      cases hone : one form "access_token" with
      | some other =>
          -- two tokens, and the lookups notice
          have hbearer := bearer_both hfound hone
          have hform := one_iff.mp hone
          refine iff_of_true ⟨fun t ht => ?_, fun _ => hbearer⟩
            ⟨fun _ => Or.inl (by rw [hform]; rfl), fun hno => absurd hleads hno⟩
          rw [hbearer] at ht
          cases ht
      | none =>
          -- the second lookup does not tell no token from several
          have hbearer := bearer_header hfound hone
          have hmany := one_none hone
          rw [hbearer, hrest]
          constructor
          · rintro ⟨honly, -⟩
            have hall := honly token rfl
            rw [List.cons_append, List.cons.injEq, List.append_eq_nil_iff, List.map_eq_nil_iff]
              at hall
            refine ⟨fun _ => Or.inr ⟨hall.2.2, ?_⟩, fun hno => absurd hleads hno⟩
            rw [hall.2.1]
            rfl
          · rintro ⟨hlead, -⟩
            rcases hlead hleads with hlength | ⟨hform, hlength⟩
            · exact absurd hlength hmany
            · have hnil : rest = [] := List.length_eq_zero_iff.mp (by simpa using hlength)
              rw [hform, hnil]
              exact ⟨fun t ht => by rw [Option.some.inj ht]; rfl,
                fun htwo => absurd htwo (by simp)⟩
  | none =>
      have hleads := fromHeader_none hfound
      have hbearer : bearer h form = one form "access_token" := bearer_form hfound
      cases hone : one form "access_token" with
      | some token =>
          rw [hone] at hbearer
          have hform := one_iff.mp hone
          rw [hbearer, hform]
          constructor
          · rintro ⟨honly, -⟩
            have hall := honly token rfl
            refine ⟨fun hlead => absurd hlead hleads, fun _ _ => ?_⟩
            exact List.append_left_eq_self.mp hall
          · rintro ⟨-, hnone⟩
            rw [hnone hleads rfl]
            exact ⟨fun t ht => by rw [Option.some.inj ht]; rfl,
              fun htwo => absurd htwo (by simp)⟩
      | none =>
          rw [hone] at hbearer
          have hmany := one_none hone
          refine iff_of_true ⟨fun t ht => ?_, fun _ => hbearer⟩
            ⟨fun hlead => absurd hlead hleads, fun _ hlength => absurd hlength hmany⟩
          rw [hbearer] at ht
          cases ht

/-- The form of a request. -/
def formOf (C : HttpCrates) (body : List UInt8) : Option (List (String × String)) :=
  if body.isEmpty then some [] else Web.pairsBytes C body 4096

theorem bearerToken_eq (C : HttpCrates) (h : HeaderMap) (body : List UInt8) :
    bearerToken C h body = (formOf C body).bind (bearer h) := by
  unfold bearerToken formOf
  split
  · rfl
  · rfl

/-- **A token is taken only from a request that presents no other**, exactly when header and
    form are not mixed in a way that hides one from the two lookups. Then the endpoint answers
    no request that presents several. -/
theorem one_presentation {K : KeyCrates} (C : HttpCrates) (keys : SigningKeys K) (p : Provider)
    (profileOf : Uuid → Option UserProfile) (h : HeaderMap) (form : List (String × String)) :
    (OnePresentation h form ↔ Unmixed h form) ∧
    (Unmixed h form → 2 ≤ (presentations h form).length → ∀ body, formOf C body = some form →
      ∀ now later, userinfo C keys p profileOf now later h body = none) := by
  refine ⟨onePresentation_iff h form, fun hunmixed htwo body hform now later => ?_⟩
  have hnone := ((onePresentation_iff h form).mpr hunmixed).2 htwo
  rw [userinfo, bearerToken_eq, hform, Option.bind_some, hnone]
  rfl

/-! The token of a grant in the header, and in the form. -/

namespace Sample

def bearerHeader : HeaderMap := [("authorization", utf8 "Bearer x")]

/-- Once in the form. -/
def conflictingBody : List UInt8 := utf8 "access_token=x"

/-- Twice. -/
def bearerBody : List UInt8 := utf8 "access_token=x&access_token=x"

def bearerForm : List (String × String) := [("access_token", "x"), ("access_token", "x")]

end Sample

open Sample in
/-- Two presentations that the lookups notice. -/
theorem one_presentation_conflicting : ∃ keys,
    load (keyCrates signedPair) (keyFiles announced) = .ok keys ∧
    formOf Web.Sample.bytewiseCrates conflictingBody = some [("access_token", "x")] ∧
    (presentations bearerHeader [("access_token", "x")]).length = 2 ∧
    userinfo Web.Sample.bytewiseCrates keys provider
      (fun _ => some ⟨some "Ada", none, none, none, none⟩) 1010 1010 bearerHeader
      conflictingBody = none := by
  obtain ⟨keys, hkeys, -⟩ := announced_keys signedPair
  have hform : formOf Web.Sample.bytewiseCrates conflictingBody =
      some [("access_token", "x")] := rfl
  have hunmixed : Unmixed bearerHeader [("access_token", "x")] :=
    ⟨fun _ => Or.inl rfl, fun hno => absurd ⟨_, rfl, rfl, rfl⟩ hno⟩
  exact ⟨keys, hkeys, hform, rfl, (one_presentation Web.Sample.bytewiseCrates keys provider
    (fun _ => some ⟨some "Ada", none, none, none, none⟩) bearerHeader _).2 hunmixed (Nat.le_refl 2)
    conflictingBody hform 1010 1010⟩

open Sample in
theorem presented_three_times : ∃ keys ms,
    load (keyCrates signedPair) (keyFiles announced) = .ok keys ∧
    formOf Web.Sample.bytewiseCrates bearerBody = some bearerForm ∧
    (presentations bearerHeader bearerForm).length = 3 ∧
    userinfo Web.Sample.bytewiseCrates keys provider
      (fun _ => some ⟨some "Ada", none, none, none, none⟩) 1010 1010 bearerHeader bearerBody =
      some ms ∧
    ¬OnePresentation bearerHeader bearerForm := by
  obtain ⟨keys, hkeys, hkid, hencoding⟩ := announced_keys signedPair
  obtain ⟨accessToken, haccess, h⟩ := bind_ok (issues_pair hkid hencoding)
  obtain ⟨idToken, -, h⟩ := bind_ok h
  cases h
  have hform : formOf Web.Sample.bytewiseCrates bearerBody = some bearerForm := rfl
  have hbearer : bearer bearerHeader bearerForm = some (mark 1) := rfl
  have htoken : bearerToken Web.Sample.bytewiseCrates bearerHeader bearerBody =
      some (mark 1) := by
    rw [bearerToken_eq, hform, Option.bind_some, hbearer]
  have hthree : (presentations bearerHeader bearerForm).length = 3 := rfl
  have hanswer := (userinfo_iff Web.Sample.bytewiseCrates (keyCrates_lawful signedPair) hkeys
    exchanged_returnable (exchanged_returnable.named registry_built) haccess htoken rfl
    (fun _ => some ⟨some "Ada", none, none, none, none⟩) 1010 1010 _).mpr
    ⟨by decide, by decide, by decide, by decide, _, rfl, rfl⟩
  refine ⟨keys, _, hkeys, hform, hthree, hanswer, fun hone => ?_⟩
  have hlength := congrArg List.length (hone.1 _ hbearer)
  rw [hthree] at hlength
  cases hlength

end Eri
