/-
  File:      Eri/Metadata.lean
  Subject:   How a client metadata document is read (src/cimd.rs).

  A document is a JSON object that somebody else wrote: its members come in any order, with
  members nobody here has heard of. A repeated name is refused, so that every name the code looks
  for stands for one value.

  * `member`, `member_iff`, `member_perm` -- the value of a name in an object;
  * `interpreted`, `validateDocument_congr` -- the names the check looks for, and no others;
  * `Reads` -- what an accepted document has shown, member by member;
  * **`document_reading`** -- order and unknown members do not matter, repetition is refused, and
    the result is what the interpreted members say.
-/
import Eri.Documents
import Eri.Json

namespace Eri

namespace Cimd

variable {C : Crates}

/-! ## 1. Members -/

/-- The value of a name in an object. -/
def member (obj : List (String × Json)) (name : String) : Option Json :=
  (obj.find? fun m => m.1 = name).map (·.2)

section Members

variable {obj obj' extra : List (String × Json)} {name : String} {v : Json}

/-- With distinct names, the value of a name is the one that stands beside it. -/
theorem member_iff (h : (obj.map (·.1)).Nodup) :
    member obj name = some v ↔ (name, v) ∈ obj := by
  unfold member
  constructor
  · intro hv
    obtain ⟨m, hm, rfl⟩ := Option.map_eq_some_iff.mp hv
    have hname : m.1 = name := of_decide_eq_true (List.find?_some hm :)
    exact hname ▸ List.mem_of_find?_eq_some hm
  · intro hmem
    cases hfound : obj.find? fun m => m.1 = name with
    | none =>
        have hno := List.find?_eq_none.mp hfound (name, v) hmem
        simp at hno
    | some m =>
        have hname : m.1 = name := of_decide_eq_true (List.find?_some hfound :)
        have hsame : m = (name, v) :=
          List.inj_on_of_nodup_map h (List.mem_of_find?_eq_some hfound) hmem hname
        rw [Option.map_some, hsame]

theorem member_perm (h : (obj.map (·.1)).Nodup) (hperm : obj.Perm obj') (name : String) :
    member obj' name = member obj name := by
  have h' : (obj'.map (·.1)).Nodup := (hperm.map (·.1)).nodup_iff.mp h
  refine Option.ext fun v => ?_
  rw [member_iff h, member_iff h', hperm.mem_iff]

/-- Members of other names do not count. -/
theorem member_append (h : ∀ m ∈ extra, m.1 ≠ name) :
    member (obj ++ extra) name = member obj name := by
  have hnone : extra.find? (fun m => decide (m.1 = name)) = none :=
    List.find?_eq_none.mpr fun m hm => by simpa using h m hm
  unfold member
  rw [List.find?_append, hnone, Option.or_none]

end Members

/-! ## 2. What is looked for -/

/-- The names a document is asked for. -/
def interpreted : List String :=
  ["client_id", "client_name", "redirect_uris", "token_endpoint_auth_method", "grant_types",
   "response_types", "client_secret", "client_secret_expires_at", "jwks", "jwks_uri"]

/-- **Nothing else is looked for.** -/
theorem validateDocument_congr {body body' : List UInt8} {obj obj' : List (String × Json)}
    (hobj : strictObject C body = some obj) (hobj' : strictObject C body' = some obj')
    (h : ∀ name ∈ interpreted, member obj' name = member obj name) (clientId : String) :
    validateDocument C clientId body' = validateDocument C clientId body := by
  have hid := h "client_id" (by decide)
  have hname := h "client_name" (by decide)
  have hredirects := h "redirect_uris" (by decide)
  have hmethod := h "token_endpoint_auth_method" (by decide)
  have hgrants := h "grant_types" (by decide)
  have hresponses := h "response_types" (by decide)
  have hsecret := h "client_secret" (by decide)
  have hexpires := h "client_secret_expires_at" (by decide)
  have hjwks := h "jwks" (by decide)
  have hjwksUri := h "jwks_uri" (by decide)
  unfold member at hid hname hredirects hmethod hgrants hresponses hsecret hexpires hjwks hjwksUri
  unfold validateDocument
  rw [hobj, hobj']
  simp only [orInvalid, bind, Except.bind, hid, hname, hredirects, hmethod, hgrants, hresponses,
    hsecret, hexpires, hjwks, hjwksUri]

/-- A body whose names are distinct is read as the object it is. -/
theorem strictObject_some {body : List UInt8} {ms : List (String × Json)}
    (hms : C.members body = some ms) (h : (ms.map (·.1)).Nodup) :
    strictObject C body = some ms := by
  unfold strictObject
  rw [hms, Option.filter_some, if_pos (decide_eq_true h)]

theorem strictObject_none {body : List UInt8} {ms : List (String × Json)}
    (hms : C.members body = some ms) (h : ¬(ms.map (·.1)).Nodup) :
    strictObject C body = none := by
  unfold strictObject
  rw [hms, Option.filter_some, if_neg (by simpa using h)]

/-- A repeated name is refused. -/
theorem validateDocument_repeated {body : List UInt8} {ms : List (String × Json)}
    (hms : C.members body = some ms) (h : ¬(ms.map (·.1)).Nodup) (clientId : String) :
    validateDocument C clientId body = .error .invalidDocument := by
  unfold validateDocument
  rw [strictObject_none hms h]
  rfl

/-! ## 3. What was read -/

theorem orInvalid_ok {α : Type} {x : Option α} {a : α} (h : orInvalid x = .ok a) :
    x = some a := by
  cases x with
  | none => cases h
  | some b =>
      cases h
      rfl

theorem asStr_iff {v : Json} {s : String} : v.asStr = some s ↔ v = .str s := by
  cases v <;> simp [Json.asStr]

theorem asArray_iff {v : Json} {items : List Json} : v.asArray = some items ↔ v = .arr items := by
  cases v <;> simp [Json.asArray]

/-- The grant types of an accepted document. -/
theorem readGrants_ok {grants : List Json} {refresh : Bool} (h : readGrants grants = .ok refresh) :
    .str "authorization_code" ∈ grants ∧ (refresh = true ↔ .str "refresh_token" ∈ grants) := by
  unfold readGrants at h
  obtain ⟨hgrants, h⟩ := ite_ok h
  cases h
  push Not at hgrants
  obtain ⟨_, _, _, _, hcode⟩ := hgrants
  refine ⟨?_, ?_⟩
  · obtain ⟨v, hv, hstr⟩ := List.any_eq_true.mp hcode
    exact asStr_iff.mp (beq_iff_eq.mp hstr) ▸ hv
  · rw [List.any_eq_true]
    constructor
    · rintro ⟨v, hv, hstr⟩
      exact asStr_iff.mp (beq_iff_eq.mp hstr) ▸ hv
    · intro hv
      exact ⟨_, hv, rfl⟩

/-- The redirects that were read are the listed strings, each safe and each once. -/
theorem readRedirects_ok {seen uris : List String} {items : List Json} (hseen : seen.Nodup)
    (h : readRedirects C seen items = .ok uris) :
    ∃ read, uris = seen ++ read ∧ items = read.map .str ∧ uris.Nodup ∧
      ∀ uri ∈ read, safeRedirect C uri = true := by
  induction items generalizing seen with
  | nil =>
      cases h
      exact ⟨[], by simp, rfl, hseen, fun uri huri => nomatch huri⟩
  | cons item items ih =>
      obtain ⟨raw, hraw, h⟩ := bind_ok h
      obtain ⟨hchecks, h⟩ := ite_ok h
      have hitem : item = .str raw := asStr_iff.mp (orInvalid_ok hraw)
      have hsafe : safeRedirect C raw = true ∧ raw ∉ seen := by simpa using hchecks
      have hnodup : (seen ++ [raw]).Nodup := by
        rw [List.nodup_append]
        refine ⟨hseen, List.nodup_singleton raw, fun a ha b hb => ?_⟩
        rw [List.mem_singleton] at hb
        exact fun e => hsafe.2 (hb ▸ e ▸ ha)
      obtain ⟨read, huris, hitems, hnodup, hall⟩ := ih hnodup h
      refine ⟨raw :: read, by rw [huris, List.append_assoc]; rfl, by rw [hitem, hitems]; rfl,
        hnodup, fun uri huri => ?_⟩
      rcases List.mem_cons.mp huri with rfl | huri
      · exact hsafe.1
      · exact hall uri huri

/-- **What an accepted document says**, in the members it was asked for. -/
structure Reads (C : Crates) (clientId : String) (obj : List (String × Json))
    (d : ClientMetadataDocument) : Prop where
  same : d.clientId = clientId
  id : member obj "client_id" = some (.str clientId)
  name : member obj "client_name" = some (.str d.clientName)
  displayed : safeName d.clientName = true
  redirects : member obj "redirect_uris" = some (.arr (d.redirectUris.map .str))
  distinct : d.redirectUris.Nodup
  listed : d.redirectUris ≠ []
  bounded : d.redirectUris.length ≤ maxRedirects
  safe : ∀ uri ∈ d.redirectUris, safeRedirect C uri = true
  refresh : d.refreshAllowed = true ↔ ∃ grants, member obj "grant_types" = some (.arr grants) ∧
    .str "authorization_code" ∈ grants ∧ .str "refresh_token" ∈ grants

/-- The refresh permission a document states. -/
theorem grants_ok {grants : Option Json} {refresh : Bool}
    (h : (grants.elim (.ok false) fun grants => (orInvalid grants.asArray).bind readGrants) =
      .ok refresh) :
    refresh = true ↔ ∃ gs, grants = some (.arr gs) ∧
      .str "authorization_code" ∈ gs ∧ .str "refresh_token" ∈ gs := by
  cases grants with
  | none =>
      cases h
      simp
  | some v =>
      obtain ⟨gs, hgs, h⟩ := bind_ok h
      obtain rfl := asArray_iff.mp (orInvalid_ok hgs)
      obtain ⟨hcode, hrefresh⟩ := readGrants_ok h
      rw [hrefresh]
      constructor
      · intro hmem
        exact ⟨gs, rfl, hcode, hmem⟩
      · rintro ⟨gs', hsame, _, hmem⟩
        cases hsame
        exact hmem

theorem validateDocument_reads {clientId : String} {body : List UInt8}
    {d : ClientMetadataDocument} (h : validateDocument C clientId body = .ok d) :
    ∃ obj, C.members body = some obj ∧ (obj.map (·.1)).Nodup ∧ Reads C clientId obj d := by
  obtain ⟨obj, hobj, h⟩ := bind_ok h
  obtain ⟨hmembers, hnodup⟩ := Option.filter_eq_some_iff.mp (orInvalid_ok hobj)
  obtain ⟨id, hid, h⟩ := bind_ok h
  obtain ⟨name, hname, h⟩ := bind_ok h
  obtain ⟨hsame, h⟩ := ite_ok h
  obtain ⟨_, h⟩ := ite_ok h
  obtain ⟨_, h⟩ := ite_ok h
  obtain ⟨refresh, hrefresh, h⟩ := bind_ok h
  obtain ⟨_, h⟩ := ite_ok h
  obtain ⟨items, hitems, h⟩ := bind_ok h
  obtain ⟨hlength, h⟩ := ite_ok h
  obtain ⟨uris, huris, h⟩ := bind_ok h
  cases h
  push Not at hsame hlength
  obtain ⟨rfl, hdisplayed⟩ := hsame
  obtain ⟨v, hv, hstr⟩ := Option.bind_eq_some_iff.mp (orInvalid_ok hid)
  obtain rfl := asStr_iff.mp hstr
  obtain ⟨v, hv', hstr⟩ := Option.bind_eq_some_iff.mp (orInvalid_ok hname)
  obtain rfl := asStr_iff.mp hstr
  obtain ⟨v, hv'', harr⟩ := Option.bind_eq_some_iff.mp (orInvalid_ok hitems)
  obtain rfl := asArray_iff.mp harr
  obtain ⟨read, hread, rfl, hdistinct, hsafe⟩ := readRedirects_ok List.nodup_nil huris
  rw [List.nil_append] at hread
  subst hread
  refine ⟨obj, hmembers, of_decide_eq_true hnodup, rfl, hv, hv', hdisplayed, hv'', hdistinct, ?_,
    ?_, hsafe, grants_ok hrefresh⟩
  · exact fun hnil => absurd hnil (by simpa using hlength.1)
  · simpa using hlength.2

/-! ## 4. Order and extensions -/

/-- **Documents are read independently of member order and unknown members.** Members in another
    order, and further members of new and different names that nothing looks for, leave the
    result as it is; a repeated name is refused, whichever it is. An accepted document has the
    requested id, the listed redirect URIs in their order, one to sixteen different and safe
    ones, and allows refreshes exactly when it lists both grant types. -/
theorem document_reading (C : Crates) (clientId : String) :
    (∀ body body' ms ms' extra, C.members body = some ms → C.members body' = some ms' →
      ms'.Perm (ms ++ extra) → (extra.map (·.1)).Nodup →
      (∀ m ∈ extra, m.1 ∉ ms.map (·.1) ∧ m.1 ∉ interpreted) →
      validateDocument C clientId body' = validateDocument C clientId body) ∧
    (∀ body ms, C.members body = some ms → ¬(ms.map (·.1)).Nodup →
      validateDocument C clientId body = .error .invalidDocument) ∧
    (∀ body d, validateDocument C clientId body = .ok d →
      ∃ ms, C.members body = some ms ∧ d.clientId = clientId ∧
        ("client_id", .str clientId) ∈ ms ∧
        ("redirect_uris", .arr (d.redirectUris.map .str)) ∈ ms ∧ d.redirectUris.Nodup ∧
        1 ≤ d.redirectUris.length ∧ d.redirectUris.length ≤ 16 ∧
        (∀ uri ∈ d.redirectUris, safeRedirect C uri = true) ∧
        (d.refreshAllowed = true ↔ ∃ grants, ("grant_types", .arr grants) ∈ ms ∧
          .str "authorization_code" ∈ grants ∧ .str "refresh_token" ∈ grants)) := by
  refine ⟨fun body body' ms ms' extra hms hms' hperm hextra hnew => ?_,
    fun body ms hms hrepeated => validateDocument_repeated hms hrepeated clientId,
    fun body d h => ?_⟩
  · have hnames := hperm.map (·.1)
    rw [List.map_append] at hnames
    by_cases hnodup : (ms.map (·.1)).Nodup
    · have hall : (ms.map (·.1) ++ extra.map (·.1)).Nodup := by
        refine List.nodup_append.mpr ⟨hnodup, hextra, fun a ha b hb e => ?_⟩
        obtain ⟨m, hm, rfl⟩ := List.mem_map.mp hb
        exact (hnew m hm).1 (e ▸ ha)
      have hnodup' : (ms'.map (·.1)).Nodup := hnames.nodup_iff.mpr hall
      refine validateDocument_congr (strictObject_some hms hnodup)
        (strictObject_some hms' hnodup') (fun name hname => ?_) clientId
      have hother : ∀ m ∈ extra, m.1 ≠ name := fun m hm e => (hnew m hm).2 (e ▸ hname)
      rw [member_perm (List.map_append ▸ hall) hperm.symm, member_append hother]
    · have hrepeated : ¬(ms'.map (·.1)).Nodup := fun h' =>
        hnodup (List.nodup_append.mp (hnames.nodup_iff.mp h')).1
      rw [validateDocument_repeated hms hnodup, validateDocument_repeated hms' hrepeated]
  · obtain ⟨obj, hobj, hnodup, hreads⟩ := validateDocument_reads h
    refine ⟨obj, hobj, hreads.same, (member_iff hnodup).mp hreads.id,
      (member_iff hnodup).mp hreads.redirects, hreads.distinct,
      List.length_pos_iff.mpr hreads.listed, hreads.bounded, hreads.safe, ?_⟩
    rw [hreads.refresh]
    simp only [member_iff hnodup]

end Cimd

namespace Sample

def appId : String := "https://app.example.org/client.json"

def appCallback : String := "https://app.example.org/callback"

/-- The redirect URI as the URL parser sees it. -/
def callbackUrl : ParsedUrl where
  scheme := "https"
  username := ""
  password := none
  host := some (.domain "app.example.org")
  path := "/callback"
  query := none
  fragment := none
  cannotBeABase := false
  asStr := appCallback
  port := none

/-- A document, member by member. -/
def appMembers : List (String × Json) :=
  [("client_id", .str appId), ("client_name", .str "App"),
   ("token_endpoint_auth_method", .str "none"), ("redirect_uris", .arr [.str appCallback])]

/-- The same with a logo, backwards. -/
def logoMembers : List (String × Json) := (appMembers ++ [("logo_uri", Json.str appId)]).reverse

/-- The body an object is published as. -/
def bodyOf (ms : List (String × Json)) : List UInt8 :=
  utf8 (String.ofList (Json.jsonbText (.obj ms)))

/-- The crates, on one redirect URI and two bodies. -/
def documentCrates : Crates where
  digest _ := Vector.replicate 32 0
  url raw := if raw = appCallback then some callbackUrl else none
  parse raw := (if raw = appCallback then some callbackUrl else none).map ParsedUrl.toUrl
  join _ _ := none
  hashText _ := 0
  members body := [appMembers, logoMembers].find? fun ms => body = bodyOf ms
  parse_url _ := rfl

end Sample

/-- A document with a logo, its members backwards, is the document without it. -/
theorem document_reading_logo :
    Cimd.validateDocument Sample.documentCrates Sample.appId (Sample.bodyOf Sample.logoMembers) =
      .ok ⟨Sample.appId, "App", [Sample.appCallback], false⟩ := by
  have happ : Sample.documentCrates.members (Sample.bodyOf Sample.appMembers) =
      some Sample.appMembers := by
    simp [Sample.documentCrates]
  have hother : Sample.bodyOf Sample.logoMembers ≠ Sample.bodyOf Sample.appMembers := by
    decide +kernel
  have hlogo : Sample.documentCrates.members (Sample.bodyOf Sample.logoMembers) =
      some Sample.logoMembers := by
    simp [Sample.documentCrates, hother]
  have hread : Cimd.validateDocument Sample.documentCrates Sample.appId
      (Sample.bodyOf Sample.appMembers) =
        .ok ⟨Sample.appId, "App", [Sample.appCallback], false⟩ := by
    decide +kernel
  rw [← hread]
  exact (Cimd.document_reading Sample.documentCrates Sample.appId).1 _ _ _ _
    [("logo_uri", .str Sample.appId)] happ hlogo (List.reverse_perm _) (by simp)
    (by decide +kernel)

end Eri
