/-
  File:      Eri/Canonical.lean
  Subject:   The security binding of a document as a canonical form, and its storage
             (src/cimd.rs, migrations/202610110004_cimd_bindings.sql).

  A binding is compared with the binding of a later fetch of the document. It is stored as
  `jsonb`, under a constraint on its shape and on the length of its text, and read back from the
  text of that value.

  * `securityBinding_iff` -- two bindings are equal exactly when they permit the same;
  * `bindingShape` -- the constraint of the three tables;
  * `ofJson_same`, `octets_toJson_le` -- a stored binding, read back and measured;
  * **`security_binding_canonical`** -- both, for every accepted document.
-/
import Eri.Metadata

namespace Eri

open Json (octets jsonbText)

/-! ## 1. The canonical form -/

/-- The redirect a URI is bound as. -/
def CimdBoundRedirect.of (uri : String) : CimdBoundRedirect := ⟨uri, .of uri⟩

theorem securityBinding_redirects (d : ClientMetadataDocument) (f : Bool) :
    (d.securityBinding f).redirects.Perm (d.redirectUris.map .of) :=
  List.mergeSort_perm _ _

/-- The order of the URIs does not matter to a binding. -/
theorem securityBinding_perm {d d' : ClientMetadataDocument}
    (h : d.redirectUris.Perm d'.redirectUris) (f f' : Bool) :
    (d.securityBinding f).redirects = (d'.securityBinding f').redirects := by
  have hsorted : ∀ (d : ClientMetadataDocument) (f : Bool),
      (d.securityBinding f).redirects.Pairwise fun a b => a.uri ≤ b.uri := by
    intro d f
    let le := fun a b : CimdBoundRedirect => decide (a.uri ≤ b.uri)
    have htrans : ∀ a b c, le a b = true → le b c = true → le a c = true := fun a b c hab hbc =>
      decide_eq_true (le_trans (of_decide_eq_true hab) (of_decide_eq_true hbc))
    have htotal : ∀ a b, (le a b || le b a) = true := fun a b => by
      simpa [le] using le_total a.uri b.uri
    exact (List.pairwise_mergeSort htrans htotal _).imp of_decide_eq_true
  have hperm : (d.securityBinding f).redirects.Perm (d'.securityBinding f').redirects :=
    ((securityBinding_redirects d f).trans (h.map _)).trans
      (securityBinding_redirects d' f').symm
  -- a URI is bound in one way only, so that the order of the URIs is one of the redirects
  have hof : ∀ r ∈ (d.securityBinding f).redirects, r = .of r.uri := by
    intro r hr
    obtain ⟨uri, _, rfl⟩ := List.mem_map.mp ((securityBinding_redirects d f).mem_iff.mp hr)
    rfl
  refine List.Perm.eq_of_pairwise (fun a b ha hb hab hba => ?_) (hsorted d f) (hsorted d' f')
    hperm
  rw [hof a ha, hof b (hperm.mem_iff.mpr hb), le_antisymm hab hba]

/-- **Two bindings are equal exactly when they permit the same.** -/
theorem securityBinding_iff {d d' : ClientMetadataDocument} (hd : d.redirectUris.Nodup)
    (hd' : d'.redirectUris.Nodup) (f f' : Bool) :
    d.securityBinding f = d'.securityBinding f' ↔ d.clientId = d'.clientId ∧
      (∀ uri, uri ∈ d.redirectUris ↔ uri ∈ d'.redirectUris) ∧
      (d.refreshAllowed && f) = (d'.refreshAllowed && f') := by
  constructor
  · intro h
    refine ⟨congrArg (·.clientId) h, fun uri => ?_, congrArg (·.refreshAllowed) h⟩
    have hmem : ∀ (d : ClientMetadataDocument) (f : Bool), uri ∈ d.redirectUris ↔
        .of uri ∈ (d.securityBinding f).redirects := by
      intro d f
      rw [(securityBinding_redirects d f).mem_iff, List.mem_map]
      constructor
      · exact fun hin => ⟨uri, hin, rfl⟩
      · rintro ⟨uri', hin, e⟩
        have hsame : uri' = uri := congrArg CimdBoundRedirect.uri e
        exact hsame ▸ hin
    rw [hmem d f, hmem d' f', h]
  · rintro ⟨hid, huris, hrefresh⟩
    have hperm : d.redirectUris.Perm d'.redirectUris :=
      (List.perm_ext_iff_of_nodup hd hd').mpr huris
    have hredirects := securityBinding_perm hperm f f'
    unfold ClientMetadataDocument.securityBinding at hredirects ⊢
    simp only [CimdSecurityBinding.mk.injEq] at hredirects ⊢
    exact ⟨trivial, hid, hredirects, hrefresh⟩

/-! ## 2. Read back -/

/-- The members of a bound redirect, in any order. -/
theorem same_redirect {r : CimdBoundRedirect} {j : Json} (h : Json.Same r.toJson j) :
    CimdBoundRedirect.ofJson j = some r := by
  cases h with
  | refl => exact r.ofJson_toJson
  | obj h hperm =>
      rename_i ms ms'
      obtain rfl : [("uri", .str r.uri), ("kind", r.kind.toJson)] = ms := by
        cases h with
        | member huri h =>
            cases h with
            | member hkind h =>
                cases h
                obtain ⟨s, hs⟩ : ∃ s, r.kind.toJson = .str s := by
                  cases r.kind <;> exact ⟨_, rfl⟩
                rw [hs] at hkind
                rw [huri.eq_str, hkind.eq_str, hs]
      have hread : CimdBoundRedirect.ofJson (.obj ms') = CimdBoundRedirect.ofJson r.toJson := by
        simp only [CimdBoundRedirect.toJson, CimdBoundRedirect.ofJson,
          Json.onlyFields_perm hperm, Json.member_perm hperm]
      rw [hread, r.ofJson_toJson]

theorem same_redirects {rs : List CimdBoundRedirect} {items : List Json}
    (h : Json.SameItems (rs.map CimdBoundRedirect.toJson) items) :
    items.mapM CimdBoundRedirect.ofJson = some rs := by
  induction rs generalizing items with
  | nil =>
      cases h
      rfl
  | cons r rs ih =>
      cases h with
      | cons h hs =>
          rw [List.mapM_cons, same_redirect h, ih hs]
          rfl

theorem sameItems_refl (items : List Json) : Json.SameItems items items := by
  induction items with
  | nil => exact .nil
  | cons v items ih => exact .cons (.refl v) ih

/-- **The members of a binding that was written again.** -/
theorem same_binding {b : CimdSecurityBinding} {j : Json} (h : Json.Same b.toJson j) :
    ∃ items ms, j = .obj ms ∧
      [("version", Json.num b.version.toNat), ("client_id", .str b.clientId),
        ("redirects", .arr items), ("refresh_allowed", .bool b.refreshAllowed)].Perm ms ∧
      Json.SameItems (b.redirects.map CimdBoundRedirect.toJson) items := by
  cases h with
  | refl => exact ⟨_, _, rfl, .refl _, sameItems_refl _⟩
  | obj h hperm =>
      cases h with
      | member hversion h =>
      cases h with
      | member hid h =>
      cases h with
      | member hredirects h =>
      cases h with
      | member hrefresh h =>
      cases h
      obtain rfl := hversion.eq_num
      obtain rfl := hid.eq_str
      obtain rfl := hrefresh.eq_bool
      cases hredirects with
      | refl => exact ⟨_, _, rfl, hperm, sameItems_refl _⟩
      | arr hitems => exact ⟨_, _, rfl, hperm, hitems⟩

/-- **A binding that was written again reads back as itself.** -/
theorem ofJson_same {b : CimdSecurityBinding} {j : Json} (h : Json.Same b.toJson j) :
    CimdSecurityBinding.ofJson j = some b := by
  obtain ⟨items, ms, rfl, hperm, hitems⟩ := same_binding h
  have hversion : (b.version.toNat : Int) < 256 := by
    have hlt := b.version.toNat_lt
    omega
  simp only [CimdSecurityBinding.ofJson, Json.onlyFields_perm hperm, Json.member_perm hperm]
  simp [Json.onlyFields, Json.member, same_redirects hitems, hversion]

/-! ## 3. The constraint -/

/-- `browser_cimd_binding_shape`, `code_cimd_binding_shape` and `family_cimd_binding_shape`, for
    a row of a client. The members of a `jsonb` object have distinct names. -/
def bindingShape (clientId : String) : Option Json → Bool
  | none => true
  | some (.obj ms) =>
      (match Json.member ms "version" with
        | some (.num n) => n == 1
        | _ => false) &&
      (match Json.member ms "client_id" with
        | some (.str s) => s == clientId
        | _ => false) &&
      (match Json.member ms "redirects" with
        | some (.arr _) => true
        | _ => false) &&
      (match Json.member ms "refresh_allowed" with
        | some (.bool _) => true
        | _ => false) &&
      decide (octets (jsonbText (.obj ms)) ≤ 49152)
  | some _ => false

theorem octets_redirect_le (r : CimdBoundRedirect) :
    octets (jsonbText r.toJson) ≤ 48 + 6 * octets r.uri.toList := by
  have huri := Json.octets_escape_le r.uri
  have hkind : octets (jsonbText r.kind.toJson) ≤ 17 := by
    cases r.kind <;> decide
  have hnames : octets (Json.escape "uri") = 5 ∧ octets (Json.escape "kind") = 6 ∧
      octets ": ".toList = 2 ∧ Json.openBrace.utf8Size = 1 ∧ Json.closeBrace.utf8Size = 1 := by
    decide
  obtain ⟨hu, hk, hcolon, hopen, hclose⟩ := hnames
  simp only [CimdBoundRedirect.toJson, Json.jsonbText, Json.jsonbMembers, Json.octets_cons,
    Json.octets_append, Json.octets_nil, Json.octets_intersperse, List.map_cons, List.map_nil,
    List.sum_cons, List.sum_nil, List.length_cons, List.length_nil, hu, hk, hcolon, hopen, hclose]
  omega

theorem octets_redirects_le (rs : List CimdBoundRedirect) :
    ((Json.jsonbItems (rs.map CimdBoundRedirect.toJson)).map octets).sum ≤
      48 * rs.length + 6 * (rs.map fun r => octets r.uri.toList).sum ∧
    (Json.jsonbItems (rs.map CimdBoundRedirect.toJson)).length = rs.length := by
  induction rs with
  | nil => exact ⟨Nat.le_refl 0, rfl⟩
  | cons r rs ih =>
      have hr := octets_redirect_le r
      simp only [List.map_cons, Json.jsonbItems, List.sum_cons, List.length_cons]
      omega

/-- **The text of a binding** takes at most six times the octets of its strings, and what its
    members need around them. -/
theorem octets_toJson_le {b : CimdSecurityBinding} (hversion : b.version = 1) :
    octets (jsonbText b.toJson) ≤ 96 + 6 * octets b.clientId.toList +
      50 * b.redirects.length + 6 * (b.redirects.map fun r => octets r.uri.toList).sum := by
  have hid := Json.octets_escape_le b.clientId
  have hrefresh : octets (jsonbText (.bool b.refreshAllowed)) ≤ 5 := by
    cases b.refreshAllowed <;> decide
  obtain ⟨hredirects, hlength⟩ := octets_redirects_le b.redirects
  have hone : octets (Json.decimalText ((1 : UInt8).toNat : Int)) = 1 := by decide
  have hnames : octets (Json.escape "version") = 9 ∧ octets (Json.escape "client_id") = 11 ∧
      octets (Json.escape "redirects") = 11 ∧ octets (Json.escape "refresh_allowed") = 17 ∧
      octets ": ".toList = 2 ∧ Json.openBrace.utf8Size = 1 ∧ Json.closeBrace.utf8Size = 1 ∧
      '['.utf8Size = 1 ∧ ']'.utf8Size = 1 := by
    decide
  obtain ⟨hv, hi, hr, ha, hcolon, hopen, hclose, hbracket, hbracket'⟩ := hnames
  rw [Json.jsonbText] at hrefresh
  simp only [CimdSecurityBinding.toJson, Json.jsonbText, Json.jsonbMembers, Json.octets_cons,
    Json.octets_append, Json.octets_nil, Json.octets_intersperse, List.map_cons, List.map_nil,
    List.sum_cons, List.sum_nil, List.length_cons, List.length_nil, hversion, hone, hv, hi, hr,
    ha, hcolon, hopen, hclose, hbracket, hbracket', hlength]
  omega

/-! ## 4. Accepted documents -/

section Accepted

variable {C : Crates}

/-- `serde_json` accepts JSON texts only, and delivers what they say; it keeps a nested object as
    a map, by the names of its members. -/
def ReadsJson (C : Crates) : Prop := ∀ body ms, C.members body = some ms →
  ∃ t, body = utf8 (String.ofList t) ∧ Json.Spells t (.obj ms)

/-- **The strings of an accepted document fit into its body.** -/
theorem document_size (hJson : ReadsJson C) {clientId : String} {body : List UInt8}
    {d : ClientMetadataDocument} (h : Cimd.validateDocument C clientId body = .ok d) :
    octets d.clientId.toList + (d.redirectUris.map fun uri => octets uri.toList).sum ≤
      body.length := by
  obtain ⟨obj, hobj, hnodup, hreads⟩ := Cimd.validateDocument_reads h
  obtain ⟨t, rfl, ht⟩ := hJson body obj hobj
  have hfit := Json.size_two ((Cimd.member_iff hnodup).mp hreads.id)
    ((Cimd.member_iff hnodup).mp hreads.redirects) (by decide)
  have htext : Json.size (.obj obj) ≤ octets t := Json.spells_size ht
  rw [Json.size] at htext
  rw [Json.size, Json.size, Json.sizeItems_strings, ← hreads.same] at hfit
  rw [Json.length_utf8, String.toList_ofList]
  exact hfit.trans htext

/-- **The text of the binding of an accepted document** is bounded by its body. -/
theorem octets_binding_le (hJson : ReadsJson C) {clientId : String} {body : List UInt8}
    {d : ClientMetadataDocument} (h : Cimd.validateDocument C clientId body = .ok d) (f : Bool) :
    octets (jsonbText (d.securityBinding f).toJson) ≤ 896 + 6 * body.length := by
  obtain ⟨_, _, _, hreads⟩ := Cimd.validateDocument_reads h
  have hbound := octets_toJson_le (b := d.securityBinding f) rfl
  have hsize := document_size hJson h
  have hperm := securityBinding_redirects d f
  have hsum := (hperm.map fun r => octets r.uri.toList).sum_nat
  have hlength := hperm.length_eq
  have hmax : d.redirectUris.length ≤ 16 := hreads.bounded
  rw [List.map_map] at hsum
  rw [List.length_map] at hlength
  have hid : (d.securityBinding f).clientId = d.clientId := rfl
  have hsame : (d.redirectUris.map ((fun r => octets r.uri.toList) ∘ CimdBoundRedirect.of)).sum =
      (d.redirectUris.map fun uri => octets uri.toList).sum := rfl
  rw [hid, hlength, hsum, hsame] at hbound
  omega

/-- **The security binding is a canonical form that survives storage.** The bindings of two
    accepted documents are equal exactly when their clients, their sets of redirect URIs and
    their effective refresh permissions are; name, order and extension members do not matter.
    However a binding is written again, it satisfies the constraint for a row of its client and
    reads back as itself. -/
theorem security_binding_canonical (C : Crates) (hJson : ReadsJson C) :
    (∀ id id' body body' d d', Cimd.validateDocument C id body = .ok d →
      Cimd.validateDocument C id' body' = .ok d' → ∀ f f',
      (d.securityBinding f = d'.securityBinding f' ↔ d.clientId = d'.clientId ∧
        (∀ uri, uri ∈ d.redirectUris ↔ uri ∈ d'.redirectUris) ∧
        (d.refreshAllowed && f) = (d'.refreshAllowed && f'))) ∧
    (∀ id body d, Cimd.validateDocument C id body = .ok d → ∀ f,
      (∀ name uris, uris.Perm d.redirectUris →
        ({ d with clientName := name, redirectUris := uris } :
          ClientMetadataDocument).securityBinding f = d.securityBinding f) ∧
      ∀ body' ms ms' extra, C.members body = some ms → C.members body' = some ms' →
        ms'.Perm (ms ++ extra) → (extra.map (·.1)).Nodup →
        (∀ m ∈ extra, m.1 ∉ ms.map (·.1) ∧ m.1 ∉ Cimd.interpreted) →
        ∃ d', Cimd.validateDocument C id body' = .ok d' ∧
          d'.securityBinding f = d.securityBinding f) ∧
    (∀ id body d, Cimd.validateDocument C id body = .ok d → body.length ≤ 5120 → ∀ f j,
      Json.Same (d.securityBinding f).toJson j →
        bindingShape d.clientId (some j) = true ∧
        CimdSecurityBinding.ofJson j = some (d.securityBinding f)) := by
  refine ⟨fun id id' body body' d d' h h' f f' => ?_, fun id body d h f => ⟨?_, ?_⟩,
    fun id body d h hbody f j hsame => ⟨?_, ofJson_same hsame⟩⟩
  · obtain ⟨_, _, _, hreads⟩ := Cimd.validateDocument_reads h
    obtain ⟨_, _, _, hreads'⟩ := Cimd.validateDocument_reads h'
    exact securityBinding_iff hreads.distinct hreads'.distinct f f'
  · intro name uris hperm
    have hredirects := securityBinding_perm
      (d := { d with clientName := name, redirectUris := uris }) hperm f f
    unfold ClientMetadataDocument.securityBinding at hredirects ⊢
    simp only [CimdSecurityBinding.mk.injEq] at hredirects ⊢
    exact ⟨trivial, trivial, hredirects, trivial⟩
  · intro body' ms ms' extra hms hms' hperm hextra hnew
    have hread := (Cimd.document_reading C id).1 body body' ms ms' extra hms hms' hperm hextra hnew
    exact ⟨d, hread.trans h, rfl⟩
  · have hoctets := octets_binding_le hJson h f
    rw [Json.same_octets hsame] at hoctets
    obtain ⟨items, ms, rfl, hperm, _⟩ := same_binding hsame
    have hmax : octets (jsonbText (.obj ms)) ≤ 49152 := by omega
    have hversion : (d.securityBinding f).version = 1 := rfl
    have hid : (d.securityBinding f).clientId = d.clientId := rfl
    simp only [bindingShape, Json.member_perm hperm, hmax, decide_true, Bool.and_true]
    simp [Json.member, hversion, hid]

end Accepted

namespace Sample

theorem documentCrates_json : ReadsJson documentCrates := by
  intro body ms hms
  have hbody : body = bodyOf ms := of_decide_eq_true (List.find?_some hms :)
  exact ⟨_, hbody, Json.spells_jsonbText (.obj ms)⟩

/-- The binding of the document, as a map orders its members: by their names. -/
def storedBinding : Json :=
  .obj [("client_id", .str appId),
    ("redirects", .arr [.obj [("kind", .str "exact"), ("uri", .str appCallback)]]),
    ("refresh_allowed", .bool false), ("version", .num 1)]

end Sample

/-- A stored binding, measured and read back. -/
theorem security_binding_canonical_stored :
    bindingShape Sample.appId (some Sample.storedBinding) = true ∧
      CimdSecurityBinding.ofJson Sample.storedBinding =
        some ⟨1, Sample.appId, [⟨Sample.appCallback, .exact⟩], false⟩ := by
  have hread : Cimd.validateDocument Sample.documentCrates Sample.appId
      (Sample.bodyOf Sample.appMembers) =
        .ok ⟨Sample.appId, "App", [Sample.appCallback], false⟩ := by
    decide +kernel
  have hlength : (Sample.bodyOf Sample.appMembers).length ≤ 5120 := by decide +kernel
  have hbinding : ClientMetadataDocument.securityBinding
      ⟨Sample.appId, "App", [Sample.appCallback], false⟩ false =
      ⟨1, Sample.appId, [⟨Sample.appCallback, .exact⟩], false⟩ := by decide +kernel
  have hsame : Json.Same (ClientMetadataDocument.securityBinding
      ⟨Sample.appId, "App", [Sample.appCallback], false⟩ false).toJson Sample.storedBinding := by
    rw [hbinding]
    have hredirect : Json.Same (CimdBoundRedirect.toJson ⟨Sample.appCallback, .exact⟩)
        (.obj [("kind", .str "exact"), ("uri", .str Sample.appCallback)]) :=
      .obj (.member (.refl _) (.member (.refl _) .none)) (.swap ..)
    exact .obj (.member (.refl _) (.member (.refl _) (.member (.arr (.cons hredirect .nil))
      (.member (.refl _) .none)))) (List.perm_append_singleton ..).symm
  have hall := (security_binding_canonical Sample.documentCrates Sample.documentCrates_json).2.2
    _ _ _ hread hlength false _ hsame
  rwa [hbinding] at hall

end Eri
