/-
  File:      Eri/Cimd.lean
  Subject:   Client metadata documents, their leases and their security binding (src/cimd.rs).

  A grant of a dynamic client stores the binding of the document it was made under as
  `jsonb`. The column is modelled by the JSON value it denotes: `toJson` is what `serde_json`
  writes for a binding, `ofJson` what it reads from the text of a stored value.

  * `ofJson_toJson`: a stored binding reads back as the binding that was stored.
-/
import Eri.Base
import Mathlib.Data.String.Basic

namespace Eri

/-! ## 1. JSON values -/

inductive Json where
  | null
  | bool (b : Bool)
  | num (n : Int)
  | str (s : String)
  | arr (items : List Json)
  | obj (members : List (String × Json))

namespace Json

/-- The value of a member that occurs exactly once. -/
def member (members : List (String × Json)) (name : String) : Option Json :=
  match members.filter (·.1 = name) with
  | [m] => some m.2
  | _ => none

/-- `#[serde(deny_unknown_fields)]`: every member is one of the named fields. -/
def onlyFields (members : List (String × Json)) (fields : List String) : Bool :=
  members.all fun m => fields.contains m.1

end Json

/-! ## 2. Documents and leases -/

/-- A validated metadata document. -/
structure ClientMetadataDocument where
  clientId : String
  clientName : String
  redirectUris : List String
  refreshAllowed : Bool
  deriving DecidableEq

/-- A document and the moment its operation lease ends. -/
structure LeasedClientMetadata where
  document : ClientMetadataDocument
  validUntil : Instant
  deriving DecidableEq

def LeasedClientMetadata.isFresh (m : LeasedClientMetadata) (now : Instant) : Bool :=
  decide (now < m.validUntil)

/-! ## 3. The security binding -/

inductive CimdRedirectKind where
  | exact
  | nativeLoopback
  deriving DecidableEq

structure CimdBoundRedirect where
  uri : String
  kind : CimdRedirectKind
  deriving DecidableEq

/-- The durable security identity of a document; cosmetic fields are left out. -/
structure CimdSecurityBinding where
  version : UInt8
  clientId : String
  redirects : List CimdBoundRedirect
  refreshAllowed : Bool
  deriving DecidableEq

/-- The redirect kind a metadata document's URI stands for. -/
def CimdRedirectKind.of (uri : String) : CimdRedirectKind :=
  if "http://".isPrefixOf uri then .nativeLoopback else .exact

def ClientMetadataDocument.securityBinding (d : ClientMetadataDocument)
    (serverAllowsRefresh : Bool) : CimdSecurityBinding :=
  let redirects := d.redirectUris.map fun uri => ⟨uri, .of uri⟩
  { version := 1
    clientId := d.clientId
    redirects := redirects.mergeSort fun a b => decide (a.uri ≤ b.uri)
    refreshAllowed := d.refreshAllowed && serverAllowsRefresh }

/-! ## 4. Storage -/

def CimdRedirectKind.toJson : CimdRedirectKind → Json
  | .exact => .str "exact"
  | .nativeLoopback => .str "native_loopback"

def CimdRedirectKind.ofJson : Json → Option CimdRedirectKind
  | .str s =>
      if s = "exact" then some .exact
      else if s = "native_loopback" then some .nativeLoopback
      else none
  | _ => none

def CimdBoundRedirect.toJson (r : CimdBoundRedirect) : Json :=
  .obj [("uri", .str r.uri), ("kind", r.kind.toJson)]

def CimdBoundRedirect.ofJson : Json → Option CimdBoundRedirect
  | .obj ms =>
      if Json.onlyFields ms ["uri", "kind"] then
        match Json.member ms "uri", (Json.member ms "kind").bind CimdRedirectKind.ofJson with
        | some (.str uri), some kind => some ⟨uri, kind⟩
        | _, _ => none
      else none
  | _ => none

def CimdSecurityBinding.toJson (b : CimdSecurityBinding) : Json :=
  .obj [("version", .num b.version.toNat), ("client_id", .str b.clientId),
    ("redirects", .arr (b.redirects.map CimdBoundRedirect.toJson)),
    ("refresh_allowed", .bool b.refreshAllowed)]

def CimdSecurityBinding.ofJson : Json → Option CimdSecurityBinding
  | .obj ms =>
      if Json.onlyFields ms ["version", "client_id", "redirects", "refresh_allowed"] then
        match Json.member ms "version", Json.member ms "client_id",
            Json.member ms "redirects", Json.member ms "refresh_allowed" with
        | some (.num version), some (.str clientId), some (.arr redirects),
            some (.bool refreshAllowed) =>
            if 0 ≤ version ∧ version < 256 then
              (redirects.mapM CimdBoundRedirect.ofJson).map fun redirects =>
                ⟨.ofNat version.toNat, clientId, redirects, refreshAllowed⟩
            else none
        | _, _, _, _ => none
      else none
  | _ => none

theorem CimdRedirectKind.ofJson_toJson (k : CimdRedirectKind) :
    CimdRedirectKind.ofJson k.toJson = some k := by
  cases k <;> simp [CimdRedirectKind.toJson, CimdRedirectKind.ofJson]

theorem CimdBoundRedirect.ofJson_toJson (r : CimdBoundRedirect) :
    CimdBoundRedirect.ofJson r.toJson = some r := by
  simp [CimdBoundRedirect.toJson, CimdBoundRedirect.ofJson, Json.onlyFields, Json.member,
    CimdRedirectKind.ofJson_toJson]

theorem mapM_ofJson_toJson (rs : List CimdBoundRedirect) :
    rs.mapM (CimdBoundRedirect.ofJson ∘ CimdBoundRedirect.toJson) = some rs := by
  induction rs with
  | nil => rfl
  | cons r rs ih =>
    rw [List.mapM_cons, ih, Function.comp_apply, CimdBoundRedirect.ofJson_toJson]
    rfl

/-- **A stored binding reads back as the binding that was stored.** -/
theorem CimdSecurityBinding.ofJson_toJson (b : CimdSecurityBinding) :
    CimdSecurityBinding.ofJson b.toJson = some b := by
  have hv : (b.version.toNat : Int) < 256 := by
    have := b.version.toNat_lt
    omega
  simp [CimdSecurityBinding.toJson, CimdSecurityBinding.ofJson, Json.onlyFields, Json.member,
    mapM_ofJson_toJson, hv]

end Eri
