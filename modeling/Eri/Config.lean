/-
  File:      Eri/Config.lean
  Subject:   The parts of the configuration that say what may be granted, and under which issuer
             (src/config.rs).

  * `CimdPolicyConfig` -- what a client may get that is known by a metadata document only;
  * `validateIssuer` -- the checks `Config::validate` makes of the issuer.
-/
import Eri.Registry

namespace Eri

/-- `ConfigError`, as far as the checks here return one. -/
inductive ConfigError where
  | invalid (message : String)
  deriving DecidableEq

inductive Mode where
  | development
  | production
  deriving DecidableEq

/-! ## 1. The policy for metadata clients -/

structure CimdPolicyConfig where
  scopes : List String
  resources : List String
  allowRefresh : Bool

variable (P : Platform)

def CimdPolicyConfig.validate (c : CimdPolicyConfig) : Except ConfigError Unit :=
  let refused := ConfigError.invalid "CIMD policy is invalid"
  if c.scopes = [] ∨ c.scopes.length > 64 ∨ c.resources = [] ∨ c.resources.length > 32 ∨
      c.scopes.toFinset.card ≠ c.scopes.length ∨ c.resources.toFinset.card ≠ c.resources.length ∨
      ¬c.scopes.any (· != "offline_access") then .error refused
  else do
    let redirect ← (RegisteredRedirect.new P "https://policy.example.org/callback" .exact).mapError
      fun _ => refused
    ((FirstPartyClient.new P "cimd-policy" "CIMD policy" [redirect] c.scopes.toFinset
      c.resources.toFinset none ∅ ∅).map fun _ => ()).mapError fun _ => refused

/-! ## 2. The issuer -/

/-- `is_loopback_url`. -/
def isLoopbackUrl (url : Url) : Bool :=
  match url.host with
  | some (.ipv4 bits) => bits.toNat / 2 ^ 24 == 127
  | some (.ipv6 bits) => bits == 1#128
  | _ => false

/-- The checks of `Config::validate` on the issuer. -/
def validateIssuer (mode : Mode) (issuer : Url) : Except ConfigError Unit :=
  if issuer.cannotBeABase ∨ issuer.host.isNone then
    .error (.invalid "issuer must be an absolute URL")
  else if ¬issuer.username.isEmpty ∨ issuer.password.isSome ∨ issuer.query.isSome ∨
      issuer.fragment.isSome then
    .error (.invalid "issuer cannot contain credentials, query, or fragment")
  else if issuer.path ≠ "/" then .error (.invalid "issuer path is not supported")
  else
    match mode with
    | .production =>
        if issuer.scheme ≠ "https" then .error (.invalid "production issuer must use HTTPS")
        else .ok ()
    | .development =>
        if issuer.scheme = "http" ∧ ¬isLoopbackUrl issuer then
          .error (.invalid "development HTTP issuer must use a loopback IP")
        else if issuer.scheme ∉ ["http", "https"] then
          .error (.invalid "issuer must use HTTP or HTTPS")
        else .ok ()

end Eri
