import Eri.Keeps.Browser
import Eri.Specs.Browser
import Eri.Specs.Credentials
import Eri.Specs.Web
import Eri.Changes
import Eri.Refresh
import Eri.Codes
import Eri.Revocation
import Eri.Atomicity
import Eri.Transactions
import Eri.Grants
import Eri.Bindings
import Eri.Lifetimes
import Eri.Leases
import Eri.Projection
import Eri.Identity
import Eri.Deadlocks
import Eri.Documents
import Eri.Fetcher
import Eri.Publication
import Eri.Freshness
import Eri.Sql.Server
import Eri.Http
import Eri.CacheControl
import Eri.Destinations
import Eri.GoogleClaims
import Eri.Challenges
import Eri.Cookies
import Eri.Forms
import Eri.Pages
import Eri.Consent
import Eri.Prompts
import Eri.Returns
import Eri.Web
import Eri.Redirects
import Eri.Policy
import Eri.Json
import Eri.Metadata
import Eri.Canonical
import Eri.Config
import Eri.Usable
import Eri.LogoutModes
import Eri.TokenRequests
import Eri.Jwt
import Eri.Keys
import Eri.Tokens
import Eri.Google
import Eri.Browsing
import Eri.Escapes
import Eri.Bearer
import Eri.TokenEndpoint
import Eri.Scopes
import Eri.Sql.Parts
import Eri.LogoutEndpoint
import Eri.ApiEndpoints
import Eri.Application
import Eri.Flow
import Eri.LogoutRuns
import Eri.Causes
import Eri.Provenance
import Eri.ApiRuns
import Eri.Adapter
import Eri.Sql.Environment
import Eri.Logins
