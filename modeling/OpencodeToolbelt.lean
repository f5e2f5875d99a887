import OpencodeToolbelt.Async.RelyGuarantee
import OpencodeToolbelt.Data.JsMap
import OpencodeToolbelt.AuthCore.TokenRuntime
import OpencodeToolbelt.AuthCore.LockSafety
import OpencodeToolbelt.AuthCore.AcceptedRefresh
import OpencodeToolbelt.TokenStores
import OpencodeToolbelt.AuthCore.Joining
import OpencodeToolbelt.Async.EventSystem
import OpencodeToolbelt.Browser.Isolation
import OpencodeToolbelt.Browser.Results
import OpencodeToolbelt.Browser.Calls
import OpencodeToolbelt.Browser.Correlation
import OpencodeToolbelt.Browser.Opening
import OpencodeToolbelt.ProviderSync.Stopping
import OpencodeToolbelt.AuthCore.TokenFlow
import OpencodeToolbelt.AuthCore.Reset
import OpencodeToolbelt.Telemetry.Recorder
import OpencodeToolbelt.Data.Memo
import OpencodeToolbelt.Telemetry.Counting
import OpencodeToolbelt.Telemetry.Spans
import OpencodeToolbelt.Telemetry.Exporting
import OpencodeToolbelt.RateLimit.Returning
import OpencodeToolbelt.Browser.Shutdown
import OpencodeToolbelt.Extension.SingleLink
import OpencodeToolbelt.Extension.Grouping
import OpencodeToolbelt.ResponsesRepair.Indices
import OpencodeToolbelt.ResponsesRepair.Framing
import OpencodeToolbelt.Lightbridge.Register
import OpencodeToolbelt.CodeIndex.Fresh
import OpencodeToolbelt.AuthCore.Polling
import OpencodeToolbelt.AuthCore.Presenting
import OpencodeToolbelt.Lightbridge.Migrating
import OpencodeToolbelt.Telemetry.Credentials
import OpencodeToolbelt.Devtools.Redirecting
import OpencodeToolbelt.Extension.TearingDown
import OpencodeToolbelt.Fetching.Losing
import OpencodeToolbelt.Fetching.Separating
import OpencodeToolbelt.Fetching.Delays
import OpencodeToolbelt.Fetching.Retrying
import OpencodeToolbelt.Telemetry.Refreshing
import OpencodeToolbelt.Browser.AgentClient
import OpencodeToolbelt.Telemetry.ActiveTime
import OpencodeToolbelt.Telemetry.ChangedLines
import OpencodeToolbelt.Telemetry.Decisions
import OpencodeToolbelt.Telemetry.Forgetting
import OpencodeToolbelt.Browser.Backstop
import OpencodeToolbelt.RateLimit.Selecting
import OpencodeToolbelt.CodeIndex.Radius
import OpencodeToolbelt.CodeIndex.Repeating
import OpencodeToolbelt.ModelsInfo.CacheKey
import OpencodeToolbelt.ModelsInfo.RequestHeaders
import OpencodeToolbelt.Browser.Wire
import OpencodeToolbelt.Devtools.Bases
import OpencodeToolbelt.ModelsInfo.Enriching
import OpencodeToolbelt.ResponsesRepair.Repeating
import OpencodeToolbelt.AuthCore.Exposing
import OpencodeToolbelt.Devtools.Identifiers
import OpencodeToolbelt.Extension.FullPage
import OpencodeToolbelt.ProviderSync.Rearming
import OpencodeToolbelt.RepoAuth.Reusing
import OpencodeToolbelt.Extension.Attaching
import OpencodeToolbelt.ProviderSync.Handling
import OpencodeToolbelt.ProviderSync.Building
import OpencodeToolbelt.OAuth2.ConfigHook
import OpencodeToolbelt.OAuth2.Recording
import OpencodeToolbelt.OAuth2.Rebuilding
import OpencodeToolbelt.Data.Base64
import OpencodeToolbelt.Data.Percent
import OpencodeToolbelt.Devtools.Codec
import OpencodeToolbelt.Devtools.Decoding
import OpencodeToolbelt.Devtools.Schema
import OpencodeToolbelt.Devtools.Adapters
import OpencodeToolbelt.AuthCore.Provenance
import OpencodeToolbelt.AuthCore.Tracing
import OpencodeToolbelt.Extension.PageActions
import OpencodeToolbelt.Extension.Referencing
import OpencodeToolbelt.Extension.Concealing
import OpencodeToolbelt.AuthCore.BrowserLogin
import OpencodeToolbelt.AuthCore.LoginAgreement
import OpencodeToolbelt.Async.Transactions
import OpencodeToolbelt.CodeIndex.Sharing
import OpencodeToolbelt.ModelsInfo.Catalogs
import OpencodeToolbelt.ModelsInfo.Freshness
