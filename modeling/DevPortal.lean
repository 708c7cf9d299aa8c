import DevPortal.Machinery.Table
import DevPortal.Runs.Row
import DevPortal.Runs.Connector
import DevPortal.Runs.Repository
import DevPortal.Runs.Lifecycle
import DevPortal.Runs.Paused
import DevPortal.Runs.Recovery
import DevPortal.Machinery.RelyGuarantee
import DevPortal.Runs.Sessions
import DevPortal.Runs.Commits
import DevPortal.Runs.Programs
import DevPortal.Runs.Fencing
import DevPortal.Config.Crypto
import DevPortal.Imports.Validation
import DevPortal.Machinery.Savepoint
import DevPortal.Imports.Records
import DevPortal.Imports.Repository
import DevPortal.Imports.Runtime
import DevPortal.Imports.Isolation
import DevPortal.Imports.Reconciliation
import DevPortal.Scope.Sessions
import DevPortal.Scope.Agreement
import DevPortal.Access.Inbox
import DevPortal.Adapters.Refresh
import DevPortal.Adapters.Truncation
import DevPortal.Config.Sealing
import DevPortal.Config.AtRest
import DevPortal.Config.Redaction
import DevPortal.Config.Operations
import DevPortal.Config.LostUpdates
import DevPortal.Config.OAuthState
import DevPortal.Config.Rotation
import DevPortal.Config.Scheduler
import DevPortal.Config.Starvation
import DevPortal.Auth.SessionCap
import DevPortal.Auth.Throttle
import DevPortal.Auth.BruteForce
import DevPortal.Auth.Identities
import DevPortal.Auth.IdentitySafety
import DevPortal.Access.Dashboard
import DevPortal.Machinery.SearchParams
import DevPortal.Machinery.Double
import DevPortal.Machinery.Script
import DevPortal.Frontend.Routing
import DevPortal.Frontend.ReturnTo
import DevPortal.Frontend.ClientQueries
import DevPortal.Auth.RetryAfter
import DevPortal.Auth.TumblingWindow
import DevPortal.Access.Receipts
import DevPortal.Machinery.Paging
import DevPortal.Access.Attention
import DevPortal.Access.Pagination
import DevPortal.Access.Requests
import DevPortal.Imports.Accounting
import DevPortal.Adapters.Confinement
import DevPortal.Adapters.Fields
import DevPortal.Adapters.WorkItems
import DevPortal.Adapters.Normalize
import DevPortal.Imports.Decode
import DevPortal.Imports.Malformed
import DevPortal.Frontend.RoundTrip
import DevPortal.Auth.EntraRedirect
import DevPortal.Auth.JitUsername
import DevPortal.Imports.ExternalIds
import DevPortal.Auth.JwksCache
import DevPortal.Machinery.Cascade
import DevPortal.Catalog.Schema
import DevPortal.Catalog.Maintainers
import DevPortal.Auth.UserCreation
import DevPortal.Auth.CreationRaces
import DevPortal.Config.Validation
import DevPortal.Config.Durations
import DevPortal.Config.Settings
import DevPortal.Config.DateRange
import DevPortal.Access.Facets
import DevPortal.Auth.IdToken
import DevPortal.Auth.OidcLogin
import DevPortal.Auth.OidcOneShot
import DevPortal.Machinery.FixedWidth
import DevPortal.Config.Backoff
import DevPortal.Config.RetryLimit
import DevPortal.Config.PercentDecoding
import DevPortal.Machinery.Groups
import DevPortal.Adapters.Slugs
import DevPortal.Machinery.JsonText
import DevPortal.Config.Snapshots
import DevPortal.Machinery.Like
import DevPortal.Access.Search
import DevPortal.Machinery.UrlText
import DevPortal.Adapters.UrlParams
import DevPortal.Machinery.Base64Url
import DevPortal.Config.OAuthAnswers
import DevPortal.Config.Retention
import DevPortal.Config.Cleanups
import DevPortal.Machinery.JsonNumber
import DevPortal.Frontend.ConnectorConfig
import DevPortal.Frontend.EditorAgreement
import DevPortal.Machinery.Autocommit
import DevPortal.Catalog.Tables
import DevPortal.Catalog.Deletion
import DevPortal.Auth.RequestGuard
import DevPortal.Catalog.Routes
import DevPortal.Catalog.Rules
import DevPortal.Catalog.Authority
import DevPortal.Catalog.Outsiders
import DevPortal.Auth.Revocation
import DevPortal.Frontend.CatalogOffers
import DevPortal.Frontend.AsyncData
import DevPortal.Catalog.InboxRequests
import DevPortal.Catalog.InboxPrivacy
import DevPortal.Frontend.SessionTabs
import DevPortal.Runs.WorkerLoop
import DevPortal.Frontend.SignInReturn
