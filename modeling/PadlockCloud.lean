import PadlockCloud.Process.Interleaving
import PadlockCloud.Process.Faults
import PadlockCloud.Go.UrlParse
import PadlockCloud.Model.Standard
import PadlockCloud.Properties.StoreWrite
import PadlockCloud.Properties.LostUpdate
import PadlockCloud.Request.Tokens
import PadlockCloud.Request.Acceptance
import PadlockCloud.Request.Credentials
import PadlockCloud.Request.Effect
import PadlockCloud.Request.Runs
import PadlockCloud.Request.Secrets
import PadlockCloud.Request.Sound
import PadlockCloud.Request.Origin
import PadlockCloud.Properties.Authentication
import PadlockCloud.Properties.Activation
import PadlockCloud.Properties.Refusal
import PadlockCloud.Properties.Retry
import PadlockCloud.Properties.CsrfProtection
import PadlockCloud.Properties.Logout
import PadlockCloud.Properties.Isolation
import PadlockCloud.Properties.AccountDeletion
import PadlockCloud.Properties.Provenance
import PadlockCloud.Properties.LiveTokens
import PadlockCloud.Properties.OnePerDevice
import PadlockCloud.Properties.Redirect
import PadlockCloud.Properties.StandIn
import PadlockCloud.Properties.Revocation
import PadlockCloud.Properties.StoreRegister
import PadlockCloud.Properties.Consumption
import PadlockCloud.Properties.CredentialRoundTrip
import PadlockCloud.Properties.RequestKeys
import PadlockCloud.Properties.ConstantKeys
import PadlockCloud.Properties.Cleanup
import PadlockCloud.Properties.MailBudgets
import PadlockCloud.Properties.RouteLimits
import PadlockCloud.Properties.Deprecation
import PadlockCloud.Properties.Pairing
import PadlockCloud.Properties.MailHeaders
import PadlockCloud.Properties.Mutexes
import PadlockCloud.Properties.SerialOrder
import PadlockCloud.Properties.Lifetimes
import PadlockCloud.Properties.Concealment
import PadlockCloud.Properties.MailPace
import PadlockCloud.Properties.Whitelisting
import PadlockCloud.Properties.Replies
import PadlockCloud.Properties.Confidentiality
import PadlockCloud.Properties.Durability
