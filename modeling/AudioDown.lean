import AudioDown.Content.Paging
import AudioDown.Core.BuildLogs
import AudioDown.Core.Committed
import AudioDown.Core.Installing
import AudioDown.Core.Locks
import AudioDown.Core.Provenance
import AudioDown.Core.Residue
import AudioDown.Core.Undisturbed
import AudioDown.Core.Uninstall
import AudioDown.Gateway.Tokens
import AudioDown.KeyStore.CrashSafe
import AudioDown.Package.Retained
import AudioDown.Proxy.Address
import AudioDown.Proxy.Policy
import AudioDown.Sdk.Server
import AudioDown.Supervisor.AbortLaw
import AudioDown.Supervisor.Archive
import AudioDown.Supervisor.Authenticator
import AudioDown.Supervisor.FinalizeLaw
import AudioDown.Supervisor.Guard
import AudioDown.Supervisor.ResourceLaw
import AudioDown.Vault.ActiveGrant
import AudioDown.Vault.Consistent
import AudioDown.Vault.Storable
