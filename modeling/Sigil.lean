import Sigil.Theorems.Tracker
import Sigil.Theorems.SpendingCap
import Sigil.Theorems.Timelock
import Sigil.Theorems.Escrow
import Sigil.Theorems.Session
import Sigil.Theorems.SessionCharge
import Sigil.Theorems.Fees
import Sigil.Theorems.Washing
import Sigil.Theorems.Scan
import Sigil.Theorems.Policy
import Sigil.Theorems.Version
import Sigil.Theorems.Constraints
import Sigil.Theorems.Slots
import Sigil.Theorems.AgentLimit
import Sigil.Theorems.KillSwitch
import Sigil.Theorems.Destinations
import Sigil.Theorems.Attribution
import Sigil.Theorems.Sizes
import Sigil.Theorems.Incarnations
import Sigil.Theorems.Counters
import Sigil.Theorems.Setup
import Sigil.Theorems.DeltaAssertions
import Sigil.Theorems.PostAssertions
import Sigil.Theorems.Builders
import Sigil.Theorems.Readings
import Sigil.Theorems.Replay
import Sigil.Theorems.CumulativeCap
import Sigil.Theorems.Inscribe
import Sigil.Theorems.Dashboard
import Sigil.Theorems.AttestationCache
import Sigil.Theorems.Turnkey
import Sigil.Theorems.ShieldSync
import Sigil.Theorems.CreateVault
import Sigil.Theorems.AgentCap
import Sigil.Theorems.SealScan
import Sigil.Theorems.SealAccounts
import Sigil.Theorems.Jupiter
import Sigil.Theorems.AssertionGrammar
import Sigil.Theorems.PostAssertionValidation
import Sigil.Theorems.ZeroCopy
import Sigil.Theorems.Finalize
import Sigil.Theorems.ProtocolCap
import Sigil.Theorems.Lifetime
import Sigil.Theorems.CloseVault
import Sigil.Theorems.AuditTrail
import Sigil.Theorems.CapHeadroom
import Sigil.Theorems.SpendLimits
import Sigil.Theorems.PaymentLimits
import Sigil.Theorems.PaymentKeys
import Sigil.Theorems.BatchSigning
import Sigil.Theorems.Extraction
import Sigil.Theorems.CoreEngine
import Sigil.Theorems.Drain
import Sigil.Theorems.WindowQueries
import Sigil.Theorems.VelocityTracker
import Sigil.Theorems.Signatures
import Sigil.Theorems.ConstraintSummaries
import Sigil.Theorems.Hooks
import Sigil.Theorems.BalanceSnapshots
import Sigil.Theorems.VaultDiscovery
import Sigil.Theorems.SpendingVelocity
import Sigil.Theorems.SessionAnalytics
import Sigil.Theorems.EventLogs
import Sigil.Theorems.NetworkErrors
import Sigil.Theorems.Governance
import Sigil.Theorems.Supply
import Sigil.Theorems.ByteStore
import Sigil.Theorems.TransactionExecutor
