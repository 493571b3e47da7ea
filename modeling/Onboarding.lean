import Onboarding.Text.Utf8
import Onboarding.Text.Hex
import Onboarding.Text.Split
import Onboarding.Text.Lowercase
import Onboarding.Text.Quoted
import Onboarding.Amount
import Onboarding.Timestamp
import Onboarding.Owner
import Onboarding.Bech32
import Onboarding.Schema.Binary
import Onboarding.Schema.Json
import Onboarding.Registration
import Onboarding.Referral
import Onboarding.Settings
import Onboarding.Mail.Message
import Onboarding.Store.Table
import Onboarding.Store.Indexed
import Onboarding.Store.Transaction
import Onboarding.Store.Call
import Onboarding.Randomness
import Onboarding.Chain
import Onboarding.Service.Enrollment
import Onboarding.Service.Confirmation
import Onboarding.Service.Payout
import Onboarding.Service.Faucet
import Onboarding.Service.Report
import Onboarding.Email
import Onboarding.Text.Decimal
import Onboarding.Metrics
import Onboarding.Http.Server
import Onboarding.Log.Format
import Onboarding.Mail.Queue
import Onboarding.Mail.Delivery
import Onboarding.Broadcaster
import Onboarding.Shutdown
import Onboarding.Main
import Onboarding.Daemon.Startup
import Onboarding.Proofs.Service.Wallets
import Onboarding.Proofs.Service.Rewards
import Onboarding.Proofs.Service.Settlement
import Onboarding.Proofs.Http.Conservation
import Onboarding.Proofs.Service.Agreement
import Onboarding.Proofs.Service.Grants
import Onboarding.Proofs.Service.Recognition
import Onboarding.Proofs.Store.Denylist
import Onboarding.Proofs.Store.Alike
import Onboarding.Proofs.Service.Lockstep.Steps
import Onboarding.Proofs.Service.Lockstep.Bodies
import Onboarding.Proofs.Service.Lockstep.Calls
import Onboarding.Proofs.Http.Refinement
import Onboarding.Proofs.Schema.Canonical
import Onboarding.Proofs.Service.Constancy
import Onboarding.Proofs.Service.Schedule
import Onboarding.Proofs.Bech32.Burst
import Onboarding.Proofs.Service.Failure
import Onboarding.Proofs.Service.Race
import Onboarding.Proofs.Service.Handoff
import Onboarding.Proofs.Store.Calls
import Onboarding.Proofs.Store.Codes
import Onboarding.Proofs.Store.Bindings
import Onboarding.Proofs.Service.Throttle
import Onboarding.Proofs.Service.Progress
import Onboarding.Proofs.Daemon.Startup
import Onboarding.Proofs.Service.Provenance
import Onboarding.Proofs.Store.Atomicity
import Onboarding.Proofs.Http.Refusal
import Onboarding.Proofs.Store.Lookup
import Onboarding.Proofs.Service.Installation
import Onboarding.Proofs.Http.UnknownCode
import Onboarding.Proofs.Tiers
import Onboarding.Proofs.Http.Spelling
import Onboarding.Proofs.Statistics
import Onboarding.Proofs.Service.Scope
import Onboarding.Proofs.Service.Commuting
import Onboarding.Proofs.Mail.Rendering
import Onboarding.Proofs.Mail.Dispatcher
import Onboarding.Proofs.Http.Separation
import Onboarding.Proofs.Daemon.Config
