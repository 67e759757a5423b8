import Vetting.Broker.Address
import Vetting.Broker.Server
import Vetting.Config
import Vetting.Database.Table
import Vetting.Http.Router
import Vetting.Memory.World
import Vetting.Worker
import Vetting.Proofs.Fingerprint
import Vetting.Proofs.Json.Codec
import Vetting.Proofs.Task
import Vetting.Proofs.JobTable
import Vetting.Proofs.World
import Vetting.Proofs.Submission
import Vetting.Proofs.Worker
import Vetting.Proofs.Pool
import Vetting.Proofs.Idempotency
import Vetting.Proofs.Opening
import Vetting.Proofs.Abandonment
import Vetting.Proofs.Ledger
import Vetting.Proofs.Conservation
import Vetting.Proofs.Broker.Custody
import Vetting.Proofs.Broker.Tenure
import Vetting.Proofs.Broker.Stranding
import Vetting.Proofs.Broker.Exclusion
import Vetting.Proofs.Broker.Redelivery
import Vetting.Proofs.Broker.Stream
import Vetting.Proofs.Broker.Renewal
import Vetting.Proofs.Cache.Transparency
import Vetting.Proofs.Database.StandIn
import Vetting.Proofs.History
import Vetting.Proofs.Ownership
import Vetting.Proofs.Shape
import Vetting.Proofs.Intrusion
import Vetting.Proofs.Settlement
import Vetting.Proofs.Retry
import Vetting.Proofs.Tenancy.Noninterference
import Vetting.Proofs.Http.Admission
import Vetting.Proofs.Models
import Vetting.Proofs.Payload
import Vetting.Proofs.Attempt
import Vetting.Proofs.Delivery
import Vetting.Proofs.Accounts
import Vetting.Proofs.Checks
import Vetting.Proofs.Symmetry.Indifference
import Vetting.Proofs.Token
import Vetting.Proofs.Http.Disclosure
import Vetting.Proofs.Executor
import Vetting.Proofs.Database.Columns
import Vetting.Proofs.Config
