import LabourBaba.Store.Calls
import LabourBaba.Market.Cancellation
import LabourBaba.Market.Staffing
import LabourBaba.Market.Progress
import LabourBaba.Market.WaveTimeouts
import LabourBaba.Market.Engagements
import LabourBaba.Market.AuditTrail
import LabourBaba.Market.OtpLockout
import LabourBaba.Market.WaveOrder
import LabourBaba.Payments.Transitions
import LabourBaba.Payments.Refunds
import LabourBaba.Payments.Captures
import LabourBaba.Auth.OtpChallenges
import LabourBaba.Auth.Revocations
import LabourBaba.Auth.Suspension
import LabourBaba.Auth.ForgedTokens
import LabourBaba.Outbox.Fencing
import LabourBaba.Payments.Deliveries
import LabourBaba.Payments.Completion
import LabourBaba.RateLimit.Windows
import LabourBaba.Policies.Reading
import LabourBaba.Storage.SignedUrls
import LabourBaba.Storage.Documents
import LabourBaba.Outbox.Shutdown
import LabourBaba.Payments.OrderOffers
import LabourBaba.Payments.OrderClaims
import LabourBaba.Payments.StalePayments
import LabourBaba.Market.Confirmations
import LabourBaba.Payments.RefundFailures
import LabourBaba.Payments.RefundReports
import LabourBaba.Market.WaveSearch
import LabourBaba.Market.AcceptResponses
import LabourBaba.Market.CandidatePages
import LabourBaba.Market.Declines
import LabourBaba.Market.OpenOffers
import LabourBaba.Market.Reconciliation
import LabourBaba.Outbox.Retention
import LabourBaba.Outbox.Notifications
import LabourBaba.Outbox.PushMessages
import LabourBaba.Audit.Metadata
import LabourBaba.Skills.Resolution
import LabourBaba.Recovery.RestoreTarget
import LabourBaba.Logging.Redaction
import LabourBaba.Devices.Conformance
import LabourBaba.Devices.Deliveries
import LabourBaba.Devices.Revocations
import LabourBaba.Locations.Retention
import LabourBaba.RateLimit.Middlewares
import LabourBaba.RateLimit.Requests
import LabourBaba.Sockets.Conformance
import LabourBaba.Sockets.Deliveries
import LabourBaba.Sockets.Suspension
