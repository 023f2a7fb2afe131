import MpcRegistry.Library.Transition
import MpcRegistry.Library.SuccessorChain
import MpcRegistry.Library.Table
import MpcRegistry.Contracts.AnchorHistory
import MpcRegistry.Contracts.StatusMirror
import MpcRegistry.Worker.ReorgFlag
import MpcRegistry.Worker.RetryBudget
import MpcRegistry.Worker.SpendLock
import MpcRegistry.Worker.SendSettlement
import MpcRegistry.Worker.SafeProposals
import MpcRegistry.Library.Utf16
import MpcRegistry.Library.Json
import MpcRegistry.Canonical.ProofSoundness
import MpcRegistry.Policy.BetterEvidence
import MpcRegistry.Policy.GateDecisions
import MpcRegistry.Cre.ReportEncoding
import MpcRegistry.Library.ReadCommitted
import MpcRegistry.Registry.Projection
import MpcRegistry.Registry.LeafReproduction
import MpcRegistry.Registry.ReportDelivery
import MpcRegistry.Canonical.ProofCompleteness
import MpcRegistry.Outbox.DeadLetters
import MpcRegistry.Disclosure.Blackout
import MpcRegistry.Lifecycle.OfferingActivation
import MpcRegistry.Idempotency.AtMostOnce
import MpcRegistry.Verification.Disputes
import MpcRegistry.Wallets.Bans
import MpcRegistry.Staleness.StaleBasis
import MpcRegistry.Staleness.Signals
import MpcRegistry.Documents.Links
import MpcRegistry.Ledger.Tables
import MpcRegistry.Ledger.Evaluator
import MpcRegistry.Ledger.PublicWarnings
import MpcRegistry.Ledger.Snapshots
import MpcRegistry.Ledger.WarningAgreement
import MpcRegistry.Accounts.Tables
import MpcRegistry.Accounts.Updates
import MpcRegistry.Accounts.Transactions
import MpcRegistry.Accounts.Steps
import MpcRegistry.Canonical.BatchIdentity
import MpcRegistry.Worker.LogSearch
import MpcRegistry.Ledger.StageCoverage
import MpcRegistry.Policy.AssessmentHash
import MpcRegistry.Library.Keyset
import MpcRegistry.Public.Lists
import MpcRegistry.Public.Walks
import MpcRegistry.Library.Ranges
import MpcRegistry.Worker.RedactUrls
import MpcRegistry.Worker.RedactionCover
import MpcRegistry.Library.Occurrences
import MpcRegistry.Migrations.Checksum
import MpcRegistry.Migrations.Agreement
import MpcRegistry.Config.Endpoint
import MpcRegistry.Config.OutboundFilter
import MpcRegistry.Ecma.Trim
import MpcRegistry.Library.Csv
import MpcRegistry.Library.Utf8
import MpcRegistry.Sources.HeaderRecord
import MpcRegistry.Scanner.Framing
import MpcRegistry.Authorization.Decision
import MpcRegistry.Authorization.Scope
import MpcRegistry.Ecma.Date
import MpcRegistry.Exports.Package
import MpcRegistry.Exports.Redaction
import MpcRegistry.Library.Leases
import MpcRegistry.Scanner.Attempts
import MpcRegistry.Scanner.Quarantine
import MpcRegistry.Accounts.Addresses
import MpcRegistry.Accounts.Codes
import MpcRegistry.Accounts.Separation
import MpcRegistry.Accounts.Sessions
import MpcRegistry.Accounts.Suspension
