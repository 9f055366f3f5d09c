import ScrapeRelay.Config.Equality
import ScrapeRelay.Config.Validation
import ScrapeRelay.Duration.Notation
import ScrapeRelay.Latch
import ScrapeRelay.Proofs.Config.RoundTrip
import ScrapeRelay.Proofs.Discovery.Senders
import ScrapeRelay.Proofs.Duration.Shortest
import ScrapeRelay.Proofs.Ledger.History
import ScrapeRelay.Proofs.Ledger.Independence
import ScrapeRelay.Proofs.Ledger.Retention
import ScrapeRelay.Proofs.Lifecycle.Activation
import ScrapeRelay.Proofs.Lifecycle.Reporting
import ScrapeRelay.Proofs.Lifecycle.Shutdown
import ScrapeRelay.Proofs.Lifecycle.Silence
import ScrapeRelay.Proofs.Lifecycle.Stages
import ScrapeRelay.Proofs.Lifecycle.Startup
import ScrapeRelay.Proofs.Scrape.Cycles
import ScrapeRelay.Proofs.Scrape.Installation
import ScrapeRelay.Proofs.Scrape.Reapplication
import ScrapeRelay.Proofs.Scrape.Replacement
import ScrapeRelay.Proofs.Sink.Continuity
import ScrapeRelay.Proofs.Sink.Filtering
import ScrapeRelay.Proofs.Sink.Isolation
import ScrapeRelay.Proofs.Sink.Rollback
import ScrapeRelay.Proofs.Sink.SeriesIdentity
import ScrapeRelay.Proofs.Sink.SharedKeys
import ScrapeRelay.Proofs.Sink.StartTimes
import ScrapeRelay.Proofs.Sink.Sweeps
import ScrapeRelay.Proofs.Target.Attachment
import ScrapeRelay.Proofs.Target.Flattening
import ScrapeRelay.Proofs.Wire.RoundTrip
import ScrapeRelay.Rehearsal.Session
import ScrapeRelay.Rehearsal.Supervisor
import ScrapeRelay.Rehearsal.Transactions
