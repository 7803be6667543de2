import Interocitor.Merge.Retry
import Interocitor.Merge.Resurrection
import Interocitor.Mailbox.Bootstrap
import Interocitor.Mailbox.LocalRecords
import Interocitor.Mailbox.Listing
import Interocitor.Mailbox.Race
import Interocitor.Receipts.Ledger
import Interocitor.Receipts.Soundness
import Interocitor.Outbox.Delivery
import Interocitor.Outbox.Batches
import Interocitor.Clock.Committed
import Interocitor.Clock.Snapshots
import Interocitor.Merge.CustomPuts
import Interocitor.Worker.Grants
import Interocitor.Worker.Coherence
import Interocitor.Handshake.Pairing
import Interocitor.Adapters.Listings
import Interocitor.Worker.Middleware
import Interocitor.Native.ManifestText
import Interocitor.Native.Agreement
import Interocitor.Native.Compaction
import Interocitor.Web.Marker
import Interocitor.Web.PassphraseKeys
import Interocitor.Native.Rehydration
import Interocitor.Native.Stores
import Interocitor.Clock.Forward
import Interocitor.Native.Listeners
import Interocitor.Worker.Metrics
import Interocitor.Merge.ChangeEffects
import Interocitor.Handshake.Invitations
import Interocitor.Native.RecoveryWrappers
import Interocitor.Relay.Delivery
import Interocitor.Files.Answers
import Interocitor.Queries.LiveQueries
