import AuraEpics.Codec.Framing
import AuraEpics.Codec.FrameRoundTrip
import AuraEpics.Codec.FrameConservation
import AuraEpics.Codec.Registry
import AuraEpics.Session.FlatIndex
import AuraEpics.Session.LayoutSound
import AuraEpics.Session.FastAgree
import AuraEpics.Session.Monitor
import AuraEpics.Session.Fallback
import AuraEpics.Session.Unsubscribe
import AuraEpics.Store.ByteAccounting
import AuraEpics.Store.Conservation
import AuraEpics.Store.JsonAccounting
import AuraEpics.Store.IngestAccounting
import AuraEpics.Store.Outstanding
import AuraEpics.Store.Destructured
import AuraEpics.Store.Section
import AuraEpics.Store.Captures
import AuraEpics.Store.Repeat
import AuraEpics.Store.CopyFormat
import AuraEpics.Ingest.Metrics
import AuraEpics.Ingest.Watch
import AuraEpics.Ingest.Delivery
import AuraEpics.Ingest.Shutdown
import AuraEpics.Runtime.Exclusive
import AuraEpics.Runtime.Tables
import AuraEpics.Runtime.Batch
import AuraEpics.Discover.Reflects
import AuraEpics.Discover.Tracking
import AuraEpics.Discover.Payloads
import AuraEpics.Discover.Sets
import AuraEpics.Discover.Snapshot
import AuraEpics.Main.Convergence
import AuraEpics.Main.Coverage
import AuraEpics.Main.Timeout
import AuraEpics.Main.Outage
import AuraEpics.Main.Metadata
import AuraEpics.Runtime.Search
import AuraEpics.Main.IocChange
import AuraEpics.Main.DropAlert
import AuraEpics.Lib.PgLike
import AuraEpics.Api.Iocs
import AuraEpics.Store.MetadataDao
import AuraEpics.Codec.BitSetCodec
import AuraEpics.Messages.Requests
import AuraEpics.Messages.Status
import AuraEpics.Core.MetadataChange
import AuraEpics.Core.TimeStamp
import AuraEpics.Types.ByDescriptor
import AuraEpics.Codec.PvSequence
import AuraEpics.Lib.CursorProgram
import AuraEpics.Codec.PvMachine
import AuraEpics.Codec.FieldDescProgress
import AuraEpics.Types.WireProgress
import AuraEpics.Lib.Pull
import AuraEpics.Lib.Pending
import AuraEpics.Runtime.Tcp
import AuraEpics.Messages.Replies
import AuraEpics.Runtime.Handshake
import AuraEpics.Session.SearchPvs
import AuraEpics.Session.SearchServer
import AuraEpics.Lib.Interning
import AuraEpics.Store.PvCache
import AuraEpics.Store.Migrations
import AuraEpics.Api.Listing
import AuraEpics.Store.CopyPool
