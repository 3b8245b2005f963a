import P2Panda.Auth.Group.CycleDetection
import P2Panda.Auth.Group.Discarded
import P2Panda.Auth.Group.Filters
import P2Panda.Auth.Group.Incremental
import P2Panda.Auth.Group.Recreation
import P2Panda.Auth.Group.StrongRemoval
import P2Panda.Auth.Group.WriteAccess
import P2Panda.Core.SignedBytes
import P2Panda.Discovery.PsiHash
import P2Panda.Encryption.MessageScheme.Requests
import P2Panda.Encryption.MessageScheme.Views
import P2Panda.Encryption.OnetimeKeys
import P2Panda.Encryption.PublishedBundles
import P2Panda.Encryption.TwoParty.Reuse
import P2Panda.Net.Addrs
import P2Panda.Net.Backoff
import P2Panda.Net.Codec
import P2Panda.Net.Gossip.Api
import P2Panda.Net.Sync.Blocking
import P2Panda.Net.Sync.Retries
import P2Panda.Net.Sync.Waiting
import P2Panda.Net.UserData
import P2Panda.Node.Authoriser
import P2Panda.Node.Processor.Completion
import P2Panda.Node.Processor.Waiting
import P2Panda.Node.Streams.EphemeralStream
import P2Panda.Node.Streams.Stream
import P2Panda.Spaces.Mirroring
import P2Panda.Spaces.Publication
import P2Panda.Spaces.Registration
import P2Panda.Spaces.Removed
import P2Panda.Stream.Ingest.Eviction
import P2Panda.Stream.Ingest.Failures
import P2Panda.Stream.Ingest.SeqNumLimit
import P2Panda.Stream.Orderer.Completeness
import P2Panda.Stream.Orderer.Survival
import P2Panda.Sync.Completion
import P2Panda.Sync.Liveness
import P2Panda.Sync.Totals
