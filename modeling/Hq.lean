import Hq.AuthorityParts
import Hq.AgentRunnable
import Hq.PathPolicy
import Hq.ProjectFork
import Hq.CommandStages
import Hq.Outbox
import Hq.SagaStore
import Hq.Envelope
import Hq.Pairing
import Hq.RelayPages
import Hq.ConversationPages
import Hq.FrameStream
import Hq.ProviderStream
import Hq.WorkerLease
import Hq.RetryableClient
import Hq.ActivityRetention
import Hq.Frontiers
import Hq.GraphOrders
import Hq.CancellationJobs
