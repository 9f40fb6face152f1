import Rnotify.Library.System
import Rnotify.Library.CData
import Rnotify.Library.Memory
import Rnotify.Library.Records
import Rnotify.Library.ConsistentHash
import Rnotify.Event
import Rnotify.Wire
import Rnotify.Tables
import Rnotify.Registrar.Core
import Rnotify.Framing
import Rnotify.Library.Loops
import Rnotify.Library.Places
import Rnotify.Registrar.Selection
import Rnotify.Registrar.Directory
import Rnotify.Registrar.Service
import Rnotify.Registrar.Replies
import Rnotify.Registrar.Discipline
import Rnotify.Registrar.Safety
import Rnotify.Dispatcher.Core
import Rnotify.Dispatcher.Updater
import Rnotify.Dispatcher.Threads
import Rnotify.Dispatcher.Lookups
import Rnotify.Dispatcher.Locking
import Rnotify.Routing
import Rnotify.Cluster.Model
import Rnotify.Cluster.Agreement
import Rnotify.Cluster.Coverage
import Rnotify.Client.Core
import Rnotify.Client.Table
import Rnotify.Client.Application
import Rnotify.Client.Listen
import Rnotify.Client.Delivery
import Rnotify.Flow.Model
import Rnotify.Flow.Conservation
import Rnotify.Flow.Parsing
import Rnotify.Flow.Reading
import Rnotify.Acknowledgement
import Rnotify.Subscription.Completion
import Rnotify.Builders.Overflow
import Rnotify.Exchange.Lockstep
import Rnotify.Exchange.Progress
import Rnotify.Flow.Drain
import Rnotify.Journey.Accounts
import Rnotify.Journey.Delivery
import Rnotify.Library.Heap
import Rnotify.Ownership.Helper
import Rnotify.Ownership.Leaks
import Rnotify.Ownership.Client
import Rnotify.Ownership.Dispatcher
import Rnotify.Ownership.Startup
