import Pylyskom.Aio.Agreement
import Pylyskom.Aio.RawReplies
import Pylyskom.Aio.OwnReplies
import Pylyskom.Aio.EarlyReplies
import Pylyskom.Aio.DeadReceiver
import Pylyskom.Aio.Invalidation
import Pylyskom.Unread.Counting
import Pylyskom.Session.UserAreaBlocks
import Pylyskom.Connection.Matching
import Pylyskom.Connection.Recovery
import Pylyskom.RequestClasses
import Pylyskom.RequestStream
import Pylyskom.Client
import Pylyskom.Client.Nested
import Pylyskom.Client.NestedReplies
import Pylyskom.CachedConnection
import Pylyskom.CachedConnection.Invalidation
import Pylyskom.PersonClient
import Pylyskom.PersonClient.Owner
import Pylyskom.PersonClient.Fresh
import Pylyskom.PersonClient.Positions
import Pylyskom.PersonSession
import Pylyskom.Coroutine.TaskPool
import Pylyskom.PersonClient.Concurrent
import Pylyskom.PersonSession.Paging
import Pylyskom.UserArea.Termination
import Pylyskom.Mime.Printed
import Pylyskom.MiscInfo.Grammar
import Pylyskom.KomText.Created
import Pylyskom.PersonClient.HandlerTables
import Pylyskom.CachedConnection.ServerTexts
import Pylyskom.CachedConnection.TextStats
import Pylyskom.Coroutine.Parts
import Pylyskom.Session.Calls
import Pylyskom.Session.Operations
import Pylyskom.Coroutine.Relaying
import Pylyskom.Session.Uncached
import Pylyskom.Session.References
import Pylyskom.Session.OwnWrites
import Pylyskom.Session.Connect
import Pylyskom.Session.Relaying
import Pylyskom.Session.LostConnection
import Pylyskom.RequestClasses.Constructors
import Pylyskom.RequestClasses.Init
import Pylyskom.RequestClasses.Serialized
import Pylyskom.KomText.ContentType
import Pylyskom.Protocol.Integers
import Pylyskom.UserArea.Agreement
import Pylyskom.Datatypes.Equality
import Pylyskom.Datatypes.IntArrays
import Pylyskom.PersonClient.Reordering
import Pylyskom.Aio.RawOutcomes
import Pylyskom.Collections.Restart
import Pylyskom.Metrics
import Pylyskom.ReadRanges.Partition
import Pylyskom.CaseInsensitive
import Pylyskom.Unread.Renderings
import Pylyskom.Calendar
import Pylyskom.Datatypes.Time
import Pylyskom.Collections.Best
import Pylyskom.Mime.BestMatch
import Pylyskom.Aio.RequestLines
import Pylyskom.Coroutine.Triples
import Pylyskom.Session.UnreadTexts
import Pylyskom.Session.ReadMarks
import Pylyskom.Client.RemoteCalls
import Pylyskom.Coroutine.Serving
import Pylyskom.Client.Methods
import Pylyskom.Session.Coding
import Pylyskom.Session.RemoteReading
import Pylyskom.Linearization
import Pylyskom.Aio.RemoteTasks
import Pylyskom.Coroutine.Sessions
import Pylyskom.Session.UserAreas
import Pylyskom.Session.RemoteUserAreas
import Pylyskom.Session.Names
import Pylyskom.Session.RemoteNames
import Pylyskom.Session.Numbers
import Pylyskom.Session.Refinement
