import Skynet.Handle.Launch
import Skynet.Server.Scheduler
import Skynet.Timer.Fifo
import Skynet.Socket.WriteOrder
import Skynet.Sproto.ZeroPack
import Skynet.Sproto.Truncated
import Skynet.Seri.RoundTrip
import Skynet.Seri.Nested
import Skynet.Cluster.Reassembly
import Skynet.Harbor.Framing
import Skynet.Harbor.Order
import Skynet.Harbor.Down
import Skynet.Msgserver.Connections
import Skynet.Lualib.Resumption
import Skynet.Lualib.CriticalSection
import Skynet.Lualib.Forks
import Skynet.Gate.Sync
import Skynet.Multicast.Agreement
import Skynet.SocketBuffer.Refinement
import Skynet.Gateserver.Dispatch
import Skynet.Socketchannel.Separation
import Skynet.Crypt.DiffieHellman
import Skynet.Socket.WriteEvent
import Skynet.Socket.WbSize
import Skynet.Socket.Datagrams
import Skynet.Socket.OwnEvents
import Skynet.ServiceMgr.Unique
import Skynet.ServiceMgr.Global
import Skynet.Master.Agreement
import Skynet.Stm.Lifetime
import Skynet.Multicast.Ownership
import Skynet.LuaBson.RoundTrip
import Skynet.Mq.Fifo
import Skynet.Handle.Reserved
import Skynet.Send.Payload
import Skynet.Harbor.Received
import Skynet.Sproto.PackSize
import Skynet.LuaBson.Detection
import Skynet.Cluster.Proxy
import Skynet.Mongo.Reply
import Skynet.Sharedatad.Update
import Skynet.Socketchannel.Padding
import Skynet.Crypt.Hex
import Skynet.Dns.Lookups
import Skynet.Dns.Names
import Skynet.Utils.Lists
import Skynet.Utils.Strings
import Skynet.Rwlock
