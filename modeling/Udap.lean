import Udap.AddressPorts
import Udap.Api.Parser
import Udap.Bencode.Accepts
import Udap.Bencode.Complete
import Udap.Bencode.Emits
import Udap.Bencode.Fields
import Udap.Bencode.Keys
import Udap.Bencode.Reads
import Udap.Bencode.Trace
import Udap.Bencode.Window
import Udap.Config
import Udap.Config.Dump
import Udap.Config.Ini
import Udap.ContactCodec
import Udap.ContactFields
import Udap.ContactSignature
import Udap.Dht.Asked
import Udap.Dht.BucketMap
import Udap.Dht.Calls
import Udap.Dht.Checks
import Udap.Dht.Forwarding
import Udap.Dht.Jobs
import Udap.Dht.MessageCodec
import Udap.Dht.Nearest
import Udap.Dht.Quiesce
import Udap.Dht.Relay
import Udap.DictionaryKeys
import Udap.Expiry
import Udap.Hex
import Udap.Iwp.Ciphered
import Udap.Iwp.Closing
import Udap.Iwp.Codel
import Udap.Iwp.Connected
import Udap.Iwp.Datagram
import Udap.Iwp.Endpoint
import Udap.Iwp.Establish
import Udap.Iwp.Forward
import Udap.Iwp.FrameBytes
import Udap.Iwp.Handshake
import Udap.Iwp.Identity
import Udap.Iwp.Intake
import Udap.Iwp.Ledger
import Udap.Iwp.Loss
import Udap.Iwp.Outgoing
import Udap.Iwp.Ownership
import Udap.Iwp.Reassembly
import Udap.Iwp.Recover
import Udap.Iwp.Replay
import Udap.Iwp.SendOrder
import Udap.Iwp.ServerMoves
import Udap.Iwp.SessionStart
import Udap.Iwp.Shape
import Udap.Iwp.Working
import Udap.Lib.Elapsed
import Udap.Lib.Keyed
import Udap.Lib.Multimap
import Udap.Lib.OrderedMap
import Udap.Lib.PriorityQueue
import Udap.Lib.Rose
import Udap.Lib.Run
import Udap.Lib.SomeLess
import Udap.Lib.Tally
import Udap.Lib.Trail
import Udap.LinkCodec
import Udap.LinkParts
import Udap.Logic
import Udap.MessageRoundTrip
import Udap.NodeDb
import Udap.NodeDb.Disk
import Udap.NodeDb.Keyed
import Udap.NodeDb.Store
import Udap.Orderings
import Udap.ParserReuse
import Udap.ParserSteps
import Udap.Path.Build
import Udap.Path.Builder
import Udap.Path.Context
import Udap.Path.Latency
import Udap.Path.Life
import Udap.Path.Network
import Udap.Path.Onion
import Udap.Path.OwnIndex
import Udap.Path.RoundTrip
import Udap.Path.Sealed
import Udap.Path.Transit
import Udap.Path.Wire
import Udap.Router
import Udap.Router.Ledger
import Udap.Router.Outbound
import Udap.Router.Startup
import Udap.Router.Valid
import Udap.ThreadPool
import Udap.Timer
import Udap.Timer.Left
import Udap.Timer.Reclaim
import Udap.Timer.Safety
