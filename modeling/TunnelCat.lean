import TunnelCat.Lib.Trace
import TunnelCat.Lib.Bytes
import TunnelCat.Lib.Format
import TunnelCat.Lib.Bits
import TunnelCat.Lib.Keyed
import TunnelCat.Lib.Outcome
import TunnelCat.Lib.Selection
import TunnelCat.Lib.Expiry
import TunnelCat.Lib.BufPool
import TunnelCat.Lib.Disk
import TunnelCat.Lib.FileName
import TunnelCat.Lib.Json
import TunnelCat.Lib.Text
import TunnelCat.Lib.JsonValue
import TunnelCat.Lib.HostPort
import TunnelCat.Lib.Blocks
import TunnelCat.Lib.GoInt
import TunnelCat.Lib.AddrText
import TunnelCat.Lib.IPText
import TunnelCat.Lib.ByteText
import TunnelCat.Lib.Reader
import TunnelCat.Lib.Fifo
import TunnelCat.Lib.Tiling
import TunnelCat.Lib.WeightedChoice
import TunnelCat.Lib.Filing
import TunnelCat.Lib.Pending
import TunnelCat.Lib.Duplex
import TunnelCat.Lib.PushPull
import TunnelCat.Tunnel.Aead
import TunnelCat.Tunnel.Frame
import TunnelCat.Tunnel.Login
import TunnelCat.Tunnel.ReAuth
import TunnelCat.Tunnel.Recovery
import TunnelCat.Tunnel.Tokens
import TunnelCat.Tunnel.AuthReplies
import TunnelCat.Tunnel.DialWindow
import TunnelCat.Tunnel.Batch
import TunnelCat.Tunnel.FramedReader
import TunnelCat.Tunnel.Pool
import TunnelCat.Tunnel.Watchdog
import TunnelCat.Dht.Id
import TunnelCat.Dht.RoutingTable
import TunnelCat.Dht.Closest
import TunnelCat.Dht.Wire
import TunnelCat.Dht.Datagram
import TunnelCat.Dht.HolePunch
import TunnelCat.Dht.RelayStore
import TunnelCat.Dht.Node
import TunnelCat.Dht.NodeRuns
import TunnelCat.Dht.Suspects
import TunnelCat.Dht.Suspicion
import TunnelCat.Dht.Addressable
import TunnelCat.Dht.RelayRuns
import TunnelCat.Dht.Replies
import TunnelCat.Discovery.Discoverer
import TunnelCat.Discovery.Rollback
import TunnelCat.Discovery.Advisory
import TunnelCat.Discovery.CachedKey
import TunnelCat.Session.Conn
import TunnelCat.Session.Polling
import TunnelCat.Session.Streaming
import TunnelCat.Session.Pipeline
import TunnelCat.Session.Retries
import TunnelCat.Session.Charges
import TunnelCat.Relay.Frame
import TunnelCat.Relay.Conn
import TunnelCat.Relay.Steps
import TunnelCat.Relay.Routing
import TunnelCat.Relay.Forwarding
import TunnelCat.Relay.Keepalive
import TunnelCat.Relay.Codec
import TunnelCat.Assoc.Header
import TunnelCat.Assoc.Session
import TunnelCat.Assoc.Steps
import TunnelCat.Assoc.ClientAddr
import TunnelCat.Assoc.Draining
import TunnelCat.Assoc.Queues
import TunnelCat.Assoc.Breaker
import TunnelCat.Assoc.Fallback
import TunnelCat.Assoc.Codec
import TunnelCat.Router.Paths
import TunnelCat.Router.BestPaths
import TunnelCat.Router.Controls
import TunnelCat.Router.Relays
import TunnelCat.Router.Probing
import TunnelCat.Router.Degradation
import TunnelCat.Router.Cursor
import TunnelCat.Router.Switching
import TunnelCat.Router.UdpPeers
import TunnelCat.Router.DataDead
import TunnelCat.Router.Normalise
import TunnelCat.Cidr.CIDRSet
import TunnelCat.Socks.Request
import TunnelCat.Bypass.DnsCache
import TunnelCat.Bypass.Manager
import TunnelCat.Bypass.Refresh
import TunnelCat.Identity.NodeID
import TunnelCat.Identity.Payload
import TunnelCat.ParaExit.Stream
import TunnelCat.ParaExit.Refresh
import TunnelCat.Mirror.Manager
import TunnelCat.Mirror.Completeness
import TunnelCat.Mirror.Ledger
import TunnelCat.Mirror.Gossip
import TunnelCat.Mirror.Confinement
import TunnelCat.Mirror.Serving
import TunnelCat.Mirror.Orphans
import TunnelCat.Mirror.Layout
import TunnelCat.Log.RingBuffer
import TunnelCat.Log.RotatingWriter
import TunnelCat.Log.SizeCap
import TunnelCat.Wire.Decoders
import TunnelCat.Mirror.Transport
import TunnelCat.Mirror.Correlation
import TunnelCat.Dht.Restart
import TunnelCat.Mirror.Peers
import TunnelCat.Mirror.Network
import TunnelCat.Socks.Server
