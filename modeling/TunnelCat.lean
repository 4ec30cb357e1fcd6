import TunnelCat.Accounting
import TunnelCat.Accounts
import TunnelCat.AndroidIpc
import TunnelCat.Bootstrap
import TunnelCat.Cidr
import TunnelCat.ClientHello
import TunnelCat.ClubDiscovery
import TunnelCat.ClubNumbers
import TunnelCat.ConnStats
import TunnelCat.ContentChunks
import TunnelCat.ControlLogins
import TunnelCat.DatagramCodec
import TunnelCat.DialerPool
import TunnelCat.Discovery
import TunnelCat.ExitConns
import TunnelCat.ExitRegions
import TunnelCat.Gossip
import TunnelCat.HolePunch
import TunnelCat.KeyLogin
import TunnelCat.LogCursor
import TunnelCat.LogEviction
import TunnelCat.LogTool
import TunnelCat.LogUploadLoop
import TunnelCat.NetworkTotal
import TunnelCat.NodeAdmin
import TunnelCat.PeerDials
import TunnelCat.Pipeline
import TunnelCat.QuicDemux
import TunnelCat.Reflector
import TunnelCat.RouterPaths
import TunnelCat.SncuCodec
import TunnelCat.SncuPolls
import TunnelCat.StatsReports
import TunnelCat.StreamReader
import TunnelCat.TieredLimiter
import TunnelCat.Topup
import TunnelCat.Torrent
import TunnelCat.UdpPins
import TunnelCat.UnreachableEvents
import TunnelCat.UpdateCache
import TunnelCat.Updater
import TunnelCat.VerdictOrder
import TunnelCat.WatchdogOrder
