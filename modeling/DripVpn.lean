import DripVpn.Foundations.Fallible
import DripVpn.Foundations.ListMap
import DripVpn.Foundations.Machine
import DripVpn.Foundations.Simulation
import DripVpn.Foundations.LinkedMap
import DripVpn.Foundations.Calls
import DripVpn.Foundations.SortedList
import DripVpn.Foundations.Text
import DripVpn.Foundations.Bytes
import DripVpn.Foundations.Utf8
import DripVpn.Foundations.Path
import DripVpn.Foundations.Base64
import DripVpn.Foundations.Uri
import DripVpn.Foundations.ServerUri
import DripVpn.Foundations.Matching
import DripVpn.Foundations.AsyncIo
import DripVpn.Foundations.PollIo
import DripVpn.Foundations.Exchange
import DripVpn.Foundations.Confluence
import DripVpn.Foundations.Duet
import DripVpn.Net.DefaultNetworkListener
import DripVpn.Net.NetworkCallback
import DripVpn.Net.Subnet
import DripVpn.Net.SubnetBytes
import DripVpn.Acl.Acl
import DripVpn.Acl.RoundTrip
import DripVpn.Acl.FailedLoad
import DripVpn.Acl.Flatten
import DripVpn.Acl.AccessControl
import DripVpn.Acl.SubDomainsTree
import DripVpn.Acl.Rewrite
import DripVpn.Db.Profile
import DripVpn.Db.ProfileManager
import DripVpn.Plugin.PluginOptions
import DripVpn.Plugin.PluginConfiguration
import DripVpn.Plugin.NormalForm
import DripVpn.Plugin.CutOff
import DripVpn.Plugin.Commandline
import DripVpn.Plugin.PluginManager
import DripVpn.Db.Dao
import DripVpn.Db.JsonParser
import DripVpn.Db.Import
import DripVpn.Sub.SubService
import DripVpn.Sub.Sync
import DripVpn.Sub.Frame
import DripVpn.Background.TrafficMonitor
import DripVpn.Background.TrafficAccounting
import DripVpn.Background.TrafficRestart
import DripVpn.Background.DirectBoot
import DripVpn.Db.Writers
import DripVpn.Ui.Event
import DripVpn.Ui.EventChannel
import DripVpn.Ui.HomeScreen
import DripVpn.Background.LocalDnsWorker
import DripVpn.Background.ProxyInstance
import DripVpn.Background.GuardedProcessPool
import DripVpn.Background.BaseService
import DripVpn.Background.Lifecycle
import DripVpn.Background.NetworkKeys
import DripVpn.Background.LastCommand
import DripVpn.Background.BandwidthLoop
import DripVpn.Db.KeyValuePair
import DripVpn.Db.PrivateStore
import DripVpn.Db.Export
import DripVpn.Db.Link
import DripVpn.Db.LinkFormats
import DripVpn.Db.LinkRoundTrip
import DripVpn.Db.JsonRoundTrip
import DripVpn.Db.ParseJson
import DripVpn.Db.CreateFromJson
import DripVpn.Db.SharedFallbacks
import DripVpn.Ui.MainActivity
import DripVpn.Engine.PacketWindow
import DripVpn.Engine.Socks5
import DripVpn.Engine.Copy
import DripVpn.Engine.Aead
import DripVpn.Engine.AeadReader
import DripVpn.Engine.AeadWriter
import DripVpn.Engine.AeadFormat
import DripVpn.Engine.ProxyStream
import DripVpn.Engine.TcpTunnel
import DripVpn.Engine.UdpAssociation
import DripVpn.Engine.Socks5Server
import DripVpn.Tun2socks.BSocksClient
import DripVpn.Tun2socks.SocksHandshake
import DripVpn.Tun2socks.TcpClient
import DripVpn.Tun2socks.TcpTeardown
import DripVpn.Tun2socks.TcpRelay
import DripVpn.Tun2socks.TcpCallbacks
import DripVpn.Tun2socks.TcpClientRuns
import DripVpn.Tun2socks.ChunkBuffer2
import DripVpn.Tun2socks.PacketLayout
import DripVpn.Tun2socks.PacketBuffer
import DripVpn.Tun2socks.PacketProtoDecoder
import DripVpn.Tun2socks.PacketProtoFlow
