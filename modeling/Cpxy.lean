import Cpxy.Base.Talk
import Cpxy.Client.Api
import Cpxy.Client.Association
import Cpxy.Client.ConfigFile
import Cpxy.Client.Broadcast
import Cpxy.Client.Controller
import Cpxy.Client.Diverting
import Cpxy.Client.Firewall
import Cpxy.Client.Program
import Cpxy.Client.Reload
import Cpxy.Client.Serve
import Cpxy.Client.Upstreams
import Cpxy.FireTcp.Handshake
import Cpxy.FireTcp.ReadRun
import Cpxy.Handshake.Dialogue
import Cpxy.Http.Chunked
import Cpxy.Http.ProxyUrl
import Cpxy.Io.ByteQueue
import Cpxy.Io.Duplex
import Cpxy.Io.UdpSink
import Cpxy.Net.UdpPacket
import Cpxy.Rules.Engine
import Cpxy.Rules.GeoIp
import Cpxy.Rules.HostHeader
import Cpxy.Rules.Inert
import Cpxy.Rules.RuleArgs
import Cpxy.Rules.RuleText
import Cpxy.TcpMan.Channel
import Cpxy.TcpMan.CheckRequest
import Cpxy.TcpMan.Request
import Cpxy.TcpMan.Rewind
import Cpxy.TcpMan.Session
import Cpxy.TcpMan.UdpStream
import Cpxy.TcpMan.Vectored
import Cpxy.Transparent.OrigDst
import Cpxy.Transparent.Session
import Cpxy.Transparent.Table
import Cpxy.UdpMan.Proto
import Cpxy.UdpMan.Server
import Cpxy.UdpMan.Tunnel
import Cpxy.Http.Fetch
import Cpxy.Net.AddressText
import Cpxy.Rules.RuleLists
import Cpxy.Rules.DnsExpiry
import Cpxy.Rules.ServerName
import Cpxy.Client.Chained
