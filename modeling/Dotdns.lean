import Dotdns.Lib.AssocMap
import Dotdns.Lib.Dedup
import Dotdns.Lib.Except
import Dotdns.Lib.Frame
import Dotdns.Lib.IpText
import Dotdns.Lib.Lru
import Dotdns.Lib.Run
import Dotdns.Lib.Text
import Dotdns.Lib.Turns
import Dotdns.Dns
import Dotdns.Config
import Dotdns.Validate
import Dotdns.Validate.Hosts
import Dotdns.Metrics
import Dotdns.Observability
import Dotdns.Observability.Clients
import Dotdns.Observability.Connections
import Dotdns.Stats
import Dotdns.Cache.Basic
import Dotdns.Cache.TimedMap
import Dotdns.Cache.Capacity
import Dotdns.Cache.Lifetime
import Dotdns.Blocklist.Parse
import Dotdns.Blocklist.Lines
import Dotdns.Blocklist.Engine
import Dotdns.Blocklist.Reload
import Dotdns.Blocklist.Refresh
import Dotdns.Blocklist.RefreshAlone
import Dotdns.Blocklist.RefreshInvariant
import Dotdns.Blocklist.RefreshRun
import Dotdns.Blocklist.NameMatch
import Dotdns.Upstream.Error
import Dotdns.Upstream.Plain
import Dotdns.Upstream.Dot
import Dotdns.Upstream.DotInvariant
import Dotdns.Upstream.Bootstrap
import Dotdns.Upstream.Pool
import Dotdns.Upstream.Health
import Dotdns.Upstream.Accounting
import Dotdns.Upstream.RoundRobin
import Dotdns.Upstream.Endpoints
import Dotdns.Upstream.Timeouts
import Dotdns.Upstream.Snapshots
import Dotdns.Upstream.Build
import Dotdns.Server.Pending
import Dotdns.Server.Gauges
import Dotdns.Server.Response
import Dotdns.Server.Blocked
import Dotdns.Server.Ecs
import Dotdns.Server.Resolve
import Dotdns.Server.Origins
import Dotdns.Server.Answers
import Dotdns.Server.Counters
import Dotdns.Process
import Dotdns.Listeners
import Dotdns.Accept
import Dotdns.Server.Framing
import Dotdns.Server.Connection
import Dotdns.Lib.LineStream
import Dotdns.Management
import Dotdns.Management.Connections
import Dotdns.Management.Client
import Dotdns.Serve
import Dotdns.Serve.Failures
import Dotdns.Serve.Rest
import Dotdns.Stats.Restart
import Dotdns.Clients
import Dotdns.Clients.Methods
import Dotdns.EndToEnd
import Dotdns.EndToEnd.Answers
import Dotdns.EndToEnd.Rest
