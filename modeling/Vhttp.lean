import Vhttp.Balancer.RoundRobin
import Vhttp.BufferPool
import Vhttp.Cache.Run
import Vhttp.Connect.Capsule
import Vhttp.Fastcgi.Params
import Vhttp.Fastcgi.Truncation
import Vhttp.Http1Client.ChunkedBody
import Vhttp.Http1Client.Reuse
import Vhttp.Http1Server.Pipeline
import Vhttp.Http2.Casper
import Vhttp.Http2.Fragments
import Vhttp.Http2.HeaderFraming
import Vhttp.Http2.Lifecycle.Closing
import Vhttp.Http2.Lifecycle.Counters
import Vhttp.Http2.Lifecycle.Wakeup
import Vhttp.Http2.Lifecycle.Window
import Vhttp.Http2.Scheduler.Run
import Vhttp.Http2Client.BodyLength
import Vhttp.Http2Client.Callbacks
import Vhttp.Http2Client.HeadFields
import Vhttp.Http2Client.Window
import Vhttp.Http3Client.Terminal
import Vhttp.Http3Server.Blocked
import Vhttp.Http3Server.BodyLimit
import Vhttp.Httpclient.ConnPool
import Vhttp.Httpclient.ProtocolSelector
import Vhttp.Logconf.Escaping
import Vhttp.Multithread
import Vhttp.Qpack.HeaderTable
import Vhttp.Qpack.InsertCount
import Vhttp.Socketpool.Ledger
import Vhttp.Throttle.Progress
import Vhttp.Timerwheel.WakeAt
import Vhttp.Url.Hostport
import Vhttp.Url.Routing
