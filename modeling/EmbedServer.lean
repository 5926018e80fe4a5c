import EmbedServer.Embed.Fused
import EmbedServer.Embed.Maxpool
import EmbedServer.Worker.Refusal
import EmbedServer.Worker.Warmed
import EmbedServer.Worker.Shards
import EmbedServer.Worker.Shrink
import EmbedServer.Trt.StalePlans
import EmbedServer.Trt.FastPath
import EmbedServer.Trt.RateLimit
import EmbedServer.Trt.WriteProbe
import EmbedServer.Trt.LoopHistory
import EmbedServer.Startup.HalfOpen
import EmbedServer.Startup.Requests
import EmbedServer.Startup.Settles
import EmbedServer.WarmupOnly
import EmbedServer.Startup.Environment
import EmbedServer.Sysinfo
import EmbedServer.WarmupShapes
import EmbedServer.Settings
import EmbedServer.Probe.LeastSquares
import EmbedServer.Probe.Saves
import EmbedServer.Probe.Synthesis
import EmbedServer.Probe.Submissions
import EmbedServer.Pool.Resolve
import EmbedServer.Health
import EmbedServer.Pool.Replies
import EmbedServer.Pool.Hauls
import EmbedServer.Pool.Custody
import EmbedServer.Pool.Progress
import EmbedServer.Pool.Rest
import EmbedServer.Pool.Fifo
import EmbedServer.Pool.Callers
import EmbedServer.Pool.Propagation
import EmbedServer.Embed.OnePerText
import EmbedServer.Http.Api
import EmbedServer.Http.Service
import EmbedServer.Http.Calls
import EmbedServer.Http.Served
import EmbedServer.Pool.Median
import EmbedServer.Pool.Refusals
