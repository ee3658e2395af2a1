import SamuraiFormal.Crypto.MerkleRetained
import SamuraiFormal.Crypto.MerkleSafety
import SamuraiFormal.Http.ResponseBounds
import SamuraiFormal.Net.Socks5Targets
import SamuraiFormal.Net.SocketRoute
import SamuraiFormal.Net.SocketRegistry
import SamuraiFormal.Dns.PoolDelivery
import SamuraiFormal.Http.ResponseChunks
import SamuraiFormal.Http.ClientRedirects
import SamuraiFormal.Http.ClientTls
import SamuraiFormal.Xml.Bounds
import SamuraiFormal.Xml.AttributeValues
import SamuraiFormal.Upnp.Soap
import SamuraiFormal.Io.BufferRuns
import SamuraiFormal.Io.BufferSearch
import SamuraiFormal.Timers.Deadlines
import SamuraiFormal.Timers.Resets
import SamuraiFormal.Net.UrlAuthority
import SamuraiFormal.Http.ClientRequest
import SamuraiFormal.Crypto.TigerDigest
import SamuraiFormal.Util.RateEstimator
import SamuraiFormal.Net.Socks5Pump
