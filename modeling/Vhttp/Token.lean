import Vhttp.Bytes

/-!
# Tokens

`lib/common/token_table.h`: the header names the server knows. A known name is a pointer into
the table of tokens, so that names are compared by comparing pointers; any other name is a
string.
-/

namespace Vhttp

/-- The tokens, `vhttp_TOKEN_AUTHORITY` and so on. -/
inductive Token where
  | authority | method | path | protocol | scheme | status | accept | acceptCharset
  | acceptEncoding | acceptLanguage | acceptRanges | accessControlAllowCredentials
  | accessControlAllowHeaders | accessControlAllowMethods | accessControlAllowOrigin
  | accessControlExposeHeaders | accessControlRequestHeaders | accessControlRequestMethod | age
  | allow | altSvc | authorization | cacheControl | cacheDigest | connection | contentDisposition
  | contentEncoding | contentLanguage | contentLength | contentLocation | contentRange
  | contentSecurityPolicy | contentType | cookie | datagramFlowId | date | earlyData | etag
  | expect | expectCt | expires | forwarded | fromHeader | host | http2Settings | ifMatch
  | ifModifiedSince | ifNoneMatch | ifRange | ifUnmodifiedSince | keepAlive | lastModified | link
  | location | maxForwards | noEarlyHints | origin | priority | proxyAuthenticate
  | proxyAuthorization | proxyConnection | purpose | range | referer | refresh | retryAfter
  | server | setCookie | strictTransportSecurity | te | timingAllowOrigin | transferEncoding
  | upgrade | upgradeInsecureRequests | userAgent | vary | via | wwwAuthenticate | xCompressHint
  | xContentTypeOptions | xForwardedFor | xFrameOptions | xReproxyUrl | xTraffic | xXssProtection
  deriving DecidableEq

/-- The flags of `vhttp_token_flags_t` that are read below. -/
structure TokenFlags where
  proxyShouldDropForRes : Bool
  isInitHeaderSpecial : Bool
  isHpackSpecial : Bool

namespace Token

/-- The names in `vhttp__tokens`. -/
def name : Token → String
  | authority => ":authority"
  | method => ":method"
  | path => ":path"
  | protocol => ":protocol"
  | scheme => ":scheme"
  | status => ":status"
  | accept => "accept"
  | acceptCharset => "accept-charset"
  | acceptEncoding => "accept-encoding"
  | acceptLanguage => "accept-language"
  | acceptRanges => "accept-ranges"
  | accessControlAllowCredentials => "access-control-allow-credentials"
  | accessControlAllowHeaders => "access-control-allow-headers"
  | accessControlAllowMethods => "access-control-allow-methods"
  | accessControlAllowOrigin => "access-control-allow-origin"
  | accessControlExposeHeaders => "access-control-expose-headers"
  | accessControlRequestHeaders => "access-control-request-headers"
  | accessControlRequestMethod => "access-control-request-method"
  | age => "age"
  | allow => "allow"
  | altSvc => "alt-svc"
  | authorization => "authorization"
  | cacheControl => "cache-control"
  | cacheDigest => "cache-digest"
  | connection => "connection"
  | contentDisposition => "content-disposition"
  | contentEncoding => "content-encoding"
  | contentLanguage => "content-language"
  | contentLength => "content-length"
  | contentLocation => "content-location"
  | contentRange => "content-range"
  | contentSecurityPolicy => "content-security-policy"
  | contentType => "content-type"
  | cookie => "cookie"
  | datagramFlowId => "datagram-flow-id"
  | date => "date"
  | earlyData => "early-data"
  | etag => "etag"
  | expect => "expect"
  | expectCt => "expect-ct"
  | expires => "expires"
  | forwarded => "forwarded"
  | fromHeader => "from"
  | host => "host"
  | http2Settings => "http2-settings"
  | ifMatch => "if-match"
  | ifModifiedSince => "if-modified-since"
  | ifNoneMatch => "if-none-match"
  | ifRange => "if-range"
  | ifUnmodifiedSince => "if-unmodified-since"
  | keepAlive => "keep-alive"
  | lastModified => "last-modified"
  | link => "link"
  | location => "location"
  | maxForwards => "max-forwards"
  | noEarlyHints => "no-early-hints"
  | origin => "origin"
  | priority => "priority"
  | proxyAuthenticate => "proxy-authenticate"
  | proxyAuthorization => "proxy-authorization"
  | proxyConnection => "proxy-connection"
  | purpose => "purpose"
  | range => "range"
  | referer => "referer"
  | refresh => "refresh"
  | retryAfter => "retry-after"
  | server => "server"
  | setCookie => "set-cookie"
  | strictTransportSecurity => "strict-transport-security"
  | te => "te"
  | timingAllowOrigin => "timing-allow-origin"
  | transferEncoding => "transfer-encoding"
  | upgrade => "upgrade"
  | upgradeInsecureRequests => "upgrade-insecure-requests"
  | userAgent => "user-agent"
  | vary => "vary"
  | via => "via"
  | wwwAuthenticate => "www-authenticate"
  | xCompressHint => "x-compress-hint"
  | xContentTypeOptions => "x-content-type-options"
  | xForwardedFor => "x-forwarded-for"
  | xFrameOptions => "x-frame-options"
  | xReproxyUrl => "x-reproxy-url"
  | xTraffic => "x-traffic"
  | xXssProtection => "x-xss-protection"

/-- The text of a token. -/
def text (t : Token) : Bytes := ascii t.name

/-- The flags in `vhttp__tokens`. -/
def flags (t : Token) : TokenFlags where
  proxyShouldDropForRes :=
    t ∈ [connection, datagramFlowId, keepAlive, proxyConnection, transferEncoding, upgrade]
  isInitHeaderSpecial := t ∈ [contentLength, expect, host, transferEncoding, upgrade]
  isHpackSpecial := t ∈ [cacheDigest, connection, contentLength, datagramFlowId, expect, host,
    http2Settings, te, transferEncoding, upgrade]

/-- All tokens, in the order of the table. -/
def all : List Token := (List.range 85).map ofNat

end Token

/-- `vhttp_lookup_token`: the token with this text, if there is one. -/
def lookupToken (name : Bytes) : Option Token := Token.all.find? fun t => t.text == name

/-- A header name: a pointer into the table of tokens, or a string. -/
inductive HeaderName where
  | token (t : Token)
  | text (s : Bytes)
  deriving DecidableEq

namespace HeaderName

/-- The characters of a name. -/
def bytes : HeaderName → Bytes
  | token t => t.text
  | text s => s

/-- A name as `vhttp_lookup_token` leaves it: the token, if the name is known. -/
def intern (s : Bytes) : HeaderName :=
  match lookupToken s with
  | some t => .token t
  | none => .text s

@[simp] lemma bytes_token (t : Token) : (token t).bytes = t.text := rfl

@[simp] lemma bytes_intern (s : Bytes) : (intern s).bytes = s := by
  rw [intern]
  split
  · next t ht =>
    have he := List.find?_some ht
    exact eq_of_beq he
  · rfl

end HeaderName

end Vhttp
