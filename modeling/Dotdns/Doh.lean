import Dotdns.Lib.Base64
import Dotdns.Lib.LineStream
import Dotdns.Upstream.Error

/-!
# DoH — the handlers

`router`, `dns_query_post` and `dns_query_get`, up to the call of
`doh_resolve` and from its return on. What the extractors make of a request,
its query string and its body, is part of the request here.

A GET carries in its `dns` parameter, in base64 for URLs, what a POST has
for a body. The decoder knows one spelling of each body, so a query can be
turned from one method into the other and back (`route_asPost`,
`route_asGet`).
-/

namespace Dotdns

open Lib

/-- An HTTP status. -/
abbrev StatusCode := UInt16

namespace StatusCode

def ok : StatusCode := 200
def badRequest : StatusCode := 400
def notFound : StatusCode := 404
def methodNotAllowed : StatusCode := 405
def unsupportedMediaType : StatusCode := 415
def internalServerError : StatusCode := 500

end StatusCode

/-- The methods that `router` tells apart. -/
inductive HttpMethod where
  | get
  | head
  | post
  | other
  deriving DecidableEq, Repr

/-- `DnsQueryParams`: the query string of a GET. -/
structure DnsQueryParams where
  dns : Str
  deriving DecidableEq, Repr

/-- A response as the handlers build it. -/
structure DohResponse where
  status : StatusCode
  contentType : Option Str
  body : List UInt8
  deriving DecidableEq, Repr

/-- A handler's `Err(status)`. -/
def DohResponse.rejected (status : StatusCode) : DohResponse := ⟨status, none, []⟩

/-- A request as the handlers see it. An extractor that fails answers the
request itself, with a text of the library's. -/
structure DohRequest where
  method : HttpMethod
  path : Str
  /-- Names in lower case, as the HTTP library keeps them. -/
  headers : List (Str × List UInt8)
  /-- The `Query` extractor's. -/
  params : Except DohResponse DnsQueryParams
  /-- The `Bytes` extractor's. -/
  body : Except DohResponse (List UInt8)

/-! ## Before the await -/

/-- `HeaderValue::to_str`. -/
def headerText (value : List UInt8) : Option Str :=
  if value.all fun b => b = 9 ∨ 32 ≤ b ∧ b < 127
  then some (value.map fun b => Char.ofNat b.toNat)
  else none

/-- `header::CONTENT_TYPE`. -/
def contentTypeHeader : Str := "content-type".toList

/-- The one content type that is accepted and sent. -/
def dnsMessageType : Str := "application/dns-message".toList

/-- The first such header, if it is text. -/
def DohRequest.contentType (req : DohRequest) : Option Str :=
  (req.headers.lookup contentTypeHeader).bind headerText

/-- The symbols of base64 for URLs, by value. -/
def urlSafeSymbols : Str :=
  "ABCDEFGHIJKLMNOPQRSTUVWXYZabcdefghijklmnopqrstuvwxyz0123456789-_".toList

theorem length_urlSafeSymbols : urlSafeSymbols.length = 64 := by decide +kernel

theorem nodup_urlSafeSymbols : urlSafeSymbols.Nodup := by decide +kernel

/-- `URL_SAFE_NO_PAD`. -/
def urlSafeNoPad : Alphabet Char where
  symbol v := urlSafeSymbols.get (v.cast length_urlSafeSymbols.symm)
  injective _ _ h := Fin.cast_injective _ (List.nodup_iff_injective_get.mp nodup_urlSafeSymbols h)

/-- The `dns` parameter in base64, its error a status. -/
def DnsQueryParams.body (params : DnsQueryParams) : Except DohResponse (List UInt8) :=
  match urlSafeNoPad.decode params.dns with
  | some body => .ok body
  | none => .error (.rejected .badRequest)

section
variable (fromBytes : FromBytes)

/-- `Message::from_bytes`, its error a status. -/
def parseQuery (body : List UInt8) : Except DohResponse Message :=
  (fromBytes body).mapError fun _ => .rejected .badRequest

/-- `dns_query_post`: the body is extracted before the handler is called. -/
def dnsQueryPost (req : DohRequest) : Except DohResponse Message := do
  let body ← req.body
  if req.contentType ≠ some dnsMessageType then .error (.rejected .unsupportedMediaType)
  else parseQuery fromBytes body

/-- `dns_query_get`, up to the call of the resolver. -/
def dnsQueryGet (req : DohRequest) : Except DohResponse Message := do
  let params ← req.params
  let body ← params.body
  parseQuery fromBytes body

/-- The one route. -/
def dnsQueryPath : Str := "/dns-query".toList

/-- `router`. The library has a GET handler answer HEAD too. -/
def route (req : DohRequest) : Except DohResponse Message :=
  if req.path = dnsQueryPath then
    match req.method with
    | .post => dnsQueryPost fromBytes req
    | .get | .head => dnsQueryGet fromBytes req
    | .other => .error (.rejected .methodNotAllowed)
  else .error (.rejected .notFound)

end

/-! ## After it -/

/-- The end of both handlers. -/
def respond (toBytes : ToBytes) (answer : Message) : DohResponse :=
  match toBytes answer with
  | .ok bytes => ⟨.ok, some dnsMessageType, bytes⟩
  | .error _ => .rejected .internalServerError

/-- A response to HEAD goes out without its body. -/
def DohResponse.sentTo (req : DohRequest) (resp : DohResponse) : DohResponse :=
  if req.method = .head then { resp with body := [] } else resp

/-! ## What the handlers accept -/

/-- A body has one spelling in a URL. -/
theorem DnsQueryParams.body_eq_ok {params : DnsQueryParams} {body : List UInt8} :
    params.body = .ok body ↔ params.dns = urlSafeNoPad.encode body := by
  unfold DnsQueryParams.body
  constructor
  · intro h
    cases hdecoded : urlSafeNoPad.decode params.dns with
    | none =>
        rw [hdecoded] at h
        cases h
    | some decoded =>
        rw [hdecoded] at h
        cases h
        exact (urlSafeNoPad.encode_of_decode hdecoded).symm
  · intro h
    rw [h, urlSafeNoPad.decode_encode]

section
variable {fromBytes : FromBytes} {req : DohRequest} {query : Message}

theorem dnsQueryPost_of_body {body : List UInt8} (hbody : req.body = .ok body)
    (htype : req.contentType = some dnsMessageType) :
    dnsQueryPost fromBytes req = parseQuery fromBytes body := by
  rw [dnsQueryPost, hbody, htype]
  rfl

theorem dnsQueryGet_of_decode {params : DnsQueryParams} {body : List UInt8}
    (hparams : req.params = .ok params) (hdns : urlSafeNoPad.decode params.dns = some body) :
    dnsQueryGet fromBytes req = parseQuery fromBytes body := by
  have hdecoded : params.body = .ok body := by rw [DnsQueryParams.body, hdns]
  rw [dnsQueryGet, hparams]
  show (params.body >>= parseQuery fromBytes) = _
  rw [hdecoded]
  rfl

end

/-! ## One method for the other -/

namespace DohRequest

/-- The same query as a POST, where the request is a GET that has one. -/
def asPost (req : DohRequest) : DohRequest :=
  match req.method, req.params with
  | .get, .ok params =>
      match urlSafeNoPad.decode params.dns with
      | some body => { req with
          method := .post
          headers := (contentTypeHeader, utf8 dnsMessageType) :: req.headers
          body := .ok body }
      | none => req
  | _, _ => req

/-- The same query as a GET, where the request is a POST that has one. -/
def asGet (req : DohRequest) : DohRequest :=
  match req.method, req.body with
  | .post, .ok body =>
      if req.contentType = some dnsMessageType then { req with
        method := .get
        params := .ok ⟨urlSafeNoPad.encode body⟩ }
      else req
  | _, _ => req

end DohRequest

theorem contentType_dnsMessageType (req : DohRequest) (headers : List (Str × List UInt8))
    (h : req.headers = (contentTypeHeader, utf8 dnsMessageType) :: headers) :
    req.contentType = some dnsMessageType := by
  have htext : headerText (utf8 dnsMessageType) = some dnsMessageType := by decide +kernel
  rw [DohRequest.contentType, h, List.lookup_cons_self]
  exact htext

section
variable {fromBytes : FromBytes}

theorem route_asPost (req : DohRequest) : route fromBytes req.asPost = route fromBytes req := by
  unfold DohRequest.asPost
  split
  · rename_i params hmethod hparams
    split
    · rename_i body hdns
      have hpost : dnsQueryPost fromBytes { req with
          method := .post
          headers := (contentTypeHeader, utf8 dnsMessageType) :: req.headers
          body := .ok body } = parseQuery fromBytes body :=
        dnsQueryPost_of_body rfl (contentType_dnsMessageType _ _ rfl)
      have hget : dnsQueryGet fromBytes req = parseQuery fromBytes body :=
        dnsQueryGet_of_decode hparams hdns
      simp only [route, hmethod, hpost, hget]
    · rfl
  · rfl

theorem route_asGet (req : DohRequest) : route fromBytes req.asGet = route fromBytes req := by
  unfold DohRequest.asGet
  split
  · rename_i body hmethod hbody
    split
    · rename_i htype
      have hpost : dnsQueryPost fromBytes req = parseQuery fromBytes body :=
        dnsQueryPost_of_body hbody htype
      have hget : dnsQueryGet fromBytes { req with
          method := .get
          params := .ok ⟨urlSafeNoPad.encode body⟩ } = parseQuery fromBytes body :=
        dnsQueryGet_of_decode rfl (urlSafeNoPad.decode_encode body)
      simp only [route, hmethod, hpost, hget]
    · rfl
  · rfl

end

end Dotdns
