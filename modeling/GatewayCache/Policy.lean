/-
  GatewayCache.Policy

  What may be stored, for how long, and who may be served from the cache: the
  cacheability evaluator, section 4.2 of the specification. `isCacheable` is its
  `is_response_cacheable`, `lifetime` its `cache_ttl`, `requestedLifetime` its
  `request_forced_ttl` and `mayServe` its `can_serve_cached_for_request`; `optsIn`,
  `isConditional` and `wantsRevalidation` are the three questions about requests.

  A response to an authorized request is stored only if its directives allow
  sharing, and a stored response is served to an authorized request under the
  same condition. Both sides ask `CacheControl.allowsShared`.
-/

import GatewayCache.CacheControl
import GatewayCache.Clock
import GatewayCache.Http.Message

namespace GatewayCache.Policy

open GatewayCache.Http

/-! ## What may be stored -/

/-- The statuses of responses worth keeping. -/
def cacheableStatuses : List UInt16 := [200, 203, 301, 308, 404, 410]

/-- Whether a response is a stream of events, which never ends. -/
def isEventStream (f : Fields) : Bool :=
  match f.firstText? FieldName.contentType with
  | none => false
  | some t => "text/event-stream".toList.isPrefixOf (Text.lower (Text.trim t.toList))

/-- Whether a response depends on more than can be told from requests. -/
def variesOnAnything (f : Fields) : Bool :=
  (f.texts FieldName.vary).any fun t =>
    (t.toList.splitOn ',').any fun piece => Text.trim piece == ['*']

/-- Whether a response may be stored as the answer to a request. -/
def isCacheable (request : Request) (response : Response) : Bool :=
  let c := CacheControl.ofFields response.fields
  !c.noStore && !c.isPrivate
    && cacheableStatuses.contains response.status
    && (!request.fields.has FieldName.authorization || c.allowsShared)
    && !isEventStream response.fields
    && !variesOnAnything response.fields

/-! ## For how long -/

/-- How long a response with these fields stays fresh. Without directives of
    its own it stays fresh for the default time. -/
def lifetime (f : Fields) (default : Span) : Span :=
  let c := CacheControl.ofFields f
  if c.noStore then Span.zero
  else
    -- What is said for shared caches counts before what is said for all.
    match c.positiveSharedMaxAge <|> c.positiveMaxAge with
    | some n => Span.ofSeconds n
    | none => if c.isPublic || (!c.isPrivate && !c.noCache) then default else Span.zero

/-- How long the client wants the answer to stay fresh; zero if it does not
    say so. -/
def requestedLifetime (request : Request) : Span :=
  let c := CacheControl.ofFields request.fields
  if c.isPublic then
    Span.ofSeconds ((c.positiveSharedMaxAge <|> c.positiveMaxAge).getD 0)
  else Span.zero

/-! ## Who may be served -/

/-- Whether a request may be answered with a stored response that has these
    fields. -/
def mayServe (request : Request) (stored : Fields) : Bool :=
  !request.fields.has FieldName.authorization || (CacheControl.ofFields stored).allowsShared

/-- Whether the client declares the answer public and gives it a lifetime. -/
def optsIn (request : Request) : Bool :=
  let c := CacheControl.ofFields request.fields
  c.isPublic && (c.positiveMaxAge.isSome || c.positiveSharedMaxAge.isSome)

/-- Whether the client makes its request conditional. -/
def isConditional (request : Request) : Bool :=
  request.fields.has FieldName.ifNoneMatch || request.fields.has FieldName.ifModifiedSince

/-- Whether the client refuses an answer that was not checked anew. -/
def wantsRevalidation (request : Request) : Bool :=
  let c := CacheControl.ofFields request.fields
  c.noCache || c.maxAge == some 0

/-- Whether a cache takes part in the request at all. A request with a body
    has to opt in. -/
def isEligible (request : Request) : Bool :=
  request.method.onlyAsks || (request.method.carriesBody && optsIn request)

end GatewayCache.Policy
