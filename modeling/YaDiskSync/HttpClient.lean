import Mathlib.Data.List.Infix
import YaDiskSync.World

/-! `HttpYandexDiskClient`: its errors, its retry policy, and the loops in which it sends a
request. What the delays between two requests do is left out. -/
namespace YaDiskSync

/-- A `reqwest::Error`, as far as it is looked at. -/
structure TransportError where
  isTimeout : Bool := false
  isConnect : Bool := false
  isRequest : Bool := false
  isBody : Bool := false
  isDecode : Bool := false
  text : Str
  deriving DecidableEq

/-- A response of the service; to read its body may fail. -/
structure HttpResponse where
  status : Nat
  body : Except TransportError Str

namespace HttpResponse

def isSuccess (response : HttpResponse) : Bool :=
  decide (200 ≤ response.status ∧ response.status < 300)

/-- `Response::json`. -/
def json {α : Type} (decode : Str → Except TransportError α) (response : HttpResponse) :
    Except TransportError α :=
  response.body >>= decode

end HttpResponse

/-- An error of the client, with the HTTP status that the engines do not look at. -/
structure HttpError extends YandexDiskError where
  status : Option Nat := none
  deriving DecidableEq

structure ApiErrorPayload where
  error : Option Str
  description : Option Str
  message : Option Str
  deriving DecidableEq

def ApiErrorPayload.bestMessage (payload : ApiErrorPayload) : Option Str :=
  payload.description.or (payload.message.or payload.error)

structure OAuthTokenResponse where
  accessToken : Str
  refreshToken : Option Str
  deriving DecidableEq

structure LinkResponse where
  href : Str
  deriving DecidableEq

/-- What the client leaves to the libraries it uses: the decoding of bodies, and the text of a
status. -/
structure HttpCodec where
  apiError : Str → Except TransportError ApiErrorPayload
  token : Str → Except TransportError OAuthTokenResponse
  link : Str → Except TransportError LinkResponse
  statusText : Nat → Str

def classifyHttpStatus (status : Nat) (apiCode : Option Str) (message : Str) :
    YandexDiskErrorKind :=
  if status = 401 ∨ status = 403 then .authUnavailable
  else if status = 404 then .notFound
  else
    let lowerCode := (apiCode.getD []).map asciiLower
    let lowerMessage := message.map asciiLower
    if status = 507 ∨ "quota".toList <:+: lowerCode ∨ "quota".toList <:+: lowerMessage ∨
        "not enough space".toList <:+: lowerMessage then .quotaExceeded
    else if status = 429 then .rateLimited
    else if 500 ≤ status ∧ status < 600 then .transient
    else .permanent

namespace HttpError

def new (kind : YandexDiskErrorKind) (message : Str) : HttpError := { kind, message }

def isRetryable (error : HttpError) : Bool :=
  match error.kind with
  | .transient | .rateLimited => true
  | _ => false

def fromReqwest (error : TransportError) : HttpError :=
  if error.isTimeout || error.isConnect || error.isRequest || error.isBody || error.isDecode then
    new .transient error.text
  else new .permanent error.text

def fromResponse (codec : HttpCodec) (response : HttpResponse) : HttpError :=
  let payload := (response.json codec.apiError).toOption
  let apiCode := payload.bind ApiErrorPayload.error
  let message := (payload.bind ApiErrorPayload.bestMessage).getD
    ("Yandex Disk API returned HTTP ".toList ++ codec.statusText response.status)
  { kind := classifyHttpStatus response.status apiCode message, message, apiCode
    status := some response.status }

def persistentUploaderConflict (remotePath : Str) : HttpError :=
  { kind := .permanent
    message := "Yandex Disk uploader returned persistent HTTP 409 Conflict for ".toList ++
      remotePath ++ "; exact file content was rejected by the upload endpoint".toList
    apiCode := some "DiskUploaderPersistentConflict".toList
    status := some 409 }

def localUploadSourceUnavailable (path : LocalPath) (error : IoError) : HttpError :=
  { kind := .permanent
    message := "failed to open upload source ".toList ++ displayPath path ++ ": ".toList ++
      error.text
    apiCode := some "LocalUploadSourceUnavailable".toList
    status := some 500 }

end HttpError

/-- A policy makes at least one attempt. -/
structure RetryPolicy where
  attempts : Nat
  attempts_pos : 0 < attempts

namespace RetryPolicy

def new (attempts : Nat) : RetryPolicy := ⟨max attempts 1,by omega⟩

def shouldRetry (policy : RetryPolicy) (error : HttpError) (attempt : Nat) : Bool :=
  error.isRetryable && decide (attempt < policy.attempts)

end RetryPolicy

structure StoredToken where
  accessToken : Str
  refreshToken : Option Str
  deriving DecidableEq

def OAuthTokenResponse.intoStoredToken (response : OAuthTokenResponse) : StoredToken :=
  { accessToken := response.accessToken, refreshToken := response.refreshToken }

structure OAuthFlow where
  clientId : Str
  tokenUrl : Str
  deriving DecidableEq

structure HttpYandexDiskClient where
  accountAlias : Str
  retryPolicy : RetryPolicy
  oauthFlow : Option OAuthFlow
  baseUrl : Str
  codec : HttpCodec

inductive UploadSource
  | bytes (content : Str)
  | file (path : LocalPath)
  deriving DecidableEq

/-- A `GET` of the API. -/
structure ApiRequest where
  url : Str
  authorization : Str
  query : List (Str × Str) := []
  deriving DecidableEq

/-- One step of the client. Requests go out through the client of the API, that of the tokens,
or the plain one of the uploads. -/
inductive HttpEffect
  | loadToken (accountAlias : Str)
  | saveToken (accountAlias : Str) (token : StoredToken)
  | send (request : ApiRequest)
  | postForm (url : Str) (form : List (Str × Str))
  | openFile (path : LocalPath)
  | put (url : Str) (source : UploadSource)
  deriving DecidableEq

@[reducible] def HttpEffect.Answer : HttpEffect → Type
  | .loadToken _ => Except HttpError (Option StoredToken)
  | .saveToken .. => Except HttpError Unit
  | .send _ => Except TransportError HttpResponse
  | .postForm .. => Except TransportError HttpResponse
  | .openFile _ => Except IoError Unit
  | .put .. => Except TransportError HttpResponse

abbrev Http := ExceptT HttpError (Prog HttpEffect HttpEffect.Answer)

namespace HttpYandexDiskClient

def perform (e : HttpEffect) : Http e.Answer := liftM (Prog.perform e)

variable (client : HttpYandexDiskClient)

def notAuthenticated : HttpError :=
  .new .authUnavailable
    ("Yandex Disk account '".toList ++ client.accountAlias ++ "' is not authenticated".toList)

def loadRequiredToken : Http StoredToken := do
  match ← perform (.loadToken client.accountAlias) with
  | .error error => throw error
  | .ok none => throw client.notAuthenticated
  | .ok (some token) => return token

/-- `post_token_form`, on its answer. -/
def tokenOfAnswer : Except TransportError HttpResponse → Except HttpError StoredToken
  | .error error => .error (.fromReqwest error)
  | .ok response =>
    if !response.isSuccess then .error (.fromResponse client.codec response)
    else
      match response.json client.codec.token with
      | .ok payload => .ok payload.intoStoredToken
      | .error error => .error (.fromReqwest error)

def refreshForm (flow : OAuthFlow) (refreshToken : Str) : List (Str × Str) := [
  ("grant_type".toList,"refresh_token".toList),
  ("refresh_token".toList,refreshToken),
  ("client_id".toList,flow.clientId)]

def refreshAccessToken (flow : OAuthFlow) (refreshToken : Str) : Http StoredToken := do
  let answer ← perform (.postForm flow.tokenUrl (refreshForm flow refreshToken))
  MonadExcept.ofExcept (client.tokenOfAnswer answer)

def refreshStoredToken (current : StoredToken) : Http Unit := do
  match client.oauthFlow with
  | none =>
    throw (.new .authUnavailable "cannot refresh token without OAuth flow".toList)
  | some flow =>
    match current.refreshToken with
    | none =>
      throw (.new .authUnavailable "stored token does not contain refresh_token".toList)
    | some refreshToken =>
      let refreshed ← client.refreshAccessToken flow refreshToken
      match ← perform (.saveToken client.accountAlias refreshed) with
      | .error error => throw error
      | .ok () => return ()

def authorization (token : StoredToken) : Str := "OAuth ".toList ++ token.accessToken

/-- The guard of the refresh: a first 401 with the means to refresh. -/
def refreshes (token : StoredToken) (refreshed : Bool) :
    Except TransportError HttpResponse → Bool
  | .ok response =>
    response.status == 401 && !refreshed && token.refreshToken.isSome && client.oauthFlow.isSome
  | .error _ => false

section Loops

variable {α : Type}

/-- What an answer is worth once no refresh is due. -/
def report (accept : HttpResponse → Except HttpError α) :
    Except TransportError HttpResponse → Except HttpError α
  | .ok response =>
    if response.isSuccess then accept response else .error (.fromResponse client.codec response)
  | .error error => .error (.fromReqwest error)

/-- The rounds that are left of a loop over the attempts. -/
def sendFrom (accept : HttpResponse → Except HttpError α) (exhausted : Str)
    (makeRequest : Str → ApiRequest) : Nat → Bool → Http α
  | 0, _ => throw (.new .transient exhausted)
  | remaining+1, refreshed => do
    let token ← client.loadRequiredToken
    let answer ← perform (.send (makeRequest (authorization token)))
    if client.refreshes token refreshed answer then
      client.refreshStoredToken token
      sendFrom accept exhausted makeRequest remaining true
    else
      match client.report accept answer with
      | .ok result => return result
      | .error error =>
        if client.retryPolicy.shouldRetry error (client.retryPolicy.attempts-remaining) then
          sendFrom accept exhausted makeRequest remaining refreshed
        else throw error

/-- The loop that `send_authorized` and `send_authorized_json` share. -/
def sendLoop (accept : HttpResponse → Except HttpError α) (exhausted : Str)
    (makeRequest : Str → ApiRequest) : Http α :=
  client.sendFrom accept exhausted makeRequest client.retryPolicy.attempts false

def sendAuthorized (makeRequest : Str → ApiRequest) : Http HttpResponse :=
  client.sendLoop Except.ok "request retry attempts were exhausted".toList makeRequest

def responseJsonWithContext (decode : Str → Except TransportError α) (context : Str)
    (response : HttpResponse) : Except HttpError α :=
  match response.json decode with
  | .ok payload => .ok payload
  | .error error =>
    let error := HttpError.fromReqwest error
    .error (.new error.kind
      (error.message ++ " while decoding JSON response for ".toList ++ context))

def sendAuthorizedJson (decode : Str → Except TransportError α) (context : Str)
    (makeRequest : Str → ApiRequest) : Http α :=
  client.sendLoop (responseJsonWithContext decode context)
    ("JSON request retry attempts were exhausted: ".toList ++ context) makeRequest

end Loops

section Upload

/-- `upload_request`: only a file has to be opened. -/
def uploadRequest : UploadSource → Http Unit
  | .bytes _ => return ()
  | .file path => do
    match ← perform (.openFile path) with
    | .ok () => return ()
    | .error error => throw (.localUploadSourceUnavailable path error)

/-- The rounds that are left of `send_upload_source`. -/
def sendUploadFrom (uploadUrl : Str) (source : UploadSource) : Nat → Http Unit
  | 0 => throw (.new .transient "upload retry attempts were exhausted".toList)
  | remaining+1 => do
    uploadRequest source
    let answer ← perform (.put uploadUrl source)
    match client.report (fun _ => .ok ()) answer with
    | .ok () => return ()
    | .error error =>
      if client.retryPolicy.shouldRetry error (client.retryPolicy.attempts-remaining) then
        sendUploadFrom uploadUrl source remaining
      else throw error

def sendUploadSource (uploadUrl : Str) (source : UploadSource) : Http Unit :=
  client.sendUploadFrom uploadUrl source client.retryPolicy.attempts

def isRetryableUploadConflict (error : HttpError) : Bool :=
  let code := (error.apiCode.getD []).map asciiLower
  error.status == some 409 && decide (¬ "doesntexist".toList <:+: code) &&
    decide (¬ "notfound".toList <:+: code) &&
    decide (¬ "pathpointstoexistentdirectory".toList <:+: code)

def shouldRetryUploadConflict (error : HttpError) (attempt attempts : Nat) : Bool :=
  decide (attempt < attempts) && isRetryableUploadConflict error

def apiUrl (endpoint : Str) : Str := trimEndMatches slash client.baseUrl ++ endpoint

def uploadLinkRequest (remotePath : Str) (overwrite : Bool) (authorization : Str) : ApiRequest :=
  { url := client.apiUrl "/resources/upload".toList
    authorization
    query := [("path".toList,remotePath),("overwrite".toList,(toString overwrite).toList)] }

def uploadLink (remotePath : Str) (overwrite : Bool) : Http LinkResponse :=
  client.sendAuthorizedJson client.codec.link ("upload link path=".toList ++ remotePath)
    (client.uploadLinkRequest remotePath overwrite)

/-- The rounds that are left of `upload_inner`; a conflict may have gone before. -/
def uploadFrom (remotePath : Str) (source : UploadSource) (overwrite : Bool) :
    Nat → Bool → Http Unit
  | 0, true => throw (.persistentUploaderConflict remotePath)
  | 0, false =>
    throw (.new .transient ("upload retry attempts were exhausted: ".toList ++ remotePath))
  | remaining+1, _ => do
    let link ← client.uploadLink remotePath overwrite
    let attempt := client.retryPolicy.attempts-remaining
    match ← liftM (client.sendUploadSource link.href source).run with
    | .ok () => return ()
    | .error error =>
      if isRetryableUploadConflict error && decide (client.retryPolicy.attempts ≤ attempt) then
        throw (.persistentUploaderConflict remotePath)
      else if shouldRetryUploadConflict error attempt client.retryPolicy.attempts then
        uploadFrom remotePath source overwrite remaining true
      else throw error

def uploadInner (remotePath : Str) (source : UploadSource) (overwrite : Bool) : Http Unit :=
  client.uploadFrom remotePath source overwrite client.retryPolicy.attempts false

end Upload

end HttpYandexDiskClient

end YaDiskSync
