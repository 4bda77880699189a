/-
  AutoTrader/Broker/KisAuth.lean
  ==============================
  **The credentials of the broker, and the file they are kept in.**

  An attempt takes the issue lock, reads the clock and the cache, and then sends at most
  two requests: one for an access token, one for the approval key of the websocket.  The
  file has four shapes.  It is full after both were answered, it has the token alone after
  the first, and after a refusal (HTTP 403 or 429) it has a time before which nothing is
  requested, with the token if that is still good, or without.

  What a request brings back is arbitrary, and so is the file at the start.
-/
import AutoTrader.Broker.KisErrors
import AutoTrader.Python.Floats
import AutoTrader.Python.IsoRead

namespace AutoTrader.KisAuth

open DateTime (microsPerSecond)

/-! ### Values and times -/

/-- What Python makes of values: `str`, which leaves a text as it is and is empty for no
    value that is true, and `fromisoformat` on the texts that `isoformat` does not write. -/
structure PythonValues where
  json : JsonModule
  str_text : ∀ s, json.str (.text s) = .ok s
  str_ne_empty : ∀ {value : Json}, value.truthy = true → json.str value ≠ .ok ""
  otherFormats : String → Option DateTime

/-- A reading of `datetime.now(timezone.utc)`. -/
structure UtcTime where
  time : DateTime
  utc : time.offset = some 0
  inRange : time.InRange

namespace UtcTime

/-- Microseconds since the epoch. -/
def wall (now : UtcTime) : Int := now.time.wall

end UtcTime

/-- The fields of the cache file; a file that is missing or not a JSON object has none. -/
abbrev Cache := List (String × Json)

/-- `_CREDENTIAL_RATE_LIMIT_COOLDOWN_SECONDS`, and the sixty seconds of `_token_cache_valid`. -/
def credentialRateLimitCooldown : Int := 60 * microsPerSecond

def tokenMargin : Int := 60 * microsPerSecond

variable (python : PythonValues)

/-- `parsed if parsed.tzinfo else parsed.replace(tzinfo=timezone.utc)`. -/
def withZone (parsed : DateTime) : DateTime :=
  match parsed.offset with
  | some _ => parsed
  | none => { parsed with offset := some 0 }

/-- `_parse_expiry`. -/
def parseExpiry (value : Option Json) : Except Exn (Option DateTime) :=
  match value with
  | none => .ok none
  | some value =>
    if value.truthy = false then .ok none
    else
      match python.json.str value with
      | .ok text =>
        .ok ((DateTime.readIso python.otherFormats (Text.replace text "Z" "+00:00")).map withZone)
      | .error (.valueError _) => .ok none
      | .error e => .error e

/-- `int(value)` with a `TypeError` or a `ValueError` caught. -/
def intOrNone : Option Json → Except Exn (Option Int)
  | some (.bool b) => .ok (some (if b then 1 else 0))
  | some (.int n) => .ok (some n)
  | some (.float (.fin q)) => .ok (some (if 0 ≤ q then q.floor else q.ceil))
  | some (.float .nan) => .ok none
  | some (.float _) => .error (.other "OverflowError" "cannot convert float infinity to integer")
  | some (.text s) => .ok (Text.toInt? s)
  | _ => .ok none

/-- `_positive_int`. -/
def positiveInt (value : Option Json) : Except Exn (Option Int) :=
  (intOrNone value).map fun parsed => parsed.filter (0 < ·)

/-- `bool(payload.get(key))`. -/
def holds (payload : Cache) (key : String) : Bool := ((Json.field? payload key).map Json.truthy).getD false

/-- `payload[key]` as a text. -/
def textAt (payload : Cache) (key : String) : Except Exn String :=
  match Json.field? payload key with
  | some value => python.json.str value
  | none => .error (.other "KeyError" ("'" ++ key ++ "'"))

/-! ### The cache -/

/-- `_token_cache_valid`. -/
def tokenCacheValid (payload : Cache) (now : UtcTime) : Except Exn Bool := do
  match ← parseExpiry python (Json.field? payload "expires_at") with
  | none => .ok false
  | some expiresAt =>
    if holds payload "access_token" = false then .ok false
    else do
      let soon ← now.time.add tokenMargin
      .ok (decide (soon.utcInstant < expiresAt.utcInstant))

/-- `_cache_valid`. -/
def cacheValid (payload : Cache) (now : UtcTime) : Except Exn Bool :=
  if holds payload "approval_key" then tokenCacheValid python payload now else .ok false

/-- `int(payload.get("last_error_status", 429))`, or 429. -/
def lastErrorStatus (payload : Cache) : Except Exn Int :=
  (intOrNone (some ((Json.field? payload "last_error_status").getD (.int 429)))).map (·.getD 429)

/-- The details of the last error as texts. -/
def lastErrorDetails (payload : Cache) : Except Exn (List (String × String)) :=
  match Json.field? payload "last_error_details" with
  | some (.dict details) => details.mapM fun field => (python.json.str field.2).map fun text => (field.1, text)
  | _ => .ok []

/-- `{**details, key: text}`. -/
def withDetail (details : List (String × String)) (key text : String) : List (String × String) :=
  if details.any (·.1 = key) then details.map fun field => if field.1 = key then (key, text) else field
  else details ++ [(key, text)]

/-- `_raise_if_credential_cooldown`. -/
def raiseIfCredentialCooldown (payload : Cache) (now : UtcTime) : Except Exn Unit := do
  match ← parseExpiry python (Json.field? payload "credential_retry_after") with
  | none => .ok ()
  | some retryAfter =>
    if retryAfter.utcInstant ≤ now.time.utcInstant then .ok ()
    else do
      let statusCode ← lastErrorStatus payload
      let safeDetails ← lastErrorDetails python payload
      .error (.kisHttpError statusCode (withDetail safeDetails "retry_after" retryAfter.isoformat))

/-- The fields of the token that survive a refusal. -/
def preservedKeys : List String := ["access_token", "issued_at", "expires_at"]

/-- `_cache_credential_rate_limit`: the cache that it leaves. -/
def cacheCredentialRateLimit (cache : Cache) (statusCode : Int) (details : List (String × String))
    (now : UtcTime) (preserveToken : Bool) : Except Exn Cache :=
  if statusCode ≠ 403 ∧ statusCode ≠ 429 then .ok cache
  else do
    let shown := details.filter fun field => ["rt_cd", "msg_cd", "error_description"].contains field.1
    let cached := if preserveToken then cache else []
    let valid ← tokenCacheValid python cached now
    let base := if valid then
        preservedKeys.filterMap fun key => (Json.field? cached key).map fun value => (key, value)
      else []
    let retryAfter ← now.time.add credentialRateLimitCooldown
    .ok (base ++ [("credential_retry_after", .text retryAfter.isoformat), ("last_error_status", .int statusCode),
      ("last_error_details", .dict (shown.map fun field => (field.1, .text field.2)))])

/-- The handlers `except KisHttpError`: the cache that they leave, and what is raised in the end. -/
def rateLimited {α : Type} (cache : Cache) (exc : Exn) (now : UtcTime) (preserveToken : Bool) :
    Cache × Except Exn α :=
  match exc with
  | .kisHttpError statusCode details =>
    match cacheCredentialRateLimit python cache statusCode details now preserveToken with
    | .ok written => (written, .error exc)
    | .error raised => (cache, .error raised)
  | _ => (cache, .error exc)

/-! ### The two requests -/

structure KisAuthClient where
  appKey : String
  appSecret : String

/-- What the answer to the token request says; the expiry is kept on the client until it is used. -/
structure IssuedToken where
  accessToken : String
  lastTokenExpiresIn : Option Int
  lastTokenExpiredAt : Option String

/-- `response.json().get`. -/
def payloadOf (response : KisResponse) : Except Exn (List (String × Json)) :=
  match response.json with
  | .ok (.dict payload) => .ok payload
  | .ok _ => .error (.other "AttributeError" "object has no attribute 'get'")
  | .error e => .error e

/-- `str(value or "") or None`. -/
def textOrNone (value : Option Json) : Except Exn (Option String) :=
  match value with
  | none => .ok none
  | some value =>
    if value.truthy = false then .ok none
    else (python.json.str value).map fun text => if text = "" then none else some text

/-- `str(payload.get(key))`, when that is true. -/
def credential (payload : List (String × Json)) (key missing : String) : Except Exn String :=
  match Json.field? payload key with
  | none => .error (.valueError missing)
  | some value => if value.truthy = false then .error (.valueError missing) else python.json.str value

/-- `issue_access_token`; `post` is what the session returns or raises. -/
def issueAccessToken (client : KisAuthClient) (post : Except Exn KisResponse) : Except Exn IssuedToken := do
  let response ← post
  raiseForKisResponse python.json response [client.appKey, client.appSecret]
  let payload ← payloadOf response
  let expiresIn ← positiveInt (Json.field? payload "expires_in")
  let expiredAt ← textOrNone python (Json.field? payload "access_token_token_expired")
  let token ← credential python payload "access_token" "KIS token response did not contain access_token"
  .ok ⟨token, expiresIn, expiredAt⟩

/-- `issue_websocket_approval_key`. -/
def issueWebsocketApprovalKey (client : KisAuthClient) (post : Except Exn KisResponse) : Except Exn String := do
  let response ← post
  raiseForKisResponse python.json response [client.appKey, client.appSecret]
  let payload ← payloadOf response
  credential python payload "approval_key" "KIS approval response did not contain approval_key"

/-- `_token_expires_at`; a `timedelta` out of range raises the `OverflowError` as well. -/
def tokenExpiresAt (token : IssuedToken) (issuedAt : UtcTime) : Except Exn DateTime :=
  match token.lastTokenExpiresIn with
  | some seconds => issuedAt.time.add (max 0 seconds * microsPerSecond)
  | none => do
    match ← parseExpiry python (token.lastTokenExpiredAt.map .text) with
    | some parsed => .ok parsed
    | none => issuedAt.time.add (23 * 3600 * microsPerSecond)

/-! ### An attempt -/

inductive CredentialRequest where
  | token
  | approval
deriving DecidableEq

structure KisAuthResult where
  accessToken : String
  approvalKey : String
  cacheHit : Bool

/-- A call with a cache path: the clock under the lock, and what either request would bring back. -/
structure Attempt where
  client : KisAuthClient
  now : UtcTime
  refreshToken : Bool
  tokenPost : Except Exn KisResponse
  approvalPost : Except Exn KisResponse

/-- What an attempt leaves in the cache, what it sent, and what it returned or raised. -/
structure Outcome where
  cache : Cache
  requests : List CredentialRequest
  result : Except Exn KisAuthResult

/-- The fields of a token as they are written. -/
structure TokenFields where
  accessToken : String
  issuedAt : String
  expiresAt : String

/-- The cache with the token alone. -/
def TokenFields.tokenOnly (token : TokenFields) : Cache :=
  [("access_token", .text token.accessToken), ("issued_at", .text token.issuedAt),
    ("expires_at", .text token.expiresAt)]

/-- The full cache. -/
def TokenFields.full (token : TokenFields) (approvalKey : String) : Cache :=
  [("access_token", .text token.accessToken), ("approval_key", .text approvalKey),
    ("issued_at", .text token.issuedAt), ("expires_at", .text token.expiresAt)]

/-- `str(payload.get("issued_at") or now.isoformat())`. -/
def cachedIssuedAt (payload : Cache) (now : UtcTime) : Except Exn String :=
  if holds payload "issued_at" then textAt python payload "issued_at" else .ok now.time.isoformat

/-- The token of the cache. -/
def cachedToken (payload : Cache) (now : UtcTime) : Except Exn TokenFields := do
  let accessToken ← textAt python payload "access_token"
  let issuedAt ← cachedIssuedAt python payload now
  let expiresAt ← textAt python payload "expires_at"
  .ok ⟨accessToken, issuedAt, expiresAt⟩

/-- The result of a cache hit. -/
def cachedResult (payload : Cache) : Except Exn KisAuthResult := do
  let accessToken ← textAt python payload "access_token"
  let approvalKey ← textAt python payload "approval_key"
  .ok ⟨accessToken, approvalKey, true⟩

/-- A new token, written to the cache at once. -/
def issuedToken (cache : Cache) (attempt : Attempt) : Cache × Except Exn TokenFields :=
  match issueAccessToken python attempt.client attempt.tokenPost with
  | .error exc => rateLimited python cache exc attempt.now false
  | .ok token =>
    match tokenExpiresAt python token attempt.now with
    | .error exc => (cache, .error exc)
    | .ok expiresAt =>
      let fields : TokenFields := ⟨token.accessToken, attempt.now.time.isoformat, expiresAt.isoformat⟩
      (fields.tokenOnly, .ok fields)

/-- The approval key for a token, and the full cache. -/
def approved (cache : Cache) (attempt : Attempt) (token : TokenFields) : Cache × Except Exn KisAuthResult :=
  match issueWebsocketApprovalKey python attempt.client attempt.approvalPost with
  | .error exc => rateLimited python cache exc attempt.now true
  | .ok approvalKey => (token.full approvalKey, .ok ⟨token.accessToken, approvalKey, false⟩)

/-- The rest of an attempt, once it has sent `sent` and has a token or no token. -/
def withToken (attempt : Attempt) (sent : List CredentialRequest) (obtained : Cache × Except Exn TokenFields) :
    Outcome :=
  match obtained.2 with
  | .error exc => ⟨obtained.1, sent, .error exc⟩
  | .ok token =>
    let answer := approved python obtained.1 attempt token
    ⟨answer.1, sent ++ [.approval], answer.2⟩

/-- `authenticate_read_only` under the lock. -/
def authenticateReadOnly (cache : Cache) (attempt : Attempt) : Outcome :=
  match if attempt.refreshToken then .ok false else cacheValid python cache attempt.now with
  | .error exc => ⟨cache, [], .error exc⟩
  | .ok true => ⟨cache, [], cachedResult python cache⟩
  | .ok false =>
    match raiseIfCredentialCooldown python cache attempt.now with
    | .error exc => ⟨cache, [], .error exc⟩
    | .ok () =>
      match if attempt.refreshToken then .ok false else tokenCacheValid python cache attempt.now with
      | .error exc => ⟨cache, [], .error exc⟩
      | .ok true => withToken python attempt [] (cache, cachedToken python cache attempt.now)
      | .ok false => withToken python attempt [.token] (issuedToken python cache attempt)

/-- The cache after attempts one after the other. -/
def cacheAfter (cache : Cache) (attempts : List Attempt) : Cache :=
  attempts.foldl (fun cache attempt => (authenticateReadOnly python cache attempt).cache) cache

end AutoTrader.KisAuth
