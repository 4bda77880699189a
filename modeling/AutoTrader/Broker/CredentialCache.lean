/-
  AutoTrader/Broker/CredentialCache.lean
  ======================================
  **Credentials respect the cache and the cooldown.**

  Two facts about the file carry over from one attempt to the next.  A refusal leaves a
  cooldown and no approval key, so the file is no hit and the next attempt raises before
  it sends anything (`CoolingDown.idle`).  A token that is still good is written again by
  every branch that writes at all (`attempt_keepsToken`), so the next attempt goes on with it.

  An attempt that only repeats the error of the file sends nothing and starts no cooldown.
-/
import AutoTrader.Broker.KisAuth

namespace AutoTrader.KisAuth

open DateTime (microsPerSecond)

section Proofs

variable {python : PythonValues}

/-! ### Times -/

theorem utcInstant_eq (now : UtcTime) : now.time.utcInstant = now.wall := by
  simp [DateTime.utcInstant, now.utc, UtcTime.wall]

/-- A sum of a time in UTC is in UTC, or out of range. -/
theorem add_cases (now : UtcTime) (delta : Int) :
    (∃ later : UtcTime, now.time.add delta = .ok later.time ∧ later.wall = now.wall + delta) ∨
    now.time.add delta = .error (.other "OverflowError" "date value out of range") := by
  rw [DateTime.add]
  split
  next hrange => exact .inl ⟨⟨{ now.time with wall := now.time.wall + delta }, now.utc, hrange⟩, rfl, rfl⟩
  next => exact .inr rfl

variable (python) in
theorem parseExpiry_text (s : String) : ∃ expiry, parseExpiry python (some (.text s)) = .ok expiry := by
  rw [parseExpiry, python.str_text]
  split
  · exact ⟨_, rfl⟩
  · exact ⟨_, rfl⟩

/-- A time in UTC is read from its text. -/
theorem parseExpiry_isoformat (now : UtcTime) :
    parseExpiry python (some (.text now.time.isoformat)) = .ok (some now.time) := by
  have hoffset : now.time.OffsetInRange := by
    intro o ho
    rw [now.utc] at ho
    cases ho
    decide
  have hreplace : Text.replace now.time.isoformat "Z" "+00:00" = now.time.isoformat := by
    rw [Text.replace, Redaction.replace_of_notMem (x := 'Z') (by decide)
      (DateTime.z_notMem_isoformat now.inRange now.utc), String.ofList_toList]
  have htruthy : (Json.text now.time.isoformat).truthy = true := by
    have hletters : now.time.isoformat.toList ≠ [] := by
      rw [DateTime.isoformat_fields now.inRange]
      simp [DateTime.fieldChars]
    simp only [Json.truthy, decide_eq_true_eq]
    intro hempty
    exact hletters (by rw [hempty]; rfl)
  have hzone : withZone now.time = now.time := by
    rw [withZone, now.utc]
  rw [parseExpiry, htruthy, if_neg (by decide), python.str_text]
  dsimp only
  rw [hreplace, DateTime.readIso_isoformat _ now.inRange hoffset, Option.map_some, hzone]

/-! ### The cooldown -/

/-- A refusal is in the file, and nothing is requested before its time. -/
structure CoolingDown (cache : Cache) (retryAfter : UtcTime) : Prop where
  no_key : Json.field? cache "approval_key" = none
  retry : Json.field? cache "credential_retry_after" = some (.text retryAfter.time.isoformat)

theorem cacheValid_of_no_key {cache : Cache} (h : Json.field? cache "approval_key" = none) (now : UtcTime) :
    cacheValid python cache now = .ok false := by
  have hholds : holds cache "approval_key" = false := by
    rw [holds, h]
    rfl
  rw [cacheValid, hholds, if_neg (by decide)]

variable (python) in
/-- Before its time the cooldown raises, whatever the details in the file are. -/
theorem CoolingDown.raises {cache : Cache} {retryAfter : UtcTime} (h : CoolingDown cache retryAfter)
    {now : UtcTime} (hnow : now.wall < retryAfter.wall) :
    ∃ exc, raiseIfCredentialCooldown python cache now = .error exc := by
  have hafter : ¬ retryAfter.time.utcInstant ≤ now.time.utcInstant := by
    rw [utcInstant_eq, utcInstant_eq]
    omega
  rw [raiseIfCredentialCooldown, h.retry, parseExpiry_isoformat]
  simp only [Bind.bind, Except.bind]
  rw [if_neg hafter]
  cases lastErrorStatus cache with
  | error exc => exact ⟨exc, rfl⟩
  | ok statusCode =>
    cases hdetails : lastErrorDetails python cache with
    | error exc => exact ⟨exc, by simp⟩
    | ok details => exact ⟨_, rfl⟩

variable (python) in
/-- An attempt during the cooldown sends nothing and leaves the file. -/
theorem CoolingDown.idle {cache : Cache} {retryAfter : UtcTime} (h : CoolingDown cache retryAfter)
    {attempt : Attempt} (hnow : attempt.now.wall < retryAfter.wall) :
    (authenticateReadOnly python cache attempt).requests = [] ∧
      (authenticateReadOnly python cache attempt).cache = cache := by
  obtain ⟨exc, hraise⟩ := h.raises python hnow
  have hmiss : (if attempt.refreshToken then .ok false else cacheValid python cache attempt.now) =
      Except.ok false := by
    rw [cacheValid_of_no_key h.no_key, ite_self]
  rw [authenticateReadOnly, hmiss]
  dsimp only
  rw [hraise]
  exact ⟨rfl, rfl⟩

theorem cooling_run {cache : Cache} {retryAfter : UtcTime} (h : CoolingDown cache retryAfter)
    {attempts : List Attempt} (hnow : ∀ attempt ∈ attempts, attempt.now.wall < retryAfter.wall) :
    cacheAfter python cache attempts = cache := by
  induction attempts with
  | nil => rfl
  | cons attempt rest ih =>
    have hidle := h.idle python (hnow attempt List.mem_cons_self)
    rw [cacheAfter, List.foldl_cons, hidle.2]
    exact ih fun a ha => hnow a (List.mem_cons_of_mem attempt ha)

/-! ### What a refusal writes -/

theorem field?_append (front back : Cache) (key : String) :
    Json.field? (front ++ back) key = (Json.field? front key).or (Json.field? back key) := by
  rw [Json.field?, List.find?_append, Option.map_or]
  rfl

/-- Fields that are kept by their keys. -/
theorem field?_kept (cache : Cache) (keys : List String) (key : String) :
    Json.field? (keys.filterMap fun key => (Json.field? cache key).map fun value => (key, value)) key =
      if key ∈ keys then Json.field? cache key else none := by
  induction keys with
  | nil => rfl
  | cons first rest ih =>
    cases hfirst : Json.field? cache first with
    | none =>
      rw [List.filterMap_cons_none (by rw [hfirst]; rfl), ih]
      by_cases hkey : key = first
      · subst hkey
        simp [hfirst]
      · simp [hkey]
    | some value =>
      rw [List.filterMap_cons_some (b := (first, value)) (by rw [hfirst]; rfl)]
      by_cases hkey : first = key
      · subst hkey
        simp [Json.field?, ← hfirst]
      · rw [Json.field?, List.find?_cons_of_neg (by simpa using hkey)]
        rw [Json.field?] at ih
        rw [ih]
        simp [Ne.symm hkey]

/-- A refusal leaves a cooldown of a minute, and the fields of a token that is still good. -/
theorem cacheCredentialRateLimit_ok {cache written : Cache} {statusCode : Int}
    {details : List (String × String)} {now : UtcTime} {preserveToken : Bool}
    (hstatus : statusCode = 403 ∨ statusCode = 429)
    (h : cacheCredentialRateLimit python cache statusCode details now preserveToken = .ok written) :
    (∃ retryAfter : UtcTime, retryAfter.wall = now.wall + credentialRateLimitCooldown ∧
      CoolingDown written retryAfter) ∧
    (tokenCacheValid python (if preserveToken then cache else []) now ≠ .ok false →
      ∀ key ∈ preservedKeys, Json.field? written key = Json.field? (if preserveToken then cache else []) key) := by
  rw [cacheCredentialRateLimit, if_neg (by omega)] at h
  obtain ⟨valid, hvalid, h⟩ := Except.bind_eq_ok h
  obtain ⟨retryAfter, hretry, h⟩ := Except.bind_eq_ok h
  obtain ⟨later, hlater, hwall⟩ | hover := add_cases now credentialRateLimitCooldown
  · rw [hlater] at hretry
    cases hretry
    cases h
    refine ⟨⟨later, hwall, ?_, ?_⟩, ?_⟩
    · rw [field?_append]
      cases valid with
      | true => rw [if_pos rfl, field?_kept, if_neg (by decide)]; rfl
      | false => rfl
    · rw [field?_append]
      cases valid with
      | true => rw [if_pos rfl, field?_kept, if_neg (by decide)]; rfl
      | false => rfl
    · intro hgood key hkey
      obtain rfl : valid = true := by
        cases valid with
        | true => rfl
        | false => exact absurd hvalid hgood
      rw [field?_append, if_pos rfl, field?_kept, if_pos hkey]
      have hnone : ∀ key ∈ preservedKeys, Json.field? [("credential_retry_after", .text later.time.isoformat),
          ("last_error_status", .int statusCode), ("last_error_details", .dict ((details.filter fun field =>
            ["rt_cd", "msg_cd", "error_description"].contains field.1).map fun field => (field.1, .text field.2)))]
            key = none := by
        intro key hkey
        simp only [preservedKeys, List.mem_cons, List.not_mem_nil, or_false] at hkey
        rcases hkey with rfl | rfl | rfl <;> rfl
      rw [hnone key hkey, Option.or_none]
  · rw [hover] at hretry
    cases hretry

/-- The handler raises the refusal once it is in the file, and otherwise what kept it out. -/
theorem rateLimited_refused {α : Type} {cache written : Cache} {exc : Exn} {now : UtcTime} {preserveToken : Bool}
    {statusCode : Int} {details : List (String × String)}
    (hvalid : ∀ statusCode details,
      tokenCacheValid python (if preserveToken then cache else []) now ≠ .error (.kisHttpError statusCode details))
    (hstatus : statusCode = 403 ∨ statusCode = 429)
    (h : rateLimited (α := α) python cache exc now preserveToken =
      (written, .error (.kisHttpError statusCode details))) :
    ∃ retryAfter : UtcTime, retryAfter.wall = now.wall + credentialRateLimitCooldown ∧
      CoolingDown written retryAfter := by
  cases exc with
  | kisHttpError code shown =>
    rw [rateLimited] at h
    cases hwrite : cacheCredentialRateLimit python cache code shown now preserveToken with
    | ok left =>
      rw [hwrite] at h
      cases h
      exact (cacheCredentialRateLimit_ok hstatus hwrite).1
    | error raised =>
      rw [hwrite] at h
      cases h
      rw [cacheCredentialRateLimit] at hwrite
      split at hwrite
      · cases hwrite
      · cases hcached : tokenCacheValid python (if preserveToken then cache else []) now with
        | error e =>
          simp only [hcached, Bind.bind, Except.bind] at hwrite
          cases hwrite
          exact absurd hcached (hvalid _ _)
        | ok valid =>
          obtain ⟨later, hlater, -⟩ | hover := add_cases now credentialRateLimitCooldown
          · simp only [hcached, hlater, Bind.bind, Except.bind] at hwrite
            cases hwrite
          · simp only [hcached, hover, Bind.bind, Except.bind] at hwrite
            cases hwrite
  | valueError _ => cases h
  | typeError _ => cases h
  | integrityError _ => cases h
  | orderSafetyGateError _ => cases h
  | other _ _ => cases h

/-- The handler leaves the file, or a refusal with the fields of a token that is still good. -/
theorem rateLimited_keeps {α : Type} {cache : Cache} {now : UtcTime} (exc : Exn)
    (hvalid : tokenCacheValid python cache now ≠ .ok false) {key : String} (hkey : key ∈ preservedKeys) :
    Json.field? (rateLimited (α := α) python cache exc now true).1 key = Json.field? cache key := by
  cases exc with
  | kisHttpError code shown =>
    rw [rateLimited]
    cases hwrite : cacheCredentialRateLimit python cache code shown now true with
    | error raised => rfl
    | ok left =>
      dsimp only
      by_cases hstatus : code = 403 ∨ code = 429
      · exact (cacheCredentialRateLimit_ok hstatus hwrite).2 hvalid key hkey
      · rw [cacheCredentialRateLimit, if_pos (by omega)] at hwrite
        cases hwrite
        rfl
  | valueError _ => rfl
  | typeError _ => rfl
  | integrityError _ => rfl
  | orderSafetyGateError _ => rfl
  | other _ _ => rfl

variable (python) in
theorem rateLimited_error {α : Type} (cache : Cache) (exc : Exn) (now : UtcTime) (preserveToken : Bool) :
    ∃ raised, (rateLimited (α := α) python cache exc now preserveToken).2 = .error raised := by
  unfold rateLimited
  split
  · split
    · exact ⟨_, rfl⟩
    · exact ⟨_, rfl⟩
  · exact ⟨_, rfl⟩

/-! ### The token in the file -/

variable (python) in
/-- The file has a token, `token` as a text, with a recorded expiry. -/
structure TokenCached (cache : Cache) (token : Except Exn String) (expiresAt : DateTime) : Prop where
  held : holds cache "access_token" = true
  text : textAt python cache "access_token" = token
  expiry : parseExpiry python (Json.field? cache "expires_at") = .ok (some expiresAt)

namespace TokenCached

variable {cache : Cache} {token : Except Exn String} {expiresAt : DateTime}

/-- The two fields decide it. -/
theorem congr (h : TokenCached python cache token expiresAt) {left : Cache}
    (hleft : ∀ key ∈ preservedKeys, Json.field? left key = Json.field? cache key) :
    TokenCached python left token expiresAt where
  held := by
    rw [holds, hleft "access_token" (by decide)]
    exact h.held
  text := by
    rw [textAt, hleft "access_token" (by decide)]
    exact h.text
  expiry := by
    rw [hleft "expires_at" (by decide)]
    exact h.expiry

/-- A token more than a minute before its expiry is good, unless the clock is at its very end. -/
theorem valid (h : TokenCached python cache token expiresAt) {now : UtcTime}
    (hnow : now.wall + tokenMargin < expiresAt.utcInstant) : tokenCacheValid python cache now ≠ .ok false := by
  rw [tokenCacheValid, h.expiry]
  simp only [Bind.bind, Except.bind, h.held, Bool.true_eq_false, if_false]
  obtain ⟨soon, hsoon, hwall⟩ | hover := add_cases now tokenMargin
  · have hbefore : soon.time.utcInstant < expiresAt.utcInstant := by
      rw [utcInstant_eq, hwall]
      exact hnow
    rw [hsoon]
    simp [hbefore]
  · rw [hover]
    simp

end TokenCached

theorem tokenCached_of_valid {cache : Cache} {now : UtcTime} (h : tokenCacheValid python cache now = .ok true) :
    ∃ expiresAt, TokenCached python cache (textAt python cache "access_token") expiresAt ∧
      now.wall + tokenMargin < expiresAt.utcInstant := by
  rw [tokenCacheValid] at h
  obtain ⟨expiry, hexpiry, h⟩ := Except.bind_eq_ok h
  cases expiry with
  | none => cases h
  | some expiresAt =>
    dsimp only at h
    split at h
    · cases h
    next hheld =>
      obtain ⟨soon, hsoon, hlater⟩ := Except.bind_eq_ok h
      obtain ⟨later, hadd, hwall⟩ | hover := add_cases now tokenMargin
      · rw [hadd] at hsoon
        cases hsoon
        have hbefore : later.time.utcInstant < expiresAt.utcInstant := by
          simpa using hlater
        rw [utcInstant_eq, hwall] at hbefore
        exact ⟨expiresAt, ⟨by simpa using hheld, rfl, hexpiry⟩, hbefore⟩
      · rw [hover] at hsoon
        cases hsoon

/-- A value that is true has a text that is. -/
theorem truthy_text {value : Json} {text : String} (htruthy : value.truthy = true)
    (h : python.json.str value = .ok text) : (Json.text text).truthy = true := by
  simp only [Json.truthy, decide_eq_true_eq]
  rintro rfl
  exact python.str_ne_empty htruthy h

/-- An expiry is read alike from a value and from its text. -/
theorem parseExpiry_str {value : Json} {text : String} {expiresAt : DateTime}
    (h : parseExpiry python (some value) = .ok (some expiresAt)) (htext : python.json.str value = .ok text) :
    parseExpiry python (some (.text text)) = .ok (some expiresAt) := by
  rw [parseExpiry] at h ⊢
  cases htruthy : value.truthy with
  | false =>
    rw [htruthy, if_pos rfl] at h
    cases h
  | true =>
    rw [htruthy, htext, if_neg (by decide)] at h
    rw [truthy_text htruthy htext, python.str_text, if_neg (by decide)]
    exact h

/-- A token as it is written is in the file, with or without an approval key. -/
theorem tokenCached_written (token : TokenFields) {expiresAt : DateTime}
    (htoken : (Json.text token.accessToken).truthy = true)
    (hexpiry : parseExpiry python (some (.text token.expiresAt)) = .ok (some expiresAt)) :
    TokenCached python token.tokenOnly (.ok token.accessToken) expiresAt ∧
    ∀ approvalKey, TokenCached python (token.full approvalKey) (.ok token.accessToken) expiresAt :=
  ⟨⟨htoken, python.str_text _, hexpiry⟩, fun _ => ⟨htoken, python.str_text _, hexpiry⟩⟩

/-! ### What an attempt does -/

variable {cache : Cache} {attempt : Attempt}

/-- The token that is taken from the file is written back as it is. -/
theorem cachedToken_written {now : UtcTime} {token : TokenFields} {expiresAt : DateTime}
    {text : Except Exn String} (hcached : TokenCached python cache text expiresAt)
    (h : cachedToken python cache now = .ok token) :
    text = .ok token.accessToken ∧
    ∀ approvalKey, TokenCached python (token.full approvalKey) text expiresAt := by
  rw [cachedToken] at h
  obtain ⟨accessToken, haccess, h⟩ := Except.bind_eq_ok h
  obtain ⟨issuedAt, -, h⟩ := Except.bind_eq_ok h
  obtain ⟨expires, hexpires, h⟩ := Except.bind_eq_ok h
  cases h
  have htext : text = .ok accessToken := hcached.text.symm.trans haccess
  obtain ⟨value, hvalue⟩ : ∃ value, Json.field? cache "expires_at" = some value := by
    cases hfield : Json.field? cache "expires_at" with
    | none =>
      rw [textAt, hfield] at hexpires
      cases hexpires
    | some value => exact ⟨value, rfl⟩
  obtain ⟨held, hheld⟩ : ∃ held, Json.field? cache "access_token" = some held := by
    cases hfield : Json.field? cache "access_token" with
    | none =>
      rw [textAt, hfield] at haccess
      cases haccess
    | some held => exact ⟨held, rfl⟩
  have htoken : (Json.text accessToken).truthy = true := by
    have hpresent := hcached.held
    rw [holds, hheld] at hpresent
    rw [textAt, hheld] at haccess
    exact truthy_text hpresent haccess
  have hexpiry : parseExpiry python (some (.text expires)) = .ok (some expiresAt) := by
    have hread := hcached.expiry
    rw [hvalue] at hread
    rw [textAt, hvalue] at hexpires
    exact parseExpiry_str hread hexpires
  rw [htext]
  exact ⟨rfl, (tokenCached_written ⟨accessToken, issuedAt, expires⟩ htoken hexpiry).2⟩

variable (python) in
/-- An attempt ends without a request, goes on with the token of the file, or asks for a new one. -/
theorem attempt_cases (cache : Cache) (attempt : Attempt) :
    ((authenticateReadOnly python cache attempt).requests = [] ∧
      (authenticateReadOnly python cache attempt).cache = cache ∧
      ∀ result, (authenticateReadOnly python cache attempt).result = .ok result →
        tokenCacheValid python cache attempt.now = .ok true ∧
        textAt python cache "access_token" = .ok result.accessToken) ∨
    (attempt.refreshToken = false ∧ tokenCacheValid python cache attempt.now = .ok true ∧
      ∃ token, cachedToken python cache attempt.now = .ok token ∧
        authenticateReadOnly python cache attempt = withToken python attempt [] (cache, .ok token)) ∨
    ((attempt.refreshToken = false → tokenCacheValid python cache attempt.now = .ok false) ∧
      authenticateReadOnly python cache attempt =
        withToken python attempt [.token] (issuedToken python cache attempt)) := by
  obtain ⟨outcome, houtcome⟩ : ∃ outcome, authenticateReadOnly python cache attempt = outcome := ⟨_, rfl⟩
  rw [houtcome]
  unfold authenticateReadOnly at houtcome
  split at houtcome
  next => exact .inl (houtcome ▸ ⟨rfl, rfl, nofun⟩)
  next hhit =>
    -- a cache hit
    refine .inl (houtcome ▸ ⟨rfl, rfl, fun result hresult => ?_⟩)
    have hvalid : tokenCacheValid python cache attempt.now = .ok true := by
      cases hrefresh : attempt.refreshToken with
      | true =>
        rw [hrefresh, if_pos rfl] at hhit
        cases hhit
      | false =>
        rw [hrefresh, if_neg (by decide), cacheValid] at hhit
        split at hhit
        · exact hhit
        · cases hhit
    dsimp only at hresult
    rw [cachedResult] at hresult
    obtain ⟨accessToken, haccess, hresult⟩ := Except.bind_eq_ok hresult
    obtain ⟨approvalKey, -, hresult⟩ := Except.bind_eq_ok hresult
    cases hresult
    exact ⟨hvalid, haccess⟩
  next =>
    split at houtcome
    next => exact .inl (houtcome ▸ ⟨rfl, rfl, nofun⟩)
    next =>
      cases hrefresh : attempt.refreshToken with
      | true =>
        rw [hrefresh, if_pos rfl] at houtcome
        exact .inr (.inr ⟨nofun, houtcome.symm⟩)
      | false =>
        rw [hrefresh, if_neg (by decide)] at houtcome
        split at houtcome
        next => exact .inl (houtcome ▸ ⟨rfl, rfl, nofun⟩)
        next hvalid =>
          cases htoken : cachedToken python cache attempt.now with
          | error exc =>
            rw [htoken] at houtcome
            exact .inl (houtcome ▸ ⟨rfl, rfl, nofun⟩)
          | ok token =>
            rw [htoken] at houtcome
            exact .inr (.inl ⟨rfl, hvalid, token, rfl, houtcome.symm⟩)
        next hinvalid => exact .inr (.inr ⟨fun _ => hinvalid, houtcome.symm⟩)

/-! ### One attempt -/

/-- The attempt sent a request and was refused: HTTP 403 or 429. -/
def Outcome.Refused (outcome : Outcome) : Prop :=
  outcome.requests ≠ [] ∧
    ∃ statusCode details, outcome.result = .error (.kisHttpError statusCode details) ∧
      (statusCode = 403 ∨ statusCode = 429)

/-- The attempt asked for the approval key and did not get it. -/
def Outcome.ApprovalFailed (outcome : Outcome) : Prop :=
  .approval ∈ outcome.requests ∧ ∃ exc, outcome.result = .error exc

theorem overflow_only {payload : Cache} {now : UtcTime} (text : String)
    (h : Json.field? payload "expires_at" = some (.text text)) (statusCode : Int)
    (details : List (String × String)) :
    tokenCacheValid python payload now ≠ .error (.kisHttpError statusCode details) := by
  obtain ⟨expiry, hexpiry⟩ := parseExpiry_text python text
  rw [tokenCacheValid, h, hexpiry]
  simp only [Bind.bind, Except.bind]
  cases expiry with
  | none => nofun
  | some expiresAt =>
    dsimp only
    split
    · nofun
    · obtain ⟨soon, hsoon, -⟩ | hover := add_cases now tokenMargin
      · rw [hsoon]
        nofun
      · rw [hover]
        nofun

theorem credential_truthy {payload : List (String × Json)} {key missing text : String}
    (h : credential python payload key missing = .ok text) : (Json.text text).truthy = true := by
  rw [credential] at h
  split at h
  · cases h
  · split at h
    · cases h
    next htruthy => exact truthy_text (by simpa using htruthy) h

/-- A new token is written before anything else is asked for, and its text is not empty. -/
theorem issuedToken_ok {token : TokenFields} (h : (issuedToken python cache attempt).2 = .ok token) :
    (issuedToken python cache attempt).1 = token.tokenOnly ∧ (Json.text token.accessToken).truthy = true := by
  unfold issuedToken at h ⊢
  split at h
  next exc hissue =>
    obtain ⟨raised, hraised⟩ := rateLimited_error python (α := TokenFields) cache exc attempt.now false
    rw [hraised] at h
    cases h
  next issued hissue =>
    split at h
    next => cases h
    next expiresAt hexpires =>
      cases h
      rw [issueAccessToken] at hissue
      obtain ⟨response, -, hissue⟩ := Except.bind_eq_ok hissue
      obtain ⟨_, -, hissue⟩ := Except.bind_eq_ok hissue
      obtain ⟨payload, -, hissue⟩ := Except.bind_eq_ok hissue
      obtain ⟨expiresIn, -, hissue⟩ := Except.bind_eq_ok hissue
      obtain ⟨expiredAt, -, hissue⟩ := Except.bind_eq_ok hissue
      obtain ⟨text, htext, hissue⟩ := Except.bind_eq_ok hissue
      cases hissue
      exact ⟨rfl, credential_truthy htext⟩

theorem tokenExpiresAt_error {token : IssuedToken} {issuedAt : UtcTime} {statusCode : Int}
    {details : List (String × String)} :
    tokenExpiresAt python token issuedAt ≠ .error (.kisHttpError statusCode details) := by
  have hadd : ∀ delta, issuedAt.time.add delta ≠ .error (.kisHttpError statusCode details) := by
    intro delta
    obtain ⟨later, hlater, -⟩ | hover := add_cases issuedAt delta
    · rw [hlater]
      nofun
    · rw [hover]
      nofun
  unfold tokenExpiresAt
  split
  · exact hadd _
  · obtain ⟨expiry, hexpiry⟩ : ∃ expiry, parseExpiry python (token.lastTokenExpiredAt.map .text) = .ok expiry := by
      cases token.lastTokenExpiredAt with
      | none => exact ⟨none, rfl⟩
      | some text => exact parseExpiry_text python text
    rw [hexpiry]
    simp only [Bind.bind, Except.bind]
    cases expiry with
    | none => exact hadd _
    | some parsed => nofun

/-- A refusal of the token starts a cooldown. -/
theorem token_refused {statusCode : Int} {details : List (String × String)}
    (hstatus : statusCode = 403 ∨ statusCode = 429)
    (h : (issuedToken python cache attempt).2 = .error (.kisHttpError statusCode details)) :
    ∃ retryAfter : UtcTime, retryAfter.wall = attempt.now.wall + credentialRateLimitCooldown ∧
      CoolingDown (issuedToken python cache attempt).1 retryAfter := by
  unfold issuedToken at h ⊢
  split at h
  next exc hissue =>
    refine rateLimited_refused (fun code shown => ?_) hstatus (Prod.ext rfl h)
    rw [tokenCacheValid]
    nofun
  next issued hissue =>
    split at h
    next exc hexpires =>
      cases h
      exact absurd hexpires tokenExpiresAt_error
    next => cases h

/-- A refusal of the approval key starts one as well. -/
theorem approval_refused {token : TokenFields} {statusCode : Int} {details : List (String × String)}
    (hvalid : ∀ statusCode details,
      tokenCacheValid python cache attempt.now ≠ .error (.kisHttpError statusCode details))
    (hstatus : statusCode = 403 ∨ statusCode = 429)
    (h : (approved python cache attempt token).2 = .error (.kisHttpError statusCode details)) :
    ∃ retryAfter : UtcTime, retryAfter.wall = attempt.now.wall + credentialRateLimitCooldown ∧
      CoolingDown (approved python cache attempt token).1 retryAfter := by
  unfold approved at h ⊢
  split at h
  next exc hissue =>
    exact rateLimited_refused hvalid hstatus (Prod.ext rfl h)
  next => cases h

/-- A refusal starts a cooldown. -/
theorem refused_cools (h : (authenticateReadOnly python cache attempt).Refused) :
    ∃ retryAfter : UtcTime, retryAfter.wall = attempt.now.wall + credentialRateLimitCooldown ∧
      CoolingDown (authenticateReadOnly python cache attempt).cache retryAfter := by
  obtain ⟨hsent, statusCode, details, hresult, hstatus⟩ := h
  obtain ⟨hnone, -, -⟩ | ⟨-, hvalid, token, -, houtcome⟩ | ⟨-, houtcome⟩ := attempt_cases python cache attempt
  · exact absurd hnone hsent
  · rw [houtcome] at hresult ⊢
    exact approval_refused (fun _ _ => by rw [hvalid]; nofun) hstatus hresult
  · rw [houtcome] at hresult ⊢
    unfold withToken at hresult ⊢
    cases htoken : (issuedToken python cache attempt).2 with
    | error exc =>
      rw [htoken] at hresult
      cases hresult
      exact token_refused hstatus htoken
    | ok token =>
      rw [htoken] at hresult
      refine approval_refused (overflow_only token.expiresAt ?_) hstatus hresult
      rw [(issuedToken_ok htoken).1]
      rfl

/-- While the token of the file is good, an attempt without a refresh asks for no other and
    keeps it, whatever becomes of the approval key. -/
theorem attempt_keepsToken {token : Except Exn String} {expiresAt : DateTime}
    (hcached : TokenCached python cache token expiresAt) (hrefresh : attempt.refreshToken = false)
    (hnow : attempt.now.wall + tokenMargin < expiresAt.utcInstant) :
    .token ∉ (authenticateReadOnly python cache attempt).requests ∧
      TokenCached python (authenticateReadOnly python cache attempt).cache token expiresAt := by
  obtain ⟨hnone, hleft, -⟩ | ⟨-, -, written, hwritten, houtcome⟩ | ⟨hinvalid, -⟩ :=
    attempt_cases python cache attempt
  · rw [hnone, hleft]
    exact ⟨List.not_mem_nil, hcached⟩
  · rw [houtcome, withToken]
    refine ⟨by simp, ?_⟩
    dsimp only
    unfold approved
    split
    next exc hissue => exact hcached.congr fun key hkey => rateLimited_keeps exc (hcached.valid hnow) hkey
    next approvalKey hissue => exact (cachedToken_written hcached hwritten).2 approvalKey
  · exact absurd (hinvalid hrefresh) (hcached.valid hnow)

/-- A new token that is good stays in the file when the approval key is not obtained. -/
theorem issuedToken_kept {token : TokenFields} {expiresAt : DateTime}
    (hsent : .token ∈ (authenticateReadOnly python cache attempt).requests)
    (htoken : (issuedToken python cache attempt).2 = .ok token)
    (hexpiry : parseExpiry python (some (.text token.expiresAt)) = .ok (some expiresAt))
    (hnow : attempt.now.wall + tokenMargin < expiresAt.utcInstant) :
    TokenCached python (authenticateReadOnly python cache attempt).cache (.ok token.accessToken) expiresAt := by
  obtain ⟨hleft, htruthy⟩ := issuedToken_ok htoken
  obtain ⟨hnone, -, -⟩ | ⟨-, -, cached, -, houtcome⟩ | ⟨-, houtcome⟩ := attempt_cases python cache attempt
  · rw [hnone] at hsent
    cases hsent
  · rw [houtcome, withToken] at hsent
    simp at hsent
  · have hwritten : TokenCached python (issuedToken python cache attempt).1 (.ok token.accessToken) expiresAt := by
      rw [hleft]
      exact (tokenCached_written token htruthy hexpiry).1
    rw [houtcome, withToken, htoken]
    dsimp only
    unfold approved
    split
    next exc hissue => exact hwritten.congr fun key hkey => rateLimited_keeps exc (hwritten.valid hnow) hkey
    next approvalKey hissue => exact (tokenCached_written token htruthy hexpiry).2 approvalKey

/-- A token that was returned and not requested is that of the file, and good. -/
theorem returned_cached {result : KisAuthResult}
    (hresult : (authenticateReadOnly python cache attempt).result = .ok result)
    (hnone : .token ∉ (authenticateReadOnly python cache attempt).requests) :
    ∃ expiresAt, TokenCached python cache (.ok result.accessToken) expiresAt ∧
      attempt.now.wall + tokenMargin < expiresAt.utcInstant := by
  obtain ⟨-, -, hhit⟩ | ⟨-, hvalid, token, htoken, houtcome⟩ | ⟨-, houtcome⟩ :=
    attempt_cases python cache attempt
  · obtain ⟨hvalid, htext⟩ := hhit result hresult
    rw [← htext]
    exact tokenCached_of_valid hvalid
  · obtain ⟨expiresAt, hcached, hahead⟩ := tokenCached_of_valid hvalid
    rw [(cachedToken_written hcached htoken).1] at hcached
    rw [houtcome, withToken] at hresult
    dsimp only at hresult
    unfold approved at hresult
    split at hresult
    next exc hissue =>
      obtain ⟨raised, hraised⟩ :=
        rateLimited_error python (α := KisAuthResult) cache exc attempt.now true
      rw [hraised] at hresult
      cases hresult
    next approvalKey hissue =>
      cases hresult
      exact ⟨expiresAt, hcached, hahead⟩
  · rw [houtcome] at hnone
    unfold withToken at hnone
    split at hnone
    · simp at hnone
    · simp at hnone

/-- An attempt that was issued a token and failed later has it. -/
theorem issued_of_approvalFailed (hsent : .token ∈ (authenticateReadOnly python cache attempt).requests)
    (hfailed : (authenticateReadOnly python cache attempt).ApprovalFailed) :
    ∃ token, (issuedToken python cache attempt).2 = .ok token := by
  obtain ⟨hnone, -, -⟩ | ⟨-, -, cached, -, houtcome⟩ | ⟨-, houtcome⟩ := attempt_cases python cache attempt
  · rw [hnone] at hsent
    cases hsent
  · rw [houtcome, withToken] at hsent
    simp at hsent
  · cases htoken : (issuedToken python cache attempt).2 with
    | ok token => exact ⟨token, rfl⟩
    | error exc =>
      have happroval := hfailed.1
      rw [houtcome, withToken, htoken] at happroval
      simp at happroval

/-! ### Runs -/

theorem cacheAfter_append (cache : Cache) (front back : List Attempt) :
    cacheAfter python cache (front ++ back) = cacheAfter python (cacheAfter python cache front) back :=
  List.foldl_append

theorem cacheAfter_cons (cache : Cache) (attempt : Attempt) (rest : List Attempt) :
    cacheAfter python cache (attempt :: rest) =
      cacheAfter python (authenticateReadOnly python cache attempt).cache rest := rfl

/-- The token stays in the file as long as it is good and no refresh is asked for. -/
theorem run_keepsToken {token : Except Exn String} {expiresAt : DateTime} {attempts : List Attempt}
    (hcached : TokenCached python cache token expiresAt)
    (hrefresh : ∀ attempt ∈ attempts, attempt.refreshToken = false)
    (hnow : ∀ attempt ∈ attempts, attempt.now.wall + tokenMargin < expiresAt.utcInstant) :
    TokenCached python (cacheAfter python cache attempts) token expiresAt := by
  induction attempts generalizing cache with
  | nil => exact hcached
  | cons attempt rest ih =>
    rw [cacheAfter_cons]
    have hstep := (attempt_keepsToken hcached (hrefresh attempt List.mem_cons_self)
      (hnow attempt List.mem_cons_self)).2
    exact ih hstep (fun a ha => hrefresh a (List.mem_cons_of_mem attempt ha))
      fun a ha => hnow a (List.mem_cons_of_mem attempt ha)

/-- After a refusal nothing is sent for a minute. -/
theorem silent_after_refusal {attempts : List Attempt} {front middle back : List Attempt} {a b : Attempt}
    (hclock : attempts.Pairwise fun a b => a.now.wall ≤ b.now.wall)
    (hsplit : attempts = front ++ a :: (middle ++ b :: back))
    (hrefused : (authenticateReadOnly python (cacheAfter python cache front) a).Refused)
    (hbefore : b.now.wall < a.now.wall + credentialRateLimitCooldown) :
    (authenticateReadOnly python (cacheAfter python cache (front ++ a :: middle)) b).requests = [] := by
  obtain ⟨retryAfter, hwall, hcooling⟩ := refused_cools hrefused
  have hnow : ∀ attempt ∈ middle, attempt.now.wall < retryAfter.wall := by
    intro attempt hmem
    rw [hsplit, List.pairwise_append, List.pairwise_cons, List.pairwise_append] at hclock
    have hle := hclock.2.1.2.2.2 attempt hmem b List.mem_cons_self
    omega
  rw [cacheAfter_append, cacheAfter_cons, cooling_run hcooling hnow]
  exact (hcooling.idle python (by omega)).1

/-- **Credentials respect the cache and the cooldown.**  The attempts of a run are on one file,
    whatever is in it, with a clock that does not go back, and their requests bring back anything.

    After an attempt that was refused with HTTP 403 or 429 none sends a request for a minute.
    A token that was not requested is the one of the file, and its recorded expiry is more than
    a minute ahead.  As long as the token of the file is so, attempts without a refresh request
    no other and leave it there, also when the approval key is not obtained; and so does
    an attempt with the token it was issued itself. -/
theorem credentials_respected (cache : Cache) {attempts : List Attempt}
    (hclock : attempts.Pairwise fun a b => a.now.wall ≤ b.now.wall) :
    (∀ front a middle b back, attempts = front ++ a :: (middle ++ b :: back) →
      (authenticateReadOnly python (cacheAfter python cache front) a).Refused →
      b.now.wall < a.now.wall + credentialRateLimitCooldown →
      (authenticateReadOnly python (cacheAfter python cache (front ++ a :: middle)) b).requests = []) ∧
    (∀ front a back, attempts = front ++ a :: back →
      ∀ result, (authenticateReadOnly python (cacheAfter python cache front) a).result = .ok result →
      .token ∉ (authenticateReadOnly python (cacheAfter python cache front) a).requests →
      ∃ expiresAt, TokenCached python (cacheAfter python cache front) (.ok result.accessToken) expiresAt ∧
        a.now.wall + tokenMargin < expiresAt.utcInstant) ∧
    (∀ front middle b back, attempts = front ++ (middle ++ b :: back) →
      ∀ token expiresAt, TokenCached python (cacheAfter python cache front) token expiresAt →
      (∀ a ∈ middle, a.refreshToken = false) → b.refreshToken = false →
      b.now.wall + tokenMargin < expiresAt.utcInstant →
      .token ∉ (authenticateReadOnly python (cacheAfter python cache (front ++ middle)) b).requests ∧
        TokenCached python (authenticateReadOnly python (cacheAfter python cache (front ++ middle)) b).cache token
          expiresAt) ∧
    (∀ front a back, attempts = front ++ a :: back →
      .token ∈ (authenticateReadOnly python (cacheAfter python cache front) a).requests →
      (authenticateReadOnly python (cacheAfter python cache front) a).ApprovalFailed →
      ∃ token, (issuedToken python (cacheAfter python cache front) a).2 = .ok token ∧
        ∀ expiresAt, parseExpiry python (some (.text token.expiresAt)) = .ok (some expiresAt) →
        a.now.wall + tokenMargin < expiresAt.utcInstant →
        TokenCached python (authenticateReadOnly python (cacheAfter python cache front) a).cache
          (.ok token.accessToken) expiresAt) := by
  refine ⟨?_, ?_, ?_, ?_⟩
  · intro front a middle b back hsplit hrefused hbefore
    exact silent_after_refusal hclock hsplit hrefused hbefore
  · intro front a back _ result hresult hnone
    exact returned_cached hresult hnone
  · intro front middle b back hsplit token expiresAt hcached hmiddle hb hnow
    have hearlier : ∀ a ∈ middle, a.now.wall + tokenMargin < expiresAt.utcInstant := by
      intro a hmem
      rw [hsplit, List.pairwise_append, List.pairwise_append] at hclock
      have hle := hclock.2.1.2.2 a hmem b List.mem_cons_self
      omega
    rw [cacheAfter_append]
    exact attempt_keepsToken (run_keepsToken hcached hmiddle hearlier) hb hnow
  · intro front a back _ hsent hfailed
    obtain ⟨token, htoken⟩ := issued_of_approvalFailed hsent hfailed
    exact ⟨token, htoken, fun expiresAt hexpiry hnow => issuedToken_kept hsent htoken hexpiry hnow⟩

end Proofs

/-! ### A refused approval key -/

namespace RefusedKey

def str : Json → Except Exn String
  | .text s => .ok s
  | _ => .error (.typeError "not shown")

/-- Only texts are shown in this run. -/
def python : PythonValues where
  json := ⟨fun _ => .error (.valueError "Expecting value"), fun _ => .error (.typeError "not serializable"), str⟩
  str_text _ := rfl
  str_ne_empty := by
    intro value htruthy hempty
    cases value with
    | text s =>
      cases hempty
      cases htruthy
    | null => cases hempty
    | bool b => cases hempty
    | int n => cases hempty
    | float x => cases hempty
    | list items => cases hempty
    | dict fields => cases hempty
  otherFormats _ := none

/-- 2026-01-05T00:00:00+00:00 and so many seconds. -/
def clockTime (seconds : Fin 3600) : DateTime :=
  ⟨(20458 * DateTime.secondsPerDay + seconds.val) * microsPerSecond, some 0⟩

theorem clockTime_inRange (seconds : Fin 3600) : (clockTime seconds).InRange := by
  have hseconds := seconds.isLt
  constructor <;>
    simp only [clockTime, DateTime.minWall, DateTime.maxWall, DateTime.secondsPerDay, microsPerSecond] <;>
    omega

def clock (seconds : Fin 3600) : UtcTime := ⟨clockTime seconds, rfl, clockTime_inRange seconds⟩

def tokenAnswer : KisResponse where
  statusCode := 200
  json := .ok (.dict [("access_token", .text "token"), ("expires_in", .int 86400)])
  headers := []

def approvalAnswer : KisResponse where
  statusCode := 200
  json := .ok (.dict [("approval_key", .text "key")])
  headers := []

def refusal : KisResponse where
  statusCode := 429
  json := .ok (.dict [("msg_cd", .text "EGW00133")])
  headers := []

def attempt (seconds : Fin 3600) (approvalPost : KisResponse) : Attempt where
  client := ⟨"app-key", "app-secret"⟩
  now := clock seconds
  refreshToken := false
  tokenPost := .ok tokenAnswer
  approvalPost := .ok approvalPost

/-- The key is refused, asked for too early, and asked for again. -/
def attempts : List Attempt := [attempt 0 refusal, attempt 30 approvalAnswer, attempt 61 approvalAnswer]

def expiry : DateTime := ⟨(clock 0).wall + 86400 * microsPerSecond, some 0⟩

theorem first_refused : (authenticateReadOnly python [] (attempt 0 refusal)).Refused := by
  refine ⟨by decide +kernel, 429, [("msg_cd", "EGW00133")], ?_, .inr rfl⟩
  exact Except.eq_error_of_exn? (by decide +kernel)

theorem first_cached :
    TokenCached python (cacheAfter python [] [attempt 0 refusal]) (.ok "token") expiry where
  held := by decide +kernel
  text := Except.eq_ok_of_toOption (by decide +kernel)
  expiry := Except.eq_ok_of_toOption (by decide +kernel)

/-- Half a minute later nothing is sent, and after a minute only the key is asked for. -/
theorem refused_key_asked_again :
    (authenticateReadOnly python (cacheAfter python [] [attempt 0 refusal]) (attempt 30 approvalAnswer)).requests = [] ∧
    .token ∉ (authenticateReadOnly python (cacheAfter python [] [attempt 0 refusal, attempt 30 approvalAnswer])
      (attempt 61 approvalAnswer)).requests := by
  have hclock : attempts.Pairwise fun a b => a.now.wall ≤ b.now.wall := by decide +kernel
  have hrun := @credentials_respected python [] attempts hclock
  refine ⟨?_, ?_⟩
  · exact hrun.1 [] _ [] _ [attempt 61 approvalAnswer] rfl first_refused (by decide +kernel)
  · refine (hrun.2.2.1 [attempt 0 refusal] [attempt 30 approvalAnswer] _ [] rfl _ _ first_cached ?_ rfl
      (by decide +kernel)).1
    intro a ha
    rw [List.mem_singleton.mp ha]
    rfl

end RefusedKey

end AutoTrader.KisAuth
