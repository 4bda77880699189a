/-
  AutoTrader/Pipeline/Control.lean
  ================================
  **The runtime control: pausing, the environment, the emergency stop.**

  The operator's commands and the ticks of the trading service read and write the
  row of `runtime_control` and a few metadata keys.  Each SELECT and each method is
  an action of its own, since the Telegram poller and the service run side by side;
  the replies of the Telegram API are actions too.

  An action may mark a moment of its command (the first and the last write of a
  stop, of a clearing, what an environment switch has checked).  The marks change nothing; the
  statements about interleavings speak of them.
-/
import AutoTrader.Pipeline.Submission
import AutoTrader.Pipeline.Supervisor
import AutoTrader.Python.Floats
import AutoTrader.Storage.Approvals

namespace AutoTrader

open Relational Transactional Interleave

/-! ### Keys and texts -/

def realChallengeKey : String := "telegram.real_challenge"
def realChallengeExpiresKey : String := "telegram.real_challenge_expires"
def realResumeArmExpiresKey : String := "telegram.real_resume_arm_expires"
def realResumeArmUsesKey : String := "telegram.real_resume_arm_uses"
def telegramEmergencyStopKey : String := "telegram.emergency_stop"
def emergencyStopKey : String := "emergency_stop"

/-- The text of a value; of a JSON object no more than its braces. -/
def MetadataValue.asText : MetadataValue → String
  | .text value => value
  | .object _ => "\x7b\x7d"

/-- `get_runtime_metadata(key)` as a text. -/
def Database.metadataText (db : Database) (key : String) : Option String :=
  (db.getRuntimeMetadata key).map MetadataValue.asText

/-- `(value or "").strip().lower() in {"1", "true", "yes", "on"}`. -/
def flagText (value : Option String) : Bool :=
  Text.isWord ["1", "true", "yes", "on"] (value.getD "")

/-- `a or b`, for texts that may be missing. -/
def orText (a b : Option String) : Option String := if truthy a then a else b

/-! ### The methods of the database -/

/-- The upsert of `set_runtime_paused`. -/
def setRuntimePaused (now : DateTime) (paused : Bool) (reason source : String) : Tx Unit := do
  Exec.require (reason ≠ "" && source ≠ "") (.valueError "reason and source are required")
  Exec.statement fun db => ((), { db with
    runtimeControl := some (match db.runtimeControl with
      | none => ⟨paused, "demo", now, reason, source⟩
      | some c => { c with paused := paused, updatedAt := now, reason := reason, source := source }) })

/-- The upsert of `set_runtime_environment`. -/
def writeRuntimeEnvironment (now : DateTime) (environment reason source : String) : Tx Unit :=
  Exec.statement fun db => ((), { db with
    runtimeControl := some (match db.runtimeControl with
      | none => ⟨true, environment, now, reason, source⟩
      | some c => { c with
        environment := environment, updatedAt := now, reason := reason, source := source }) })

/-- `add_watchlist_symbol`; whether the symbol is new. -/
def addWatchlistSymbol (now : DateTime) (symbol : String) (enabled : Bool) : Tx Bool := do
  Exec.ofExcept (validateSymbol symbol)
  Exec.statement fun db =>
    let (watchlist, inserted) := db.watchlist.insertOrIgnore ⟨symbol, enabled, now⟩
    if inserted then (true, { db with watchlist := watchlist })
    else (false, { db with
      watchlist := watchlist.update symbol (fun r => { r with enabled := enabled }) fun _ => rfl })

/-- `set_watchlist_enabled`; whether the symbol is listed. -/
def setWatchlistEnabled (symbol : String) (enabled : Bool) : Tx Bool := do
  Exec.ofExcept (validateSymbol symbol)
  Exec.statement fun db => ((db.watchlist.find? symbol).isSome, { db with
    watchlist := db.watchlist.update symbol (fun r => { r with enabled := enabled }) fun _ => rfl })

/-- A method that the control commands call. -/
inductive ControlOp where
  | setRuntimeMetadata (key value : String)
  | setRuntimePaused (paused : Bool) (reason source : String)
  | writeRuntimeEnvironment (environment reason source : String)
  | resolveApprovalRequest (requestId decision : String) (resolvedBy : Option String) (now : DateTime)
  | addWatchlistSymbol (symbol : String) (enabled : Bool)
  | setWatchlistEnabled (symbol : String) (enabled : Bool)

/-- The call at a time, and whether it changed a row. -/
def ControlOp.run (now : DateTime) : ControlOp → Tx Bool
  | .setRuntimeMetadata key value => do
    AutoTrader.setRuntimeMetadata now key (.text value) none
    pure true
  | .setRuntimePaused paused reason source => do
    AutoTrader.setRuntimePaused now paused reason source
    pure true
  | .writeRuntimeEnvironment environment reason source => do
    AutoTrader.writeRuntimeEnvironment now environment reason source
    pure true
  | .resolveApprovalRequest requestId decision resolvedBy at' =>
    AutoTrader.resolveApprovalRequest now requestId decision resolvedBy (some at')
  | .addWatchlistSymbol symbol enabled => do
    let _ ← AutoTrader.addWatchlistSymbol now symbol enabled
    pure true
  | .setWatchlistEnabled symbol enabled => AutoTrader.setWatchlistEnabled symbol enabled

namespace ControlOp

variable (now : DateTime) (db : Database)

/-- The database a call leaves behind. -/
def exec (op : ControlOp) : Database := ((op.run now).run db).2

theorem exec_setRuntimeMetadata (key value : String) :
    (setRuntimeMetadata key value).exec now db =
      if Text.blank key then db
      else { db with runtimeMetadata := db.runtimeMetadata.upsert ⟨key, .text value, now⟩ } := by
  change ((AutoTrader.setRuntimeMetadata now key (.text value) none >>= fun _ => pure true).run db).2 = _
  unfold AutoTrader.setRuntimeMetadata requireNonempty
  cases Text.blank key <;> rfl

theorem run_setRuntimeMetadata {key : String} (value : String) (hkey : Text.blank key = false) :
    ((setRuntimeMetadata key value).run now).run db =
      (.ok true, (setRuntimeMetadata key value).exec now db) := by
  rw [exec_setRuntimeMetadata]
  change (AutoTrader.setRuntimeMetadata now key (.text value) none >>= fun _ => pure true).run db = _
  unfold AutoTrader.setRuntimeMetadata requireNonempty
  rw [hkey]
  rfl

theorem exec_setRuntimePaused (paused : Bool) (reason source : String) :
    (setRuntimePaused paused reason source).exec now db =
      if reason ≠ "" && source ≠ "" then { db with
        runtimeControl := some (match db.runtimeControl with
          | none => ⟨paused, "demo", now, reason, source⟩
          | some c =>
            { c with paused := paused, updatedAt := now, reason := reason, source := source }) }
      else db := by
  change ((AutoTrader.setRuntimePaused now paused reason source >>= fun _ => pure true).run db).2 = _
  unfold AutoTrader.setRuntimePaused
  cases (decide (reason ≠ "") && decide (source ≠ "")) <;> rfl

/-- A call on the requests or the watchlist. -/
def outside : ControlOp → Prop
  | .resolveApprovalRequest .. => True
  | .addWatchlistSymbol .. => True
  | .setWatchlistEnabled .. => True
  | _ => False

/-- Such a call touches these two tables only. -/
theorem exec_outside {op : ControlOp} (h : op.outside) : ∃ requests watchlist,
    op.exec now db = { db with approvalRequests := requests, watchlist := watchlist } := by
  let P : Database → Prop := fun db' => ∃ requests watchlist,
    db' = { db with approvalRequests := requests, watchlist := watchlist }
  have hrequests : ∀ {α : Type} (f : Table ApprovalRequest ApprovalRequest.requestId →
      Table ApprovalRequest ApprovalRequest.requestId × α), Exec.Keeps P (onApprovals f) := by
    rintro α f _ ⟨requests, watchlist, rfl⟩
    exact ⟨_, _, rfl⟩
  have hkeep : Exec.Keeps P (op.run now) := by
    cases op with
    | resolveApprovalRequest requestId decision resolvedBy at' =>
      refine Exec.Keeps.bind (fun _ h => h) fun _ => Exec.Keeps.bind (fun _ h => h) fun _ => ?_
      exact Exec.Keeps.transaction ((hrequests _).bind fun _ => hrequests _)
    | addWatchlistSymbol symbol enabled =>
      refine Exec.Keeps.bind (Exec.Keeps.bind (fun _ h => h) fun _ => ?_) fun _ _ h => h
      rintro _ ⟨requests, watchlist, rfl⟩
      simp only [Exec.run_statement]
      split
      · exact ⟨_, _, rfl⟩
      · exact ⟨_, _, rfl⟩
    | setWatchlistEnabled symbol enabled =>
      refine Exec.Keeps.bind (fun _ h => h) fun _ => ?_
      rintro _ ⟨requests, watchlist, rfl⟩
      exact ⟨_, _, rfl⟩
    | setRuntimeMetadata | setRuntimePaused | writeRuntimeEnvironment => exact h.elim
  exact hkeep db ⟨_, _, rfl⟩

theorem metadataText_outside {op : ControlOp} (h : op.outside) (key : String) :
    (op.exec now db).metadataText key = db.metadataText key := by
  obtain ⟨requests, watchlist, hexec⟩ := exec_outside now db h
  rw [hexec]
  rfl

theorem control_outside {op : ControlOp} (h : op.outside) :
    (op.exec now db).getRuntimeControl = db.getRuntimeControl := by
  obtain ⟨requests, watchlist, hexec⟩ := exec_outside now db h
  rw [hexec]
  rfl

theorem ledgers_outside {op : ControlOp} (h : op.outside) :
    (op.exec now db).livePositions = db.livePositions ∧
      (op.exec now db).brokerOrders = db.brokerOrders := by
  obtain ⟨requests, watchlist, hexec⟩ := exec_outside now db h
  rw [hexec]
  exact ⟨rfl, rfl⟩

/-- What a call leaves in a key. -/
theorem metadataText_exec (op : ControlOp) (key : String) :
    (op.exec now db).metadataText key =
      match op with
      | .setRuntimeMetadata k value =>
        if k = key ∧ Text.blank k = false then some value else db.metadataText key
      | _ => db.metadataText key := by
  cases op with
  | setRuntimeMetadata k value =>
    rw [exec_setRuntimeMetadata]
    cases hblank : Text.blank k with
    | true => simp [hblank]
    | false =>
      by_cases hk : k = key
      · subst hk
        have hself := db.runtimeMetadata.find?_upsert_self ⟨k, .text value, now⟩
        simp [Database.metadataText, Database.getRuntimeMetadata, hself, MetadataValue.asText, hblank]
      · have hother := db.runtimeMetadata.find?_upsert_ne (r := ⟨k, .text value, now⟩) (Ne.symm hk)
        simp [Database.metadataText, Database.getRuntimeMetadata, hother, hk]
  | setRuntimePaused paused reason source =>
    rw [exec_setRuntimePaused]
    split <;> rfl
  | writeRuntimeEnvironment => rfl
  | resolveApprovalRequest | addWatchlistSymbol | setWatchlistEnabled =>
    exact metadataText_outside now db (by trivial) key

theorem exec_writeRuntimeEnvironment (environment reason source : String) :
    (writeRuntimeEnvironment environment reason source).exec now db = { db with
      runtimeControl := some (match db.runtimeControl with
        | none => ⟨true, environment, now, reason, source⟩
        | some c => { c with
          environment := environment, updatedAt := now, reason := reason, source := source }) } := rfl

theorem paused_eq : db.getRuntimeControl.paused = (db.runtimeControl.map (·.paused)).getD true := by
  unfold Database.getRuntimeControl
  cases db.runtimeControl with
  | none => rfl
  | some c =>
    dsimp only
    split <;> rfl

theorem environment_eq :
    db.getRuntimeControl.environment =
      match db.runtimeControl with
      | none => "demo"
      | some c => if c.environment = "" then "demo" else c.environment := by
  unfold Database.getRuntimeControl
  cases db.runtimeControl with
  | none => rfl
  | some c => by_cases hempty : c.environment = "" <;> simp [hempty]

/-- What a call leaves in the pause flag. -/
theorem paused_exec (op : ControlOp) :
    (op.exec now db).getRuntimeControl.paused =
      match op with
      | .setRuntimePaused paused reason source =>
        if reason ≠ "" && source ≠ "" then paused else db.getRuntimeControl.paused
      | _ => db.getRuntimeControl.paused := by
  cases op with
  | setRuntimeMetadata key value =>
    rw [exec_setRuntimeMetadata]
    split <;> rfl
  | setRuntimePaused paused reason source =>
    rw [exec_setRuntimePaused]
    dsimp only
    cases (decide (reason ≠ "") && decide (source ≠ "")) with
    | false => rfl
    | true => cases hrow : db.runtimeControl <;> simp [paused_eq]
  | writeRuntimeEnvironment environment reason source =>
    rw [exec_writeRuntimeEnvironment]
    cases hrow : db.runtimeControl <;> simp [paused_eq, hrow]
  | resolveApprovalRequest | addWatchlistSymbol | setWatchlistEnabled =>
    exact congrArg RuntimeControl.paused (control_outside now db (by trivial))

/-- What a call leaves as the environment. -/
theorem environment_exec (op : ControlOp) :
    (op.exec now db).getRuntimeControl.environment =
      match op with
      | .writeRuntimeEnvironment environment _ _ => if environment = "" then "demo" else environment
      | _ => db.getRuntimeControl.environment := by
  cases op with
  | setRuntimeMetadata key value =>
    rw [exec_setRuntimeMetadata]
    split <;> rfl
  | setRuntimePaused paused reason source =>
    rw [exec_setRuntimePaused]
    dsimp only
    cases (decide (reason ≠ "") && decide (source ≠ "")) with
    | false => rfl
    | true => cases hrow : db.runtimeControl <;> simp [environment_eq, hrow]
  | writeRuntimeEnvironment environment reason source =>
    rw [exec_writeRuntimeEnvironment]
    by_cases hempty : environment = "" <;> cases db.runtimeControl <;> simp [environment_eq, hempty]
  | resolveApprovalRequest | addWatchlistSymbol | setWatchlistEnabled =>
    exact congrArg RuntimeControl.environment (control_outside now db (by trivial))

/-- The ledgers are not the commands' business. -/
theorem ledgers_exec (op : ControlOp) :
    (op.exec now db).livePositions = db.livePositions ∧
      (op.exec now db).brokerOrders = db.brokerOrders := by
  cases op with
  | setRuntimeMetadata key value =>
    rw [exec_setRuntimeMetadata]
    split <;> exact ⟨rfl, rfl⟩
  | setRuntimePaused paused reason source =>
    rw [exec_setRuntimePaused]
    split <;> exact ⟨rfl, rfl⟩
  | writeRuntimeEnvironment => exact ⟨rfl, rfl⟩
  | resolveApprovalRequest | addWatchlistSymbol | setWatchlistEnabled =>
    exact ledgers_outside now db (by trivial)

end ControlOp

/-! ### Actions -/

/-- The moments a command marks. -/
inductive Mark where
  | within
  | stopBegins
  | stopEnds
  | clearBegins
  | clearEnds
  | checkBegins
  | checkUnchanged (environment : String)
  | positionsChecked
  | ordersChecked
  | checkEnds
  | confirmed
  | raised
deriving DecidableEq

inductive TelegramCommand where
  | pause
  | resume (reason : String)
  | emergencyStop
  | clearEmergency
  | environment (value : Option String)
  | confirmReal (code : String)
  | cancelOpenBuys
  | resolveApproval (approve : Bool) (requestId : String)
  | frequency (profile : String)
  | watchlistAdd (symbols : List String)
  | watchlistRemove (symbols : List String)
  | show (text : String)

/-- What `handle_update` takes from an update: who sent it, the callback it answers
    if it is a button, and the command, which may fail to parse. -/
structure TelegramUpdate where
  updateId : Int
  chatId : Option String
  userId : Option String
  callbackId : Option String
  messageId : Option Int
  command : Except Exn (Option TelegramCommand)

inductive ApiCall where
  | getUpdates (offset : Option Int) (limit : Nat)
  | answerCallbackQuery (callbackId : String)
  | editMessageText (chatId : String) (messageId : Int) (text : String)
  | deleteMessage (chatId : String) (messageId : Int)
  | sendMessage (chatId text : String)

inductive ControlAct : Type 1
  | read {β : Type} (query : Database → β) (mark : β → Mark)
  | utcnow
  | challengeCode
  | call (op : ControlOp) (mark : Mark)
  | api (call : ApiCall)
  | handles (updateId : Int)

/-- What an action answers; a method and the Telegram API may raise. -/
abbrev ControlAct.Reply : ControlAct → Type
  | .read (β := β) _ _ => β
  | .utcnow => DateTime
  | .challengeCode => String
  | .call .. => Except Exn Bool
  | .api _ => Except Exn (List TelegramUpdate)
  | .handles _ => Unit

abbrev control : Signature where
  Op := ControlAct
  Reply := ControlAct.Reply

/-- The programs of the operator's commands and of the service. -/
abbrev Command (α : Type) := Raising control Exn α

namespace Command

def query {β : Type} (f : Database → β) : Command β :=
  Raising.ask (S := control) (.read f fun _ => .within)

/-- A SELECT that marks a moment, depending on what it answers. -/
def queryAt {β : Type} (f : Database → β) (mark : β → Mark) : Command β :=
  Raising.ask (S := control) (.read f mark)

def utcnow : Command DateTime := Raising.ask (S := control) .utcnow

def lift {α : Type} : Except Exn α → Command α
  | .ok a => pure a
  | .error e => throw e

def callAt (op : ControlOp) (mark : Mark) : Command Bool := do
  lift (← Raising.ask (S := control) (.call op mark))

def call (op : ControlOp) : Command Bool := callAt op .within

def api (c : ApiCall) : Command (List TelegramUpdate) := do
  lift (← Raising.ask (S := control) (.api c))

/-- `_metadata`. -/
def metadata (key : String) : Command (Option String) := query fun db => db.metadataText key

/-- `_set_metadata`. -/
def setMetadata (key value : String) (mark : Mark) : Command Unit := do
  let _ ← callAt (.setRuntimeMetadata key value) mark

/-- `set_paused`. -/
def setPaused (paused : Bool) (reason source : String) (mark : Mark) : Command Unit := do
  let _ ← callAt (.setRuntimePaused paused reason source) mark

end Command

open Command

/-! ### The environment -/

/-- A live position is OPEN. -/
def Database.hasOpenPosition (db : Database) : Bool := db.livePositions.rows.any (·.status = .open)

/-- A broker order is in one of the active states. -/
def Database.hasActiveOrder (db : Database) : Bool := db.brokerOrders.rows.any (!·.status.terminal)

/-- The checks of `set_runtime_environment` on the ledgers. -/
def checkNoLiveState : Command Unit := do
  let openPosition ← queryAt (·.hasOpenPosition) fun found =>
    if found then .checkEnds else .positionsChecked
  let activeOrder ← queryAt (·.hasActiveOrder) fun found =>
    if openPosition || found then .checkEnds else .ordersChecked
  if openPosition || activeOrder then
    throw (.valueError ("runtime environment cannot change with local open positions " ++
      "or active/unknown broker orders"))
  else pure ()

/-- An environment that is stored already needs no check. -/
def checkChange (environment stored : String) : Command Unit :=
  if environment ≠ stored then checkNoLiveState else pure ()

/-- `set_runtime_environment`. -/
def setRuntimeEnvironment (environment reason source : String) : Command Unit := do
  if environment ≠ "demo" ∧ environment ≠ "real" then
    throw (.valueError "runtime environment must be demo or real")
  else if reason = "" ∨ source = "" then throw (.valueError "reason and source are required")
  else
    let stored ← queryAt (·.getRuntimeControl) fun c =>
      if c.paused = false then .within
      else if environment ≠ c.environment then .checkBegins
      else .checkUnchanged environment
    if stored.paused = false then
      throw (.valueError "runtime environment can only be changed while paused")
    else
      checkChange environment stored.environment
      let _ ← callAt (.writeRuntimeEnvironment environment reason source) .checkEnds

/-! ### The real environment -/

/-- `not expires_text or _utcnow() >= datetime.fromisoformat(expires_text)`, a text
    that is no timestamp counting as expired. -/
def challengeExpired (expiresText : String) : Command Bool := do
  if expiresText = "" then pure true
  else
    let now ← utcnow
    match DateTime.fromisoformat? expiresText with
    | none => pure true
    | some expiresAt =>
      if expiresAt.offset = none then
        throw (.typeError "can't compare offset-naive and offset-aware datetimes")
      else pure (expiresAt.instant ≤ now.instant)

/-- `secrets.compare_digest` on texts. -/
def compareDigest (a b : String) : Except Exn Bool :=
  if (a.toList ++ b.toList).all fun c => c.toNat < 128 then .ok (a = b)
  else .error (.typeError "comparing strings with non-ASCII characters is not supported")

/-- `not code or not secrets.compare_digest(code, expected) or expired`. -/
def challengeRefused (code expected : String) (expired : Bool) : Except Exn Bool :=
  if code = "" then .ok true
  else
    match compareDigest code expected with
    | .error e => .error e
    | .ok same => .ok (!same || expired)

/-- `(_utcnow() + timedelta(minutes=minutes)).isoformat()`. -/
def expiryText (minutes : Int) : Command String := do
  let now ← utcnow
  let expires ← lift (now.add (minutes * 60 * DateTime.microsPerSecond))
  pure expires.isoformat

/-- `_real_challenge`. -/
def realChallenge : Command String := do
  let code ← Raising.ask (S := control) .challengeCode
  let expires ← expiryText 5
  setMetadata realChallengeKey code .within
  setMetadata realChallengeExpiresKey expires .within
  pure code

/-- The writes of `_confirm_real` after the environment is set. -/
def armRealResume : Command Unit := do
  setMetadata realChallengeKey "" .within
  setMetadata realChallengeExpiresKey "" .within
  let expires ← expiryText 15
  setMetadata realResumeArmExpiresKey expires .within
  setMetadata realResumeArmUsesKey "1" .confirmed

/-- `_confirm_real`. -/
def confirmReal (code : String) : Command String := do
  let stored ← query (·.getRuntimeControl)
  if stored.paused = false then pure "real environment can only be confirmed while paused"
  else
    let expected ← metadata realChallengeKey
    let expiresText ← metadata realChallengeExpiresKey
    let expired ← challengeExpired (expiresText.getD "")
    let refused ← lift (challengeRefused code (expected.getD "") expired)
    if refused then pure "real challenge invalid or expired"
    else
      match ← Raising.attempt (setRuntimeEnvironment "real" "telegram_operator" "telegram") with
      | .error (.valueError message) => pure ("runtime environment unchanged: " ++ message)
      | .error e => throw e
      | .ok _ => do
        armRealResume
        pure "runtime environment: real (armed for one resume)"

/-- `_utcnow() < datetime.fromisoformat(expires_text) and int(uses_text) > 0`, a text
    of another form counting as false. -/
def armValid (now : DateTime) (expiresText usesText : String) : Option Int :=
  match DateTime.fromisoformat? expiresText with
  | none => none
  | some expiresAt =>
    if expiresAt.offset.isSome ∧ now.instant < expiresAt.instant then
      (Text.toInt? usesText).filter (0 < ·)
    else none

/-- `_real_resume_allowed`. -/
def realResumeAllowed : Command Bool := do
  let stored ← query (·.getRuntimeControl)
  if stored.environment ≠ "real" then pure true
  else
    let expiresText ← metadata realResumeArmExpiresKey
    let usesText ← metadata realResumeArmUsesKey
    let now ← utcnow
    match armValid now (expiresText.getD "") ((orText usesText (some "0")).getD "") with
    | none => pure false
    | some uses => do
      setMetadata realResumeArmUsesKey (toString (uses - 1)) .within
      pure true

/-! ### Stopping and resuming -/

/-- `_request_open_buy_cancellation`. -/
def requestOpenBuyCancellation (mark : Mark) : Command Bool := do
  let pending ← query fun db => db.brokerOrders.rows.any fun o => o.side = .buy &&
    (o.status = .acknowledged || o.status = .partiallyFilled || o.status = .cancelPending ||
      o.status = .unknown)
  setMetadata cancelRequestKey (if pending then "true" else "false") mark
  pure pending

def stopText (cancellationRequested : Bool) : String :=
  if cancellationRequested then
    "emergency stop active; runtime paused; open BUY cancellation requested"
  else "emergency stop active; runtime paused; no open BUY orders"

/-- `/pause`. -/
def pauseCommand : Command String := do
  setMetadata telegramEmergencyStopKey "true" .stopBegins
  setPaused true "telegram_emergency_stop" "telegram" .within
  let requested ← requestOpenBuyCancellation .stopEnds
  pure (stopText requested)

/-- `/emergency-stop`. -/
def emergencyStopCommand : Command String := do
  setMetadata telegramEmergencyStopKey "true" .stopBegins
  setPaused true "telegram_emergency_stop" "telegram" .within
  let requested ← requestOpenBuyCancellation .within
  setMetadata realResumeArmExpiresKey "" .within
  setMetadata realResumeArmUsesKey "0" .stopEnds
  pure (stopText requested)

/-- `/clear-emergency`. -/
def clearEmergencyCommand : Command String := do
  if ← realResumeAllowed then
    setMetadata telegramEmergencyStopKey "false" .clearBegins
    setMetadata emergencyStopKey "false" .within
    setPaused false "emergency_stop_cleared" "telegram" .clearEnds
    pure "emergency stop cleared; automatic runtime control restored"
  else pure "clear emergency rejected: real environment requires a fresh challenge confirmation"

/-- What the readiness check learns from outside the modelled tables: the blockers of
    the configuration for an environment (order gate, keys, watchlist), those of the
    heartbeats and the calendar, and the reasons in the supervisor's status. -/
structure Host where
  configuration : String → List String
  workers : List String
  supervisorReasons : Option String → String

/-- The emergency value of `_readiness`. -/
def readinessEmergency (telegramStop stop : Option String) : Option String := orText telegramStop stop

/-- The right side of an `or`, read only when the left side is empty. -/
def metadataUnless (value : Option String) (key : String) : Command (Option String) :=
  if truthy value then pure none else metadata key

/-- The blockers of `_readiness`. -/
def readinessBlockers (host : Host) : Command (List String) := do
  let stored ← query (·.getRuntimeControl)
  let review ← metadata "operator_review"
  let blockEntries ← metadata "block_new_entries"
  let telegramStop ← metadata telegramEmergencyStopKey
  let stop ← metadataUnless telegramStop emergencyStopKey
  let cancelPending ← metadata cancelRequestKey
  let status ← metadata "order-supervisor.status"
  let unresolved ← query fun db => db.brokerOrders.rows.any fun o =>
    o.status = .cancelPending || o.status = .unknown
  let detail := host.supervisorReasons status
  pure (host.configuration stored.environment ++
    (if flagText review then
      ["operator_review=true" ++ (if detail = "" then "" else " (" ++ detail ++ ")")] else []) ++
    (if flagText blockEntries then ["block_new_entries=true"] else []) ++
    (if flagText (readinessEmergency telegramStop stop) then ["emergency_stop=true"] else []) ++
    (if flagText cancelPending || unresolved then
      ["cancellation is still pending (미해결 주문/취소 대기)"] else []) ++
    host.workers)

/-- `_resume_safety_reason`. -/
def resumeSafetyReason : Command (Option String) := do
  if flagText (← metadata "operator_review") then pure (some "operator review is active")
  else if flagText (← metadata "block_new_entries") then pure (some "new entries are blocked")
  else
    let unresolved ← query fun db => db.brokerOrders.rows.find? fun o =>
      o.status = .cancelPending || o.status = .unknown
    pure (unresolved.map fun o => "broker order is unresolved (" ++ o.status.name ++ ")")

/-- `_emergency_stop_active`. -/
def emergencyStopActive : Command Bool := do
  let value ← metadata telegramEmergencyStopKey
  pure (String.ofList ((value.getD "").toList.map Char.toLower) = "true")

/-- Why `/resume` is rejected, if it is. -/
def resumeRejection (host : Host) : Command (Option String) := do
  let blockers ← readinessBlockers host
  let safety ← resumeSafetyReason
  if ← emergencyStopActive then
    pure (some "emergency stop is active; use /clear-emergency while paused")
  else if blockers ≠ [] then
    pure (some ("readiness blockers\n" ++ "\n".intercalate (blockers.map ("- " ++ ·))))
  else if flagText (← metadata cancelRequestKey) then
    pure (some "open BUY cancellation is still pending")
  else if safety.isSome then pure safety
  else if ← realResumeAllowed then pure none
  else pure (some "real environment requires a fresh challenge confirmation")

/-- `/resume`. -/
def resumeCommand (host : Host) (reason : String) : Command String := do
  match ← resumeRejection host with
  | some rejection => pure ("resume rejected: " ++ rejection)
  | none => do
    setPaused false reason "telegram" .within
    pure "runtime resumed"

/-! ### The service -/

/-- `_metadata_flag`, the keys read one after the other until one is set. -/
def metadataFlag : List String → Command Bool
  | [] => pure false
  | key :: rest => do
    if flagText (← metadata key) then pure true else metadataFlag rest

/-- `_sync_service_runtime`. -/
def syncServiceRuntime (startup : Bool) : Command Unit := do
  let stored ← query (·.getRuntimeControl)
  if ← metadataFlag [telegramEmergencyStopKey, emergencyStopKey] then
    if stored.paused then pure ()
    else setPaused true "emergency_stop_restored" "service" .within
  else if startup || stored.paused then
    setPaused false (if startup then "service_start_auto_resume" else "automatic_recovery") "service"
      .within
  else pure ()

/-! ### Which actions a command performs -/

namespace Command

/-- Every action the command can perform satisfies `P`. -/
abbrev Does {α : Type} (P : ControlAct → Prop) (p : Command α) : Prop :=
  Raising.Only (S := control) P p

/-- A condition that leaves reading free. -/
structure AllowsReads (P : ControlAct → Prop) : Prop where
  read : ∀ {β : Type} (f : Database → β), P (.read f fun _ => .within)
  utcnow : P .utcnow

section Does

variable {P : ControlAct → Prop}

theorem does_lift {α : Type} (r : Except Exn α) : Does P (lift r) := by
  cases r with
  | ok a => exact Raising.Only.pure a
  | error e => exact Raising.Only.throw e

theorem does_callAt {op : ControlOp} {mark : Mark} (h : P (.call op mark)) :
    Does P (callAt op mark) :=
  Raising.Only.bind (Raising.Only.ask (S := control) (o := .call op mark) h) does_lift

theorem does_setMetadata {key value : String} {mark : Mark}
    (h : P (.call (.setRuntimeMetadata key value) mark)) : Does P (setMetadata key value mark) :=
  (does_callAt h).bind fun _ => Raising.Only.pure _

theorem does_setPaused {paused : Bool} {reason source : String} {mark : Mark}
    (h : P (.call (.setRuntimePaused paused reason source) mark)) :
    Does P (setPaused paused reason source mark) :=
  (does_callAt h).bind fun _ => Raising.Only.pure _

variable (hP : AllowsReads P)

include hP

theorem does_query {β : Type} (f : Database → β) : Does P (query f) :=
  Raising.Only.ask (S := control) (o := .read f _) (hP.read f)

theorem does_metadata (key : String) : Does P (metadata key) := does_query hP _

theorem does_utcnow : Does P Command.utcnow :=
  Raising.Only.ask (S := control) (o := .utcnow) hP.utcnow

theorem does_metadataFlag (keys : List String) : Does P (metadataFlag keys) := by
  induction keys with
  | nil => exact Raising.Only.pure _
  | cons key rest ih =>
    unfold metadataFlag
    apply (does_metadata hP key).bind
    intro value
    cases flagText value with
    | true => exact Raising.Only.pure _
    | false => exact ih

theorem does_syncServiceRuntime (startup : Bool)
    (hpause : P (.call (.setRuntimePaused true "emergency_stop_restored" "service") .within))
    (hresume : ∀ reason, P (.call (.setRuntimePaused false reason "service") .within)) :
    Does P (syncServiceRuntime startup) := by
  unfold syncServiceRuntime
  apply (does_query hP _).bind
  intro stored
  apply (does_metadataFlag hP _).bind
  intro emergency
  refine Raising.Only.ite ?_ ?_
  · refine Raising.Only.ite ?_ ?_
    · exact Raising.Only.pure _
    · exact does_setPaused hpause
  · refine Raising.Only.ite ?_ ?_
    · exact does_setPaused (hresume _)
    · exact Raising.Only.pure _

theorem does_realResumeAllowed
    (huses : ∀ value, P (.call (.setRuntimeMetadata realResumeArmUsesKey value) .within)) :
    Does P realResumeAllowed := by
  unfold realResumeAllowed
  apply (does_query hP _).bind
  intro stored
  refine Raising.Only.ite ?_ ?_
  · exact Raising.Only.pure _
  · apply (does_metadata hP _).bind
    intro expiresText
    apply (does_metadata hP _).bind
    intro usesText
    apply (does_utcnow hP).bind
    intro now
    cases armValid now (expiresText.getD "") ((orText usesText (some "0")).getD "") with
    | none => exact Raising.Only.pure _
    | some uses => exact (does_setMetadata (huses _)).bind fun _ => Raising.Only.pure _

theorem does_requestOpenBuyCancellation (mark : Mark)
    (hrequest : ∀ value, P (.call (.setRuntimeMetadata cancelRequestKey value) mark)) :
    Does P (requestOpenBuyCancellation mark) := by
  unfold requestOpenBuyCancellation
  apply (does_query hP _).bind
  intro pending
  exact (does_setMetadata (hrequest _)).bind fun _ => Raising.Only.pure _

theorem does_pauseCommand
    (hstop : P (.call (.setRuntimeMetadata telegramEmergencyStopKey "true") .stopBegins))
    (hpause : P (.call (.setRuntimePaused true "telegram_emergency_stop" "telegram") .within))
    (hrequest : ∀ value, P (.call (.setRuntimeMetadata cancelRequestKey value) .stopEnds)) :
    Does P pauseCommand := by
  unfold pauseCommand
  apply (does_setMetadata hstop).bind
  intro _
  apply (does_setPaused hpause).bind
  intro _
  exact (does_requestOpenBuyCancellation hP _ hrequest).bind fun _ => Raising.Only.pure _

theorem does_emergencyStopCommand
    (hstop : P (.call (.setRuntimeMetadata telegramEmergencyStopKey "true") .stopBegins))
    (hpause : P (.call (.setRuntimePaused true "telegram_emergency_stop" "telegram") .within))
    (hrequest : ∀ value, P (.call (.setRuntimeMetadata cancelRequestKey value) .within))
    (hexpires : P (.call (.setRuntimeMetadata realResumeArmExpiresKey "") .within))
    (huses : P (.call (.setRuntimeMetadata realResumeArmUsesKey "0") .stopEnds)) :
    Does P emergencyStopCommand := by
  unfold emergencyStopCommand
  apply (does_setMetadata hstop).bind
  intro _
  apply (does_setPaused hpause).bind
  intro _
  apply (does_requestOpenBuyCancellation hP _ hrequest).bind
  intro requested
  apply (does_setMetadata hexpires).bind
  intro _
  exact (does_setMetadata huses).bind fun _ => Raising.Only.pure _

theorem does_clearEmergencyCommand
    (huses : ∀ value, P (.call (.setRuntimeMetadata realResumeArmUsesKey value) .within))
    (htelegram : P (.call (.setRuntimeMetadata telegramEmergencyStopKey "false") .clearBegins))
    (hstop : P (.call (.setRuntimeMetadata emergencyStopKey "false") .within))
    (hresume : P (.call (.setRuntimePaused false "emergency_stop_cleared" "telegram") .clearEnds)) :
    Does P clearEmergencyCommand := by
  unfold clearEmergencyCommand
  apply (does_realResumeAllowed hP huses).bind
  intro allowed
  refine Raising.Only.ite ?_ ?_
  · apply (does_setMetadata htelegram).bind
    intro _
    apply (does_setMetadata hstop).bind
    intro _
    exact (does_setPaused hresume).bind fun _ => Raising.Only.pure _
  · exact Raising.Only.pure _

theorem does_metadataUnless (value : Option String) (key : String) :
    Does P (metadataUnless value key) := by
  unfold metadataUnless
  refine Raising.Only.ite ?_ ?_
  · exact Raising.Only.pure _
  · exact does_metadata hP key

theorem does_readinessBlockers (host : Host) : Does P (readinessBlockers host) := by
  unfold readinessBlockers
  apply (does_query hP _).bind
  intro stored
  apply (does_metadata hP _).bind
  intro review
  apply (does_metadata hP _).bind
  intro blockEntries
  apply (does_metadata hP _).bind
  intro telegramStop
  apply (does_metadataUnless hP _ _).bind
  intro stop
  apply (does_metadata hP _).bind
  intro cancelPending
  apply (does_metadata hP _).bind
  intro status
  exact (does_query hP _).bind fun _ => Raising.Only.pure _

theorem does_resumeSafetyReason : Does P resumeSafetyReason := by
  unfold resumeSafetyReason
  apply (does_metadata hP _).bind
  intro review
  cases flagText review with
  | true => exact Raising.Only.pure _
  | false =>
    apply (does_metadata hP _).bind
    intro blockEntries
    cases flagText blockEntries with
    | true => exact Raising.Only.pure _
    | false => exact (does_query hP _).bind fun _ => Raising.Only.pure _

theorem does_resumeRejection (host : Host)
    (huses : ∀ value, P (.call (.setRuntimeMetadata realResumeArmUsesKey value) .within)) :
    Does P (resumeRejection host) := by
  unfold resumeRejection
  apply (does_readinessBlockers hP host).bind
  intro blockers
  apply (does_resumeSafetyReason hP).bind
  intro safety
  refine Raising.Only.bind ((does_metadata hP _).bind fun _ => Raising.Only.pure _) fun stopped => ?_
  refine Raising.Only.ite ?_ ?_
  · exact Raising.Only.pure _
  · refine Raising.Only.ite ?_ ?_
    · exact Raising.Only.pure _
    · apply (does_metadata hP _).bind
      intro cancelPending
      generalize flagText cancelPending = pending
      refine Raising.Only.ite ?_ ?_
      · exact Raising.Only.pure _
      · refine Raising.Only.ite ?_ ?_
        · exact Raising.Only.pure _
        · apply (does_realResumeAllowed hP huses).bind
          intro allowed
          exact Raising.Only.ite (Raising.Only.pure _) (Raising.Only.pure _)

theorem does_resumeCommand (host : Host) (reason : String)
    (huses : ∀ value, P (.call (.setRuntimeMetadata realResumeArmUsesKey value) .within))
    (hresume : P (.call (.setRuntimePaused false reason "telegram") .within)) :
    Does P (resumeCommand host reason) := by
  unfold resumeCommand
  apply (does_resumeRejection hP host huses).bind
  intro rejection
  cases rejection with
  | some rejection => exact Raising.Only.pure _
  | none => exact (does_setPaused hresume).bind fun _ => Raising.Only.pure _

end Does

end Command

/-! ### Running alone -/

/-- What a command that runs alone learns from outside the database, and which of its
    calls raise. -/
structure ControlReplies where
  now : DateTime
  challengeCode : String
  api : ApiCall → Except Exn (List TelegramUpdate)
  raises : ControlOp → Database → Option Exn

def controlHandler (replies : ControlReplies) : (o : ControlAct) → Database → o.Reply × Database
  | .read query _, db => (query db, db)
  | .utcnow, db => (replies.now, db)
  | .challengeCode, db => (replies.challengeCode, db)
  | .call op _, db =>
    match replies.raises op db with
    | some e => (.error e, db)
    | none => (op.run replies.now).run db
  | .api call, db => (replies.api call, db)
  | .handles _, db => ((), db)

section Alone

variable (replies : ControlReplies) (db : Database)

@[simp] theorem eval_query {β : Type} (f : Database → β) :
    Raising.eval (controlHandler replies) (query f) db = (.ok (f db), db) := rfl

@[simp] theorem eval_metadata (key : String) :
    Raising.eval (controlHandler replies) (metadata key) db = (.ok (db.metadataText key), db) := rfl

@[simp] theorem eval_lift {α : Type} (r : Except Exn α) :
    Raising.eval (controlHandler replies) (lift r) db = (r, db) := by
  cases r <;> rfl

@[simp] theorem eval_utcnow :
    Raising.eval (controlHandler replies) Command.utcnow db = (.ok replies.now, db) := rfl

theorem eval_callAt (op : ControlOp) (mark : Mark) :
    Raising.eval (controlHandler replies) (callAt op mark) db =
      match replies.raises op db with
      | some e => (.error e, db)
      | none => (op.run replies.now).run db := by
  change Raising.eval (controlHandler replies) (lift (controlHandler replies (.call op mark) db).1)
    (controlHandler replies (.call op mark) db).2 = _
  rw [eval_lift]
  simp only [controlHandler]

/-- The read of the keys of `_metadata_flag`. -/
theorem eval_metadataFlag (keys : List String) :
    Raising.eval (controlHandler replies) (metadataFlag keys) db =
      (.ok (keys.any fun key => flagText (db.metadataText key)), db) := by
  induction keys with
  | nil => rfl
  | cons key rest ih =>
    unfold metadataFlag
    rw [Raising.eval_bind, eval_metadata, List.any_cons]
    dsimp only
    cases flagText (db.metadataText key) with
    | true => rfl
    | false => exact ih

/-- A call leaves the database as it is, or as the method leaves it. -/
theorem controlHandler_call (op : ControlOp) (mark : Mark) :
    (controlHandler replies (.call op mark) db).2 = db ∨
      (controlHandler replies (.call op mark) db).2 = op.exec replies.now db := by
  simp only [controlHandler]
  cases replies.raises op db with
  | some e => exact .inl rfl
  | none => exact .inr rfl

end Alone

/-! ### Running side by side -/

/-- A command as a process; what it answers is not the pool's business. -/
def Command.detached {α : Type} (p : Command α) : Prog control Unit := do
  let _ ← p.run
  pure ()

theorem Command.Does.detached {α : Type} {P : ControlAct → Prop} {p : Command α} (h : Does P p) :
    (Command.detached p).Only P :=
  Prog.Only.bind h fun _ => trivial

/-- The database and what was noted of the marked moments. -/
structure Watched (γ : Type) where
  db : Database
  seen : γ

section Watched

variable {γ : Type} (record : Nat → Mark → γ → γ)
  (ok : Nat → ControlOp → Mark → Watched γ → Prop)

/-- One SELECT or one method after the other, by process `i`.  A call that meets `ok`
    succeeds, or raises and changes nothing; its mark counts when it succeeded. -/
def controlSem (i : Nat) : (o : ControlAct) → Watched γ → o.Reply → Watched γ → Prop
  | .read query mark, w, b, w' => b = query w.db ∧ w' = ⟨w.db, record i (mark b) w.seen⟩
  | .call op mark, w, b, w' =>
    (∃ now changed, ok i op mark w ∧ ((op.run now).run w.db).1 = .ok changed ∧ b = .ok changed ∧
      w' = ⟨op.exec now w.db, record i mark w.seen⟩) ∨
    (∃ e, b = .error e ∧ w' = ⟨w.db, record i .raised w.seen⟩)
  | .utcnow, w, _, w' => w' = w
  | .challengeCode, w, _, w' => w' = w
  | .api _, w, _, w' => w' = w
  | .handles _, w, _, w' => w' = w

section Safe

variable {record ok} {i : Nat} {inv : Watched γ → Prop} {rely guar : Watched γ → Watched γ → Prop}
  {R : Watched γ → Prop} (hR : ∀ w w', rely w w' → R w → R w')

include hR

/-- A SELECT leads from one assertion to the next. -/
theorem Command.safe_queryAt {β : Type} {f : Database → β} {mark : β → Mark}
    {T : β → Watched γ → Prop} (hT : ∀ b w w', rely w w' → T b w → T b w')
    (hstep : ∀ w, R w → inv w → inv ⟨w.db, record i (mark (f w.db)) w.seen⟩ ∧
      guar w ⟨w.db, record i (mark (f w.db)) w.seen⟩ ∧
      T (f w.db) ⟨w.db, record i (mark (f w.db)) w.seen⟩)
    {w : Watched γ} (hw : R w) :
    Raising.SafeE (controlSem record ok i) inv rely guar (queryAt f mark) T (fun _ _ => True) w := by
  apply Raising.SafeE.ask
  rintro w₁ hw₁ hinv _ _ ⟨rfl, rfl⟩
  obtain ⟨hinv₂, hguar, hpost⟩ := hstep w₁ (Raising.Keeps.stable hR hw₁ hw) hinv
  exact ⟨hinv₂, hguar, fun w₃ hw₃ => Raising.Keeps.stable (hT _) hw₃ hpost⟩

/-- A call leads from one assertion to the next, or raises. -/
theorem Command.safe_callAt {op : ControlOp} {mark : Mark} {T : Watched γ → Prop}
    (hT : ∀ w w', rely w w' → T w → T w')
    (hstep : ∀ w b w', R w → inv w → controlSem record ok i (.call op mark) w b w' →
      inv w' ∧ guar w w' ∧ ∀ changed, b = .ok changed → T w')
    {w : Watched γ} (hw : R w) :
    Raising.SafeE (controlSem record ok i) inv rely guar (callAt op mark) (fun _ => T)
      (fun _ _ => True) w := by
  apply Raising.SafeE.bind
  apply Raising.SafeE.ask
  intro w₁ hw₁ hinv b w₂ hsem
  obtain ⟨hinv₂, hguar, hpost⟩ := hstep w₁ b w₂ (Raising.Keeps.stable hR hw₁ hw) hinv hsem
  refine ⟨hinv₂, hguar, fun w₃ hw₃ => ?_⟩
  cases b with
  | error e => exact Raising.SafeE.throw fun _ _ => trivial
  | ok changed =>
    exact Raising.SafeE.pure fun w₄ hw₄ =>
      Raising.Keeps.stable hT (hw₃.trans hw₄) (hpost changed rfl)

end Safe

/-- A clock, a code and an API that answer. -/
def watchedHandler (replies : ControlReplies) (i : Nat) :
    (o : ControlAct) → Watched γ → o.Reply × Watched γ
  | .read query mark, w => (query w.db, ⟨w.db, record i (mark (query w.db)) w.seen⟩)
  | .call op mark, w =>
    match replies.raises op w.db, ((op.run replies.now).run w.db).1 with
    | none, .ok changed => (.ok changed, ⟨op.exec replies.now w.db, record i mark w.seen⟩)
    | none, .error e => (.error e, ⟨w.db, record i .raised w.seen⟩)
    | some e, _ => (.error e, ⟨w.db, record i .raised w.seen⟩)
  | .utcnow, w => (replies.now, w)
  | .challengeCode, w => (replies.challengeCode, w)
  | .api call, w => (replies.api call, w)
  | .handles _, w => ((), w)

/-- The calls of an action meet `ok`. -/
def callMeetsAt (i : Nat) : ControlAct → Watched γ → Prop
  | .call op mark, w => ok i op mark w
  | _, _ => True

theorem callMeetsAt_true (i : Nat) :
    callMeetsAt (γ := γ) (fun _ _ _ _ => True) i = fun _ _ => True := by
  funext o w
  cases o <;> rfl

theorem watchedHandler_sem (replies : ControlReplies) (i : Nat) (o : ControlAct) (w : Watched γ)
    (h : callMeetsAt ok i o w) :
    controlSem record ok i o w (watchedHandler record replies i o w).1
      (watchedHandler record replies i o w).2 := by
  cases o with
  | call op mark =>
    simp only [controlSem, watchedHandler]
    cases replies.raises op w.db with
    | some e => exact .inr ⟨e, rfl, rfl⟩
    | none =>
      cases hrun : ((op.run replies.now).run w.db).1 with
      | ok changed => exact .inl ⟨replies.now, changed, h, hrun, rfl, rfl⟩
      | error e => exact .inr ⟨e, rfl, rfl⟩
  | read query mark => exact ⟨rfl, rfl⟩
  | utcnow | challengeCode | api | handles => rfl

end Watched

end AutoTrader
