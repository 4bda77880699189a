/-
  AutoTrader/Pipeline/Telegram.lean
  =================================
  **The Telegram poller.**

  `handle_update` checks who sent an update, performs the operator's command and
  answers in the chat; `poll_telegram` handles the pending updates in the order of
  their ids and stores the next offset after the last one.  A call of the API that
  fails raises, and only the edit of a menu message has a fallback.
-/
import AutoTrader.Pipeline.Control

namespace AutoTrader

open Transactional Interleave Command

/-! ### The operator's commands -/

def tradeFrequencyProfileKey : String := "trade_frequency.profile"
def aiMinConfidenceKey : String := "trade_frequency.ai_min_confidence"
def telegramUpdateOffsetKey : String := "telegram.update_offset"

/-- `FREQUENCY_PRESETS`, the confidence as it is stored. -/
def frequencyPresets : List (String × String) :=
  [("conservative", "0.82"), ("normal", "0.75"), ("aggressive", "0.65")]

/-- `_set_frequency_text`. -/
def setFrequency (profile : String) : Command String :=
  match frequencyPresets.lookup profile with
  | none => pure "usage: /frequency conservative|normal|aggressive"
  | some confidence => do
    setMetadata tradeFrequencyProfileKey profile .within
    setMetadata aiMinConfidenceKey confidence .within
    pure ("거래 빈도 설정 완료\nprofile=" ++ profile ++ "\nai_min_confidence=" ++ confidence ++
      "\ncandidate_sensitivity=" ++ profile ++ "\ndaily_trade_limit=none")

/-- The enabled symbols, in order. -/
def Database.listWatchlistSymbols (db : Database) : List String :=
  ((db.watchlist.rows.filter (·.enabled)).map (·.symbol)).insertionSort (· ≤ ·)

/-- The symbols of a watchlist command that are not six digits. -/
def invalidSymbols (symbols : List String) : List String :=
  symbols.filter fun s => !Text.isdigit s || s.length ≠ 6

/-- `_watchlist_change_text`: each symbol is enabled or disabled. -/
def changeWatchlist (add : Bool) (symbols : List String) : Command String := do
  if symbols = [] then
    pure ("usage: " ++ (if add then "/watchlist-add" else "/watchlist-remove") ++ " <6자리코드들>")
  else if invalidSymbols symbols ≠ [] then
    pure ("잘못된 종목코드: " ++ ",".intercalate (invalidSymbols symbols) ++ " (각각 6자리 숫자 필요)")
  else
    let changed ← symbols.foldlM (fun changed symbol => do
      let written ← call (if add then .addWatchlistSymbol symbol true else .setWatchlistEnabled symbol false)
      pure (if written then changed ++ [symbol] else changed)) []
    let current ← query (·.listWatchlistSymbols)
    pure ("관심종목 " ++ (if add then "추가" else "제거") ++ ": " ++
      (if changed = [] then "변경 없음" else ",".intercalate changed) ++ "\n현재: " ++
      (if current = [] then "none" else ",".intercalate current))

/-- The branches of `/approve`, `/reject` and of the approval buttons. -/
def resolveApproval (userId : Option String) (approve : Bool) (requestId : String) :
    Command String := do
  let now ← utcnow
  let changed ← call (.resolveApprovalRequest requestId (if approve then "APPROVED" else "REJECTED")
    userId now)
  let status ← query fun db => db.approvalStatus? requestId
  pure ("approval " ++ requestId ++ ": " ++
    (if changed then if approve then "approved" else "rejected"
     else match status with
      | none => "not found"
      | some s => String.ofList (s.name.toList.map Char.toLower)))

/-- `/env demo`. -/
def selectDemo : Command String := do
  match ← Raising.attempt (setRuntimeEnvironment "demo" "telegram_operator" "telegram") with
  | .error (.valueError message) => pure ("environment unchanged: " ++ message)
  | .error e => throw e
  | .ok _ => pure "runtime environment: demo"

/-- `/env real`. -/
def requestReal : Command String := do
  let code ← realChallenge
  pure ("runtime environment: real pending\nchallenge: " ++ code ++ "\nconfirm with /confirm-real " ++
    code)

/-- What a command does, and the text it answers. -/
def TelegramCommand.perform (host : Host) (userId : Option String) : TelegramCommand → Command String
  | .pause => pauseCommand
  | .resume reason => resumeCommand host reason
  | .emergencyStop => emergencyStopCommand
  | .clearEmergency => clearEmergencyCommand
  | .environment none => pure "status"
  | .environment (some value) =>
    if value = "real" then requestReal
    else if value = "demo" then selectDemo
    else pure "usage: /env demo|real"
  | .confirmReal code => AutoTrader.confirmReal code
  | .cancelOpenBuys => do
    if ← requestOpenBuyCancellation .within then
      pure "open BUY cancellation requested; new entries temporarily blocked"
    else pure "no open BUY orders"
  | .resolveApproval approve requestId => AutoTrader.resolveApproval userId approve requestId
  | .frequency profile => setFrequency profile
  | .watchlistAdd symbols => changeWatchlist true symbols
  | .watchlistRemove symbols => changeWatchlist false symbols
  | .show text => pure text

/-! ### Which actions a command performs -/

/-- The commands that neither resume the runtime nor touch the arm, except to disarm. -/
def TelegramCommand.calm : TelegramCommand → Prop
  | .resume _ => False
  | .clearEmergency => False
  | .confirmReal _ => False
  | _ => True

namespace Command

/-- A condition that leaves free what the commands do besides resuming the runtime and
    spending or setting the arm. -/
structure AllowsControl (P : ControlAct → Prop) : Prop extends AllowsReads P where
  readAt : ∀ {β : Type} (f : Database → β) (mark : β → Mark), P (.read f mark)
  challengeCode : P .challengeCode
  metadata : ∀ key value mark, key ≠ realResumeArmUsesKey → key ≠ telegramUpdateOffsetKey →
    P (.call (.setRuntimeMetadata key value) mark)
  disarm : ∀ mark, P (.call (.setRuntimeMetadata realResumeArmUsesKey "0") mark)
  pause : ∀ reason source mark, P (.call (.setRuntimePaused true reason source) mark)
  environment : ∀ environment reason source mark,
    P (.call (.writeRuntimeEnvironment environment reason source) mark)
  outside : ∀ op mark, op.outside → P (.call op mark)

section Does

variable {P : ControlAct → Prop} (hP : AllowsControl P)

include hP

theorem does_write {key value : String} {mark : Mark} (huses : key ≠ realResumeArmUsesKey)
    (hoffset : key ≠ telegramUpdateOffsetKey) : Does P (setMetadata key value mark) :=
  does_setMetadata (hP.metadata _ _ _ huses hoffset)

theorem does_checkNoLiveState : Does P checkNoLiveState := by
  unfold checkNoLiveState
  apply Raising.Only.bind (Raising.Only.ask (S := control) (o := .read _ _) (hP.readAt _ _))
  intro openPosition
  apply Raising.Only.bind (Raising.Only.ask (S := control) (o := .read _ _) (hP.readAt _ _))
  intro activeOrder
  exact Raising.Only.ite (Raising.Only.throw _) (Raising.Only.pure _)

theorem does_setRuntimeEnvironment (environment reason source : String) :
    Does P (setRuntimeEnvironment environment reason source) := by
  unfold setRuntimeEnvironment
  refine Raising.Only.ite (Raising.Only.throw _) (Raising.Only.ite (Raising.Only.throw _) ?_)
  apply Raising.Only.bind (Raising.Only.ask (S := control) (o := .read _ _) (hP.readAt _ _))
  intro stored
  refine Raising.Only.ite (Raising.Only.throw _) ?_
  apply Raising.Only.bind
  · unfold checkChange
    exact Raising.Only.ite (does_checkNoLiveState hP) (Raising.Only.pure _)
  · exact fun _ => (does_callAt (hP.environment _ _ _ _)).bind fun _ => Raising.Only.pure _

theorem does_expiryText (minutes : Int) : Does P (expiryText minutes) := by
  unfold expiryText
  apply (does_utcnow hP.toAllowsReads).bind
  intro now
  exact (does_lift _).bind fun _ => Raising.Only.pure _

theorem does_challengeExpired (expiresText : String) : Does P (challengeExpired expiresText) := by
  unfold challengeExpired
  refine Raising.Only.ite (Raising.Only.pure _) ?_
  apply (does_utcnow hP.toAllowsReads).bind
  intro now
  cases DateTime.fromisoformat? expiresText with
  | none => exact Raising.Only.pure _
  | some expiresAt => exact Raising.Only.ite (Raising.Only.throw _) (Raising.Only.pure _)

theorem does_requestReal : Does P requestReal := by
  unfold requestReal realChallenge
  refine Raising.Only.bind ?_ fun _ => Raising.Only.pure _
  apply (Raising.Only.ask (S := control) (o := .challengeCode) hP.challengeCode).bind
  intro code
  apply (does_expiryText hP 5).bind
  intro expires
  apply (does_write hP (by decide) (by decide)).bind
  intro _
  exact (does_write hP (by decide) (by decide)).bind fun _ => Raising.Only.pure _

theorem does_selectDemo : Does P selectDemo := by
  unfold selectDemo
  apply (does_setRuntimeEnvironment hP _ _ _).attempt.bind
  intro result
  rcases result with e | _
  · cases e with
    | valueError message => exact Raising.Only.pure _
    | typeError | integrityError | orderSafetyGateError | kisHttpError | other =>
      exact Raising.Only.throw _
  · exact Raising.Only.pure _

theorem does_setFrequency (profile : String) : Does P (setFrequency profile) := by
  unfold setFrequency
  cases frequencyPresets.lookup profile with
  | none => exact Raising.Only.pure _
  | some confidence =>
    apply (does_write hP (by decide) (by decide)).bind
    intro _
    exact (does_write hP (by decide) (by decide)).bind fun _ => Raising.Only.pure _

theorem does_changeWatchlist (add : Bool) (symbols : List String) :
    Does P (changeWatchlist add symbols) := by
  unfold changeWatchlist
  refine Raising.Only.ite (Raising.Only.pure _) (Raising.Only.ite (Raising.Only.pure _) ?_)
  apply Raising.Only.bind
  · refine Raising.Only.foldlM (fun changed symbol => ?_) symbols []
    refine Raising.Only.bind ?_ fun _ => Raising.Only.pure _
    cases add with
    | true => exact does_callAt (hP.outside _ _ trivial)
    | false => exact does_callAt (hP.outside _ _ trivial)
  · exact fun _ => (does_query hP.toAllowsReads _).bind fun _ => Raising.Only.pure _

theorem does_resolveApproval (userId : Option String) (approve : Bool) (requestId : String) :
    Does P (resolveApproval userId approve requestId) := by
  unfold resolveApproval
  apply (does_utcnow hP.toAllowsReads).bind
  intro now
  refine Raising.Only.bind (does_callAt (hP.outside _ _ (by trivial))) fun changed => ?_
  exact (does_query hP.toAllowsReads _).bind fun _ => Raising.Only.pure _

theorem does_perform {c : TelegramCommand} (hc : c.calm) (host : Host) (userId : Option String) :
    Does P (c.perform host userId) := by
  have hreads := hP.toAllowsReads
  cases c with
  | pause =>
    exact does_pauseCommand hreads (hP.metadata _ _ _ (by decide) (by decide)) (hP.pause _ _ _)
      fun _ => hP.metadata _ _ _ (by decide) (by decide)
  | emergencyStop =>
    exact does_emergencyStopCommand hreads (hP.metadata _ _ _ (by decide) (by decide))
      (hP.pause _ _ _) (fun _ => hP.metadata _ _ _ (by decide) (by decide))
      (hP.metadata _ _ _ (by decide) (by decide)) (hP.disarm _)
  | environment value =>
    cases value with
    | none => exact Raising.Only.pure _
    | some value =>
      exact Raising.Only.ite (does_requestReal hP)
        (Raising.Only.ite (does_selectDemo hP) (Raising.Only.pure _))
  | cancelOpenBuys =>
    apply (does_requestOpenBuyCancellation hreads _
      fun _ => hP.metadata _ _ _ (by decide) (by decide)).bind
    exact fun _ => Raising.Only.ite (Raising.Only.pure _) (Raising.Only.pure _)
  | resolveApproval approve requestId => exact does_resolveApproval hP userId approve requestId
  | frequency profile => exact does_setFrequency hP profile
  | watchlistAdd symbols => exact does_changeWatchlist hP true symbols
  | watchlistRemove symbols => exact does_changeWatchlist hP false symbols
  | «show» text => exact Raising.Only.pure _
  | resume | clearEmergency | confirmReal => exact hc.elim

end Does

end Command

/-! ### Updates -/

/-- `_truncate`. -/
def Text.truncate (text : String) : String :=
  if text.length ≤ 3500 then text
  else String.ofList (text.toList.take 3480) ++ "\n...[truncated]"

/-- `except RuntimeError`: `TelegramApiError` is one. -/
def Exn.isRuntimeError : Exn → Bool
  | .other name _ => name = "RuntimeError" || name = "TelegramApiError"
  | _ => false

/-- Who may send commands. -/
structure Allowed where
  chatId : String
  userId : Option String

/-- The two checks at the head of `handle_update`. -/
def Allowed.authorizes (allowed : Allowed) (u : TelegramUpdate) : Bool :=
  u.chatId = some allowed.chatId &&
    allowed.userId.all fun user => u.userId.getD "None" = user

/-- The edit of the menu message; `False` when a new message has to be sent. -/
def editMenu (chatId : String) (messageId : Int) (text : String) : Command Bool := do
  match ← Raising.attempt (api (.editMessageText chatId messageId text)) with
  | .ok _ => pure true
  | .error e =>
    if e.isRuntimeError then
      match ← Raising.attempt (api (.deleteMessage chatId messageId)) with
      | .ok _ => pure false
      | .error e' => if e'.isRuntimeError then pure false else throw e'
    else throw e

/-- A button's message is edited, everything else is answered by a new message. -/
def tryEdit (u : TelegramUpdate) (chatId text : String) : Command Bool :=
  match u.callbackId, u.messageId with
  | some _, some messageId => editMenu chatId messageId text
  | _, _ => pure false

/-- The answer in the chat. -/
def answer (u : TelegramUpdate) (chatId text : String) : Command Unit := do
  if ← tryEdit u chatId text then pure ()
  else
    let _ ← api (.sendMessage chatId text)

/-- `answer_callback_query`, for a button. -/
def answerCallback (u : TelegramUpdate) : Command Unit :=
  match u.callbackId with
  | none => pure ()
  | some callbackId => do
    let _ ← api (.answerCallbackQuery callbackId)

/-- The command of an update, when it has one. -/
def performUpdate (host : Host) (u : TelegramUpdate) (chatId : String) : Command Bool := do
  match ← lift u.command with
  | none => pure false
  | some command => do
    let text ← command.perform host u.userId
    answer u chatId (Text.truncate text)
    pure true

/-- `handle_update`. -/
def handleUpdate (host : Host) (allowed : Allowed) (u : TelegramUpdate) : Command Bool :=
  if allowed.authorizes u then do
    Raising.ask (S := control) (.handles u.updateId)
    answerCallback u
    performUpdate host u allowed.chatId
  else pure false

/-! ### Polling -/

/-- `get_telegram_update_offset`. -/
def getTelegramUpdateOffset : Command (Option Int) := do
  match ← metadata telegramUpdateOffsetKey with
  | none => pure none
  | some value =>
    match Text.toInt? value with
    | some offset => pure (some offset)
    | none => throw (.valueError ("invalid literal for int() with base 10: '" ++ value ++ "'"))

/-- `set_telegram_update_offset`. -/
def setTelegramUpdateOffset (offset : Int) : Command Unit :=
  if offset < 0 then throw (.valueError "Telegram update offset must be a non-negative integer")
  else setMetadata telegramUpdateOffsetKey (toString offset) .within

/-- The updates of a batch, by id. -/
def batch (limit : Nat) (updates : List TelegramUpdate) : List TelegramUpdate :=
  (updates.take limit).insertionSort fun u v => u.updateId ≤ v.updateId

/-- One round of the loop of `poll_telegram`. -/
def pollStep (host : Host) (allowed : Allowed) (maxUpdateId : Option Int) (u : TelegramUpdate) :
    Command (Option Int) := do
  let _ ← handleUpdate host allowed u
  pure (some (max (maxUpdateId.getD (-1)) u.updateId))

/-- The end of `poll_telegram`. -/
def storeOffset : Option Int → Command Unit
  | none => pure ()
  | some maxUpdateId => setTelegramUpdateOffset (maxUpdateId + 1)

/-- `poll_telegram`. -/
def pollTelegram (host : Host) (allowed : Allowed) (limit : Nat) : Command Unit := do
  if limit < 1 ∨ 100 < limit then throw (.valueError "limit must be between 1 and 100")
  else
    let offset ← getTelegramUpdateOffset
    let updates ← api (.getUpdates offset limit)
    let maxUpdateId ← (batch limit updates).foldlM (pollStep host allowed) (offset.map (· - 1))
    storeOffset maxUpdateId

end AutoTrader
