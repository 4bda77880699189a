/-
  AutoTrader/Safety/TelegramOnce.lean
  ===================================
  **Each Telegram command takes effect once.**

  `poll_telegram` stores the next offset after the whole batch, and a call of the API
  that fails on the way raises.  The server sends again what lies at or beyond the
  stored offset.  `telegram_effects_once_iff` says for which runs every update's
  state change is made once, in order, and before the stored offset: those in which
  no update raises after a state change of its poll.
-/
import AutoTrader.Pipeline.Telegram

namespace AutoTrader

open Transactional Interleave Command

/-! ### Polling alone -/

/-- What lies outside the database; every question has its own answer. -/
structure PollReplies where
  now : Nat → DateTime
  challengeCode : Nat → String
  api : Nat → ApiCall → Except Exn (List TelegramUpdate)

/-- The database, how often the outside was asked, the update being handled until its
    first state change, and the updates whose state change was performed. -/
structure PollWorld where
  db : Database
  asked : Nat
  current : Option Int
  performed : List Int

namespace PollWorld

def ask (w : PollWorld) : PollWorld := { w with asked := w.asked + 1 }

/-- A call left `db` behind. -/
def store (w : PollWorld) (db : Database) : PollWorld := { w.ask with db := db }

/-- A call left `db` behind and changed something for the update being handled. -/
def change (w : PollWorld) (db : Database) : PollWorld :=
  ⟨db, w.asked + 1, none, w.performed ++ w.current.toList⟩

def offsetText (w : PollWorld) : Option String := w.db.metadataText telegramUpdateOffsetKey

/-- The stored offset. -/
def offset (w : PollWorld) : Option Int := w.offsetText.bind Text.toInt?

end PollWorld

/-- Storing the offset is not an operator's change. -/
def ControlOp.changesState : ControlOp → Bool
  | .setRuntimeMetadata key _ => key ≠ telegramUpdateOffsetKey
  | _ => true

def pollHandler (replies : PollReplies) : (o : ControlAct) → PollWorld → o.Reply × PollWorld
  | .read query _, w => (query w.db, w)
  | .utcnow, w => (replies.now w.asked, w.ask)
  | .challengeCode, w => (replies.challengeCode w.asked, w.ask)
  | .call op _, w =>
    match ((op.run (replies.now w.asked)).run w.db).1 with
    | .ok true =>
      if op.changesState then (.ok true, w.change (op.exec (replies.now w.asked) w.db))
      else (.ok true, w.store (op.exec (replies.now w.asked) w.db))
    | reply => (reply, w.store (op.exec (replies.now w.asked) w.db))
  | .api call, w => (replies.api w.asked call, w.ask)
  | .handles updateId, w => ((), { w with current := some updateId })

/-- What is known of `getUpdates`: the ids of a reply are distinct and not negative,
    and none lies before the offset of the request. -/
structure PollReplies.Serves (replies : PollReplies) : Prop where
  distinct : ∀ n offset limit updates, replies.api n (.getUpdates offset limit) = .ok updates →
    (updates.map (·.updateId)).Nodup
  nonneg : ∀ n offset limit updates, replies.api n (.getUpdates offset limit) = .ok updates →
    ∀ u ∈ updates, 0 ≤ u.updateId
  pending : ∀ n offset limit updates, replies.api n (.getUpdates (some offset) limit) = .ok updates →
    ∀ u ∈ updates, offset ≤ u.updateId

/-- A call of `poll_telegram`, after whatever others did to the database: they leave
    the offset alone. -/
structure Poll where
  host : Host
  allowed : Allowed
  limit : Nat
  others : Database → Database
  others_offset : ∀ db, (others db).metadataText telegramUpdateOffsetKey =
    db.metadataText telegramUpdateOffsetKey

namespace Poll

variable (replies : PollReplies) (p : Poll)

def arrive (w : PollWorld) : PollWorld := { w with db := p.others w.db }

/-- The world after the call, whether it returns or raises. -/
def run (w : PollWorld) : PollWorld :=
  (Raising.eval (pollHandler replies) (pollTelegram p.host p.allowed p.limit) (p.arrive w)).2

/-- `poll_telegram` up to the answer of `getUpdates`. -/
def fetch : Command (List TelegramUpdate) := do
  if p.limit < 1 ∨ 100 < p.limit then throw (.valueError "limit must be between 1 and 100")
  else
    let offset ← getTelegramUpdateOffset
    api (.getUpdates offset p.limit)

/-- No update of the batch raises after a state change. -/
def settles (performed : List Int) : List TelegramUpdate → PollWorld → Bool
  | [], _ => true
  | u :: us, w =>
    match Raising.eval (pollHandler replies) (handleUpdate p.host p.allowed u) w with
    | (.ok _, w') => settles performed us w'
    | (.error _, w') => w'.performed = performed

/-- No update raises after a state change of this poll. -/
def undisturbed (w : PollWorld) : Bool :=
  match Raising.eval (pollHandler replies) p.fetch (p.arrive w) with
  | (.ok updates, w') => p.settles replies w.performed (batch p.limit updates) w'
  | (.error _, _) => true

end Poll

/-- What holds after every poll: the state changes so far are in the order of the ids,
    none twice, and before the stored offset. -/
structure OnceInOrder (w : PollWorld) : Prop where
  increasing : w.performed.Pairwise (· < ·)
  before : ∀ id ∈ w.performed, ∃ offset, w.offset = some offset ∧ id < offset

/-- What a poll does: besides, the stored offset does not decrease. -/
structure PollLaw (w w' : PollWorld) : Prop extends OnceInOrder w' where
  monotone : ∀ old, w.offset = some old → ∃ offset, w'.offset = some offset ∧ old ≤ offset

def EffectsOnce (replies : PollReplies) : List Poll → PollWorld → Prop
  | [], _ => True
  | p :: polls, w => PollLaw w (p.run replies w) ∧ EffectsOnce replies polls (p.run replies w)

def PollsUndisturbed (replies : PollReplies) : List Poll → PollWorld → Prop
  | [], _ => True
  | p :: polls, w => p.undisturbed replies w = true ∧ PollsUndisturbed replies polls (p.run replies w)

/-- Before the first poll. -/
def PollWorld.start (db : Database) : PollWorld := ⟨db, 0, none, []⟩

/-! ### UpdateInHand an update -/

/-- The actions of a command: they leave the stored offset alone. -/
def ControlAct.sparesOffset : ControlAct → Prop
  | .call (.setRuntimeMetadata key _) _ => key ≠ telegramUpdateOffsetKey
  | .handles _ => False
  | _ => True

theorem sparesOffset_allows : AllowsControl ControlAct.sparesOffset where
  read := fun _ => trivial
  utcnow := trivial
  readAt := fun _ _ => trivial
  challengeCode := trivial
  metadata := fun _ _ _ _ hoffset => hoffset
  disarm := fun _ => (by decide : realResumeArmUsesKey ≠ telegramUpdateOffsetKey)
  pause := fun _ _ _ => trivial
  environment := fun _ _ _ _ => trivial
  outside := by
    intro op mark hop
    cases op with
    | setRuntimeMetadata => exact hop.elim
    | _ => trivial

theorem sparesOffset_confirmReal (code : String) :
    Does ControlAct.sparesOffset (AutoTrader.confirmReal code) := by
  have hcontrol := sparesOffset_allows
  have hwrite : ∀ {key value : String} {mark : Mark}, key ≠ telegramUpdateOffsetKey →
      Does ControlAct.sparesOffset (setMetadata key value mark) := fun h => does_setMetadata h
  have harm : Does ControlAct.sparesOffset armRealResume := by
    unfold armRealResume
    apply (hwrite (by decide)).bind
    intro _
    apply (hwrite (by decide)).bind
    intro _
    apply (does_expiryText hcontrol 15).bind
    intro expires
    exact (hwrite (by decide)).bind fun _ => hwrite (by decide)
  unfold AutoTrader.confirmReal
  apply (does_query hcontrol.toAllowsReads _).bind
  intro stored
  refine Raising.Only.ite (Raising.Only.pure _) ?_
  apply (does_metadata hcontrol.toAllowsReads _).bind
  intro expected
  apply (does_metadata hcontrol.toAllowsReads _).bind
  intro expiresText
  apply (does_challengeExpired hcontrol _).bind
  intro expired
  apply (does_lift _).bind
  intro refused
  refine Raising.Only.ite (Raising.Only.pure _) ?_
  apply (does_setRuntimeEnvironment hcontrol _ _ _).attempt.bind
  intro result
  rcases result with e | _
  · cases e with
    | valueError message => exact Raising.Only.pure _
    | typeError | integrityError | orderSafetyGateError | kisHttpError | other =>
      exact Raising.Only.throw _
  · exact harm.bind fun _ => Raising.Only.pure _

theorem sparesOffset_perform (c : TelegramCommand) (host : Host) (userId : Option String) :
    Does ControlAct.sparesOffset (c.perform host userId) := by
  have hcontrol := sparesOffset_allows
  have huses : ∀ value, ControlAct.sparesOffset
      (.call (.setRuntimeMetadata realResumeArmUsesKey value) .within) :=
    fun _ => (by decide : realResumeArmUsesKey ≠ telegramUpdateOffsetKey)
  cases c with
  | resume reason => exact does_resumeCommand hcontrol.toAllowsReads host reason huses trivial
  | clearEmergency =>
    exact does_clearEmergencyCommand hcontrol.toAllowsReads huses
      (by decide : telegramEmergencyStopKey ≠ telegramUpdateOffsetKey)
      (by decide : emergencyStopKey ≠ telegramUpdateOffsetKey) trivial
  | confirmReal code => exact sparesOffset_confirmReal code
  | pause | emergencyStop | environment | cancelOpenBuys | resolveApproval | frequency
  | watchlistAdd | watchlistRemove | «show» =>
    exact does_perform hcontrol (by trivial) host userId

section Answer

variable {P : ControlAct → Prop} (hP : ∀ call, P (.api call))

include hP

theorem does_api (call : ApiCall) : Does P (api call) :=
  Raising.Only.bind (Raising.Only.ask (S := control) (o := .api call) (hP call)) does_lift

theorem does_answer (u : TelegramUpdate) (chatId text : String) : Does P (answer u chatId text) := by
  have hedit : ∀ messageId, Does P (editMenu chatId messageId text) := by
    intro messageId
    unfold editMenu
    apply (does_api hP _).attempt.bind
    rintro (e | _)
    · refine Raising.Only.ite ?_ (Raising.Only.throw _)
      apply (does_api hP _).attempt.bind
      rintro (e' | _)
      · exact Raising.Only.ite (Raising.Only.pure _) (Raising.Only.throw _)
      · exact Raising.Only.pure _
    · exact Raising.Only.pure _
  unfold answer
  refine Raising.Only.bind ?_ fun edited => ?_
  · unfold tryEdit
    split
    · exact hedit _
    · exact Raising.Only.pure _
  · refine Raising.Only.ite (Raising.Only.pure _) ?_
    exact (does_api hP _).bind fun _ => Raising.Only.pure _

theorem does_answerCallback (u : TelegramUpdate) : Does P (answerCallback u) := by
  unfold answerCallback
  cases u.callbackId with
  | none => exact Raising.Only.pure _
  | some callbackId => exact (does_api hP _).bind fun _ => Raising.Only.pure _

end Answer

theorem sparesOffset_performUpdate (host : Host) (u : TelegramUpdate) (chatId : String) :
    Does ControlAct.sparesOffset (performUpdate host u chatId) := by
  unfold performUpdate
  apply (does_lift _).bind
  rintro (_ | command)
  · exact Raising.Only.pure _
  · apply (sparesOffset_perform command host u.userId).bind
    intro text
    exact (does_answer (fun _ => trivial) _ _ _).bind fun _ => Raising.Only.pure _

/-- While update `u` is handled, with `before` performed already. -/
structure UpdateInHand (u : Int) (before : List Int) (text : Option String) (w : PollWorld) : Prop where
  offset : w.offsetText = text
  changes : w.performed = before ∧ w.current = some u ∨ w.performed = before ++ [u] ∧ w.current = none

/-- Update `u` is handled, whether it returned or raised. -/
structure UpdateHandled (u : Int) (before : List Int) (text : Option String) (w : PollWorld) : Prop where
  offset : w.offsetText = text
  changes : w.performed = before ∨ w.performed = before ++ [u]

section Handle

variable {replies : PollReplies} {u : Int} {before : List Int} {text : Option String} {w : PollWorld}

theorem UpdateInHand.handled (h : UpdateInHand u before text w) : UpdateHandled u before text w :=
  ⟨h.offset, h.changes.imp And.left And.left⟩

theorem offsetText_exec {op : ControlOp} {mark : Mark} (hop : (ControlAct.call op mark).sparesOffset)
    (now : DateTime) (db : Database) :
    (op.exec now db).metadataText telegramUpdateOffsetKey = db.metadataText telegramUpdateOffsetKey := by
  rw [ControlOp.metadataText_exec]
  cases op with
  | setRuntimeMetadata key value => exact if_neg fun h => hop h.1
  | _ => rfl

theorem UpdateInHand.store (h : UpdateInHand u before text w) {db : Database}
    (hdb : db.metadataText telegramUpdateOffsetKey = w.offsetText) :
    UpdateInHand u before text (w.store db) :=
  ⟨hdb.trans h.offset, h.changes⟩

theorem UpdateInHand.change (h : UpdateInHand u before text w) {db : Database}
    (hdb : db.metadataText telegramUpdateOffsetKey = w.offsetText) :
    UpdateInHand u before text (w.change db) := by
  refine ⟨hdb.trans h.offset, .inr ⟨?_, rfl⟩⟩
  rcases h.changes with ⟨hperformed, hcurrent⟩ | ⟨hperformed, hcurrent⟩
  · simp [PollWorld.change, hperformed, hcurrent]
  · simp [PollWorld.change, hperformed, hcurrent]

theorem UpdateInHand.step (o : ControlAct) (w : PollWorld) (ho : o.sparesOffset)
    (h : UpdateInHand u before text w) : UpdateInHand u before text (pollHandler replies o w).2 := by
  cases o with
  | call op mark =>
    have hdb := offsetText_exec ho (replies.now w.asked) w.db
    simp only [pollHandler]
    split
    · split
      · exact h.change hdb
      · exact h.store hdb
    · exact h.store hdb
  | read query mark => exact h
  | utcnow | challengeCode | api => exact ⟨h.offset, h.changes⟩
  | handles => exact ho.elim

theorem handled_spec (replies : PollReplies) (host : Host) (allowed : Allowed) (u : TelegramUpdate) (w : PollWorld) :
    Raising.Ends (pollHandler replies) (handleUpdate host allowed u)
      (fun _ => UpdateHandled u.updateId w.performed w.offsetText)
      (fun _ => UpdateHandled u.updateId w.performed w.offsetText) w := by
  unfold handleUpdate
  refine Raising.Ends.ite (fun _ => ?_) fun _ => Raising.Ends.pure ⟨rfl, .inl rfl⟩
  have hhandles : Raising.eval (pollHandler replies)
      (Raising.ask (S := control) (ε := Exn) (.handles u.updateId)) w =
      (.ok (), { w with current := some u.updateId }) := rfl
  refine Raising.Ends.after hhandles ?_
  have hstart : UpdateInHand u.updateId w.performed w.offsetText { w with current := some u.updateId } :=
    ⟨rfl, .inl ⟨rfl, rfl⟩⟩
  have hspares : Does ControlAct.sparesOffset
      (do answerCallback u; performUpdate host u allowed.chatId) :=
    (does_answerCallback (fun _ => trivial) u).bind fun _ => sparesOffset_performUpdate host u _
  exact (Raising.Ends.of_only UpdateInHand.step hspares hstart).mono (fun _ _ h => h.handled)
    fun _ _ h => h.handled

end Handle

/-! ### The batch -/

section Batch

variable (replies : PollReplies) (p : Poll)

/-- The loop went through `us` on a world like `w`, making the changes of some of them. -/
structure Looped (us : List TelegramUpdate) (w w' : PollWorld) : Prop where
  offset : w'.offsetText = w.offsetText
  performed : ∃ ids, ids.Sublist (us.map (·.updateId)) ∧ w'.performed = w.performed ++ ids

theorem Looped.nil (w : PollWorld) : Looped [] w w := ⟨rfl, [], .slnil, (List.append_nil _).symm⟩

theorem Looped.cons {u : TelegramUpdate} {us : List TelegramUpdate} {w w' w'' : PollWorld}
    (hu : UpdateHandled u.updateId w.performed w.offsetText w') (h : Looped us w' w'') :
    Looped (u :: us) w w'' := by
  obtain ⟨ids, hids, hperformed⟩ := h.performed
  refine ⟨h.offset.trans hu.offset, ?_⟩
  rcases hu.changes with hsame | hnew
  · exact ⟨ids, hids.cons _, by rw [hperformed, hsame]⟩
  · exact ⟨u.updateId :: ids, hids.cons_cons _, by rw [hperformed, hnew, List.append_assoc]; rfl⟩

/-- `max_update_id` after the loop. -/
def maxUpdateId (us : List TelegramUpdate) (start : Option Int) : Option Int :=
  us.foldl (fun m u => some (max (m.getD (-1)) u.updateId)) start

section Settles

variable {u : TelegramUpdate} (us : List TelegramUpdate) (performed : List Int) {w w' : PollWorld}

theorem settles_of_ok {b : Bool}
    (hr : Raising.eval (pollHandler replies) (handleUpdate p.host p.allowed u) w = (.ok b, w')) :
    p.settles replies performed (u :: us) w = p.settles replies performed us w' := by
  rw [Poll.settles, hr]

theorem settles_of_error {e : Exn}
    (hr : Raising.eval (pollHandler replies) (handleUpdate p.host p.allowed u) w = (.error e, w')) :
    p.settles replies performed (u :: us) w = decide (w'.performed = performed) := by
  rw [Poll.settles, hr]

end Settles

/-- The loop returns when no update raises; when it raises, what was performed before it
    tells whether the poll is disturbed. -/
theorem loop_spec (us : List TelegramUpdate) (performed : List Int) (start : Option Int)
    (w : PollWorld) :
    Raising.Ends (pollHandler replies) (us.foldlM (pollStep p.host p.allowed) start)
      (fun m w' => Looped us w w' ∧ m = maxUpdateId us start ∧ p.settles replies performed us w = true)
      (fun _ w' => Looped us w w' ∧
        (p.settles replies performed us w = true ↔ w'.performed = performed)) w := by
  induction us generalizing start w with
  | nil => exact Raising.Ends.pure ⟨.nil w, rfl, rfl⟩
  | cons u us ih =>
    rw [List.foldlM_cons]
    have hu := (handled_spec replies p.host p.allowed u w).outcome_eval
    rcases hr : Raising.eval (pollHandler replies) (handleUpdate p.host p.allowed u) w with ⟨r, w'⟩
    rw [hr] at hu
    cases r with
    | ok b =>
      have hrest := settles_of_ok replies p us performed hr
      have hstep : Raising.eval (pollHandler replies) (pollStep p.host p.allowed start u) w =
          (.ok (some (max (start.getD (-1)) u.updateId)), w') := by
        unfold pollStep
        rw [Raising.eval_bind, hr]
        rfl
      refine Raising.Ends.after hstep ((ih _ w').mono ?_ ?_)
      · rintro m w'' ⟨hlooped, hm, hsettles⟩
        exact ⟨.cons hu hlooped, hm, hrest.trans hsettles⟩
      · rintro e w'' ⟨hlooped, hsettles⟩
        exact ⟨.cons hu hlooped, by rw [hrest]; exact hsettles⟩
    | error e =>
      have hrest := settles_of_error replies p us performed hr
      have hloop : Raising.eval (pollHandler replies) (do
          let m ← pollStep p.host p.allowed start u
          us.foldlM (pollStep p.host p.allowed) m) w = (.error e, w') := by
        unfold pollStep
        rw [Raising.eval_bind, Raising.eval_bind, hr]
      refine Raising.Ends.of_eval hloop ?_
      refine ⟨.cons hu ⟨rfl, [], List.nil_sublist _, (List.append_nil _).symm⟩, ?_⟩
      rw [hrest]
      exact decide_eq_true_iff

theorem batch_increasing {updates : List TelegramUpdate} (limit : Nat)
    (h : (updates.map (·.updateId)).Nodup) :
    ((batch limit updates).map (·.updateId)).Pairwise (· < ·) := by
  have hperm : (batch limit updates).Perm (updates.take limit) := List.perm_insertionSort _ _
  have hnodup : ((batch limit updates).map (·.updateId)).Nodup :=
    (hperm.map _).nodup_iff.mpr (h.sublist ((List.take_sublist limit updates).map _))
  have hsorted : ((batch limit updates).map (·.updateId)).Pairwise (· ≤ ·) := by
    rw [List.pairwise_map]
    exact List.pairwise_insertionSort _ _
  exact (hsorted.and hnodup).imp fun h => lt_of_le_of_ne h.1 h.2

theorem mem_of_mem_batch {updates : List TelegramUpdate} {limit : Nat} {u : TelegramUpdate}
    (h : u ∈ batch limit updates) : u ∈ updates :=
  List.mem_of_mem_take ((List.perm_insertionSort _ _).mem_iff.mp h)

/-- `max_update_id` after a batch that is not empty. -/
theorem maxUpdateId_cons (u : TelegramUpdate) (us : List TelegramUpdate) (start : Option Int) :
    ∃ k, maxUpdateId (u :: us) start = some k ∧ (∀ v ∈ u :: us, v.updateId ≤ k) ∧
      ∀ s, start = some s → s ≤ k := by
  induction us generalizing u start with
  | nil =>
    refine ⟨_, rfl, ?_, ?_⟩
    · intro v hv
      rw [List.mem_singleton.mp hv]
      exact le_max_right _ _
    · rintro s rfl
      exact le_max_left _ _
  | cons v us ih =>
    obtain ⟨k, hk, hmem, hstart⟩ := ih v (some (max (start.getD (-1)) u.updateId))
    have hmax := hstart _ rfl
    refine ⟨k, hk, ?_, ?_⟩
    · intro x hx
      rcases List.mem_cons.mp hx with rfl | hx
      · exact (le_max_right _ _).trans hmax
      · exact hmem x hx
    · rintro s rfl
      exact (le_max_left _ _).trans hmax

/-! ### Storing the offset -/

theorem storeOffset_spec {k : Int} (hk : 0 ≤ k + 1) (w : PollWorld) :
    ∃ w', Raising.eval (pollHandler replies) (storeOffset (some k)) w = (.ok (), w') ∧
      w'.performed = w.performed ∧ w'.offset = some (k + 1) := by
  obtain ⟨n, hn⟩ := Int.eq_ofNat_of_zero_le hk
  have hblank : Text.blank telegramUpdateOffsetKey = false := by decide
  let op : ControlOp := .setRuntimeMetadata telegramUpdateOffsetKey (toString (k + 1))
  let db : Database := op.exec (replies.now w.asked) w.db
  have hcall : pollHandler replies (.call op .within) w = (.ok true, w.store db) := by
    have hspares : op.changesState = false := by simp [op, ControlOp.changesState]
    simp only [pollHandler]
    rw [show (op.run (replies.now w.asked)).run w.db = (.ok true, db) from
      ControlOp.run_setRuntimeMetadata _ _ _ hblank]
    simp only [hspares]
    rfl
  refine ⟨w.store db, ?_, rfl, ?_⟩
  · change Raising.eval _ (setTelegramUpdateOffset (k + 1)) w = _
    unfold setTelegramUpdateOffset setMetadata callAt
    rw [if_neg (not_lt.mpr hk), Raising.eval_bind, Raising.eval_bind, Raising.eval_ask, hcall]
    rfl
  · change (db.metadataText telegramUpdateOffsetKey).bind Text.toInt? = _
    rw [ControlOp.metadataText_exec]
    dsimp only [op]
    rw [if_pos ⟨rfl, hblank⟩, Option.bind_some, hn]
    exact Text.toInt?_toString n

theorem storeOffset_raises {k : Int} (hk : k + 1 < 0) (w : PollWorld) :
    ∃ e, Raising.eval (pollHandler replies) (storeOffset (some k)) w = (.error e, w) := by
  change ∃ e, Raising.eval _ (setTelegramUpdateOffset (k + 1)) w = (.error e, w)
  unfold setTelegramUpdateOffset
  rw [if_pos hk]
  exact ⟨_, rfl⟩

/-! ### A poll -/

/-- A poll raises before the batch, or goes on with the batch of a reply to the stored
    offset. -/
theorem fetch_cases (w : PollWorld) :
    (∃ e w', Raising.eval (pollHandler replies) p.fetch w = (.error e, w') ∧
      Raising.eval (pollHandler replies) (pollTelegram p.host p.allowed p.limit) w = (.error e, w') ∧
      w'.performed = w.performed ∧ w'.offset = w.offset) ∨
    (∃ updates, Raising.eval (pollHandler replies) p.fetch w = (.ok updates, w.ask) ∧
      replies.api w.asked (.getUpdates w.offset p.limit) = .ok updates ∧
      Raising.eval (pollHandler replies) (pollTelegram p.host p.allowed p.limit) w =
        Raising.eval (pollHandler replies) (do
          let m ← (batch p.limit updates).foldlM (pollStep p.host p.allowed) (w.offset.map (· - 1))
          storeOffset m) w.ask) := by
  unfold Poll.fetch pollTelegram
  by_cases hlimit : p.limit < 1 ∨ 100 < p.limit
  · rw [if_pos hlimit, if_pos hlimit]
    exact .inl ⟨_, w, rfl, rfl, rfl, rfl⟩
  rw [if_neg hlimit, if_neg hlimit]
  have hget : (∃ e, Raising.eval (pollHandler replies) getTelegramUpdateOffset w = (.error e, w)) ∨
      Raising.eval (pollHandler replies) getTelegramUpdateOffset w = (.ok w.offset, w) := by
    unfold getTelegramUpdateOffset
    have hread : Raising.eval (pollHandler replies) (metadata telegramUpdateOffsetKey) w =
        (.ok w.offsetText, w) := rfl
    rw [Raising.eval_bind, hread, PollWorld.offset]
    cases w.offsetText with
    | none => exact .inr rfl
    | some text =>
      dsimp only
      rw [Option.bind_some]
      cases Text.toInt? text with
      | none => exact .inl ⟨_, rfl⟩
      | some offset => exact .inr rfl
  rcases hget with ⟨e, hget⟩ | hget
  · refine .inl ⟨e, w, ?_, ?_, rfl, rfl⟩
    · rw [Raising.eval_bind, hget]
    · rw [Raising.eval_bind, hget]
  have hapi : Raising.eval (pollHandler replies) (api (.getUpdates w.offset p.limit)) w =
      (replies.api w.asked (.getUpdates w.offset p.limit), w.ask) := by
    unfold api
    rw [Raising.eval_bind, Raising.eval_ask]
    dsimp only [pollHandler]
    cases replies.api w.asked (.getUpdates w.offset p.limit) with
    | ok updates => rfl
    | error e => rfl
  cases hreply : replies.api w.asked (.getUpdates w.offset p.limit) with
  | error e =>
    rw [hreply] at hapi
    refine .inl ⟨e, w.ask, ?_, ?_, rfl, rfl⟩
    · rw [Raising.eval_bind, hget]
      exact hapi
    · rw [Raising.eval_bind, hget]
      dsimp only
      rw [Raising.eval_bind, hapi]
  | ok updates =>
    rw [hreply] at hapi
    refine .inr ⟨updates, ?_, rfl, ?_⟩
    · rw [Raising.eval_bind, hget]
      exact hapi
    · rw [Raising.eval_bind, hget]
      dsimp only
      rw [Raising.eval_bind, hapi]

/-- What a poll changes: some of the pending updates, in order. -/
structure Moved (ids : List Int) (w w' : PollWorld) : Prop where
  performed : w'.performed = w.performed ++ ids
  increasing : ids.Pairwise (· < ·)
  pending : ∀ id ∈ ids, ∀ old, w.offset = some old → old ≤ id

/-- The offset lies behind what was performed. -/
def Stored (ids : List Int) (w w' : PollWorld) : Prop :=
  ∃ offset, w'.offset = some offset ∧ (∀ id ∈ ids, id < offset) ∧
    ∀ old, w.offset = some old → old ≤ offset

theorem Looped.moved (hserver : replies.Serves) {n limit : Nat} {updates : List TelegramUpdate}
    {w w' : PollWorld} (hreply : replies.api n (.getUpdates w.offset limit) = .ok updates)
    (h : Looped (batch limit updates) w w') :
    ∃ ids, ids.Sublist ((batch limit updates).map (·.updateId)) ∧ Moved ids w w' := by
  obtain ⟨ids, hids, hperformed⟩ := h.performed
  have hincreasing := batch_increasing limit (hserver.distinct _ _ _ _ hreply)
  refine ⟨ids, hids, hperformed, hincreasing.sublist hids, ?_⟩
  intro id hid old hold
  obtain ⟨u, hu, rfl⟩ := List.mem_map.mp (hids.subset hid)
  rw [hold] at hreply
  exact hserver.pending _ _ _ _ hreply u (mem_of_mem_batch hu)

/-- What `storeOffset` makes of the end of a loop. -/
theorem finish_spec (hserver : replies.Serves) {n limit : Nat} {updates : List TelegramUpdate}
    {w w' : PollWorld} (hreply : replies.api n (.getUpdates w.offset limit) = .ok updates)
    {ids : List Int} (hids : ids.Sublist ((batch limit updates).map (·.updateId)))
    (hoffset : w'.offset = w.offset) :
    ∃ r w'', Raising.eval (pollHandler replies)
        (storeOffset (maxUpdateId (batch limit updates) (w.offset.map (· - 1)))) w' = (r, w'') ∧
      w''.performed = w'.performed ∧ (Stored ids w w'' ∨ ids = [] ∧ w''.offset = w.offset) := by
  have hmem : ∀ u ∈ batch limit updates, u ∈ updates := fun _ => mem_of_mem_batch
  cases hbatch : batch limit updates with
  | nil =>
    rw [hbatch] at hids
    have hnone : ids = [] := List.sublist_nil.mp hids
    rw [maxUpdateId, List.foldl_nil]
    cases hold : w.offset with
    | none => exact ⟨_, w', rfl, rfl, .inr ⟨hnone, hoffset.trans hold⟩⟩
    | some old =>
      rw [Option.map_some]
      by_cases hnonneg : 0 ≤ old - 1 + 1
      · obtain ⟨w'', hstore, hperformed, hoffset'⟩ := storeOffset_spec replies hnonneg w'
        refine ⟨_, w'', hstore, hperformed, .inl ⟨_, hoffset', ?_, ?_⟩⟩
        · rw [hnone]
          exact nofun
        · intro old' hold'
          rw [hold] at hold'
          cases hold'
          omega
      · obtain ⟨e, hstore⟩ := storeOffset_raises replies (not_le.mp hnonneg) w'
        exact ⟨_, w', hstore, rfl, .inr ⟨hnone, hoffset.trans hold⟩⟩
  | cons u us =>
    rw [hbatch] at hids hmem
    obtain ⟨k, hk, hle, hstart⟩ := maxUpdateId_cons u us (w.offset.map (· - 1))
    have hnonneg : 0 ≤ k + 1 := by
      have hu := hserver.nonneg _ _ _ _ hreply u (hmem u List.mem_cons_self)
      have hku := hle u List.mem_cons_self
      omega
    obtain ⟨w'', hstore, hperformed, hoffset'⟩ := storeOffset_spec replies hnonneg w'
    rw [hk]
    refine ⟨_, w'', hstore, hperformed, .inl ⟨_, hoffset', ?_, ?_⟩⟩
    · intro id hid
      obtain ⟨v, hv, rfl⟩ := List.mem_map.mp (hids.subset hid)
      exact Int.lt_add_one_of_le (hle v hv)
    · intro old hold
      have hold' := hstart (old - 1) (by rw [hold]; rfl)
      omega

/-- An undisturbed poll stores its progress or makes none; a disturbed one makes some and
    stores nothing. -/
theorem poll_spec (hserver : replies.Serves) (w : PollWorld) :
    ∃ ids, Moved ids w (p.run replies w) ∧
      (p.undisturbed replies w = true ∧ (Stored ids w (p.run replies w) ∨
        ids = [] ∧ (p.run replies w).offset = w.offset) ∨
      p.undisturbed replies w = false ∧ ids ≠ [] ∧ (p.run replies w).offset = w.offset) := by
  have harrive : (p.arrive w).offset = w.offset := by
    unfold PollWorld.offset PollWorld.offsetText
    exact congrArg (·.bind Text.toInt?) (p.others_offset w.db)
  unfold Poll.run Poll.undisturbed
  rcases fetch_cases replies p (p.arrive w) with ⟨e, w', hfetch, hpoll, hperformed, hoffset⟩ |
    ⟨updates, hfetch, hreply, hpoll⟩
  · rw [hfetch, hpoll]
    refine ⟨[], ⟨by rw [hperformed, List.append_nil]; rfl, .nil, nofun⟩, .inl ⟨rfl, .inr ⟨rfl, ?_⟩⟩⟩
    exact hoffset.trans harrive
  rw [hfetch, hpoll, harrive]
  rw [harrive] at hreply
  have hask : (p.arrive w).ask.offset = w.offset := harrive
  have hloop := (loop_spec replies p (batch p.limit updates) w.performed (w.offset.map (· - 1))
    (p.arrive w).ask).outcome_eval
  rcases hr : Raising.eval (pollHandler replies) ((batch p.limit updates).foldlM
    (pollStep p.host p.allowed) (w.offset.map (· - 1))) (p.arrive w).ask with ⟨r, w₂⟩
  rw [hr] at hloop
  have hmoved : ∀ {w₃ : PollWorld}, w₃.performed = w₂.performed →
      Looped (batch p.limit updates) (p.arrive w).ask w₂ →
      ∃ ids, ids.Sublist ((batch p.limit updates).map (·.updateId)) ∧ Moved ids w w₃ := by
    intro w₃ hsame hlooped
    obtain ⟨ids, hids, hmoved⟩ := hlooped.moved replies hserver (by rw [hask]; exact hreply)
    refine ⟨ids, hids, hsame.trans hmoved.performed, hmoved.increasing, fun id hid old hold => ?_⟩
    exact hmoved.pending id hid old (hask.trans hold)
  rw [Raising.eval_bind, hr]
  cases r with
  | error e =>
    obtain ⟨hlooped, hsettles⟩ := hloop
    obtain ⟨ids, hids, hm⟩ := hmoved rfl hlooped
    have hoffset : w₂.offset = w.offset :=
      (congrArg (·.bind Text.toInt?) hlooped.offset).trans hask
    refine ⟨ids, hm, ?_⟩
    by_cases hnone : ids = []
    · refine .inl ⟨hsettles.mpr ?_, .inr ⟨hnone, hoffset⟩⟩
      rw [hm.performed, hnone, List.append_nil]
    · refine .inr ⟨Bool.eq_false_iff.mpr fun htrue => hnone ?_, hnone, hoffset⟩
      have hsame := hm.performed.symm.trans (hsettles.mp htrue)
      exact List.append_cancel_left (hsame.trans (List.append_nil _).symm)
  | ok m =>
    obtain ⟨hlooped, rfl, hsettles⟩ := hloop
    have hoffset : w₂.offset = w.offset :=
      (congrArg (·.bind Text.toInt?) hlooped.offset).trans hask
    obtain ⟨ids, hids, hm⟩ := hmoved rfl hlooped
    obtain ⟨r, w₃, hfinish, hperformed, hstored⟩ := finish_spec replies hserver hreply hids hoffset
    dsimp only
    rw [hfinish]
    exact ⟨ids, ⟨hperformed.trans hm.performed, hm.increasing, hm.pending⟩, .inl ⟨hsettles, hstored⟩⟩

/-- One poll after a run that has kept to the order. -/
theorem pollLaw_iff (hserver : replies.Serves) {w : PollWorld} (h : OnceInOrder w) :
    PollLaw w (p.run replies w) ↔ p.undisturbed replies w = true := by
  obtain ⟨ids, hmoved, ⟨hsettles, hstored⟩ | ⟨hdisturbed, hsome, hoffset⟩⟩ :=
    poll_spec replies p hserver w
  · refine ⟨fun _ => hsettles, fun _ => ?_⟩
    rcases hstored with ⟨offset, hoffset, hbehind, hold⟩ | ⟨rfl, hoffset⟩
    · have hbefore : ∀ id ∈ w.performed, ∃ old, w.offset = some old ∧ id < old := h.before
      refine ⟨⟨?_, ?_⟩, fun old hwas => ⟨offset, hoffset, hold old hwas⟩⟩
      · rw [hmoved.performed, List.pairwise_append]
        refine ⟨h.increasing, hmoved.increasing, fun a ha b hb => ?_⟩
        obtain ⟨old, hwas, hlt⟩ := hbefore a ha
        exact hlt.trans_le (hmoved.pending b hb old hwas)
      · intro id hid
        rw [hmoved.performed, List.mem_append] at hid
        refine ⟨offset, hoffset, ?_⟩
        rcases hid with hid | hid
        · obtain ⟨old, hwas, hlt⟩ := hbefore id hid
          exact hlt.trans_le (hold old hwas)
        · exact hbehind id hid
    · have hsame : (p.run replies w).performed = w.performed := by
        rw [hmoved.performed, List.append_nil]
      refine ⟨⟨?_, ?_⟩, fun old hwas => ⟨old, hoffset.trans hwas, le_rfl⟩⟩
      · rw [hsame]
        exact h.increasing
      · rw [hsame, hoffset]
        exact h.before
  · refine ⟨fun hlaw => ?_, fun hsettles => ?_⟩
    · obtain ⟨id, hid⟩ := List.exists_mem_of_ne_nil ids hsome
      obtain ⟨offset, hstored, hlt⟩ := hlaw.before id (by
        rw [hmoved.performed]
        exact List.mem_append_right _ hid)
      have hle := hmoved.pending id hid offset (hoffset.symm.trans hstored)
      exact absurd hlt (not_lt.mpr hle)
    · rw [hdisturbed] at hsettles
      cases hsettles

end Batch

/-- **Each Telegram command takes effect once**: in order, and before the stored offset,
    after every poll of a run, exactly when no update raises after a state change of its
    poll. -/
theorem telegram_effects_once_iff (replies : PollReplies) (hserver : replies.Serves) (db : Database)
    (polls : List Poll) :
    EffectsOnce replies polls (.start db) ↔ PollsUndisturbed replies polls (.start db) := by
  have hrun : ∀ w, OnceInOrder w → (EffectsOnce replies polls w ↔ PollsUndisturbed replies polls w) := by
    induction polls with
    | nil => exact fun _ _ => Iff.rfl
    | cons p polls ih =>
      intro w h
      have hpoll := pollLaw_iff replies p hserver h
      constructor
      · rintro ⟨hlaw, hrest⟩
        exact ⟨hpoll.mp hlaw, (ih _ hlaw.toOnceInOrder).mp hrest⟩
      · rintro ⟨hundisturbed, hrest⟩
        have hlaw := hpoll.mpr hundisturbed
        exact ⟨hlaw, (ih _ hlaw.toOnceInOrder).mpr hrest⟩
  exact hrun _ ⟨.nil, nofun⟩

namespace PollHistory

def stop : TelegramUpdate := ⟨7, some "42", some "42", none, none, .ok (some .emergencyStop)⟩

def clear : TelegramUpdate := ⟨8, some "42", some "42", none, none, .ok (some .clearEmergency)⟩

/-- A server with two pending updates; `sendMessage` fails from the `n`th question on. -/
def replies (n : Nat) : PollReplies where
  now := fun _ => ⟨63828000000000000, some 0⟩
  challengeCode := fun _ => "A1B2C3D4"
  api := fun asked call =>
    match call with
    | .getUpdates offset _ => .ok ([stop, clear].filter fun u => offset.all (· ≤ u.updateId))
    | .sendMessage _ _ => if asked < n then .ok [] else .error (.other "TelegramApiError" "timeout")
    | _ => .ok []

theorem replies_serves (n : Nat) : (replies n).Serves where
  distinct := by
    rintro _ offset limit _ ⟨⟩
    exact List.Nodup.sublist (List.filter_sublist.map _) (by decide)
  nonneg := by
    rintro _ offset limit _ ⟨⟩ u hu
    have hall : ∀ u ∈ [stop, clear], 0 ≤ u.updateId := by decide
    exact hall u (List.mem_of_mem_filter hu)
  pending := by
    rintro _ offset limit _ ⟨⟩ u hu
    simpa using List.of_mem_filter hu

def poll : Poll := ⟨⟨fun _ => [], [], fun _ => ""⟩, ⟨"42", none⟩, 10, id, fun _ => rfl⟩

/-- Both updates are answered. -/
theorem polls_undisturbed : EffectsOnce (replies 100) [poll, poll] (.start .empty) :=
  (telegram_effects_once_iff _ (replies_serves 100) .empty [poll, poll]).mpr
    ⟨by decide +kernel, by decide +kernel, trivial⟩

/-- The answer to the stop fails, and the next poll stops again. -/
theorem stop_repeated :
    ¬ ∀ (replies : PollReplies), replies.Serves → ∀ (db : Database) (polls : List Poll),
      EffectsOnce replies polls (.start db) := by
  intro hall
  obtain ⟨-, hlaw, -⟩ := hall (replies 0) (replies_serves 0) .empty [poll, poll]
  have htwice : (poll.run (replies 0) (poll.run (replies 0) (.start .empty))).performed = [7, 7] := by
    decide +kernel
  have hincreasing := hlaw.increasing
  rw [htwice] at hincreasing
  revert hincreasing
  decide

end PollHistory

end AutoTrader
