/-
  AutoTrader/Safety/ShadowOnce.lean
  =================================
  **The shadow bridge submits a signal once.**

  `submit_shadow_live_buy` recognizes a signal by its SUBMITTED audit, and that audit
  is written after the submitter returned.  `submitShadow_spec` says when a call that
  reaches the submitter leaves the audit; `shadow_signal_submitted_once` that in runs
  in which every such call does, no signal is submitted twice.
-/
import AutoTrader.Ledger.Frame
import AutoTrader.Pipeline.LiveExecution
import AutoTrader.Safety.AtMostOnce

namespace AutoTrader

open Relational Transactional Interleave

/-! ### Runs of the bridge -/

/-- The database, and the signals the submitter was called for. -/
structure ShadowWorld where
  db : Database
  calls : List String

/-- What the submitter answers, and which transactions raise. -/
structure ShadowReplies where
  submitOrder : ShadowWorld → OrderRequest → Except Exn (Option String)
  raises : ShadowWorld → Op → Option Exn

def shadowHandler (replies : ShadowReplies) : (o : Act) → ShadowWorld → o.Reply × ShadowWorld
  | .read query, w => (query w.db, w)
  | .tryRead query, w => (.ok (query w.db), w)
  | .selectOrders query, w => (query w.db, w)
  | .call op, w =>
    match replies.raises w op with
    | some e => (.error e, w)
    | none => ((op.call w.db).1, { w with db := op.exec w.db })
  | .submitOrder signalId request, w =>
    (replies.submitOrder w request, { w with calls := w.calls ++ [signalId] })
  | .cancelOrder .., w => (.ok (), w)

/-- What a call would send on a database: the signal, the price and the request. -/
def ShadowCall.order? (c : ShadowCall) (db : Database) : Option (String × Number × OrderRequest) :=
  if c.maxQuantity ≤ 0 then none
  else
    match c.check with
    | .error _ => none
    | .ok (signalId, price) =>
      if db.brokerSignalSubmitted signalId then none
      else
        match krxRequest c.report.symbol .buy c.quantity price with
        | .error _ => none
        | .ok request => some (signalId, price, request)

/-- The submitter returns, and the transaction of the audit inserts its row. -/
structure ShadowAccounted (replies : ShadowReplies) (c : ShadowCall) (w : ShadowWorld) (signalId : String)
    (price : Number) (request : OrderRequest) (brokerOrderId : Option String) : Prop where
  returns : replies.submitOrder w request = .ok brokerOrderId
  records : replies.raises { w with calls := w.calls ++ [signalId] }
    (.recordBrokerOrderAudit c.now (c.submittedAudit signalId price brokerOrderId)) = none
  fresh : w.db.brokerOrderAudits.find? (shadowAuditId (some signalId) "submitted" c.uuid) = none
  price : price.value ≠ .nan

/-- The call sends nothing, or its order is accounted for. -/
def AccountsFor (replies : ShadowReplies) (c : ShadowCall) (w : ShadowWorld) : Prop :=
  ∀ signalId price request, c.order? w.db = some (signalId, price, request) →
    ∃ brokerOrderId, ShadowAccounted replies c w signalId price request brokerOrderId

/-- What others may do to the database between two calls: SUBMITTED audits stay. -/
def KeepsSubmitted (db db' : Database) : Prop :=
  ∀ signalId, db.brokerSignalSubmitted signalId = true → db'.brokerSignalSubmitted signalId = true

/-- The worlds a run passes through whose calls all meet `ok`. -/
inductive ShadowRun (ok : ShadowReplies → ShadowCall → ShadowWorld → Prop) : ShadowWorld → Prop
  | start (db : Database) : ShadowRun ok ⟨db, []⟩
  | call {w : ShadowWorld} (replies : ShadowReplies) (c : ShadowCall) : ShadowRun ok w →
      ok replies c w →
      ShadowRun ok (Raising.eval (shadowHandler replies) (submitShadowLiveBuy c) w).2
  | between {w : ShadowWorld} {db : Database} : ShadowRun ok w → KeepsSubmitted w.db db →
      ShadowRun ok { w with db := db }

/-! ### Audits -/

section Audits

variable {now : DateTime} {a : AuditArgs} {db : Database}

theorem auditRow_ok {row : BrokerOrderAudit} (h : auditRow now a = .ok row) :
    row.auditId = a.auditId ∧ row.signalId = a.signalId ∧ row.status = a.status := by
  unfold auditRow at h
  obtain ⟨_, -, h⟩ := Except.bind_eq_ok h
  split at h
  · cases h
  · cases h
    exact ⟨rfl, rfl, rfl⟩

/-- An audit takes no audit away. -/
theorem recordAudit_keeps (now : DateTime) (a : AuditArgs) (db : Database) :
    KeepsSubmitted db ((Op.recordBrokerOrderAudit now a).exec db) := by
  intro signalId h
  simp only [Op.exec, Op.call, Op.run]
  rcases recordBrokerOrderAudit_cases now a db with ⟨e, hr⟩ | ⟨-, hr⟩ | ⟨row, -, -, hr⟩
  · rw [hr]
    exact h
  · rw [hr]
    exact h
  · rw [hr]
    unfold Database.brokerSignalSubmitted at h ⊢
    rcases db.brokerOrderAudits.insertOrIgnore_cases row with ⟨-, hins⟩ | ⟨-, -, hrows⟩
    · simp only
      rw [hins]
      exact h
    · simp only
      rw [hrows, List.any_append, h]
      rfl

/-- A signal without a SUBMITTED audit has one afterwards exactly when its row is inserted. -/
theorem recordAudit_submitted {row : BrokerOrderAudit} (hrow : auditRow now a = .ok row)
    {signalId : String} (hsignal : a.signalId = some signalId) (hstatus : a.status = "SUBMITTED")
    (hnew : db.brokerSignalSubmitted signalId = false) :
    ((Op.recordBrokerOrderAudit now a).exec db).brokerSignalSubmitted signalId = true ↔
      db.brokerOrderAudits.find? a.auditId = none ∧ a.price.value ≠ .nan := by
  obtain ⟨hid, hrowSignal, hrowStatus⟩ := auditRow_ok hrow
  simp only [Op.exec, Op.call, Op.run]
  rcases recordBrokerOrderAudit_cases now a db with ⟨e, hr⟩ | ⟨hnan, hr⟩ | ⟨row', hrow', hprice, hr⟩
  · unfold recordBrokerOrderAudit at hr
    rw [hrow, Exec.run_ofExcept_ok_bind, Exec.run_ite] at hr
    split at hr <;> cases hr
  · rw [hr, hnew]
    exact ⟨fun h => (by cases h), fun h => absurd hnan h.2⟩
  · rw [hrow] at hrow'
    cases hrow'
    rw [hr, ← hid]
    unfold Database.brokerSignalSubmitted at hnew ⊢
    rcases db.brokerOrderAudits.insertOrIgnore_cases row with ⟨⟨s, hs⟩, hins⟩ | ⟨hfree, -, hrows⟩
    · simp only
      rw [hins, hnew, hs]
      exact ⟨fun h => (by cases h), fun h => by cases h.1⟩
    · simp only
      rw [hrows, List.any_append]
      simp [hrowSignal, hrowStatus, hsignal, hstatus, hfree, hprice]

end Audits

/-! ### One call -/

section Calls

variable (replies : ShadowReplies) (c : ShadowCall) (w : ShadowWorld)

theorem shadow_reraise {α : Type} (r : Except Exn α) :
    Raising.eval (shadowHandler replies) (reraise r) w = (r, w) := by
  cases r <;> rfl

/-- What a transaction of the bridge leaves behind. -/
def ShadowWorld.after (op : Op) : ShadowWorld :=
  match replies.raises w op with
  | some _ => w
  | none => { w with db := op.exec w.db }

theorem shadow_execute (op : Op) :
    (Raising.eval (shadowHandler replies) (execute op) w).2 = w.after replies op := by
  unfold execute ShadowWorld.after
  rw [Raising.eval_bind, Raising.eval_ask]
  simp only [shadowHandler]
  cases replies.raises w op with
  | some e => rfl
  | none => exact congrArg Prod.snd (shadow_reraise replies _ _)

theorem after_calls (op : Op) : (w.after replies op).calls = w.calls := by
  unfold ShadowWorld.after
  cases replies.raises w op <;> rfl

theorem after_keeps (now : DateTime) (a : AuditArgs) :
    KeepsSubmitted w.db (w.after replies (.recordBrokerOrderAudit now a)).db := by
  unfold ShadowWorld.after
  cases replies.raises w (.recordBrokerOrderAudit now a) with
  | some _ => exact fun _ h => h
  | none => exact recordAudit_keeps now a w.db

/-- A program that ends with a result made of what it has, after one last action. -/
theorem shadow_bind_pure {α β : Type} (p : Pipeline α) (b : β) :
    (Raising.eval (shadowHandler replies) (do let _ ← p; pure b) w).2 =
      (Raising.eval (shadowHandler replies) p w).2 := by
  rw [Raising.eval_bind]
  rcases hp : Raising.eval (shadowHandler replies) p w with ⟨r, w'⟩
  rw [hp]
  cases r <;> rfl

theorem blockShadow_world (reason : String) :
    (Raising.eval (shadowHandler replies) (blockShadow c reason) w).2 =
      w.after replies (.recordBrokerOrderAudit c.now (c.blockedAudit reason)) := by
  unfold blockShadow
  rw [shadow_bind_pure, shadow_execute]

/-- The world once the submitter has been called. -/
def ShadowWorld.called (signalId : String) : ShadowWorld := { w with calls := w.calls ++ [signalId] }

theorem submitShadow_world {signalId : String} {price : Number} {request : OrderRequest}
    (hrequest : krxRequest c.report.symbol .buy c.quantity price = .ok request) :
    (Raising.eval (shadowHandler replies) (submitShadow c signalId price) w).2 =
      match replies.submitOrder w request with
      | .error _ => w.called signalId
      | .ok brokerOrderId => (w.called signalId).after replies
          (.recordBrokerOrderAudit c.now (c.submittedAudit signalId price brokerOrderId)) := by
  unfold submitShadow brokerSubmitter
  rw [Raising.eval_bind, hrequest, shadow_reraise]
  simp only
  rw [Raising.eval_bind, Raising.eval_bind, Raising.eval_ask]
  simp only [shadowHandler]
  rw [shadow_reraise]
  cases replies.submitOrder w request with
  | error e => rfl
  | ok brokerOrderId =>
    simp only
    rw [shadow_bind_pure, shadow_execute]
    rfl

/-- A call that sends nothing calls nobody; one that sends calls the submitter once. -/
theorem submitShadowLiveBuy_world :
    (c.order? w.db = none →
      (Raising.eval (shadowHandler replies) (submitShadowLiveBuy c) w).2.calls = w.calls ∧
      KeepsSubmitted w.db (Raising.eval (shadowHandler replies) (submitShadowLiveBuy c) w).2.db) ∧
    ∀ signalId price request, c.order? w.db = some (signalId, price, request) →
      w.db.brokerSignalSubmitted signalId = false ∧
      krxRequest c.report.symbol .buy c.quantity price = .ok request ∧
      (Raising.eval (shadowHandler replies) (submitShadowLiveBuy c) w).2 =
        (Raising.eval (shadowHandler replies) (submitShadow c signalId price) w).2 := by
  have hblock : ∀ reason,
      (Raising.eval (shadowHandler replies) (blockShadow c reason) w).2.calls = w.calls ∧
      KeepsSubmitted w.db (Raising.eval (shadowHandler replies) (blockShadow c reason) w).2.db := by
    intro reason
    rw [blockShadow_world]
    exact ⟨after_calls replies w _, after_keeps replies w _ _⟩
  unfold submitShadowLiveBuy ShadowCall.order?
  by_cases hmax : c.maxQuantity ≤ 0
  · rw [if_pos hmax, if_pos hmax]
    exact ⟨fun _ => ⟨rfl, fun _ h => h⟩, fun _ _ _ h => (Option.some_ne_none _ h.symm).elim⟩
  rw [if_neg hmax, if_neg hmax]
  cases c.check with
  | error reason => exact ⟨fun _ => hblock reason, fun _ _ _ h => (Option.some_ne_none _ h.symm).elim⟩
  | ok order =>
    obtain ⟨signalId, price⟩ := order
    simp only
    have hselect : Raising.eval (shadowHandler replies)
        (select fun db => db.brokerSignalSubmitted signalId) w =
        (.ok (w.db.brokerSignalSubmitted signalId), w) := rfl
    rw [Raising.eval_bind, hselect]
    cases hdone : w.db.brokerSignalSubmitted signalId with
    | true =>
      simp only [if_true]
      exact ⟨fun _ => hblock "duplicate_signal", fun _ _ _ h => (Option.some_ne_none _ h.symm).elim⟩
    | false =>
      simp only [Bool.false_eq_true, if_false]
      cases hrequest : krxRequest c.report.symbol .buy c.quantity price with
      | error e =>
        refine ⟨fun _ => ?_, fun _ _ _ h => (Option.some_ne_none _ h.symm).elim⟩
        unfold submitShadow
        rw [Raising.eval_bind, hrequest, shadow_reraise]
        exact ⟨rfl, fun _ h => h⟩
      | ok request =>
        refine ⟨fun h => (Option.some_ne_none _ h).elim, fun _ _ _ horder => ?_⟩
        cases horder
        exact ⟨hdone, hrequest, rfl⟩

end Calls

/-! ### The condition -/

/-- The audit of a request the broker accepts passes its own validation. -/
theorem submittedAudit_row {c : ShadowCall} {signalId : String} {price : Number}
    {request : OrderRequest} (hrequest : krxRequest c.report.symbol .buy c.quantity price = .ok request)
    (brokerOrderId : Option String) :
    ∃ row, auditRow c.now (c.submittedAudit signalId price brokerOrderId) = .ok row := by
  unfold krxRequest at hrequest
  split at hrequest
  · cases hrequest
  rename_i hsymbol
  split at hrequest
  · cases hrequest
  rename_i hquantity
  split at hrequest
  · cases hrequest
  rename_i hprice
  have hid : (c.submittedAudit signalId price brokerOrderId).auditId ≠ "" := by
    intro h
    have hlen := congrArg String.length h
    simp [ShadowCall.submittedAudit, shadowAuditId] at hlen
  have hchecks : validatePaperRecord c.report.symbol c.quantity price = .ok () := by
    have hvalid : validateSymbol c.report.symbol = .ok () := by
      unfold validateSymbol
      simp only [not_or, Bool.not_eq_false, ne_eq, not_not] at hsymbol
      simp [Text.blank_of_isdigit hsymbol.1, hsymbol.1, hsymbol.2]
    unfold validatePaperRecord
    rw [hvalid]
    simp [hquantity, hprice, Bind.bind, Except.bind]
  have hfields : ¬ ((c.submittedAudit signalId price brokerOrderId).auditId = "" ∨
      (c.submittedAudit signalId price brokerOrderId).side = "" ∨
      (c.submittedAudit signalId price brokerOrderId).status = "" ∨
      (c.submittedAudit signalId price brokerOrderId).reason = "") := by
    rintro (h | h | h | h)
    · exact hid h
    · exact (by decide : "BUY" ≠ "") h
    · exact (by decide : "SUBMITTED" ≠ "") h
    · exact (by decide : "approved" ≠ "") h
  unfold auditRow
  rw [show validatePaperRecord (c.submittedAudit signalId price brokerOrderId).symbol
    (c.submittedAudit signalId price brokerOrderId).quantity
    (c.submittedAudit signalId price brokerOrderId).price = .ok () from hchecks, if_neg hfields]
  exact ⟨_, rfl⟩

/-- After a call that reaches the submitter, the signal is known to be submitted exactly
    when the order is accounted for. -/
theorem submitShadow_spec (replies : ShadowReplies) (c : ShadowCall) (w : ShadowWorld)
    {signalId : String} {price : Number} {request : OrderRequest}
    (hrequest : krxRequest c.report.symbol .buy c.quantity price = .ok request)
    (hnew : w.db.brokerSignalSubmitted signalId = false) {w' : ShadowWorld}
    (hw' : (Raising.eval (shadowHandler replies) (submitShadow c signalId price) w).2 = w') :
    w'.calls = w.calls ++ [signalId] ∧ KeepsSubmitted w.db w'.db ∧
      (w'.db.brokerSignalSubmitted signalId = true ↔
        ∃ brokerOrderId, ShadowAccounted replies c w signalId price request brokerOrderId) := by
  rw [submitShadow_world replies c w hrequest] at hw'
  cases hreply : replies.submitOrder w request with
  | error e =>
    rw [hreply] at hw'
    subst hw'
    refine ⟨rfl, fun _ h => h, ⟨fun h => ?_, fun ⟨brokerOrderId, h⟩ => ?_⟩⟩
    · exact absurd (hnew.symm.trans h) (by decide)
    · exact absurd (hreply.symm.trans h.returns) (by nofun)
  | ok brokerOrderId =>
    rw [hreply] at hw'
    subst hw'
    refine ⟨after_calls replies _ _, after_keeps replies (w.called signalId) _ _, ?_⟩
    obtain ⟨row, hrow⟩ := submittedAudit_row hrequest brokerOrderId
    have hsubmitted := recordAudit_submitted hrow rfl rfl hnew
    simp only
    unfold ShadowWorld.after
    cases hraises : replies.raises (w.called signalId)
      (.recordBrokerOrderAudit c.now (c.submittedAudit signalId price brokerOrderId)) with
    | some e =>
      refine ⟨fun h => absurd (hnew.symm.trans h) (by decide), fun ⟨other, h⟩ => ?_⟩
      cases hreply.symm.trans h.returns
      exact absurd (hraises.symm.trans h.records) (Option.some_ne_none e)
    | none =>
      refine hsubmitted.trans ⟨fun ⟨hfresh, hprice⟩ => ⟨brokerOrderId, hreply, hraises, hfresh, hprice⟩,
        fun ⟨_, h⟩ => ⟨h.fresh, h.price⟩⟩

/-! ### Runs -/

/-- No signal was submitted twice, and every submitted signal has its audit. -/
structure ShadowOnce (w : ShadowWorld) : Prop where
  once : w.calls.Nodup
  audited : ∀ signalId ∈ w.calls, w.db.brokerSignalSubmitted signalId = true

theorem ShadowOnce.call {replies : ShadowReplies} {c : ShadowCall} {w : ShadowWorld}
    (h : ShadowOnce w) (hc : AccountsFor replies c w) :
    ShadowOnce (Raising.eval (shadowHandler replies) (submitShadowLiveBuy c) w).2 := by
  obtain ⟨hquiet, hsends⟩ := submitShadowLiveBuy_world replies c w
  cases horder : c.order? w.db with
  | none =>
    obtain ⟨hcalls, hkeeps⟩ := hquiet horder
    refine ⟨by rw [hcalls]; exact h.once, fun signalId hmem => ?_⟩
    rw [hcalls] at hmem
    exact hkeeps _ (h.audited signalId hmem)
  | some order =>
    obtain ⟨signalId, price, request⟩ := order
    obtain ⟨hnew, hrequest, hworld⟩ := hsends signalId price request horder
    obtain ⟨hcalls, hkeeps, hsubmitted⟩ := submitShadow_spec replies c w hrequest hnew hworld.symm
    have hfresh : signalId ∉ w.calls := fun hmem =>
      absurd (hnew.symm.trans (h.audited signalId hmem)) (by decide)
    refine ⟨?_, fun id hmem => ?_⟩
    · rw [hcalls]
      exact List.nodup_append.mpr ⟨h.once, List.nodup_singleton _, by
        rintro a ha b hb rfl
        exact hfresh (List.mem_singleton.mp hb ▸ ha)⟩
    · rw [hcalls, List.mem_append, List.mem_singleton] at hmem
      rcases hmem with hmem | rfl
      · exact hkeeps _ (h.audited id hmem)
      · exact hsubmitted.mpr (hc _ _ _ horder)

/-- **A signal is submitted once**, where every call that reaches the submitter sees it
    return and the transaction of its audit insert the row. -/
theorem shadow_signal_submitted_once {w : ShadowWorld} (h : ShadowRun AccountsFor w) :
    w.calls.Nodup := by
  have honce : ShadowOnce w := by
    induction h with
    | start db => exact ⟨List.nodup_nil, nofun⟩
    | call replies c _ hc ih => exact ih.call hc
    | between _ hkeeps ih => exact ⟨ih.once, fun id hmem => hkeeps _ (ih.audited id hmem)⟩
  exact honce.once

/-! ### A repeated signal -/

namespace ShadowHistory

def now : DateTime := .combine 20000 10 0 0 none

/-- The report of one signal, twice. -/
def call (uuid : String) : ShadowCall where
  report := ⟨"005930", false, true, "approved", 3, some "signal-1", some (.int 70000)⟩
  paused := false
  confirmSubmit := true
  maxQuantity := 1
  currentTime := none
  now := now
  uuid := uuid

/-- The broker accepts, and every transaction commits. -/
def answered : ShadowReplies := ⟨fun _ _ => .ok (some "K1"), fun _ _ => none⟩

/-- The broker accepts, and its answer is lost. -/
def timedOut : ShadowReplies := ⟨fun _ _ => .error (.other "TimeoutError" "timed out"), fun _ _ => none⟩

def run (replies : ShadowReplies) (uuid : String) (w : ShadowWorld) : ShadowWorld :=
  (Raising.eval (shadowHandler replies) (submitShadowLiveBuy (call uuid)) w).2

def start : ShadowWorld := ⟨Database.empty, []⟩

theorem second_call_blocked :
    (run answered "b" (run answered "a" start)).calls = ["signal-1"] ∧
      (run answered "b" (run answered "a" start)).calls.Nodup := by
  refine ⟨by decide +kernel, shadow_signal_submitted_once ?_⟩
  refine .call _ _ (.call _ _ (.start Database.empty) fun signalId price request h => ?_) ?_
  · cases h
    exact ⟨some "K1", rfl, rfl, rfl, nofun⟩
  · intro signalId price request h
    have hnone : (call "b").order? (run answered "a" start).db = none := by decide +kernel
    exact absurd (hnone.symm.trans h) (by nofun)

/-- Two answers lost: the signal is submitted twice. -/
theorem lost_answer_submitted_again :
    ¬ ∀ w, ShadowRun (fun _ _ _ => True) w → w.calls.Nodup := by
  intro h
  have htwice : (run timedOut "b" (run timedOut "a" start)).calls = ["signal-1", "signal-1"] := by
    decide +kernel
  have honce := h _ (.call timedOut (call "b") (.call timedOut (call "a") (.start Database.empty)
    trivial) trivial)
  exact absurd (htwice ▸ honce : ["signal-1", "signal-1"].Nodup) (by decide)

end ShadowHistory

end AutoTrader
