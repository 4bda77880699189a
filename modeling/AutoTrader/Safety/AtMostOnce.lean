/-
  AutoTrader/Safety/AtMostOnce.lean
  =================================
  **An order is sent at most once.**

  `_submit_with_ledger` sends an order only after its claim created the row of the
  client id, and rows are never deleted.  So the process that created a row is the
  only one that can send under its id, and it does so once.  This survives any
  interleaving of cycles and any crash: a cycle that stops between the claim and
  the call leaves a row that nobody can claim again.

  Both entry paths submit under the id of the symbol and the minute of the last
  bar, hence one BUY per symbol and bar.
-/
import AutoTrader.Pipeline.AutoTrade
import AutoTrader.Ledger.Frame

namespace AutoTrader

open Relational Interleave

/-! ### Cycles on one database -/

/-- A cycle with everything it will learn from outside.  Its submitter is a broker
    client, which may answer anything, or a `GuardedSubmitter` around one. -/
structure Cycle where
  args : CycleArgs
  symbols : List String
  inputs : String → SymbolInputs
  submitter : args.submitter = brokerSubmitter ∨ ∃ guard, args.submitter = guardedSubmitter guard

def Cycle.program (c : Cycle) : Prog trading Unit :=
  detached (runAutoTradeCycle c.args c.symbols c.inputs)

/-- A call of `submit_order`. -/
structure Send where
  cycle : Nat
  clientOrderId : String
  request : OrderRequest

/-- The database and the history of a run: which cycle created an order row, and
    the calls of `submit_order` so far. -/
structure SubmissionWorld where
  db : Database
  creator : String → Option Nat
  sent : List Send

namespace SubmissionWorld

/-- A row that a transaction of cycle `i` creates is of that cycle. -/
def created (w : SubmissionWorld) (i : Nat) (db' : Database) (id : String) : Option Nat :=
  if w.db.brokerOrders.find? id = none ∧ db'.brokerOrders.find? id ≠ none then some i
  else w.creator id

def sem (i : Nat) : (o : Act) → SubmissionWorld → o.Reply → SubmissionWorld → Prop
  | .read query, w, b, w' => b = query w.db ∧ w' = w
  | .tryRead query, w, b, w' => (b = .ok (query w.db) ∨ ∃ e, b = .error e) ∧ w' = w
  | .selectOrders query, w, b, w' => b = query w.db ∧ w' = w
  | .call op, w, b, w' => b = (op.call w.db).1 ∧
      w' = ⟨op.exec w.db, w.created i (op.exec w.db), w.sent⟩
  | .submitOrder id request, w, _, w' => w' = { w with sent := w.sent ++ [⟨i, id, request⟩] }
  | .cancelOrder .., w, _, w' => w' = w

/-- Everything else may change the database in any way, but order rows stay. -/
def env (w w' : SubmissionWorld) : Prop :=
  w'.creator = w.creator ∧ w'.sent = w.sent ∧
  ∀ id, w.db.brokerOrders.find? id ≠ none → w'.db.brokerOrders.find? id ≠ none

end SubmissionWorld

/-- Any number of cycles on one database.  A number stands for one cycle, which may
    be started, stopped anywhere and started again. -/
def submissions (cycles : Nat → Cycle) : System trading SubmissionWorld where
  sem := SubmissionWorld.sem
  env := SubmissionWorld.env
  spawn i _ q := q = (cycles i).program

/-! ### Who may send what -/

/-- The id under which a BUY has to be sent. -/
def BarKeyed (cycles : Nat → Cycle) (i : Nat) (id : String) (request : OrderRequest) : Prop :=
  request.side = .buy → ∃ barStart, ((cycles i).inputs request.symbol).lastBarStart = some barStart ∧
    id = clientOrderIdOf .buy (entrySignalId request.symbol barStart)

/-- Nothing was sent twice, and what was sent has a row. -/
structure SentOnce (cycles : Nat → Cycle) (w : SubmissionWorld) : Prop where
  nodup : (w.sent.map (·.clientOrderId)).Nodup
  rows : ∀ s ∈ w.sent, w.db.brokerOrders.find? s.clientOrderId ≠ none
  creators : ∀ id i, w.creator id = some i → w.db.brokerOrders.find? id ≠ none
  keyed : ∀ s ∈ w.sent, BarKeyed cycles s.cycle s.clientOrderId s.request

/-- A step that sends nothing. -/
structure Quiet (w w' : SubmissionWorld) : Prop where
  rows : ∀ id, w.db.brokerOrders.find? id ≠ none → w'.db.brokerOrders.find? id ≠ none
  creators : ∀ id i, w.creator id = some i → w'.creator id = some i
  sent : w'.sent = w.sent

/-- A cycle sends only under ids whose row it created. -/
def SendsOwn (i : Nat) (w w' : SubmissionWorld) : Prop :=
  Quiet w w' ∨ ∃ id request, w.creator id = some i ∧
    w' = { w with sent := w.sent ++ [⟨i, id, request⟩] }

/-- Cycle `i` created the row and has not sent the order. -/
def MaySend (i : Nat) (id : String) (w : SubmissionWorld) : Prop :=
  w.creator id = some i ∧ id ∉ w.sent.map (·.clientOrderId)

theorem MaySend.quiet {i : Nat} {id : String} {w w' : SubmissionWorld} (h : MaySend i id w)
    (hq : Quiet w w') : MaySend i id w' :=
  ⟨hq.creators id i h.1, by rw [hq.sent]; exact h.2⟩

section Cycles

variable (cycles : Nat → Cycle) (i : Nat)

/-- The interference a cycle has to expect. -/
abbrev othersSend : SubmissionWorld → SubmissionWorld → Prop :=
  (submissions cycles).rely (SentOnce cycles) SendsOwn i

theorem Quiet.of_env {w w' : SubmissionWorld} (h : SubmissionWorld.env w w') : Quiet w w' := by
  obtain ⟨hc, hs, hrows⟩ := h
  exact ⟨hrows, fun id i hid => by rw [hc]; exact hid, hs⟩

/-- Nobody else sends under the id of a row that cycle `i` created. -/
theorem MaySend.interfere {id : String} {w w' : SubmissionWorld} (hstep : othersSend cycles i w w')
    (h : MaySend i id w) : MaySend i id w' := by
  rcases hstep with ⟨-, -, henv | ⟨j, hji, hquiet | ⟨id', request, hown, rfl⟩⟩⟩
  · exact h.quiet (.of_env henv)
  · exact h.quiet hquiet
  · refine ⟨h.1, ?_⟩
    have hne : id ≠ id' := by
      rintro rfl
      rw [h.1, Option.some.injEq] at hown
      exact hji hown.symm
    simp only [List.map_append, List.map_cons, List.map_nil, List.mem_append, List.mem_singleton]
    exact not_or.mpr ⟨h.2, hne⟩

/-! ### Steps -/

theorem SentOnce.quiet {w w' : SubmissionWorld} (h : SentOnce cycles w) (hq : Quiet w w')
    (hcreators : ∀ id i, w'.creator id = some i → w'.db.brokerOrders.find? id ≠ none) :
    SentOnce cycles w' where
  nodup := by rw [hq.sent]; exact h.nodup
  rows := by
    intro s hs
    rw [hq.sent] at hs
    exact hq.rows _ (h.rows s hs)
  creators := hcreators
  keyed := by rw [hq.sent]; exact h.keyed

/-- A transaction sends nothing, and the rows it creates are of its cycle. -/
theorem SentOnce.call {w : SubmissionWorld} (h : SentOnce cycles w) (op : Op) :
    SentOnce cycles ⟨op.exec w.db, w.created i (op.exec w.db), w.sent⟩ ∧
    Quiet w ⟨op.exec w.db, w.created i (op.exec w.db), w.sent⟩ := by
  have hrows : ∀ id, w.db.brokerOrders.find? id ≠ none →
      (op.exec w.db).brokerOrders.find? id ≠ none := by
    intro id hid
    obtain ⟨o, ho⟩ := Option.ne_none_iff_exists'.mp hid
    obtain ⟨o', ho', -⟩ := (op.exec_orders w.db).persists ho
    rw [ho']
    exact Option.some_ne_none o'
  have hquiet : Quiet w ⟨op.exec w.db, w.created i (op.exec w.db), w.sent⟩ := by
    refine ⟨hrows, fun id j hid => ?_, rfl⟩
    change w.created i (op.exec w.db) id = some j
    unfold SubmissionWorld.created
    rw [if_neg fun hnew => h.creators id j hid hnew.1]
    exact hid
  refine ⟨h.quiet cycles hquiet ?_, hquiet⟩
  intro id j hid
  change w.created i (op.exec w.db) id = some j at hid
  unfold SubmissionWorld.created at hid
  split at hid
  · rename_i hnew
    exact hnew.2
  · exact hrows id (h.creators id j hid)

/-- The order is sent under an id that was not sent before. -/
theorem SentOnce.send {w : SubmissionWorld} (h : SentOnce cycles w) {id : String}
    {request : OrderRequest} (hmay : MaySend i id w) (hkey : BarKeyed cycles i id request) :
    SentOnce cycles { w with sent := w.sent ++ [⟨i, id, request⟩] } where
  nodup := by
    simp only [List.map_append, List.map_cons, List.map_nil]
    rw [List.nodup_append]
    refine ⟨h.nodup, List.nodup_singleton id, ?_⟩
    intro a ha b hb hab
    rw [List.mem_singleton] at hb
    exact hmay.2 (by rw [← hb, ← hab]; exact ha)
  rows := by
    intro s hs
    rcases List.mem_append.mp hs with hs | hs
    · exact h.rows s hs
    · rw [List.mem_singleton.mp hs]
      exact h.creators id i hmay.1
  creators := h.creators
  keyed := by
    intro s hs
    rcases List.mem_append.mp hs with hs | hs
    · exact h.keyed s hs
    · rw [List.mem_singleton.mp hs]
      exact hkey

/-! ### Programs -/

/-- What a program of cycle `i` owes. -/
abbrev CycleSafe {α : Type} (p : Pipeline α) (Q : α → SubmissionWorld → Prop)
    (E : Exn → SubmissionWorld → Prop) (w : SubmissionWorld) : Prop :=
  Raising.SafeE ((submissions cycles).sem i) (SentOnce cycles) (othersSend cycles i) (SendsOwn i) p
    Q E w

/-- A program of cycle `i` that keeps an assertion. -/
abbrev CycleKeeps (R : SubmissionWorld → Prop) {α : Type} (p : Pipeline α) : Prop :=
  Raising.Keeps ((submissions cycles).sem i) (SentOnce cycles) (othersSend cycles i) (SendsOwn i) R p

/-- A program of cycle `i` that is safe wherever it is started. -/
abbrev CycleTame {α : Type} (p : Pipeline α) : Prop := CycleKeeps cycles i (fun _ => True) p

/-- An assertion that other cycles and silent steps of cycle `i` leave true. -/
structure Undisturbed (R : SubmissionWorld → Prop) : Prop where
  others : ∀ w w', othersSend cycles i w w' → R w → R w'
  quiet : ∀ w w', Quiet w w' → R w → R w'

theorem Undisturbed.true : Undisturbed cycles i fun _ => True :=
  ⟨fun _ _ _ _ => trivial, fun _ _ _ _ => trivial⟩

theorem MaySend.undisturbed (id : String) : Undisturbed cycles i (MaySend i id) :=
  ⟨fun _ _ hstep h => h.interfere cycles i hstep, fun _ _ hq h => h.quiet hq⟩

section Silent

variable {cycles i} {R : SubmissionWorld → Prop} (hR : Undisturbed cycles i R)

include hR

theorem keeps_reraise {α : Type} (r : Except Exn α) : CycleKeeps cycles i R (reraise r) := by
  cases r with
  | ok a => exact Raising.Keeps.pure hR.others a
  | error e => exact Raising.Keeps.throw hR.others e

theorem keeps_execute (op : Op) : CycleKeeps cycles i R (execute op) := by
  apply Raising.Keeps.bind
  · apply Raising.Keeps.ask hR.others
    rintro w b w' hw hinv ⟨-, rfl⟩
    obtain ⟨hinv', hq⟩ := hinv.call cycles i op
    exact ⟨hinv', .inl hq, hR.quiet _ _ hq hw⟩
  · exact keeps_reraise hR

theorem keeps_readsOnly {α : Type} {p : Pipeline α} (hp : ReadsOnly p) : CycleKeeps cycles i R p := by
  refine Raising.Keeps.of_only hR.others ?_ hp
  intro o ho w b w' hw hinv hsem
  have hnothing : Quiet w w := ⟨fun _ h => h, fun _ _ h => h, rfl⟩
  cases o with
  | read query => obtain ⟨-, rfl⟩ := hsem; exact ⟨hinv, .inl hnothing, hw⟩
  | tryRead query => obtain ⟨-, rfl⟩ := hsem; exact ⟨hinv, .inl hnothing, hw⟩
  | selectOrders query => obtain ⟨-, rfl⟩ := hsem; exact ⟨hinv, .inl hnothing, hw⟩
  | call op => exact ho.elim
  | submitOrder id request => exact ho.elim
  | cancelOrder id number branch quantity price => exact ho.elim

end Silent

/-! ### The submission -/

variable {cycles i}

/-- The call of the submitter, by the one cycle that may make it. -/
theorem brokerSubmitter_safe {id : String} {request : OrderRequest} (hkey : BarKeyed cycles i id request)
    {w : SubmissionWorld} (h : MaySend i id w) :
    CycleSafe cycles i (brokerSubmitter id request) (fun _ _ => True) (fun _ _ => True) w := by
  apply Raising.SafeE.bind
  apply Raising.SafeE.ask
  rintro w₁ hw₁ hinv b w₂ rfl
  have hmay := Raising.Keeps.stable (MaySend.undisturbed cycles i id).others hw₁ h
  refine ⟨hinv.send cycles i hmay hkey, .inr ⟨id, request, hmay.1, rfl⟩, fun w' _ => ?_⟩
  exact keeps_reraise (Undisturbed.true cycles i) b w' trivial

theorem submitter_safe {submitter : Submitter}
    (hsub : submitter = brokerSubmitter ∨ ∃ guard, submitter = guardedSubmitter guard)
    {id : String} {request : OrderRequest} (hkey : BarKeyed cycles i id request)
    {w : SubmissionWorld} (h : MaySend i id w) :
    CycleSafe cycles i (submitter id request) (fun _ _ => True) (fun _ _ => True) w := by
  rcases hsub with rfl | ⟨guard, rfl⟩
  · exact brokerSubmitter_safe hkey h
  · have hgate := (keeps_readsOnly (MaySend.undisturbed cycles i id)
      (readsOnly_safetyGate guard request)).attempt
    apply Raising.SafeE.bind
    refine Raising.SafeE.mono (hgate w h) ?_ fun _ _ _ => trivial
    intro r w' hmay
    cases r with
    | error e => exact Raising.SafeE.throw fun _ _ => trivial
    | ok _ => exact brokerSubmitter_safe hkey hmay

/-- What is written after the call. -/
theorem tame_recordUnknown (request : OrderRequest) (signalId reason id error : String)
    (createdAt : DateTime) :
    CycleTame cycles i
      (recordUnknown request signalId reason id error createdAt) := by
  apply (keeps_execute (.true cycles i) _).bind
  intro _
  apply (keeps_execute (.true cycles i) _).bind
  intro _
  exact Raising.Keeps.pure (fun _ _ _ _ => trivial) _

theorem tame_recordAcknowledged (request : OrderRequest) (signalId reason id broker : String)
    (createdAt : DateTime) :
    CycleTame cycles i
      (recordAcknowledged request signalId reason id broker createdAt) := by
  apply (keeps_execute (.true cycles i) _).bind
  intro _
  apply (keeps_execute (.true cycles i) _).bind
  intro _
  exact Raising.Keeps.pure (fun _ _ _ _ => trivial) _

theorem submitClaimed_safe {submitter : Submitter}
    (hsub : submitter = brokerSubmitter ∨ ∃ guard, submitter = guardedSubmitter guard)
    {id : String} {request : OrderRequest} (hkey : BarKeyed cycles i id request)
    (signalId reason : String) (createdAt : DateTime) {w : SubmissionWorld} (h : MaySend i id w) :
    CycleSafe cycles i (submitClaimed submitter request signalId reason id createdAt)
      (fun _ _ => True) (fun _ _ => True) w := by
  apply Raising.SafeE.bind
  refine Raising.SafeE.mono (keeps_execute (MaySend.undisturbed cycles i id) _ w h) ?_
    fun _ _ _ => trivial
  intro _ w₁ hmay
  apply Raising.SafeE.bind
  apply Raising.SafeE.attempt
  refine Raising.SafeE.mono (submitter_safe hsub hkey hmay) ?_ ?_
  · intro broker w₂ _
    dsimp only
    split
    · exact tame_recordAcknowledged request signalId reason id _ createdAt w₂ trivial
    · exact tame_recordUnknown request signalId reason id _ createdAt w₂ trivial
  · intro e w₂ _
    exact tame_recordUnknown request signalId reason id _ createdAt w₂ trivial

/-- A claim that returns true makes the caller the only sender. -/
theorem claim_safe (now : DateTime) (a : IntentArgs) (w : SubmissionWorld) :
    CycleSafe cycles i (execute (.claimOrderIntent now a))
      (fun claimed w' => claimed = true → MaySend i a.clientOrderId w') (fun _ _ => True) w := by
  apply Raising.SafeE.bind
  apply Raising.SafeE.ask
  rintro w₁ - hinv b w₂ ⟨rfl, rfl⟩
  obtain ⟨hinv', hquiet⟩ := hinv.call cycles i (.claimOrderIntent now a)
  refine ⟨hinv', .inl hquiet, fun w' hw' => ?_⟩
  rcases claimOrderIntent_cases now a w₁.db with ⟨e, hr⟩ | ⟨-, hr⟩ | ⟨row, hrow, hfree, hr⟩
  · simp only [Op.call, Op.run, hr]
    exact Raising.SafeE.throw fun _ _ => trivial
  · simp only [Op.call, Op.run, hr]
    exact Raising.SafeE.pure fun _ _ hfalse => by cases hfalse
  · rw [(intentRow_ok hrow).1] at hfree
    have hnew : ((Op.claimOrderIntent now a).exec w₁.db).brokerOrders.find? a.clientOrderId ≠ none := by
      simp only [Op.exec, Op.call, Op.run, hr]
      rw [Table.find?_append (Table.insertOrIgnore_of_free
        (by rw [(intentRow_ok hrow).1]; exact hfree)).2, hfree, (intentRow_ok hrow).1]
      simp
    have hmay : MaySend i a.clientOrderId
        ⟨(Op.claimOrderIntent now a).exec w₁.db,
          w₁.created i ((Op.claimOrderIntent now a).exec w₁.db), w₁.sent⟩ := by
      refine ⟨if_pos ⟨hfree, hnew⟩, ?_⟩
      intro hsent
      obtain ⟨s, hs, hid⟩ := List.mem_map.mp hsent
      exact hinv.rows s hs (by rw [hid]; exact hfree)
    simp only [Op.call, Op.run, hr]
    exact Raising.SafeE.pure fun w'' hw'' _ =>
      Raising.Keeps.stable (MaySend.undisturbed cycles i _).others (hw'.trans hw'') hmay

theorem submitWithLedger_safe {submitter : Submitter}
    (hsub : submitter = brokerSubmitter ∨ ∃ guard, submitter = guardedSubmitter guard)
    {request : OrderRequest} {signalId : String} {idempotencyKey : Option String}
    (hkey : BarKeyed cycles i
      (clientOrderIdOf request.side (submissionKey idempotencyKey signalId)) request)
    (reason : String) (createdAt : DateTime) (w : SubmissionWorld) :
    CycleSafe cycles i (submitWithLedger submitter request signalId idempotencyKey reason createdAt)
      (fun _ _ => True) (fun _ _ => True) w := by
  apply Raising.SafeE.bind
  refine Raising.SafeE.mono (claim_safe _ _ w) ?_ fun _ _ _ => trivial
  intro claimed w' hclaimed
  split
  · rename_i htrue
    exact submitClaimed_safe hsub hkey signalId reason createdAt (hclaimed htrue)
  · exact Raising.SafeE.pure fun _ _ => trivial

/-! ### The cycle -/

theorem krxRequest_ok {symbol : String} {side : Side} {quantity : Int} {price : Number}
    {request : OrderRequest} (h : krxRequest symbol side quantity price = .ok request) :
    request.symbol = symbol ∧ request.side = side := by
  rw [krxRequest_eq h]
  exact ⟨rfl, rfl⟩

theorem submissionKey_some {key : String} (h : key ≠ "") (signalId : String) :
    submissionKey (some key) signalId = key := by
  unfold submissionKey
  rw [if_pos (by simp [truthy, h])]
  rfl

theorem entrySignalId_ne (symbol : String) (barStart : DateTime) : entrySignalId symbol barStart ≠ "" := by
  intro h
  have := congrArg String.toList h
  simp [entrySignalId] at this

section Iteration

variable {submitter : Submitter}
  (hsub : submitter = brokerSubmitter ∨ ∃ guard, submitter = guardedSubmitter guard)

include hsub

theorem tame_submitExit (symbol : String) (position : LivePosition) (reason : ExitReason)
    (price : Int) (now : DateTime) :
    CycleTame cycles i (submitExit submitter symbol position reason price now) := by
  intro w _
  unfold submitExit
  cases hrequest : krxRequest symbol .sell position.quantity (.int price) with
  | error e => exact Raising.SafeE.throw fun _ _ => trivial
  | ok request =>
    -- a SELL has no bar to be keyed by
    have hkey : ∀ id, BarKeyed cycles i id request := by
      intro id hbuy
      rw [(krxRequest_ok hrequest).2] at hbuy
      cases hbuy
    apply Raising.SafeE.bind
    apply Raising.SafeE.pure
    intro w' _
    apply Raising.SafeE.bind
    refine Raising.SafeE.mono (submitWithLedger_safe hsub (hkey _) _ _ w') ?_ fun _ _ _ => trivial
    exact fun _ _ _ => Raising.SafeE.pure fun _ _ => trivial

theorem tame_maybeExitPosition (calendar : Calendar) (config : AutoTradeConfig) (symbol : String)
    (now : DateTime) (quote : MarketView) (exitPrice : Option (Except Exn PyFloat)) :
    CycleTame cycles i
      (maybeExitPosition submitter calendar config symbol now quote exitPrice) := by
  have hpure : ∀ {α : Type} (a : α),
      CycleTame cycles i (pure a : Pipeline α) := by
    intro α a
    exact Raising.Keeps.pure (Undisturbed.true cycles i).others a
  have hflag : ∀ key value, CycleTame cycles i (setFlag now key value) :=
    fun key value => keeps_execute (.true cycles i) _
  apply (keeps_readsOnly (.true cycles i) (readsOnly_select _)).bind
  intro positions
  cases positions with
  | nil => exact hpure none
  | cons position rest =>
    dsimp only
    split
    · exact hpure _
    · split
      · exact hpure _
      · apply (keeps_readsOnly (.true cycles i) (readsOnly_select _)).bind
        intro unresolved
        split
        · exact hpure _
        · apply (keeps_readsOnly (.true cycles i) (readsOnly_select _)).bind
          intro attempts
          split
          · apply (hflag _ _).bind
            intro _
            apply (hflag _ _).bind
            intro _
            exact hpure _
          · split
            · exact hpure _
            · split
              · exact hpure _
              · exact (tame_submitExit hsub symbol position _ _ now).bind fun _ => hpure _

/-- The bar an entry is keyed by is the last bar of the cycle's data. -/
theorem tame_submitEntry {symbol : String} {barStart : DateTime}
    (hbar : ((cycles i).inputs symbol).lastBarStart = some barStart) (now : DateTime)
    (reason : String) (outcome : EntryOutcome) :
    CycleTame cycles i
      (submitEntry submitter symbol barStart now reason outcome) := by
  intro w _
  cases outcome with
  | blocked reason => exact Raising.SafeE.pure fun _ _ => trivial
  | raised e => exact Raising.SafeE.throw fun _ _ => trivial
  | order decisionId quantity entryPrice =>
    dsimp only [submitEntry]
    cases hrequest : krxRequest symbol .buy quantity entryPrice with
    | error e => exact Raising.SafeE.throw fun _ _ => trivial
    | ok request =>
      obtain ⟨hsymbol, hside⟩ := krxRequest_ok hrequest
      have hkey : BarKeyed cycles i (clientOrderIdOf request.side
          (submissionKey (some (entrySignalId symbol barStart)) decisionId)) request := by
        intro _
        rw [hsymbol, hside, submissionKey_some (entrySignalId_ne symbol barStart)]
        exact ⟨barStart, hbar, rfl⟩
      apply Raising.SafeE.bind
      apply Raising.SafeE.pure
      intro w' _
      apply Raising.SafeE.bind
      refine Raising.SafeE.mono (submitWithLedger_safe hsub hkey _ _ w') ?_ fun _ _ _ => trivial
      exact fun _ _ _ => Raising.SafeE.pure fun _ _ => trivial

theorem tame_maybeEnterPosition (symbol : String) (now : DateTime) (path : EntryPath) :
    CycleTame cycles i (maybeEnterPosition submitter symbol
      ((cycles i).inputs symbol).lastBarStart now path) := by
  unfold maybeEnterPosition
  cases hbar : ((cycles i).inputs symbol).lastBarStart with
  | none => exact Raising.Keeps.pure (Undisturbed.true cycles i).others _
  | some barStart =>
    cases path with
    | approved outcome => exact tame_submitEntry hsub hbar now _ outcome
    | direct outcome =>
      apply (keeps_readsOnly (.true cycles i) (readsOnly_select _)).bind
      intro order
      split
      · exact Raising.Keeps.pure (Undisturbed.true cycles i).others _
      · exact tame_submitEntry hsub hbar now _ outcome

end Iteration

theorem tame_cycleSymbol (symbol : String) :
    CycleTame cycles i
      (cycleSymbol (cycles i).args symbol ((cycles i).inputs symbol)) := by
  have hpure : ∀ {α : Type} (a : α),
      CycleTame cycles i (pure a : Pipeline α) := by
    intro α a
    exact Raising.Keeps.pure (Undisturbed.true cycles i).others a
  unfold cycleSymbol
  dsimp only
  split
  · exact hpure _
  · split
    · exact hpure _
    · apply (keeps_readsOnly (.true cycles i) (readsOnly_select _)).bind
      intro emergency
      split
      · exact hpure _
      · split
        · exact hpure _
        · apply (tame_maybeExitPosition (cycles i).submitter _ _ _ _ _ _).bind
          intro result
          cases result with
          | some result => exact hpure result
          | none =>
            apply (keeps_readsOnly (.true cycles i) (readsOnly_select _)).bind
            intro positions
            repeat' split
            all_goals first
              | exact hpure _
              | exact tame_maybeEnterPosition (cycles i).submitter symbol _ _

theorem program_safe (w : SubmissionWorld) :
    (cycles i).program.Safe ((submissions cycles).sem i) (SentOnce cycles) (othersSend cycles i)
      (SendsOwn i) (fun _ _ => True) w := by
  have hcycle : CycleTame cycles i
      (runAutoTradeCycle (cycles i).args (cycles i).symbols (cycles i).inputs) := by
    apply (keeps_readsOnly (.true cycles i) (readsOnly_select _)).bind
    intro openSymbols
    apply Raising.Keeps.foldlM (Undisturbed.true cycles i).others
    intro results symbol
    apply (tame_cycleSymbol symbol).attempt.bind
    intro r
    cases r with
    | ok result => exact Raising.Keeps.pure (Undisturbed.true cycles i).others _
    | error e => exact Raising.Keeps.pure (Undisturbed.true cycles i).others _
  apply Prog.Safe.bind
  refine Prog.Safe.mono (hcycle w trivial) ?_
  exact fun _ _ _ _ _ => trivial

end Cycles

/-! ### Every run -/

/-- Nothing has been sent yet; the database may hold anything. -/
def Unsent (w : SubmissionWorld) : Prop := w.sent = [] ∧ ∀ id, w.creator id = none

theorem submissions_contract (cycles : Nat → Cycle) :
    (submissions cycles).Contract Unsent (SentOnce cycles) SendsOwn where
  init := by
    rintro w ⟨hsent, hcreator⟩
    refine ⟨by rw [hsent]; exact List.nodup_nil, ?_, ?_, ?_⟩
    · rw [hsent]; intro s hs; cases hs
    · intro id i hid; rw [hcreator] at hid; cases hid
    · rw [hsent]; intro s hs; cases hs
  env := by
    intro w w' h henv
    refine h.quiet cycles (.of_env henv) ?_
    intro id i hid
    rw [henv.1] at hid
    exact henv.2.2 id (h.creators id i hid)
  spawn := by
    rintro i p q - rfl
    exact program_safe p.store

/-- The minute of the bar a BUY was decided on. -/
def Send.minute (cycles : Nat → Cycle) (s : Send) : Option Int :=
  ((cycles s.cycle).inputs s.request.symbol).lastBarStart.map fun barStart =>
    barStart.asKst.wall / (60 * DateTime.microsPerSecond)

/-- The id of an entry depends on the minute of the bar only. -/
theorem entrySignalId_of_minute (symbol : String) {a b : DateTime}
    (h : a.asKst.wall / (60 * DateTime.microsPerSecond) =
      b.asKst.wall / (60 * DateTime.microsPerSecond)) :
    entrySignalId symbol a = entrySignalId symbol b := by
  have hnaive : ∀ t : DateTime, t.asKst.offset = none := by
    intro t
    unfold DateTime.asKst
    split
    · assumption
    · rfl
  have hdate : a.asKst.date = b.asKst.date := by
    simp only [DateTime.date, DateTime.microsPerSecond, DateTime.secondsPerDay] at h ⊢
    omega
  have hhour : a.asKst.time / DateTime.microsPerSecond / 3600 =
      b.asKst.time / DateTime.microsPerSecond / 3600 := by
    simp only [DateTime.time, DateTime.microsPerSecond, DateTime.secondsPerDay] at h ⊢
    omega
  have hminute : a.asKst.time / DateTime.microsPerSecond / 60 % 60 =
      b.asKst.time / DateTime.microsPerSecond / 60 % 60 := by
    simp only [DateTime.time, DateTime.microsPerSecond, DateTime.secondsPerDay] at h ⊢
    omega
  unfold entrySignalId DateTime.isoformatMinutes DateTime.minuteText
  rw [hnaive a, hnaive b, hdate]
  dsimp only
  rw [hhour, hminute]

/-- Of elements with distinct keys, at most one satisfies a predicate that fixes
    the key. -/
theorem countP_le_one {α β : Type} {key : α → β} {P : α → Bool} {xs : List α}
    (hnodup : (xs.map key).Nodup)
    (hkey : ∀ a ∈ xs, ∀ b ∈ xs, P a = true → P b = true → key a = key b) : xs.countP P ≤ 1 := by
  rw [List.countP_eq_length_filter]
  have hsub : ((xs.filter P).map key).Nodup := hnodup.sublist (List.filter_sublist.map key)
  match hf : xs.filter P with
  | [] => simp
  | [a] => simp
  | a :: b :: rest =>
    have ha : a ∈ xs.filter P := by rw [hf]; simp
    have hb : b ∈ xs.filter P := by rw [hf]; simp
    obtain ⟨ha, hPa⟩ := List.mem_filter.mp ha
    obtain ⟨hb, hPb⟩ := List.mem_filter.mp hb
    rw [hf] at hsub
    simp [hkey a ha b hb hPa hPb] at hsub

/-- **At most one submission.**  However many cycles run on one database, wherever
    they are interrupted and whatever the submitter answers, `submit_order` is
    called at most once per client id, and at most one BUY is sent per symbol and
    minute bar, on the direct path and the approved path together. -/
theorem submit_order_at_most_once (cycles : Nat → Cycle) (pool : Pool trading SubmissionWorld)
    (h : (submissions cycles).Reachable Unsent pool) :
    (∀ id, pool.store.sent.countP (fun s => s.clientOrderId = id) ≤ 1) ∧
    ∀ symbol minute, pool.store.sent.countP (fun s => s.request.side = .buy ∧
      s.request.symbol = symbol ∧ s.minute cycles = some minute) ≤ 1 := by
  have hinv := System.reachable_inv (submissions_contract cycles) h
  refine ⟨fun id => ?_, fun symbol minute => ?_⟩
  · apply countP_le_one hinv.nodup
    intro s _ t _ hs ht
    rw [of_decide_eq_true hs, of_decide_eq_true ht]
  · apply countP_le_one hinv.nodup
    intro s hs t ht hPs hPt
    obtain ⟨hbuy, hsymbol, hminute⟩ := of_decide_eq_true hPs
    obtain ⟨hbuy', hsymbol', hminute'⟩ := of_decide_eq_true hPt
    obtain ⟨bar, hbar, hid⟩ := hinv.keyed s hs hbuy
    obtain ⟨bar', hbar', hid'⟩ := hinv.keyed t ht hbuy'
    rw [Send.minute, hbar, Option.map_some, Option.some.injEq] at hminute
    rw [Send.minute, hbar', Option.map_some, Option.some.injEq] at hminute'
    rw [hid, hid', hsymbol, hsymbol', entrySignalId_of_minute symbol (hminute.trans hminute'.symm)]

/-! ### Two cycles on one bar -/

namespace SameBar

def now : DateTime := .combine 20000 10 0 0 none

def view : MarketView := ⟨some ⟨now, .fin 100⟩, some ⟨.combine 20000 9 59 0 none, .fin 100⟩⟩

def args : CycleArgs :=
  ⟨brokerSubmitter, some fun _ => true, ⟨false, true, 10, 90, 3⟩, false, true, none⟩

def order : EntryOutcome := .order "d1" 1 (.int 100)

/-- The first cycle executes an approval, the others decide by themselves. -/
def cycles (i : Nat) : Cycle where
  args := args
  symbols := ["005930"]
  inputs := fun _ => ⟨now, view, view, none, now, some (.combine 20000 9 59 0 none),
    if i = 0 then .approved order else .direct order⟩
  submitter := .inl rfl

def handler (i : Nat) : (o : Act) → SubmissionWorld → o.Reply × SubmissionWorld
  | .read query, w => (query w.db, w)
  | .tryRead query, w => (.ok (query w.db), w)
  | .selectOrders query, w => (query w.db, w)
  | .call op, w => ((op.call w.db).1, ⟨op.exec w.db, w.created i (op.exec w.db), w.sent⟩)
  | .submitOrder id request, w =>
    (.ok (some "K1"), { w with sent := w.sent ++ [⟨i, id, request⟩] })
  | .cancelOrder .., w => (.ok (), w)

theorem handler_sem (i : Nat) (o : Act) (w : SubmissionWorld) (_ : True) :
    (submissions cycles).sem i o w (handler i o w).1 (handler i o w).2 := by
  cases o with
  | read query => exact ⟨rfl, rfl⟩
  | tryRead query => exact ⟨.inl rfl, rfl⟩
  | selectOrders query => exact ⟨rfl, rfl⟩
  | call op => exact ⟨rfl, rfl⟩
  | submitOrder id request => rfl
  | cancelOrder id number branch quantity price => rfl

def start : SubmissionWorld := ⟨Database.empty, fun _ => none, []⟩

/-- The first cycle stops right after it has sent its order. -/
def interrupted : SubmissionWorld :=
  (Prog.advance (handler 0) 7 ((cycles 0).program, start)).2

def restarted : SubmissionWorld :=
  (Prog.advance (handler 1) 60 ((cycles 1).program, interrupted)).2

theorem restarted_reachable : (submissions cycles).Reachable Unsent ⟨restarted, fun _ => none⟩ := by
  have hinit : (submissions cycles).Reachable Unsent ⟨start, fun _ => none⟩ :=
    .init ⟨rfl, fun _ => rfl⟩
  have hfirst := hinit.steps (System.steps_excursion (handler_sem 0) 7 rfl rfl (.always _ _ _))
  exact hfirst.steps (System.steps_excursion (handler_sem 1) 60 rfl rfl (.always _ _ _))

/-- The order was sent, the first cycle stopped before it could record that, and
    the second cycle does not send it again. -/
theorem interrupted_order_not_resent :
    interrupted.sent.length = 1 ∧ restarted.sent.length = 1 ∧
    ∀ symbol minute, restarted.sent.countP (fun s => s.request.side = .buy ∧
      s.request.symbol = symbol ∧ s.minute cycles = some minute) ≤ 1 :=
  ⟨by decide +kernel, by decide +kernel, (submit_order_at_most_once cycles _ restarted_reachable).2⟩

end SameBar

end AutoTrader
