/-
  AutoTrader/Safety/ExitChain.lean
  ================================
  **The exit chain is bounded.**

  The bound on the SELL orders of a position is no counter: `_maybe_exit_position`
  counts the rows of the ledger under the position's signal.  A run of one process is
  cycles in a row, with anything in between that takes no order and no position away
  (`pipeline_kept`: whatever the other pipelines do).  `exit_chain_bounded` says that
  every SELL is sent alone, for the whole position, and how many a position gets.
-/
import AutoTrader.Ledger.Frame
import AutoTrader.Pipeline.Alphabet
import AutoTrader.Safety.AtMostOnce

namespace AutoTrader

open Relational Transactional Interleave

/-! ### Runs of one process -/

/-- A call of `submit_order`, with the database it was made on. -/
structure ExitSend where
  clientOrderId : String
  request : OrderRequest
  db : Database

/-- The database, the orders sent, and the positions SELL orders were claimed for. -/
structure ExitWorld where
  db : Database
  sends : List ExitSend
  claims : List String

/-- How the broker answers, and which transactions and reads raise. -/
structure ExitReplies where
  submitOrder : ExitWorld → String → OrderRequest → Except Exn (Option String)
  raises : ExitWorld → Act → Option Exn

/-- The position that a successful claim of a SELL is made for. -/
def claimedExit (db : Database) : Op → List String
  | .claimOrderIntent now a =>
    match ((claimOrderIntent now a).run db).1 with
    | .ok true =>
      if Side.parse? a.side = some .sell then
        ((db.listOpenLivePositions a.symbol).head?.map (·.positionId)).toList
      else []
    | _ => []
  | _ => []

def exitHandler (replies : ExitReplies) : (o : Act) → ExitWorld → o.Reply × ExitWorld
  | .read query, w => (query w.db, w)
  | .tryRead query, w =>
    match replies.raises w (.tryRead query) with
    | some e => (.error e, w)
    | none => (.ok (query w.db), w)
  | .selectOrders query, w => (query w.db, w)
  | .call op, w =>
    match replies.raises w (.call op) with
    | some e => (.error e, w)
    | none => ((op.call w.db).1, ⟨op.exec w.db, w.sends, w.claims ++ claimedExit w.db op⟩)
  | .submitOrder id request, w =>
    (replies.submitOrder w id request, { w with sends := w.sends ++ [⟨id, request, w.db⟩] })
  | .cancelOrder .., w => (.ok (), w)

/-- The worlds a run passes through, whose cycles allow at most `limit` requotes. -/
inductive ExitRun (limit : Int) : ExitWorld → Prop
  | start (db : Database) : ExitRun limit ⟨db, [], []⟩
  | cycle {w : ExitWorld} (replies : ExitReplies) (c : Cycle) : ExitRun limit w →
      c.args.config.maxExitRequotes ≤ limit →
      ExitRun limit (Raising.eval (exitHandler replies)
        (runAutoTradeCycle c.args c.symbols c.inputs) w).2
  | between {w : ExitWorld} {db : Database} : ExitRun limit w → LedgersKept w.db db →
      ExitRun limit { w with db := db }

/-- A SELL is sent alone and for the whole position whose signal its row bears. -/
structure ExitSend.Sound (s : ExitSend) : Prop where
  alone : ∀ o ∈ s.db.brokerOrders.rows, o.symbol = s.request.symbol → o.side = .sell →
    o.status.terminal = false → o.clientOrderId = s.clientOrderId
  whole : ∃ p rest o, s.db.listOpenLivePositions s.request.symbol = p :: rest ∧
    s.db.brokerOrders.find? s.clientOrderId = some o ∧ o.signalId = some p.signalId ∧
    s.request.quantity = .int p.quantity

/-- What holds of a run. -/
structure ExitsBounded (limit : Int) (w : ExitWorld) : Prop where
  sound : ∀ s ∈ w.sends, s.request.side = .sell → s.Sound
  bounded : ∀ id, (w.claims.count id : Int) ≤ limit + 1

/-- The claims are accounted for by the rows the next exit will count. -/
structure ExitInv (limit : Int) (w : ExitWorld) : Prop extends ExitsBounded limit w where
  counted : ∀ id ∈ w.claims, ∃ p, w.db.livePositions.find? id = some p ∧
    w.claims.count id ≤ w.db.exitAttemptCount p

/-! ### Counting attempts -/

/-- The ids of the rows that `_exit_attempt_count` counts. -/
def Database.exitIds (db : Database) (position : LivePosition) : List String :=
  (db.brokerOrders.rows.filter fun o => o.side = .sell ∧ o.signalId = some position.signalId ∧
    o.symbol = position.symbol).map (·.clientOrderId)

theorem exitIds_length (db : Database) (p : LivePosition) :
    (db.exitIds p).length = db.exitAttemptCount p :=
  List.length_map _

theorem exitAttemptCount_kept {db db' : Database} (h : LedgersKept db db') {p p' : LivePosition}
    (hp : SameEntry p p') : db.exitAttemptCount p ≤ db'.exitAttemptCount p' := by
  have hids : (db.exitIds p).Subperm (db'.exitIds p') := by
    refine List.subperm_of_subset (db.brokerOrders.nodup.sublist (List.filter_sublist.map _)) ?_
    intro id hid
    obtain ⟨o, ho, rfl⟩ := List.mem_map.mp hid
    obtain ⟨hmem, hattempt⟩ := List.mem_filter.mp ho
    obtain ⟨o', ho', hsame⟩ := h.orders _ o (db.brokerOrders.find?_of_mem hmem)
    refine List.mem_map.mpr ⟨o', List.mem_filter.mpr ⟨db'.brokerOrders.mem_of_find? ho', ?_⟩,
      hsame.clientOrderId⟩
    simpa [hsame.side, hsame.signalId, hsame.symbol, hp.signalId, hp.symbol] using hattempt
  rw [← exitIds_length, ← exitIds_length]
  exact hids.length_le

theorem ExitInv.kept {limit : Int} {w : ExitWorld} (h : ExitInv limit w) {db : Database}
    (hkept : LedgersKept w.db db) : ExitInv limit { w with db := db } := by
  refine ⟨⟨h.sound, h.bounded⟩, fun id hid => ?_⟩
  obtain ⟨p, hp, hcount⟩ := h.counted id hid
  obtain ⟨p', hp', hsame⟩ := hkept.positions id p hp
  exact ⟨p', hp', hcount.trans (exitAttemptCount_kept hkept hsame)⟩

/-- Whatever a pipeline does, it takes no order and no position away. -/
theorem pipeline_kept (broker : BrokerReplies) {α : Type} (p : Pipeline α) (db : Database) :
    LedgersKept db (Raising.eval (dbHandler broker) p db).2 := by
  have hsteps := Raising.eval_steps (h := dbHandler broker) (R := LedgersKept) (fun o db => by
    cases o with
    | call op => exact op.exec_kept db
    | read | tryRead | selectOrders | submitOrder | cancelOrder => exact .refl db) p db
  generalize (Raising.eval (dbHandler broker) p db).2 = db' at hsteps ⊢
  induction hsteps with
  | refl => exact .refl db
  | tail _ hstep ih => exact ih.trans hstep

theorem runOps_kept (ops : List Op) (db : Database) : LedgersKept db (runOps ops db) := by
  induction ops generalizing db with
  | nil => exact .refl db
  | cons op ops ih => exact (op.exec_kept db).trans (ih (op.exec db))

/-! ### What does not touch the exits -/

/-- The action claims no SELL and sends none. -/
def Act.sparesExits : Act → Prop
  | .call (.claimOrderIntent _ a) => Side.parse? a.side ≠ some .sell
  | .submitOrder _ request => request.side ≠ .sell
  | _ => True

section Spares

variable {limit : Int} {replies : ExitReplies}

theorem claimedExit_spared {op : Op} (hop : Act.sparesExits (.call op)) (db : Database) :
    claimedExit db op = [] := by
  cases op with
  | claimOrderIntent now a =>
    simp only [claimedExit]
    split
    · exact if_neg hop
    · rfl
  | _ => rfl

theorem ExitInv.spared (o : Act) (w : ExitWorld) (ho : o.sparesExits) (h : ExitInv limit w) :
    ExitInv limit (exitHandler replies o w).2 := by
  cases o with
  | call op =>
    simp only [exitHandler]
    split
    · exact h
    · rw [claimedExit_spared ho, List.append_nil]
      exact h.kept (op.exec_kept w.db)
  | submitOrder id request =>
    refine ⟨⟨fun s hs hsell => ?_, h.bounded⟩, h.counted⟩
    rcases List.mem_append.mp hs with hs | hs
    · exact h.sound s hs hsell
    · rw [List.mem_singleton.mp hs] at hsell
      exact absurd hsell ho
  | tryRead query =>
    simp only [exitHandler]
    split
    · exact h
    · exact h
  | read | selectOrders | cancelOrder => exact h

theorem sparesExits_of_isRead (o : Act) (h : o.isRead) : o.sparesExits := by
  cases o with
  | read | tryRead | selectOrders => trivial
  | call | submitOrder | cancelOrder => exact h.elim

/-- A program that neither claims nor sends a SELL keeps the invariant. -/
abbrev SparesExits {α : Type} (p : Pipeline α) : Prop :=
  Raising.Only (S := trading) Act.sparesExits p

theorem SparesExits.keeps {α : Type} {p : Pipeline α} (hp : SparesExits p) {w : ExitWorld}
    (h : ExitInv limit w) :
    Raising.Ends (exitHandler replies) p (fun _ => ExitInv limit) (fun _ => ExitInv limit) w :=
  Raising.Ends.of_only ExitInv.spared hp h

theorem ReadsOnly.sparesExits {α : Type} {p : Pipeline α} (hp : ReadsOnly p) : SparesExits p :=
  hp.mono sparesExits_of_isRead

theorem spares_execute {op : Op} (h : Act.sparesExits (.call op)) : SparesExits (execute op) :=
  only_execute sparesExits_of_isRead h

theorem spares_recordUnknown (request : OrderRequest) (signalId reason id error : String)
    (createdAt : DateTime) :
    SparesExits (recordUnknown request signalId reason id error createdAt) := by
  unfold recordUnknown
  refine .bind (spares_execute trivial) fun _ => .bind (spares_execute trivial) fun _ => ?_
  exact .pure _

theorem spares_recordAcknowledged (request : OrderRequest) (signalId reason id broker : String)
    (createdAt : DateTime) :
    SparesExits (recordAcknowledged request signalId reason id broker createdAt) := by
  unfold recordAcknowledged
  refine .bind (spares_execute trivial) fun _ => .bind (spares_execute trivial) fun _ => ?_
  exact .pure _

end Spares

theorem krxRequest_quantity {symbol : String} {side : Side} {quantity : Int} {price : Number}
    {request : OrderRequest} (h : krxRequest symbol side quantity price = .ok request) :
    request.quantity = .int quantity := by
  rw [krxRequest_eq h]

/-! ### The exit of one position -/

/-- Process state between the claim of a SELL and its submission. -/
structure ExitClaimed (id symbol : String) (p : LivePosition) (rest : List LivePosition)
    (w : ExitWorld) : Prop where
  alone : ∀ o ∈ w.db.brokerOrders.rows, o.symbol = symbol → o.side = .sell →
    o.status.terminal = false → o.clientOrderId = id
  row : ∃ o, w.db.brokerOrders.find? id = some o ∧ o.signalId = some p.signalId
  position : w.db.listOpenLivePositions symbol = p :: rest

section Exit

variable {limit : Int} {replies : ExitReplies} {w : ExitWorld}

theorem ends_exit_select {α β : Type} {query : Database → β} {f : β → Pipeline α}
    {Q : α → ExitWorld → Prop} {E : Exn → ExitWorld → Prop}
    (h : Raising.Ends (exitHandler replies) (f (query w.db)) Q E w) :
    Raising.Ends (exitHandler replies) (select query >>= f) Q E w := h

theorem ends_exit_reraise {α : Type} {r : Except Exn α} {Q : α → ExitWorld → Prop}
    {E : Exn → ExitWorld → Prop} (h : outcome Q E r w) :
    Raising.Ends (exitHandler replies) (reraise r) Q E w := by
  cases r with
  | ok a => exact h
  | error e => exact h

/-- A transaction raises and changes nothing, or is made. -/
theorem ends_exit_execute {op : Op} {Q : op.Reply → ExitWorld → Prop} {E : Exn → ExitWorld → Prop}
    (hraises : ∀ e, E e w)
    (hmade : outcome Q E (op.call w.db).1 ⟨op.exec w.db, w.sends, w.claims ++ claimedExit w.db op⟩) :
    Raising.Ends (exitHandler replies) (execute op) Q E w := by
  change Raising.Ends (exitHandler replies) (reraise (exitHandler replies (.call op) w).1) Q E
    (exitHandler replies (.call op) w).2
  apply ends_exit_reraise
  simp only [exitHandler]
  cases replies.raises w (.call op) with
  | some e => exact hraises e
  | none => exact hmade

theorem ends_exit_readsOnly {α : Type} {p : Pipeline α} (hp : ReadsOnly p) :
    Raising.Ends (exitHandler replies) p (fun _ w' => w' = w) (fun _ w' => w' = w) w := by
  refine Raising.Ends.of_only (P := Act.isRead) (R := fun w' => w' = w) ?_ hp rfl
  rintro o w' ho rfl
  cases o with
  | tryRead query =>
    simp only [exitHandler]
    split
    · rfl
    · rfl
  | read | selectOrders => rfl
  | call | submitOrder | cancelOrder => exact ho.elim

theorem position_of_listOpen {db : Database} {symbol : String} {p : LivePosition}
    {rest : List LivePosition} (h : db.listOpenLivePositions symbol = p :: rest) :
    db.livePositions.find? p.positionId = some p ∧ p.symbol = symbol := by
  have hp : p ∈ db.listOpenLivePositions symbol := by rw [h]; exact List.mem_cons_self
  obtain ⟨hmem, hsymbol, -⟩ := Database.mem_openPositions.mp ((mem_orderedBy _ _).mp hp)
  exact ⟨db.livePositions.find?_of_mem hmem, hsymbol⟩

section Claim

variable {symbol : String} {p : LivePosition} {rest : List LivePosition}
  (hopen : w.db.listOpenLivePositions symbol = p :: rest)
  {row : BrokerOrder} (hfree : w.db.brokerOrders.find? row.clientOrderId = none)
  (hsymbol : row.symbol = symbol) (hsell : row.side = .sell) (hsignal : row.signalId = some p.signalId)

include hopen hfree hsymbol hsell hsignal

/-- The new row is one more attempt. -/
theorem exitAttemptCount_claimed :
    Database.exitAttemptCount
        { w.db with brokerOrders := (w.db.brokerOrders.insertOrIgnore row).1 } p =
      w.db.exitAttemptCount p + 1 := by
  obtain ⟨-, hrows⟩ := Table.insertOrIgnore_of_free hfree
  unfold Database.exitAttemptCount
  simp only
  rw [hrows, List.filter_append, List.length_append]
  congr 1
  simp [hsell, hsignal, hsymbol, (position_of_listOpen hopen).2]

/-- Where the attempts so far are within the limit, one more claim is accounted for. -/
theorem ExitInv.claim (h : ExitInv limit w) (hcount : (w.db.exitAttemptCount p : Int) ≤ limit)
    (hkept : LedgersKept w.db { w.db with brokerOrders := (w.db.brokerOrders.insertOrIgnore row).1 }) :
    ExitInv limit ⟨{ w.db with brokerOrders := (w.db.brokerOrders.insertOrIgnore row).1 }, w.sends,
      w.claims ++ [p.positionId]⟩ := by
  obtain ⟨hfind, -⟩ := position_of_listOpen hopen
  have hattempts := exitAttemptCount_claimed hopen hfree hsymbol hsell hsignal
  have hbefore : w.claims.count p.positionId ≤ w.db.exitAttemptCount p := by
    by_cases hid : p.positionId ∈ w.claims
    · obtain ⟨p', hp', hcounted⟩ := h.counted _ hid
      rw [hfind] at hp'
      cases hp'
      exact hcounted
    · rw [List.count_eq_zero_of_not_mem hid]
      exact Nat.zero_le _
  refine ⟨⟨h.sound, fun id => ?_⟩, fun id hid => ?_⟩
  · simp only [List.count_append, List.count_singleton]
    have hbounded := h.bounded id
    by_cases hp : p.positionId = id
    · subst hp
      simp only [beq_self_eq_true, if_true]
      omega
    · simp [hp, hbounded]
  · simp only [List.count_append, List.count_singleton]
    by_cases hp : p.positionId = id
    · subst hp
      refine ⟨p, hfind, ?_⟩
      simp only [beq_self_eq_true, if_true]
      rw [hattempts]
      omega
    · rw [List.mem_append, List.mem_singleton] at hid
      obtain ⟨p', hp', hcounted⟩ := h.counted id (hid.resolve_right fun hid => hp hid.symm)
      refine ⟨p', hp', ?_⟩
      simp only [beq_iff_eq, hp, if_false, Nat.add_zero]
      exact hcounted.trans (exitAttemptCount_kept hkept ⟨rfl, rfl⟩)

/-- With no other SELL of the symbol unresolved, the new row is the only one. -/
theorem ExitClaimed.claim (hresolved : w.db.hasUnresolvedOrder symbol .sell = false)
    (claims : List String) :
    ExitClaimed row.clientOrderId symbol p rest
      ⟨{ w.db with brokerOrders := (w.db.brokerOrders.insertOrIgnore row).1 }, w.sends, claims⟩ := by
  obtain ⟨-, hrows⟩ := Table.insertOrIgnore_of_free hfree
  refine ⟨fun o ho hosymbol hosell hactive => ?_, ⟨row, ?_, hsignal⟩, hopen⟩
  · simp only [hrows, List.mem_append, List.mem_singleton] at ho
    rcases ho with ho | rfl
    · have hnone := List.any_eq_false.mp hresolved o ho
      simp [hosymbol, hosell, hactive] at hnone
    · rfl
  · simp only
    rw [Table.find?_append hrows, hfree, if_pos rfl]
    rfl

end Claim

/-- The claim of the SELL of an OPEN position. -/
theorem claim_spec {symbol : String} {p : LivePosition} {rest : List LivePosition} (h : ExitInv limit w)
    (hopen : w.db.listOpenLivePositions symbol = p :: rest)
    (hresolved : w.db.hasUnresolvedOrder symbol .sell = false)
    (hcount : (w.db.exitAttemptCount p : Int) ≤ limit) {a : IntentArgs} (hsymbol : a.symbol = symbol)
    (hsell : Side.parse? a.side = some .sell) (hsignal : a.signalId = some p.signalId) (now : DateTime) :
    Raising.Ends (exitHandler replies) (execute (.claimOrderIntent now a))
      (fun claimed w' => ExitInv limit w' ∧
        (claimed = true → ExitClaimed a.clientOrderId symbol p rest w'))
      (fun _ => ExitInv limit) w := by
  have hkept := (Op.claimOrderIntent now a).exec_kept w.db
  refine ends_exit_execute (fun _ => h) ?_
  simp only [Op.exec, Op.call, Op.run, claimedExit] at hkept ⊢
  rcases claimOrderIntent_cases now a w.db with ⟨e, hr⟩ | ⟨-, hr⟩ | ⟨row, hrow, hfree, hr⟩
  · rw [hr, List.append_nil]
    exact h
  · rw [hr, List.append_nil]
    exact ⟨h, fun hclaimed => by cases hclaimed⟩
  · rw [hr] at hkept ⊢
    have hrowSymbol := (intentRow_identity hrow).1.trans hsymbol
    have hrowSell : row.side = .sell :=
      Option.some_inj.mp ((intentRow_identity hrow).2.symm.trans hsell)
    have hrowSignal := (intentRow_signalId hrow).trans hsignal
    rw [← (intentRow_ok hrow).1, if_pos hsell, hsymbol, hopen]
    exact ⟨h.claim hopen hfree hrowSymbol hrowSell hrowSignal hcount hkept,
      fun _ => .claim hopen hfree hrowSymbol hrowSell hrowSignal hresolved _⟩

/-- A transaction on the claimed row changes neither the other rows nor the position. -/
theorem ExitClaimed.exec {id symbol : String} {p : LivePosition} {rest : List LivePosition}
    (h : ExitClaimed id symbol p rest w) {op : Op} (htarget : op.target = some id)
    (hbooks : ∀ now a, op ≠ .materializeOrderFills now a) (claims : List String) :
    ExitClaimed id symbol p rest ⟨op.exec w.db, w.sends, claims⟩ where
  alone := by
    intro o ho hsymbol hsell hactive
    by_contra hother
    have hold : w.db.brokerOrders.find? o.clientOrderId = some o := by
      rw [← op.exec_others w.db fun hid => hother (Option.some_inj.mp (hid.symm.trans htarget))]
      exact (op.exec w.db).brokerOrders.find?_of_mem ho
    exact hother (h.alone o (w.db.brokerOrders.mem_of_find? hold) hsymbol hsell hactive)
  row := by
    obtain ⟨o, ho, hsignal⟩ := h.row
    obtain ⟨o', ho', hsame⟩ := (op.exec_kept w.db).orders id o ho
    exact ⟨o', ho', hsame.signalId.trans hsignal⟩
  position := by
    unfold Database.listOpenLivePositions Database.openPositions
    rw [Op.exec_livePositions hbooks]
    exact h.position

/-- The one call of the broker. -/
theorem brokerSubmitter_exit {id symbol : String} {p : LivePosition} {rest : List LivePosition}
    (h : ExitInv limit w) (hclaimed : ExitClaimed id symbol p rest w) {request : OrderRequest}
    (hsymbol : request.symbol = symbol) (hquantity : request.quantity = .int p.quantity) :
    Raising.Ends (exitHandler replies) (brokerSubmitter id request) (fun _ => ExitInv limit)
      (fun _ => ExitInv limit) w := by
  have hsent : ExitInv limit { w with sends := w.sends ++ [⟨id, request, w.db⟩] } := by
    refine ⟨⟨fun s hs hsell => ?_, h.bounded⟩, h.counted⟩
    rcases List.mem_append.mp hs with hs | hs
    · exact h.sound s hs hsell
    · rw [List.mem_singleton.mp hs]
      obtain ⟨o, ho, hsignal⟩ := hclaimed.row
      exact ⟨by rw [hsymbol]; exact hclaimed.alone,
        p, rest, o, by rw [hsymbol]; exact hclaimed.position, ho, hsignal, hquantity⟩
  change Raising.Ends (exitHandler replies) (reraise (replies.submitOrder w id request)) _ _
    { w with sends := w.sends ++ [⟨id, request, w.db⟩] }
  apply ends_exit_reraise
  cases replies.submitOrder w id request with
  | ok broker => exact hsent
  | error e => exact hsent

section Submitter

variable {submitter : Submitter}
  (hsub : submitter = brokerSubmitter ∨ ∃ guard, submitter = guardedSubmitter guard)

include hsub

theorem submitter_exit {id symbol : String} {p : LivePosition} {rest : List LivePosition}
    (h : ExitInv limit w) (hclaimed : ExitClaimed id symbol p rest w) {request : OrderRequest}
    (hsymbol : request.symbol = symbol) (hquantity : request.quantity = .int p.quantity) :
    Raising.Ends (exitHandler replies) (submitter id request) (fun _ => ExitInv limit)
      (fun _ => ExitInv limit) w := by
  obtain rfl | ⟨guard, rfl⟩ := hsub
  · exact brokerSubmitter_exit h hclaimed hsymbol hquantity
  · unfold guardedSubmitter
    apply Raising.Ends.bind
    apply Raising.Ends.attempt
    refine (ends_exit_readsOnly (readsOnly_safetyGate guard request)).mono ?_ ?_
    · rintro _ w' rfl
      exact brokerSubmitter_exit h hclaimed hsymbol hquantity
    · rintro e w' rfl
      exact Raising.Ends.throw h

theorem submitClaimed_exit {id symbol : String} {p : LivePosition} {rest : List LivePosition}
    (h : ExitInv limit w) (hclaimed : ExitClaimed id symbol p rest w) {request : OrderRequest}
    (hsymbol : request.symbol = symbol) (hquantity : request.quantity = .int p.quantity)
    (signalId reason : String) (createdAt : DateTime) :
    Raising.Ends (exitHandler replies) (submitClaimed submitter request signalId reason id createdAt)
      (fun _ => ExitInv limit) (fun _ => ExitInv limit) w := by
  have hmark : Raising.Ends (exitHandler replies)
      (execute (.markOrderSubmitting createdAt id (some createdAt)))
      (fun _ w' => ExitInv limit w' ∧ ExitClaimed id symbol p rest w') (fun _ => ExitInv limit) w := by
    have hinv := h.kept ((Op.markOrderSubmitting createdAt id (some createdAt)).exec_kept w.db)
    have hspared : claimedExit w.db (.markOrderSubmitting createdAt id (some createdAt)) = [] := rfl
    refine ends_exit_execute (fun _ => h) ?_
    rw [hspared, List.append_nil]
    cases ((Op.markOrderSubmitting createdAt id (some createdAt)).call w.db).1 with
    | ok marked => exact ⟨hinv, hclaimed.exec rfl (fun _ _ hop => by cases hop) _⟩
    | error e => exact hinv
  unfold submitClaimed
  refine hmark.seq fun _ w₁ ⟨hinv, hclaimed₁⟩ => ?_
  apply Raising.Ends.bind
  apply Raising.Ends.attempt
  refine (submitter_exit hsub hinv hclaimed₁ hsymbol hquantity).mono ?_ ?_
  · intro broker w₂ hinv₂
    refine Raising.Ends.ite (fun _ => ?_) fun _ => ?_
    · exact (spares_recordAcknowledged request signalId reason id _ createdAt).keeps hinv₂
    · exact (spares_recordUnknown request signalId reason id _ createdAt).keeps hinv₂
  · intro e w₂ hinv₂
    exact (spares_recordUnknown request signalId reason id _ createdAt).keeps hinv₂

theorem submitExit_spec {symbol : String} {p : LivePosition} {rest : List LivePosition}
    (h : ExitInv limit w) (hopen : w.db.listOpenLivePositions symbol = p :: rest)
    (hresolved : w.db.hasUnresolvedOrder symbol .sell = false)
    (hcount : (w.db.exitAttemptCount p : Int) ≤ limit) (reason : ExitReason) (price : Int)
    (now : DateTime) :
    Raising.Ends (exitHandler replies) (submitExit submitter symbol p reason price now)
      (fun _ => ExitInv limit) (fun _ => ExitInv limit) w := by
  unfold submitExit
  cases hrequest : krxRequest symbol .sell p.quantity (.int price) with
  | error e => exact Raising.Ends.throw h
  | ok request =>
    obtain ⟨hsymbol, hside⟩ := krxRequest_ok hrequest
    have hquantity := krxRequest_quantity hrequest
    have hpure : Raising.eval (exitHandler replies) (reraise (.ok request)) w = (.ok request, w) := rfl
    refine Raising.Ends.after hpure ?_
    have hclaim : Raising.Ends (exitHandler replies) (submitWithLedger submitter request p.signalId
        (some (exitSignalId p reason now)) reason.name now) (fun _ => ExitInv limit)
        (fun _ => ExitInv limit) w := by
      refine (claim_spec h hopen hresolved hcount hsymbol ?_ rfl now).seq ?_
      · rw [claimArgs, hside]
        exact Side.parse?_name .sell
      · rintro claimed w₁ ⟨hinv, hclaimed⟩
        refine Raising.Ends.ite (fun htrue => ?_) fun _ => Raising.Ends.pure hinv
        exact submitClaimed_exit hsub hinv (hclaimed htrue) hsymbol hquantity _ _ now
    exact hclaim.seq fun _ _ hinv => Raising.Ends.pure hinv

/-- `_maybe_exit_position`. -/
theorem maybeExitPosition_spec (h : ExitInv limit w) (calendar : Calendar) (config : AutoTradeConfig)
    (hconfig : config.maxExitRequotes ≤ limit) (symbol : String) (now : DateTime) (quote : MarketView)
    (exitPrice : Option (Except Exn PyFloat)) :
    Raising.Ends (exitHandler replies)
      (maybeExitPosition submitter calendar config symbol now quote exitPrice)
      (fun _ => ExitInv limit) (fun _ => ExitInv limit) w := by
  have hpure : ∀ a : Option AutoTradeSymbolResult, Raising.Ends (exitHandler replies)
      (pure a : Pipeline (Option AutoTradeSymbolResult)) (fun _ => ExitInv limit)
      (fun _ => ExitInv limit) w := fun _ => Raising.Ends.pure h
  unfold maybeExitPosition
  apply ends_exit_select
  cases hopen : w.db.listOpenLivePositions symbol with
  | nil => exact hpure none
  | cons p rest =>
    dsimp only
    split
    · exact hpure _
    split
    · exact hpure _
    apply ends_exit_select
    cases hresolved : w.db.hasUnresolvedOrder symbol .sell with
    | true => exact hpure _
    | false =>
      rw [if_neg Bool.false_ne_true]
      apply ends_exit_select
      refine Raising.Ends.ite (fun _ => ?_) fun hcount => ?_
      · have hflags : SparesExits (do
            setFlag now "operator_review" "true"
            setFlag now "block_new_entries" "true"
            pure (some (.blockedBy symbol "max_exit_requotes_reached")) :
              Pipeline (Option AutoTradeSymbolResult)) :=
          .bind (spares_execute trivial) fun _ => .bind (spares_execute trivial) fun _ => .pure _
        exact hflags.keeps h
      · split
        · exact hpure _
        · split
          · exact hpure _
          · refine (submitExit_spec hsub h hopen hresolved ?_ _ _ now).seq ?_
            · exact (not_lt.mp hcount).trans hconfig
            · exact fun _ _ hinv => Raising.Ends.pure hinv

end Submitter

/-! ### The cycle -/

theorem spares_submitter {submitter : Submitter}
    (hsub : submitter = brokerSubmitter ∨ ∃ guard, submitter = guardedSubmitter guard) (id : String)
    {request : OrderRequest} (hside : request.side ≠ .sell) : SparesExits (submitter id request) := by
  have hbroker : SparesExits (brokerSubmitter id request) :=
    .bind (Raising.Only.ask (S := trading) (o := .submitOrder id request) hside)
      fun r => (readsOnly_reraise r).sparesExits
  obtain rfl | ⟨guard, rfl⟩ := hsub
  · exact hbroker
  · unfold guardedSubmitter
    refine .bind (.attempt (readsOnly_safetyGate guard request).sparesExits) fun r => ?_
    cases r with
    | ok _ => exact hbroker
    | error e => exact .throw _

theorem spares_submitWithLedger {submitter : Submitter}
    (hsub : submitter = brokerSubmitter ∨ ∃ guard, submitter = guardedSubmitter guard)
    {request : OrderRequest} (hbuy : request.side = .buy) (signalId : String)
    (idempotencyKey : Option String) (reason : String) (createdAt : DateTime) :
    SparesExits (submitWithLedger submitter request signalId idempotencyKey reason createdAt) := by
  unfold submitWithLedger
  refine .bind (spares_execute ?_) fun claimed => .ite ?_ (.pure _)
  · change Side.parse? request.side.name ≠ some .sell
    rw [Side.parse?_name, hbuy]
    decide
  · unfold submitClaimed
    refine .bind (spares_execute trivial) fun _ => ?_
    refine .bind (.attempt (spares_submitter hsub _ (by rw [hbuy]; decide))) fun r => ?_
    cases r with
    | error e => exact spares_recordUnknown request signalId reason _ _ createdAt
    | ok broker =>
      exact .ite (spares_recordAcknowledged request signalId reason _ _ createdAt)
        (spares_recordUnknown request signalId reason _ _ createdAt)

/-- An entry claims and sends a BUY. -/
theorem spares_submitEntry {submitter : Submitter}
    (hsub : submitter = brokerSubmitter ∨ ∃ guard, submitter = guardedSubmitter guard)
    (symbol : String) (barStart now : DateTime) (reason : String) (outcome : EntryOutcome) :
    SparesExits (submitEntry submitter symbol barStart now reason outcome) := by
  cases outcome with
  | blocked reason => exact .pure _
  | raised e => exact .throw _
  | order decisionId quantity entryPrice =>
    dsimp only [submitEntry]
    cases hrequest : krxRequest symbol .buy quantity entryPrice with
    | error e => exact Raising.Only.throw e
    | ok request =>
      have hbuy : request.side = .buy := (krxRequest_ok hrequest).2
      have hsubmit := spares_submitWithLedger hsub hbuy decisionId
        (some (entrySignalId symbol barStart)) reason now
      have hrest : SparesExits (do
          let result ← submitWithLedger submitter request decisionId
            (some (entrySignalId symbol barStart)) reason now
          pure (⟨symbol, "BUY", result.submitted, !result.submitted, result.reason, quantity,
            result.brokerOrderId⟩ : AutoTradeSymbolResult)) :=
        hsubmit.bind fun _ => .pure _
      exact hrest

theorem spares_maybeEnterPosition {submitter : Submitter}
    (hsub : submitter = brokerSubmitter ∨ ∃ guard, submitter = guardedSubmitter guard)
    (symbol : String) (lastBarStart : Option DateTime) (now : DateTime) (path : EntryPath) :
    SparesExits (maybeEnterPosition submitter symbol lastBarStart now path) := by
  unfold maybeEnterPosition
  cases lastBarStart with
  | none => exact .pure _
  | some barStart =>
    cases path with
    | approved outcome => exact spares_submitEntry hsub symbol barStart now _ outcome
    | direct outcome =>
      refine .bind (readsOnly_select _).sparesExits fun order => ?_
      split
      · exact .pure _
      · exact spares_submitEntry hsub symbol barStart now _ outcome

theorem cycleSymbol_spec (h : ExitInv limit w) (c : Cycle)
    (hconfig : c.args.config.maxExitRequotes ≤ limit) (symbol : String) :
    Raising.Ends (exitHandler replies) (cycleSymbol c.args symbol (c.inputs symbol))
      (fun _ => ExitInv limit) (fun _ => ExitInv limit) w := by
  have hpure : ∀ (a : AutoTradeSymbolResult) {w : ExitWorld}, ExitInv limit w →
      Raising.Ends (exitHandler replies) (pure a : Pipeline AutoTradeSymbolResult)
        (fun _ => ExitInv limit) (fun _ => ExitInv limit) w := fun _ _ h => Raising.Ends.pure h
  unfold cycleSymbol
  dsimp only
  refine Raising.Ends.ite (fun _ => hpure _ h) fun _ => ?_
  refine Raising.Ends.ite (fun _ => hpure _ h) fun _ => ?_
  apply ends_exit_select
  refine Raising.Ends.ite (fun _ => hpure _ h) fun _ => ?_
  split
  · exact hpure _ h
  refine (maybeExitPosition_spec c.submitter h _ _ hconfig symbol _ _ _).seq fun result w₁ h₁ => ?_
  cases result with
  | some result => exact hpure _ h₁
  | none =>
    have henter := spares_maybeEnterPosition c.submitter symbol (c.inputs symbol).lastBarStart
      (c.inputs symbol).now (c.inputs symbol).entry
    apply ends_exit_select
    refine Raising.Ends.ite (fun _ => hpure _ h₁) fun _ => ?_
    refine Raising.Ends.ite (fun _ => hpure _ h₁) fun _ => ?_
    refine Raising.Ends.ite (fun _ => hpure _ h₁) fun _ => ?_
    refine Raising.Ends.ite (fun _ => hpure _ h₁) fun _ => ?_
    exact Raising.Ends.ite (fun _ => hpure _ h₁) fun _ => henter.keeps h₁

theorem cycle_spec (h : ExitInv limit w) (c : Cycle) (hconfig : c.args.config.maxExitRequotes ≤ limit) :
    ExitInv limit
      (Raising.eval (exitHandler replies) (runAutoTradeCycle c.args c.symbols c.inputs) w).2 := by
  have hcycle : Raising.Ends (exitHandler replies) (runAutoTradeCycle c.args c.symbols c.inputs)
      (fun _ => ExitInv limit) (fun _ => ExitInv limit) w := by
    unfold runAutoTradeCycle
    apply ends_exit_select
    refine Raising.Ends.foldlM (I := fun _ _ => ExitInv limit) (fun symbol _ results w₁ h₁ => ?_) _ h
    apply Raising.Ends.bind
    apply Raising.Ends.attempt
    exact (cycleSymbol_spec h₁ c hconfig symbol).mono (fun _ _ h₂ => Raising.Ends.pure h₂)
      fun _ _ h₂ => Raising.Ends.pure h₂
  exact hcycle.store

end Exit

/-- **The exit chain is bounded.**  In every run of cycles of one process, whatever happens
    between them, a SELL is sent only when no other SELL of its symbol is unresolved and for
    the whole OPEN position, and no position gets more than `limit + 1` of them claimed. -/
theorem exit_chain_bounded {limit : Int} (hlimit : 0 ≤ limit) (w : ExitWorld) (h : ExitRun limit w) :
    ExitsBounded limit w := by
  have hrun : ExitInv limit w := by
    induction h with
    | start db =>
      refine ⟨⟨fun s hs => absurd hs List.not_mem_nil, fun id => ?_⟩,
        fun id hid => absurd hid List.not_mem_nil⟩
      rw [List.count_nil]
      omega
    | cycle replies c _ hconfig ih => exact cycle_spec ih c hconfig
    | between _ hkept ih => exact ih.kept hkept
  exact hrun.toExitsBounded

namespace ExitHistory

def opened : LivePosition where
  positionId := "live-position:d1"
  signalId := "d1"
  symbol := "005930"
  quantity := 3
  entryPrice := 105
  stopLossPrice := ⟨101, by decide⟩
  takeProfitPrice := ⟨110, by decide⟩
  openedAt := .combine 20000 9 30 0 none
  status := .open
  entryBrokerOrderId := none
  exitBrokerOrderId := none
  closedAt := none
  closeReason := none
  maxHoldingSeconds := none

def db : Database :=
  { Database.empty with livePositions := (Database.empty.livePositions.insertOrIgnore opened).1 }

def now (second : Nat) : DateTime := .combine 20000 10 0 second none

def view (second : Nat) : MarketView :=
  ⟨some ⟨now second, .fin 100⟩, some ⟨.combine 20000 9 59 0 none, .fin 100⟩⟩

/-- A cycle below the stop; one requote is allowed. -/
def cycle (second : Nat) : Cycle where
  args := ⟨brokerSubmitter, some fun _ => true, ⟨false, true, 10, 90, 1⟩, false, true, none⟩
  symbols := ["005930"]
  inputs := fun _ => ⟨now second, view second, view second, none, now second, none,
    .direct (.blocked "")⟩
  submitter := .inl rfl

def replies : ExitReplies := ⟨fun _ _ _ => .ok (some "K1"), fun _ _ => none⟩

def run (second : Nat) (w : ExitWorld) : ExitWorld :=
  (Raising.eval (exitHandler replies)
    (runAutoTradeCycle (cycle second).args (cycle second).symbols (cycle second).inputs) w).2

/-- The broker cancels what was sent. -/
def cancelled (w : ExitWorld) : ExitWorld :=
  { w with db := runOps (w.sends.map fun s => Op.updateBrokerOrderStatus (now 0) s.clientOrderId
    ⟨.cancelled, none, none, none, none, none, none⟩) w.db }

/-- Three cycles, and the broker cancels every SELL. -/
def last : ExitWorld := run 20 (cancelled (run 10 (cancelled (run 0 ⟨db, [], []⟩))))

theorem last_reachable : ExitRun 1 last := by
  have hrun : ∀ {w : ExitWorld} (second : Nat), ExitRun 1 w → ExitRun 1 (run second w) :=
    fun second h => .cycle replies (cycle second) h le_rfl
  have hcancelled : ∀ {w : ExitWorld}, ExitRun 1 w → ExitRun 1 (cancelled w) :=
    fun h => .between h (runOps_kept _ _)
  exact hrun 20 (hcancelled (hrun 10 (hcancelled (hrun 0 (.start db)))))

theorem third_exit_blocked : last.claims.length = 2 ∧ last.sends.length = 2 ∧ ExitsBounded 1 last :=
  ⟨by decide +kernel, by decide +kernel, exit_chain_bounded (by decide) last last_reachable⟩

end ExitHistory

end AutoTrader
