/-
  AutoTrader/Safety/SellCommitments.lean
  ======================================
  **SELL orders claim no more than is held.**

  An exit sells the whole OPEN quantity.  Before it claims its order it looks for another
  SELL of the symbol whose row is open, and the guard compares the quantity with the
  OPEN quantity just before the order is sent.  Neither sees a SELL whose row is FILLED
  while its fill still waits for `materialize_order_fills`: the holding is not reduced
  yet, and it is sold a second time.

  `Unhurried` names what has to be so when a SELL is claimed: what was executed on the
  SELLs of the symbol is materialized, and no SELL of another process is under way.  The
  other SELLs are those of the process itself, which its own read finds over.  With
  fills that count nothing that was not executed, and with statuses that end no order
  the broker still works, the commitments then stay within the holding.
-/
import AutoTrader.Broker.SellOrders
import AutoTrader.Pipeline.Alphabet

namespace AutoTrader

open Relational Transactional Interleave

/-! ### Cycles, notices and passes on one database -/

/-- A program of the trader: a cycle whose submitter is guarded, a notice or a pass. -/
inductive TradingProgram : Type 1
  | cycle (guard : Guard) (args : CycleArgs) (symbols : List String) (inputs : String → SymbolInputs)
      (guarded : args.submitter = guardedSubmitter guard)
  | notice (now : DateTime) (n : FillNotice) (tradingDate : Option Int) (received : Option DateTime)
  | pass (now : DateTime) (orders : Except ReadError (List OrderRecord))
      (account : Except ReadError (List AccountPosition))

def TradingProgram.program : TradingProgram → Prog trading Unit
  | .cycle _ args symbols inputs _ => detached (runAutoTradeCycle args symbols inputs)
  | .notice now n tradingDate received => detached (applyFillNotice now n tradingDate received)
  | .pass now orders account => detached (reconcileBrokerState now orders account)

/-- The ledgers, the broker, and which process claimed an order. -/
structure TradeWorld extends SellWorld where
  claimant : String → Option Nat

namespace TradeWorld

/-- A row that a call of process `i` creates is claimed by it. -/
def claimed (w : TradeWorld) (i : Nat) (db' : Database) (id : String) : Option Nat :=
  if w.db.brokerOrders.find? id = none ∧ db'.brokerOrders.find? id ≠ none then some i
  else w.claimant id

/-- A call of process `i`. -/
def exec (w : TradeWorld) (i : Nat) (op : Op) : TradeWorld :=
  ⟨{ w.toSellWorld with db := op.exec w.db }, w.claimed i (op.exec w.db)⟩

/-- A meaning of the actions in which a call has to meet a condition; the broker accepts
    an order in whole, in part or not at all, and its answer may get lost. -/
def sem (ok : Nat → Op → TradeWorld → Prop) (i : Nat) :
    (o : Act) → TradeWorld → o.Reply → TradeWorld → Prop
  | .read query, w, b, w' => b = query w.db ∧ w' = w
  | .tryRead query, w, b, w' => (b = .ok (query w.db) ∨ ∃ e, b = .error e) ∧ w' = w
  | .selectOrders query, w, b, w' => b = query w.db ∧ w' = w
  | .call op, w, b, w' => ok i op w ∧ b = (op.call w.db).1 ∧ w' = w.exec i op
  | .submitOrder id request, w, _, w' => ∃ accepted ≤ request.units,
      w' = { w with toSellWorld := w.toSellWorld.send id request accepted }
  | .cancelOrder .., w, _, w' => w' = w

/-- The broker works by itself, and the other tables change. -/
def env (w w' : TradeWorld) : Prop :=
  LedgersStay w.toSellWorld w'.toSellWorld ∧ w'.claimant = w.claimant

end TradeWorld

/-- Any number of programs on one database.  A number stands for one process, which runs
    one program at a time and may be stopped anywhere. -/
def traders (ok : Nat → Op → TradeWorld → Prop) : System trading TradeWorld where
  sem := TradeWorld.sem ok
  env := TradeWorld.env
  spawn _ _ q := ∃ program : TradingProgram, q = program.program

/-- Nothing was sold yet; the ledgers may hold any positions. -/
structure NothingSold (w : TradeWorld) : Prop where
  ledger : PositionLedger w.db
  owned : ∀ f ∈ w.db.brokerFills.rows, ∃ o, w.db.brokerOrders.find? f.clientOrderId = some o ∧
    f.symbol = o.symbol ∧ f.side = o.side
  bought : ∀ o ∈ w.db.brokerOrders.rows, o.side = .buy
  book : w.book = Table.empty

/-- The SELLs of the symbol that satisfy a condition are over at the broker. -/
def TradeWorld.SellsOver (w : TradeWorld) (symbol : String) (P : String → Prop) : Prop :=
  ∀ id o, w.db.brokerOrders.find? id = some o → o.side = .sell → o.symbol = symbol → P id → w.Over id

/-- The condition on a call of process `i`: a SELL is claimed when no SELL of another
    process is under way for the symbol and what was executed on the finished ones is
    materialized. -/
def Unhurried (i : Nat) (op : Op) (w : TradeWorld) : Prop :=
  Orderly op w.toSellWorld ∧
  match op with
  | .claimOrderIntent _ a => Side.parse? a.side = some .sell →
      w.SellsOver a.symbol fun id => w.claimant id ≠ some i
  | _ => True

/-! ### The invariant and what a process guarantees -/

/-- The positions are the applied fills, and ledgers and broker agree on the SELLs. -/
structure Consistent (w : TradeWorld) : Prop where
  positions : PositionLedger w.db
  sells : SellLedger w.toSellWorld

/-- A step of process `i` that sends no SELL.  It claims a SELL only when those of the
    others are over. -/
structure Proceeds (i : Nat) (w w' : TradeWorld) : Prop where
  noSale : NoSale w.toSellWorld w'.toSellWorld
  claimant : ∀ id, w.db.brokerOrders.find? id ≠ none → w'.claimant id = w.claimant id
  claims : ∀ id o', w.db.brokerOrders.find? id = none → w'.db.brokerOrders.find? id = some o' →
    w'.claimant id = some i ∧
      (o'.side = .sell → w.SellsOver o'.symbol fun k => w.claimant k ≠ some i)

/-- Process `i` sends a SELL that it claimed and that was not sent before. -/
def Sends (i : Nat) (w w' : TradeWorld) : Prop :=
  ∃ s o, w.db.brokerOrders.find? s.clientOrderId = some o ∧ o.side = .sell ∧ o.symbol = s.symbol ∧
    w.claimant s.clientOrderId = some i ∧ w.book.find? s.clientOrderId = none ∧
    w' = { w with book := w.book.place s }

def Trades (i : Nat) (w w' : TradeWorld) : Prop := Proceeds i w w' ∨ Sends i w w'

/-- The interference process `i` has to expect. -/
abbrev othersTrade (i : Nat) : TradeWorld → TradeWorld → Prop :=
  (traders Unhurried).rely Consistent Trades i

/-- A step that creates no row. -/
theorem Proceeds.of_noSale (i : Nat) {w w' : TradeWorld} (h : NoSale w.toSellWorld w'.toSellWorld)
    (hclaimant : ∀ id, w.db.brokerOrders.find? id ≠ none → w'.claimant id = w.claimant id)
    (hrows : ∀ id, w.db.brokerOrders.find? id = none → w'.db.brokerOrders.find? id = none) :
    Proceeds i w w' where
  noSale := h
  claimant := hclaimant
  claims := by
    intro id o' hnone ho'
    rw [hrows id hnone] at ho'
    cases ho'

theorem Proceeds.refl (i : Nat) (w : TradeWorld) : Proceeds i w w :=
  .of_noSale i ⟨fun _ => Iff.rfl, fun _ h => h, fun _ => le_rfl, fun _ _ => le_rfl,
    fun _ o ho => ⟨o, ho, .refl o⟩⟩ (fun _ _ => rfl) fun _ h => h

theorem Proceeds.of_env (i : Nat) {w w' : TradeWorld} (h : TradeWorld.env w w') : Proceeds i w w' := by
  obtain ⟨hstay, hclaimant⟩ := h
  refine .of_noSale i hstay.noSale (fun id _ => by rw [hclaimant]) fun id hnone => ?_
  rw [hstay.orders]
  exact hnone

/-- What another process does, or the broker. -/
theorem othersTrade.cases {i : Nat} {w w' : TradeWorld} (h : othersTrade i w w') :
    ∃ j, j ≠ i ∧ Trades j w w' := by
  obtain ⟨-, -, henv | hother⟩ := h
  · exact ⟨i + 1, by omega, .inl (.of_env _ henv)⟩
  · exact hother

/-- Only a claim creates a row, and it is of the symbol and the side that are claimed. -/
theorem Op.exec_new_order {op : Op} {db : Database} {id : String} {o : BrokerOrder}
    (hnone : db.brokerOrders.find? id = none) (ho : (op.exec db).brokerOrders.find? id = some o) :
    ∃ now a, op = .claimOrderIntent now a ∧ o.symbol = a.symbol ∧ Side.parse? a.side = some o.side := by
  have heffect := op.exec_effect db
  generalize op.exec db = db' at heffect ho
  have hsame : db'.brokerOrders.find? id ≠ none := by
    rw [ho]
    exact Option.some_ne_none o
  have hkept : ∀ k f (hf : ∀ r : BrokerOrder, (f r).clientOrderId = r.clientOrderId),
      (db.brokerOrders.update k f hf).find? id = none := by
    intro k f hf
    rw [Table.find?_update]
    split
    · rename_i hk; rw [← hk, hnone]; rfl
    · exact hnone
  cases heffect with
  | claimed now a row hop hrow hfree =>
    rw [Table.find?_append (Table.insertOrIgnore_of_free hfree).2, hnone, Option.none_or] at ho
    split at ho
    · cases ho
      exact ⟨now, a, hop, intentRow_identity hrow⟩
    · cases ho
  | same => exact absurd hnone hsame
  | rewritten k f hf => exact absurd (hkept k f hf) hsame
  | filled now a c order => exact absurd (hkept _ _ (rollFill_clientOrderId _)) hsame
  | booked now a c order _ _ _ _ hbooked =>
    rw [hbooked.frame.1] at hsame
    exact absurd hnone hsame
  | noted => exact absurd hnone hsame
  | audited => exact absurd hnone hsame

/-- A call keeps ledgers and broker in agreement. -/
theorem Consistent.call {w : TradeWorld} (h : Consistent w) {i : Nat} {op : Op}
    (hok : Unhurried i op w) : Consistent (w.exec i op) ∧ Proceeds i w (w.exec i op) := by
  refine ⟨⟨h.positions.exec op, h.sells.exec op hok.1⟩, NoSale.exec op w.toSellWorld, ?_, ?_⟩
  · intro id hid
    exact if_neg fun hnew => hid hnew.1
  · intro id o' hnone ho'
    have hnew : (op.exec w.db).brokerOrders.find? id ≠ none := by
      change (op.exec w.db).brokerOrders.find? id = some o' at ho'
      rw [ho']
      exact Option.some_ne_none o'
    refine ⟨if_pos ⟨hnone, hnew⟩, fun hsell => ?_⟩
    obtain ⟨now, a, rfl, hsymbol, hside⟩ := Op.exec_new_order hnone ho'
    rw [hsymbol]
    exact hok.2 (hsell ▸ hside)

/-! ### Assertions of a cycle -/

/-- The SELLs of the symbol that process `i` claimed are over. -/
def OwnOver (i : Nat) (symbol : String) (w : TradeWorld) : Prop :=
  w.SellsOver symbol fun id => w.claimant id = some i

/-- Process `i` claimed a SELL and has not sent it: it is the only one of its symbol, and
    of the others nothing is left that is not materialized. -/
structure SaleClaimed (i : Nat) (id symbol : String) (n : Nat) (w : TradeWorld) : Prop where
  row : ∃ o, w.db.brokerOrders.find? id = some o ∧ o.side = .sell ∧ o.symbol = symbol ∧
    o.requestedQty = n
  claimant : w.claimant id = some i
  unsent : w.book.find? id = none
  only : ∀ k o, w.db.brokerOrders.find? k = some o → o.side = .sell → o.symbol = symbol →
    w.book.find? k = none → k = id
  sold : w.sold symbol ≤ w.db.appliedQuantity symbol .sell

/-- With the SELL as well, no more is sold than was materialized of the BUYs. -/
structure Affordable (i : Nat) (id symbol : String) (n : Nat) (w : TradeWorld) : Prop extends
    SaleClaimed i id symbol n w where
  covered : w.sold symbol + n ≤ w.db.appliedQuantity symbol .buy

theorem SellWorld.Over.sent {w : SellWorld} {id : String} (h : w.Over id) : w.book.find? id ≠ none := by
  obtain ⟨s, hs, -⟩ := h
  rw [hs]
  exact Option.some_ne_none s

section Interference

variable {i j : Nat} {symbol : String} {w w' : TradeWorld}

/-- An order that is over stays over. -/
theorem Trades.ended (h : Trades j w w') {k : String} (hover : w.Over k) : w'.Over k := by
  rcases h with hproceeds | ⟨s, o, -, -, -, -, hunsent, rfl⟩
  · exact hproceeds.noSale.ended k hover
  · obtain ⟨r, hr, hworking⟩ := id hover
    have hk : k ≠ s.clientOrderId := by
      rintro rfl
      exact hover.sent hunsent
    exact ⟨r, (SaleBook.place_find?_ne hunsent hk).trans hr, hworking⟩

/-- Another process creates no SELL of process `i`. -/
theorem OwnOver.trades (hij : j ≠ i) (hown : OwnOver i symbol w) (h : Trades j w w') :
    OwnOver i symbol w' := by
  intro k o' ho' hside hsymbol hclaimant
  rcases id h with hproceeds | ⟨s, o, -, -, -, -, -, rfl⟩
  · cases ho : w.db.brokerOrders.find? k with
    | none =>
      rw [(hproceeds.claims k o' ho ho').1, Option.some.injEq] at hclaimant
      exact absurd hclaimant hij
    | some o =>
      obtain ⟨o₁, ho₁, hsame⟩ := hproceeds.noSale.rows k o ho
      obtain rfl : o₁ = o' := Option.some.inj (ho₁.symm.trans ho')
      rw [hproceeds.claimant k (by rw [ho]; exact Option.some_ne_none o)] at hclaimant
      exact h.ended (hown k o ho (hsame.side.symm.trans hside) (hsame.symbol.symm.trans hsymbol) hclaimant)
  · exact h.ended (hown k o' ho' hside hsymbol hclaimant)

variable {id : String} {n : Nat}

/-- A step that creates no SELL of the symbol and sends nothing. -/
theorem SaleClaimed.noSale (h : SaleClaimed i id symbol n w) (hnoSale : NoSale w.toSellWorld w'.toSellWorld)
    (hclaimant : w'.claimant id = w.claimant id)
    (hnew : ∀ k o', w.db.brokerOrders.find? k = none → w'.db.brokerOrders.find? k = some o' →
      o'.side = .sell → o'.symbol ≠ symbol) : SaleClaimed i id symbol n w' where
  row := by
    obtain ⟨o, ho, hside, hsymbol, hn⟩ := h.row
    obtain ⟨o', ho', hsame⟩ := hnoSale.rows id o ho
    exact ⟨o', ho', hsame.side.trans hside, hsame.symbol.trans hsymbol, hsame.requestedQty.trans hn⟩
  claimant := hclaimant.trans h.claimant
  unsent := (hnoSale.unsent id).mpr h.unsent
  only := by
    intro k o' ho' hside hsymbol hunsent
    cases ho : w.db.brokerOrders.find? k with
    | none => exact absurd hsymbol (hnew k o' ho ho' hside)
    | some o =>
      obtain ⟨o₁, ho₁, hsame⟩ := hnoSale.rows k o ho
      obtain rfl : o₁ = o' := Option.some.inj (ho₁.symm.trans ho')
      exact h.only k o ho (hsame.side.symm.trans hside) (hsame.symbol.symm.trans hsymbol)
        ((hnoSale.unsent k).mp hunsent)
  sold := ((hnoSale.sold symbol).trans h.sold).trans (hnoSale.applied symbol .sell)

/-- Nobody else claims a SELL of the symbol, or sends one. -/
theorem SaleClaimed.trades (hij : j ≠ i) (h : SaleClaimed i id symbol n w) (ht : Trades j w w') :
    SaleClaimed i id symbol n w' ∧ w'.sold symbol ≤ w.sold symbol ∧
      ∀ side, w.db.appliedQuantity symbol side ≤ w'.db.appliedQuantity symbol side := by
  obtain ⟨o, ho, hside, hsymbol, -⟩ := h.row
  rcases ht with hproceeds | ⟨s, o', ho', hside', hsymbol', hclaimant, hunsent, rfl⟩
  · refine ⟨h.noSale hproceeds.noSale ?_ ?_, hproceeds.noSale.sold symbol, hproceeds.noSale.applied symbol⟩
    · exact hproceeds.claimant id (by rw [ho]; exact Option.some_ne_none o)
    · -- the claim would have found the SELL of process `i` under way
      intro k o' hnone ho' hsell hsame
      have hother : w.claimant id ≠ some j := by
        rw [h.claimant]
        exact fun heq => hij (Option.some.inj heq).symm
      have hover : w.Over id :=
        (hproceeds.claims k o' hnone ho').2 hsell id o ho hside (hsymbol.trans hsame.symm) hother
      exact hover.sent h.unsent
  · have hid : id ≠ s.clientOrderId := by
      rintro rfl
      rw [h.claimant, Option.some.injEq] at hclaimant
      exact hij hclaimant.symm
    have hne : s.symbol ≠ symbol := by
      intro hsame
      exact hid (h.only s.clientOrderId o' ho' hside' (hsymbol'.trans hsame) hunsent).symm
    have hsold := SellWorld.place_sold_ne hunsent hne
    refine ⟨⟨h.row, h.claimant, ?_, ?_, ?_⟩, hsold.le, fun _ => le_rfl⟩
    · exact (SaleBook.place_find?_ne hunsent hid).trans h.unsent
    · intro k r hr hrside hrsymbol hrunsent
      have hk : k ≠ s.clientOrderId := by
        rintro rfl
        rw [show r = o' from Option.some.inj (hr.symm.trans ho')] at hrsymbol
        exact hne (hsymbol'.symm.trans hrsymbol)
      exact h.only k r hr hrside hrsymbol ((SaleBook.place_find?_ne hunsent hk).symm.trans hrunsent)
    · exact hsold.le.trans h.sold

theorem Affordable.trades (hij : j ≠ i) (h : Affordable i id symbol n w) (ht : Trades j w w') :
    Affordable i id symbol n w' := by
  obtain ⟨hclaimed, hsold, happlied⟩ := h.toSaleClaimed.trades hij ht
  have hcovered := h.covered
  have hbuy := happlied .buy
  exact ⟨hclaimed, by omega⟩

end Interference

/-! ### Actions that send no SELL -/

/-- The action sends no SELL. -/
def Act.sellsNothing : Act → Prop
  | .submitOrder _ request => request.side = .buy
  | _ => True

theorem Act.sellsNothing_of_isRead (o : Act) (h : o.isRead) : o.sellsNothing := by
  cases o with
  | read => trivial
  | tryRead => trivial
  | selectOrders => trivial
  | call => trivial
  | submitOrder => exact h.elim
  | cancelOrder => trivial

theorem Act.sellsNothing_of_byNotice (o : Act) (h : o.byNotice) : o.sellsNothing := by
  cases o with
  | read => trivial
  | tryRead => trivial
  | selectOrders => trivial
  | call => trivial
  | submitOrder => exact h.elim
  | cancelOrder => trivial

theorem Act.sellsNothing_of_byReconcile (o : Act) (h : o.byReconcile) : o.sellsNothing := by
  cases o with
  | read => trivial
  | tryRead => trivial
  | selectOrders => trivial
  | call => trivial
  | submitOrder => exact h.elim
  | cancelOrder => trivial

abbrev SellsNothing {α : Type} (p : Pipeline α) : Prop :=
  Raising.Only (S := trading) Act.sellsNothing p

theorem ReadsOnly.sellsNothing {α : Type} {p : Pipeline α} (hp : ReadsOnly p) : SellsNothing p :=
  hp.mono Act.sellsNothing_of_isRead

theorem sellsNothing_reraise {α β : Type} {r : Except Exn α} {f : α → Pipeline β}
    (hf : ∀ a, r = .ok a → SellsNothing (f a)) : SellsNothing (reraise r >>= f) := by
  cases r with
  | error e => exact .throw e
  | ok a => exact hf a rfl

theorem sellsNothing_execute (op : Op) : SellsNothing (execute op) :=
  only_execute Act.sellsNothing_of_isRead trivial

/-- Such an action keeps the agreement, whoever performs it. -/
theorem Act.sellsNothing.step {o : Act} (ho : o.sellsNothing) {i : Nat} {w w' : TradeWorld} {b : o.Reply}
    (h : Consistent w) (hsem : TradeWorld.sem Unhurried i o w b w') : Consistent w' ∧ Trades i w w' := by
  have hsame : Consistent w ∧ Trades i w w := ⟨h, .inl (.refl i w)⟩
  cases o with
  | read query => obtain ⟨-, rfl⟩ := hsem; exact hsame
  | tryRead query => obtain ⟨-, rfl⟩ := hsem; exact hsame
  | selectOrders query => obtain ⟨-, rfl⟩ := hsem; exact hsame
  | call op =>
    obtain ⟨hok, -, rfl⟩ := hsem
    obtain ⟨hconsistent, hproceeds⟩ := h.call hok
    exact ⟨hconsistent, .inl hproceeds⟩
  | submitOrder id request =>
    obtain ⟨accepted, -, rfl⟩ := hsem
    rw [SellWorld.send_buy accepted ho]
    exact hsame
  | cancelOrder id number branch quantity price => rw [hsem]; exact hsame

/-! ### The programs of a process -/

section Programs

variable (i : Nat)

/-- What a program of process `i` owes. -/
abbrev TradeSafe {α : Type} (p : Pipeline α) (Q : α → TradeWorld → Prop) (w : TradeWorld) : Prop :=
  Raising.SafeE (TradeWorld.sem Unhurried i) Consistent (othersTrade i) (Trades i) p Q (fun _ _ => True) w

/-- A program of process `i` that keeps an assertion. -/
abbrev TradeKeeps (R : TradeWorld → Prop) {α : Type} (p : Pipeline α) : Prop :=
  Raising.Keeps (TradeWorld.sem Unhurried i) Consistent (othersTrade i) (Trades i) R p

/-- An assertion that the others leave true. -/
def OthersKeep (R : TradeWorld → Prop) : Prop := ∀ w w', othersTrade i w w' → R w → R w'

theorem OthersKeep.true : OthersKeep i fun _ => True := fun _ _ _ _ => trivial

theorem OwnOver.othersKeep (symbol : String) : OthersKeep i (OwnOver i symbol) := by
  intro w w' hstep h
  obtain ⟨j, hij, htrades⟩ := othersTrade.cases hstep
  exact h.trades hij htrades

theorem SaleClaimed.othersKeep (id symbol : String) (n : Nat) : OthersKeep i (SaleClaimed i id symbol n) := by
  intro w w' hstep h
  obtain ⟨j, hij, htrades⟩ := othersTrade.cases hstep
  exact (h.trades hij htrades).1

theorem Affordable.othersKeep (id symbol : String) (n : Nat) :
    OthersKeep i (Affordable i id symbol n) := by
  intro w w' hstep h
  obtain ⟨j, hij, htrades⟩ := othersTrade.cases hstep
  exact h.trades hij htrades

/-- A program that sends no SELL is safe wherever it is started. -/
theorem tame_sellsNothing {α : Type} {p : Pipeline α} (hp : SellsNothing p) (w : TradeWorld) :
    TradeSafe i p (fun _ _ => True) w := by
  have hkeeps : TradeKeeps i (fun _ => True) p := by
    refine Raising.Keeps.of_only (OthersKeep.true i) ?_ hp
    intro o ho w b w' _ hinv hsem
    obtain ⟨hconsistent, htrades⟩ := Act.sellsNothing.step ho hinv hsem
    exact ⟨hconsistent, htrades, trivial⟩
  exact hkeeps w trivial

variable {i} {R : TradeWorld → Prop} (hR : OthersKeep i R) {α β : Type}

include hR

theorem keeps_reads {p : Pipeline α} (hp : ReadsOnly p) : TradeKeeps i R p := by
  refine Raising.Keeps.of_only hR ?_ hp
  intro o ho w b w' hw hinv hsem
  cases o with
  | read query => obtain ⟨-, rfl⟩ := hsem; exact ⟨hinv, .inl (.refl i w'), hw⟩
  | tryRead query => obtain ⟨-, rfl⟩ := hsem; exact ⟨hinv, .inl (.refl i w'), hw⟩
  | selectOrders query => obtain ⟨-, rfl⟩ := hsem; exact ⟨hinv, .inl (.refl i w'), hw⟩
  | call op => exact ho.elim
  | submitOrder id request => exact ho.elim
  | cancelOrder id number branch quantity price => exact ho.elim

/-- Reading first. -/
theorem reads_seq {p : Pipeline α} {f : α → Pipeline β} {Q : β → TradeWorld → Prop} (hp : ReadsOnly p)
    {w : TradeWorld} (hw : R w) (hf : ∀ a w', R w' → TradeSafe i (f a) Q w') :
    TradeSafe i (p >>= f) Q w := by
  apply Raising.SafeE.bind
  exact (keeps_reads hR hp w hw).mono hf fun _ _ _ => trivial

/-- A SELECT, by what its answer says of the database it was read from. -/
theorem select_seq {query : Database → α} {f : α → Pipeline β} {Q : β → TradeWorld → Prop}
    {w : TradeWorld} (hw : R w)
    (hf : ∀ w', R w' → Consistent w' → TradeSafe i (f (query w'.db)) Q w') :
    TradeSafe i (select query >>= f) Q w := by
  apply Raising.SafeE.bind
  apply Raising.SafeE.ask
  rintro w₁ hw₁ hinv b w₂ ⟨rfl, rfl⟩
  refine ⟨hinv, .inl (.refl i w₂), fun w₃ hw₃ => ?_⟩
  exact (hf w₂ (Raising.Keeps.stable hR hw₁ hw) hinv).interfere hw₃

/-- The same for a SELECT that may raise. -/
theorem trySelect_seq {query : Database → α} {f : α → Pipeline β} {Q : β → TradeWorld → Prop}
    {w : TradeWorld} (hw : R w)
    (hf : ∀ w', R w' → Consistent w' → TradeSafe i (f (query w'.db)) Q w') :
    TradeSafe i (trySelect query >>= f) Q w := by
  apply Raising.SafeE.bind
  apply Raising.SafeE.bind
  apply Raising.SafeE.ask
  rintro w₁ hw₁ hinv b w₂ ⟨hb, rfl⟩
  refine ⟨hinv, .inl (.refl i w₂), fun w₃ hw₃ => ?_⟩
  have hnext := (hf w₂ (Raising.Keeps.stable hR hw₁ hw) hinv).interfere hw₃
  rcases hb with rfl | ⟨e, rfl⟩
  · exact Raising.SafeE.pure fun w₄ hw₄ => hnext.interfere hw₄
  · exact Raising.SafeE.throw fun _ _ => trivial

omit hR in
theorem reraise_seq {r : Except Exn α} {f : α → Pipeline β} {Q : β → TradeWorld → Prop} {w : TradeWorld}
    (hf : ∀ a, r = .ok a → TradeSafe i (f a) Q w) : TradeSafe i (reraise r >>= f) Q w := by
  apply Raising.SafeE.bind
  cases r with
  | error e => exact Raising.SafeE.throw fun _ _ => trivial
  | ok a => exact Raising.SafeE.pure fun w' hw' => (hf a rfl).interfere hw'

omit hR in
theorem raiseIf_seq {c : Bool} {e : Exn} {f : Unit → Pipeline β} {Q : β → TradeWorld → Prop}
    {w : TradeWorld} (hf : c = false → TradeSafe i (f ()) Q w) : TradeSafe i (raiseIf c e >>= f) Q w := by
  apply Raising.SafeE.bind
  cases c with
  | true => exact Raising.SafeE.throw fun _ _ => trivial
  | false => exact Raising.SafeE.pure fun w' hw' => (hf rfl).interfere hw'

end Programs

/-! ### The submission of a SELL -/

section Submission

variable {i : Nat} {id : String} {n : Int} {w : TradeWorld}

/-- The quantity check, on the OPEN quantity of the moment. -/
theorem checkSell_affordable {symbol : String} (h : SaleClaimed i id symbol n.toNat w) :
    TradeSafe i (checkSell symbol n) (fun _ => Affordable i id symbol n.toNat) w := by
  refine trySelect_seq (SaleClaimed.othersKeep i id symbol n.toNat) h fun w₁ hclaimed hinv => ?_
  refine raiseIf_seq fun _ => ?_
  unfold raiseIf
  split
  · exact Raising.SafeE.throw fun _ _ => trivial
  · rename_i henough
    have haffordable : Affordable i id symbol n.toNat w₁ := by
      refine ⟨hclaimed, ?_⟩
      have hsold := hclaimed.sold
      have hopen := hinv.positions.openQuantity_eq symbol
      rw [decide_eq_true_eq] at henough
      unfold Database.netQuantity at hopen
      omega
    refine Raising.SafeE.pure fun w₂ hw₂ => ?_
    exact Raising.Keeps.stable (Affordable.othersKeep i id symbol n.toNat) hw₂ haffordable

theorem positiveQuantity_int {quantity : Int} (h : positiveQuantity (.int n) = .ok quantity) :
    quantity = n := by
  rw [positiveQuantity] at h
  split at h
  · cases h; rfl
  · cases h

/-- An order that passes the gate is affordable. -/
theorem safetyGate_affordable {guard : Guard} {request : OrderRequest} (hside : request.side = .sell)
    (hn : request.quantity = .int n) (h : SaleClaimed i id request.symbol n.toNat w) :
    TradeSafe i (safetyGate guard request) (fun _ => Affordable i id request.symbol n.toNat) w := by
  have hclaimed := SaleClaimed.othersKeep i id request.symbol n.toNat
  have haffordable := Affordable.othersKeep i id request.symbol n.toNat
  refine reraise_seq fun now _ => reraise_seq fun quantity hquantity => raiseIf_seq fun _ => ?_
  rw [hn] at hquantity
  obtain rfl := positiveQuantity_int hquantity
  refine reads_seq hclaimed (readsOnly_trySelect _) h fun _ w₁ h₁ => ?_
  refine reads_seq hclaimed (readsOnly_checkRuntimeState guard now) h₁ fun _ w₂ h₂ => ?_
  refine raiseIf_seq fun _ => ?_
  have hcheck : TradeSafe i (checkSide request quantity)
      (fun _ => Affordable i id request.symbol quantity.toNat) w₂ := by
    unfold checkSide
    rw [hside]
    exact checkSell_affordable h₂
  refine Raising.SafeE.seq hcheck fun _ w₃ h₃ => ?_
  -- the second look at the runtime state only reads
  have hagain := keeps_reads haffordable (readsOnly_checkRuntimeState guard now) w₃ h₃
  exact hagain.mono (fun _ _ h => h) fun _ _ _ => trivial

/-- The call of the broker with an affordable SELL. -/
theorem brokerSubmitter_sells {request : OrderRequest} (hside : request.side = .sell)
    (hn : request.quantity = .int n) (h : Affordable i id request.symbol n.toNat w) :
    TradeSafe i (brokerSubmitter id request) (fun _ _ => True) w := by
  apply Raising.SafeE.bind
  apply Raising.SafeE.ask
  rintro w₁ hw₁ hinv b w₂ ⟨accepted, haccepted, rfl⟩
  have hpaid := Raising.Keeps.stable (Affordable.othersKeep i id request.symbol n.toNat) hw₁ h
  obtain ⟨o, ho, hosell, hosymbol, hoquantity⟩ := hpaid.row
  have hunits : accepted ≤ n.toNat := by
    rw [OrderRequest.units, hn] at haccepted
    exact haccepted
  have hcovered := hpaid.covered
  rw [SellWorld.send_sell accepted hside]
  refine ⟨⟨hinv.positions, ?_⟩, .inr ⟨⟨id, request.symbol, accepted, 0⟩, o, ho, hosell, hosymbol,
    hpaid.claimant, hpaid.unsent, rfl⟩, fun w₃ _ => tame_sellsNothing i (readsOnly_reraise b).sellsNothing w₃⟩
  refine hinv.sells.place ho hosell hosymbol rfl ?_ hpaid.unsent ?_
  · dsimp only; omega
  · dsimp only; omega

theorem guardedSubmitter_sells {guard : Guard} {request : OrderRequest} (hside : request.side = .sell)
    (hn : request.quantity = .int n) (h : SaleClaimed i id request.symbol n.toNat w) :
    TradeSafe i (guardedSubmitter guard id request) (fun _ _ => True) w := by
  have hgate : TradeSafe i (safetyGate guard request) (fun _ => Affordable i id request.symbol n.toNat) w :=
    safetyGate_affordable hside hn h
  apply Raising.SafeE.bind
  apply Raising.SafeE.attempt
  refine Raising.SafeE.mono hgate ?_ ?_
  · exact fun _ w₁ h₁ => brokerSubmitter_sells hside hn h₁
  · exact fun e w₁ _ => Raising.SafeE.throw fun _ _ => trivial

/-- Marking the order leaves it pending. -/
theorem markSubmitting_claimed {symbol : String} {m : Nat} (now : DateTime) (clientOrderId : String)
    (at' : Option DateTime) (h : SaleClaimed i id symbol m w) :
    TradeSafe i (execute (.markOrderSubmitting now clientOrderId at')) (fun _ => SaleClaimed i id symbol m) w := by
  have hothers := SaleClaimed.othersKeep i id symbol m
  apply Raising.SafeE.bind
  apply Raising.SafeE.ask
  rintro w₁ hw₁ hinv b w₂ ⟨hok, -, rfl⟩
  obtain ⟨hconsistent, hproceeds⟩ := hinv.call hok
  have hclaimed := Raising.Keeps.stable hothers hw₁ h
  obtain ⟨o, ho, -⟩ := hclaimed.row
  have hmarked : SaleClaimed i id symbol m (w₁.exec i (.markOrderSubmitting now clientOrderId at')) := by
    refine hclaimed.noSale hproceeds.noSale
      (hproceeds.claimant id (by rw [ho]; exact Option.some_ne_none o)) fun k o' hnone ho' => ?_
    obtain ⟨now', a, hop, -⟩ := Op.exec_new_order hnone ho'
    cases hop
  refine ⟨hconsistent, .inl hproceeds, fun w₃ hw₃ => ?_⟩
  have hlater := Raising.Keeps.stable hothers hw₃ hmarked
  cases b with
  | error e => exact Raising.SafeE.throw fun _ _ => trivial
  | ok flag => exact Raising.SafeE.pure fun w₄ hw₄ => Raising.Keeps.stable hothers hw₄ hlater

theorem sellsNothing_recordUnknown (request : OrderRequest) (signalId reason id error : String)
    (createdAt : DateTime) :
    SellsNothing (recordUnknown request signalId reason id error createdAt) :=
  .bind (sellsNothing_execute _) fun _ => .bind (sellsNothing_execute _) fun _ => .pure _

theorem sellsNothing_recordAcknowledged (request : OrderRequest) (signalId reason id broker : String)
    (createdAt : DateTime) :
    SellsNothing (recordAcknowledged request signalId reason id broker createdAt) :=
  .bind (sellsNothing_execute _) fun _ => .bind (sellsNothing_execute _) fun _ => .pure _

theorem submitClaimed_sells {guard : Guard} {request : OrderRequest} (hside : request.side = .sell)
    (hn : request.quantity = .int n) (signalId reason : String) (createdAt : DateTime)
    (h : SaleClaimed i id request.symbol n.toNat w) :
    TradeSafe i (submitClaimed (guardedSubmitter guard) request signalId reason id createdAt)
      (fun _ _ => True) w := by
  refine Raising.SafeE.seq (markSubmitting_claimed createdAt id (some createdAt) h) fun _ w₁ h₁ => ?_
  apply Raising.SafeE.bind
  apply Raising.SafeE.attempt
  refine Raising.SafeE.mono (guardedSubmitter_sells hside hn h₁) ?_ ?_
  · intro broker w₂ _
    dsimp only
    split
    · exact tame_sellsNothing i (sellsNothing_recordAcknowledged ..) w₂
    · exact tame_sellsNothing i (sellsNothing_recordUnknown ..) w₂
  · exact fun e w₂ _ => tame_sellsNothing i (sellsNothing_recordUnknown ..) w₂

/-- A SELL that is claimed when the condition is met and the own SELLs are over. -/
theorem claim_claimed {a : IntentArgs} (hside : Side.parse? a.side = some .sell)
    (hn : a.requestedQty = .int n) (now : DateTime) (h : OwnOver i a.symbol w) :
    TradeSafe i (execute (.claimOrderIntent now a))
      (fun claimed w' => claimed = true → SaleClaimed i a.clientOrderId a.symbol n.toNat w') w := by
  apply Raising.SafeE.bind
  apply Raising.SafeE.ask
  rintro w₁ hw₁ hinv b w₂ ⟨hok, rfl, rfl⟩
  obtain ⟨hconsistent, hproceeds⟩ := hinv.call hok
  refine ⟨hconsistent, .inl hproceeds, fun w₃ hw₃ => ?_⟩
  have hown := Raising.Keeps.stable (OwnOver.othersKeep i a.symbol) hw₁ h
  rcases claimOrderIntent_cases now a w₁.db with ⟨e, hr⟩ | ⟨-, hr⟩ | ⟨row, hrow, hfree, hr⟩
  · simp only [Op.call, Op.run, hr]
    exact Raising.SafeE.throw fun _ _ => trivial
  · simp only [Op.call, Op.run, hr]
    exact Raising.SafeE.pure fun _ _ hfalse => by cases hfalse
  · have hid := (intentRow_ok hrow).1
    obtain ⟨hsymbol, hrowside⟩ := intentRow_identity hrow
    rw [hside, Option.some.injEq] at hrowside
    have hexec : (Op.claimOrderIntent now a).exec w₁.db =
        { w₁.db with brokerOrders := (w₁.db.brokerOrders.insertOrIgnore row).1 } := by
      simp only [Op.exec, Op.call, Op.run, hr]
    have hrows := (Table.insertOrIgnore_of_free hfree).2
    -- every SELL of the symbol is over: the own ones by the read, the others by the condition
    have hover : w₁.SellsOver a.symbol fun _ => True := by
      intro k o ho hoside hosymbol _
      by_cases hclaimant : w₁.claimant k = some i
      · exact hown k o ho hoside hosymbol hclaimant
      · exact hok.2 hside k o ho hoside hosymbol hclaimant
    have hclaimed : SaleClaimed i a.clientOrderId a.symbol n.toNat (w₁.exec i (.claimOrderIntent now a)) := by
      have hnew : (w₁.db.brokerOrders.insertOrIgnore row).1.find? a.clientOrderId = some row := by
        rw [Table.find?_append hrows, ← hid, hfree, if_pos rfl, Option.none_or]
      refine ⟨⟨row, ?_, hrowside.symm, hsymbol, intentRow_requestedQty hrow hn⟩, ?_, ?_, ?_, ?_⟩
      · change ((Op.claimOrderIntent now a).exec w₁.db).brokerOrders.find? _ = _
        rw [hexec]
        exact hnew
      · refine if_pos ⟨hid ▸ hfree, ?_⟩
        rw [hexec]
        exact fun hnone => Option.some_ne_none row (hnew.symm.trans hnone)
      · cases hs : w₁.book.find? a.clientOrderId with
        | none => exact hs
        | some s =>
          obtain ⟨o, ho, -⟩ := hinv.sells.placed _ s hs
          rw [← hid, hfree] at ho
          cases ho
      · intro k o ho hoside hosymbol hunsent
        change ((Op.claimOrderIntent now a).exec w₁.db).brokerOrders.find? k = some o at ho
        rw [hexec, Table.find?_append hrows] at ho
        cases hold : w₁.db.brokerOrders.find? k with
        | some old =>
          rw [hold, Option.some_or, Option.some.injEq] at ho
          subst ho
          exact absurd hunsent (SellWorld.Over.sent (hover k old hold hoside hosymbol trivial))
        | none =>
          rw [hold, Option.none_or] at ho
          split at ho
          · rename_i hk
            exact hk.symm.trans hid
          · cases ho
      · refine le_trans (hinv.sells.sold_le a.symbol ?_ (hok.1 hside)) (hproceeds.noSale.applied a.symbol .sell)
        intro k s hs hssymbol
        obtain ⟨o, ho, hoside, hosymbol, -⟩ := hinv.sells.placed k s hs
        obtain ⟨s', hs', hworking⟩ := hover k o ho hoside (hosymbol.trans hssymbol) trivial
        rw [hs, Option.some.injEq] at hs'
        subst hs'
        exact hworking
    simp only [Op.call, Op.run, hr]
    refine Raising.SafeE.pure fun w₄ hw₄ _ => ?_
    exact Raising.Keeps.stable (SaleClaimed.othersKeep i a.clientOrderId a.symbol n.toNat)
      (hw₃.trans hw₄) hclaimed

theorem submitWithLedger_sells {guard : Guard} {request : OrderRequest} (hside : request.side = .sell)
    (hn : request.quantity = .int n) (signalId : String) (idempotencyKey : Option String)
    (reason : String) (createdAt : DateTime) (h : OwnOver i request.symbol w) :
    TradeSafe i (submitWithLedger (guardedSubmitter guard) request signalId idempotencyKey reason createdAt)
      (fun _ _ => True) w := by
  have hparse : Side.parse? request.side.name = some .sell := by rw [Side.parse?_name, hside]
  refine Raising.SafeE.seq (claim_claimed (a := claimArgs request signalId _ createdAt) hparse hn
    createdAt h) fun claimed w₁ h₁ => ?_
  split
  · rename_i htrue
    exact submitClaimed_sells hside hn signalId reason createdAt (h₁ htrue)
  · exact Raising.SafeE.pure fun _ _ => trivial

end Submission

/-! ### The cycle -/

/-- What a row without an open SELL says of the broker. -/
theorem Consistent.ownOver {w : TradeWorld} (h : Consistent w) {symbol : String}
    (hresolved : w.db.hasUnresolvedOrder symbol .sell = false) (i : Nat) : OwnOver i symbol w := by
  intro id o ho hside hsymbol _
  have hrow := List.any_eq_false.mp hresolved o (w.db.brokerOrders.mem_of_find? ho)
  simp only [hsymbol, hside, decide_true, Bool.true_and, Bool.not_eq_true, Bool.not_eq_false'] at hrow
  exact h.sells.ended id o ho hside hrow

section Cycle

variable (i : Nat) (guard : Guard)

theorem submitExit_safe (symbol : String) (position : LivePosition) (reason : ExitReason) (price : Int)
    (now : DateTime) {w : TradeWorld} (h : OwnOver i symbol w) :
    TradeSafe i (submitExit (guardedSubmitter guard) symbol position reason price now)
      (fun _ _ => True) w := by
  unfold submitExit
  refine reraise_seq fun request hrequest => ?_
  obtain rfl := krxRequest_eq hrequest
  refine Raising.SafeE.seq (submitWithLedger_sells rfl rfl _ _ _ _ h) fun _ w₁ _ => ?_
  exact Raising.SafeE.pure fun _ _ => trivial

theorem maybeExitPosition_safe (calendar : Calendar) (config : AutoTradeConfig) (symbol : String)
    (now : DateTime) (quote : MarketView) (exitPrice : Option (Except Exn PyFloat)) (w : TradeWorld) :
    TradeSafe i (maybeExitPosition (guardedSubmitter guard) calendar config symbol now quote exitPrice)
      (fun _ _ => True) w := by
  have hpure : ∀ (r : Option AutoTradeSymbolResult) w,
      TradeSafe i (pure r : Pipeline (Option AutoTradeSymbolResult)) (fun _ _ => True) w :=
    fun _ _ => Raising.SafeE.pure fun _ _ => trivial
  unfold maybeExitPosition
  refine select_seq (OthersKeep.true i) trivial fun w₁ _ _ => ?_
  split
  · exact hpure _ w₁
  · rename_i position rest _
    dsimp only
    split
    · exact hpure _ w₁
    split
    · exact hpure _ w₁
    · rename_i reason _
      refine select_seq (OthersKeep.true i) trivial fun w₂ _ hinv => ?_
      split
      · exact hpure _ w₂
      · rename_i hresolved
        have hown := hinv.ownOver (Bool.not_eq_true _ ▸ hresolved) i
        refine reads_seq (OwnOver.othersKeep i symbol) (readsOnly_select _) hown fun attempts w₃ h₃ => ?_
        split
        · refine tame_sellsNothing i ?_ w₃
          exact .bind (sellsNothing_execute _) fun _ => .bind (sellsNothing_execute _) fun _ => .pure _
        split
        · exact hpure _ w₃
        split
        · exact hpure _ w₃
        · refine Raising.SafeE.seq (submitExit_safe i guard symbol position reason _ now h₃) fun r w₄ _ => ?_
          exact hpure _ w₄

end Cycle

/-! ### Entries -/

section Entry

variable {submitter : Submitter}
  (hsubmitter : ∀ id request, request.side = .buy → SellsNothing (submitter id request))

theorem sellsNothing_guardedSubmitter (guard : Guard) (id : String) (request : OrderRequest)
    (hbuy : request.side = .buy) : SellsNothing (guardedSubmitter guard id request) := by
  unfold guardedSubmitter
  refine .bind (.attempt (readsOnly_safetyGate guard request).sellsNothing) fun r => ?_
  cases r with
  | error e => exact .throw _
  | ok _ =>
    exact .bind (Raising.Only.ask (S := trading) (o := .submitOrder id request) hbuy) fun answer =>
      (readsOnly_reraise answer).sellsNothing

include hsubmitter

theorem sellsNothing_submitWithLedger {request : OrderRequest} (hbuy : request.side = .buy)
    (signalId : String) (idempotencyKey : Option String) (reason : String) (createdAt : DateTime) :
    SellsNothing (submitWithLedger submitter request signalId idempotencyKey reason createdAt) := by
  unfold submitWithLedger
  refine .bind (sellsNothing_execute _) fun claimed => ?_
  split
  · unfold submitClaimed
    refine .bind (sellsNothing_execute _) fun _ => ?_
    refine .bind (.attempt (hsubmitter _ request hbuy)) fun r => ?_
    cases r with
    | error e => exact sellsNothing_recordUnknown ..
    | ok broker =>
      dsimp only
      split
      · exact sellsNothing_recordAcknowledged ..
      · exact sellsNothing_recordUnknown ..
  · exact .pure _

theorem sellsNothing_submitEntry (symbol : String) (barStart now : DateTime) (reason : String)
    (outcome : EntryOutcome) :
    SellsNothing (submitEntry submitter symbol barStart now reason outcome) := by
  cases outcome with
  | blocked reason => exact .pure _
  | raised e => exact .throw _
  | order decisionId quantity price =>
    refine sellsNothing_reraise fun request hrequest => ?_
    have hbuy : request.side = .buy := by rw [krxRequest_eq hrequest]
    exact .bind (sellsNothing_submitWithLedger hsubmitter hbuy ..) fun result => .pure _

theorem sellsNothing_maybeEnterPosition (symbol : String) (lastBarStart : Option DateTime)
    (now : DateTime) (path : EntryPath) :
    SellsNothing (maybeEnterPosition submitter symbol lastBarStart now path) := by
  unfold maybeEnterPosition
  cases lastBarStart with
  | none => exact .pure _
  | some barStart =>
    cases path with
    | approved outcome => exact sellsNothing_submitEntry hsubmitter ..
    | direct outcome =>
      refine .bind (readsOnly_select _).sellsNothing fun existing => ?_
      split
      · exact .pure _
      · exact sellsNothing_submitEntry hsubmitter ..

end Entry

/-! ### Whole programs -/

section Whole

variable (i : Nat) {guard : Guard} {args : CycleArgs} (hguarded : args.submitter = guardedSubmitter guard)

include hguarded

theorem cycleSymbol_safe (symbol : String) (inputs : SymbolInputs) (w : TradeWorld) :
    TradeSafe i (cycleSymbol args symbol inputs) (fun _ _ => True) w := by
  have hpure : ∀ (r : AutoTradeSymbolResult) w,
      TradeSafe i (pure r : Pipeline AutoTradeSymbolResult) (fun _ _ => True) w :=
    fun _ _ => Raising.SafeE.pure fun _ _ => trivial
  unfold cycleSymbol
  dsimp only
  split
  · exact hpure _ w
  split
  · exact hpure _ w
  refine select_seq (OthersKeep.true i) trivial fun w₁ _ _ => ?_
  split
  · exact hpure _ w₁
  split
  · exact hpure _ w₁
  rw [hguarded]
  refine Raising.SafeE.seq (maybeExitPosition_safe i guard _ _ _ _ _ _ w₁) fun result w₂ _ => ?_
  cases result with
  | some result => exact hpure _ w₂
  | none =>
    refine select_seq (OthersKeep.true i) trivial fun w₃ _ _ => ?_
    repeat' split
    all_goals first
      | exact hpure _ w₃
      | exact tame_sellsNothing i
          (sellsNothing_maybeEnterPosition (sellsNothing_guardedSubmitter guard) ..) w₃

theorem runAutoTradeCycle_safe (symbols : List String) (inputs : String → SymbolInputs)
    (w : TradeWorld) : TradeSafe i (runAutoTradeCycle args symbols inputs) (fun _ _ => True) w := by
  unfold runAutoTradeCycle
  refine select_seq (OthersKeep.true i) trivial fun w₁ _ _ => ?_
  refine Raising.SafeE.foldlM_of_mem (fun _ _ _ _ _ => trivial) _ ?_ trivial
  intro symbol _ results w₂ _
  apply Raising.SafeE.bind
  apply Raising.SafeE.attempt
  refine (cycleSymbol_safe i hguarded symbol (inputs symbol) w₂).mono ?_ ?_
  · exact fun result w₃ _ => Raising.SafeE.pure fun _ _ => trivial
  · exact fun e w₃ _ => Raising.SafeE.pure fun _ _ => trivial

end Whole

theorem sellsNothing_detached {α : Type} {p : Pipeline α} (hp : SellsNothing p) :
    (detached p).Only Act.sellsNothing :=
  Prog.Only.bind hp fun _ => trivial

theorem program_trades (i : Nat) (program : TradingProgram) (w : TradeWorld) :
    program.program.Safe (TradeWorld.sem Unhurried i) Consistent (othersTrade i) (Trades i)
      (fun _ _ => True) w := by
  -- a program whose outcome nobody waits for
  have hdetached : ∀ {α : Type} {p : Pipeline α}, TradeSafe i p (fun _ _ => True) w →
      (detached p).Safe (TradeWorld.sem Unhurried i) Consistent (othersTrade i) (Trades i)
        (fun _ _ => True) w := by
    intro α p hp
    apply Prog.Safe.bind
    exact Prog.Safe.mono hp fun _ _ _ _ _ => trivial
  cases program with
  | cycle guard args symbols inputs guarded =>
    exact hdetached (runAutoTradeCycle_safe i guarded symbols inputs w)
  | notice now n tradingDate received =>
    exact hdetached (tame_sellsNothing i
      ((byNotice_applyFillNotice now n tradingDate received).mono Act.sellsNothing_of_byNotice) w)
  | pass now orders account =>
    exact hdetached (tame_sellsNothing i
      ((byReconcile_reconcileBrokerState now orders account).mono Act.sellsNothing_of_byReconcile) w)

/-! ### Every run -/

theorem NothingSold.consistent {w : TradeWorld} (h : NothingSold w) : Consistent w := by
  refine ⟨h.ledger, h.owned, ?_, ?_, ?_, ?_⟩
  · intro id s hs
    rw [h.book] at hs
    cases hs
  · intro id o ho hside
    rw [h.bought o (w.db.brokerOrders.mem_of_find? ho)] at hside
    cases hside
  · intro id o ho hside
    rw [h.bought o (w.db.brokerOrders.mem_of_find? ho)] at hside
    cases hside
  · intro symbol
    rw [SellWorld.sold, h.book]
    exact Nat.zero_le _

theorem traders_contract : (traders Unhurried).Contract NothingSold Consistent Trades where
  init := fun w h => h.consistent
  env := by
    rintro w w' h ⟨hstay, -⟩
    exact ⟨h.positions.congr hstay.positions hstay.fills hstay.applications, h.sells.stay hstay⟩
  spawn := by
    rintro i p q - ⟨program, rfl⟩
    exact program_trades i program p.store

/-- **What SELL orders claim is held.**  In a run in which SELLs are claimed unhurriedly,
    fills count executions only and statuses are true, the quantity working on the SELL
    orders of a symbol and the quantity executed on them and not materialized are within
    its OPEN quantity, however cycles, notices and passes interleave. -/
theorem sell_commitments_within_holding (pool : Pool trading TradeWorld)
    (h : (traders Unhurried).Reachable NothingSold pool) (symbol : String) :
    pool.store.commitments symbol ≤ pool.store.db.openQuantity symbol := by
  have hinv := System.reachable_inv traders_contract h
  exact hinv.sells.commitments_le hinv.positions symbol

/-! ### One holding, sold twice -/

namespace SoldTwice

def at' (second : Nat) : DateTime := .combine 20000 10 0 second (some DateTime.kstOffset)

/-- Ten shares, bought and materialized. -/
def bought : List Op :=
  [.claimOrderIntent (at' 0) ⟨"ai:buy:d1", some "d1", "005930", "BUY", .int 10, .int 100, none⟩,
    .applyBrokerFill (at' 0) ⟨"f1", "ai:buy:d1", .int 10, .int 100, at' 0, none, none, none, none⟩,
    .materializeOrderFills (at' 0) ⟨"ai:buy:d1", some (.int 90), some (.int 120), some (.int 600),
      "broker_fill"⟩]

def start : TradeWorld where
  db := { runOps bought Database.empty with
    runtimeControl := some ⟨false, "demo", at' 0, "started", "operator"⟩
    serviceLeases := (Table.empty.insertOrIgnore
      ⟨"trading-service", "owner-1", at' 0, at' 0, .iso (at' 59)⟩).1 }
  book := Table.empty
  claimant := fun _ => none

def guard (now : DateTime) : Guard := ⟨"demo", "trading-service", "owner-1", none, .ok now⟩

/-- The price is below the stop. -/
def view (now : DateTime) : MarketView :=
  ⟨some ⟨now, .fin 80⟩, some ⟨.combine 20000 9 59 0 (some DateTime.kstOffset), .fin 80⟩⟩

def cycle (now : DateTime) : TradingProgram :=
  .cycle (guard now)
    ⟨guardedSubmitter (guard now), none, ⟨false, true, 10, 90, 3⟩, false, true, none⟩ ["005930"]
    (fun _ => ⟨now, view now, view now, none, now, none, .direct (.blocked "position_hold")⟩) rfl

/-- The notice of the whole execution. -/
def notice : TradingProgram :=
  .notice (at' 9) ⟨.filled, "K1", "", 10, "01", "005930", 10, 80, "100008", "0", "00", "0", "2", 80, "KRX"⟩
    none (some (at' 9))

def handler (i : Nat) : (o : Act) → TradeWorld → o.Reply × TradeWorld
  | .read query, w => (query w.db, w)
  | .tryRead query, w => (.ok (query w.db), w)
  | .selectOrders query, w => (query w.db, w)
  | .call op, w => ((op.call w.db).1, w.exec i op)
  | .submitOrder id request, w =>
    (.ok (some ("K" ++ toString (w.book.rows.length + 1))),
      { w with toSellWorld := w.toSellWorld.send id request request.units })
  | .cancelOrder .., w => (.ok (), w)

def run (i n : Nat) (program : TradingProgram) (w : TradeWorld) : TradeWorld :=
  (Prog.advance (handler i) n (program.program, w)).2

/-- The exit of the first cycle. -/
def exitId : String := "ai:sell:exit:live-position:d1:stop_loss:2024-10-04T10:00:00"

/-- The broker executes shares of it. -/
def execute (k : Nat) (w : TradeWorld) : TradeWorld :=
  { w with book := w.book.update exitId (Sale.execute k) fun _ => rfl }

def sentOnce : TradeWorld := run 0 60 (cycle (at' 5)) start

/-- The broker executes the SELL, and its notice is booked but not materialized. -/
def booked : TradeWorld := run 1 4 notice (execute 10 sentOnce)

def sentTwice : TradeWorld := run 0 60 (cycle (at' 15)) booked

/-- The calls meet a condition. -/
def callMeets (ok : Op → TradeWorld → Prop) : Act → TradeWorld → Prop
  | .call op, w => ok op w
  | _, _ => True

instance callMeets.decidable (ok : Op → TradeWorld → Prop) [∀ op w, Decidable (ok op w)] :
    (o : Act) → (w : TradeWorld) → Decidable (callMeets ok o w)
  | .call op, w => inferInstanceAs (Decidable (ok op w))
  | .read _, _ => .isTrue trivial
  | .tryRead _, _ => .isTrue trivial
  | .selectOrders _, _ => .isTrue trivial
  | .submitOrder .., _ => .isTrue trivial
  | .cancelOrder .., _ => .isTrue trivial

section Runs

variable {ok : Nat → Op → TradeWorld → Prop} {calm : Op → TradeWorld → Prop}
  (hcalm : ∀ i op w, calm op w → ok i op w)

include hcalm

theorem handler_sem (i : Nat) (o : Act) (w : TradeWorld) (h : callMeets calm o w) :
    (traders ok).sem i o w (handler i o w).1 (handler i o w).2 := by
  cases o with
  | read query => exact ⟨rfl, rfl⟩
  | tryRead query => exact ⟨.inl rfl, rfl⟩
  | selectOrders query => exact ⟨rfl, rfl⟩
  | call op => exact ⟨hcalm i op w h, rfl, rfl⟩
  | submitOrder id request => exact ⟨request.units, le_rfl, rfl⟩
  | cancelOrder id number branch quantity price => rfl

theorem run_reachable (i n : Nat) (program : TradingProgram) {w : TradeWorld}
    (h : (traders ok).Reachable NothingSold ⟨w, fun _ => none⟩)
    (hm : Prog.Meets (callMeets calm) (handler i) n (program.program, w)) :
    (traders ok).Reachable NothingSold ⟨run i n program w, fun _ => none⟩ :=
  h.steps (System.steps_excursion (i := i) (handler_sem hcalm i) n rfl ⟨program, rfl⟩ hm)

end Runs

theorem execute_reachable {ok : Nat → Op → TradeWorld → Prop} (k : Nat) {w : TradeWorld}
    (h : (traders ok).Reachable NothingSold ⟨w, fun _ => none⟩) :
    (traders ok).Reachable NothingSold ⟨execute k w, fun _ => none⟩ :=
  h.step (.env ⟨⟨rfl, rfl, rfl, rfl, exitId, Sale.execute k, fun _ => rfl, Sale.moves_execute k, rfl⟩, rfl⟩)

theorem start_nothingSold : NothingSold start where
  ledger := (PositionLedger.runOps bought).congr rfl rfl rfl
  owned := by
    have howned : ∀ f ∈ start.db.brokerFills.rows,
        (start.db.brokerOrders.find? f.clientOrderId).any
          (fun o => f.symbol = o.symbol ∧ f.side = o.side) = true := by decide +kernel
    intro f hf
    have hfill := howned f hf
    cases ho : start.db.brokerOrders.find? f.clientOrderId with
    | none => rw [ho] at hfill; cases hfill
    | some o => rw [ho] at hfill; exact ⟨o, rfl, of_decide_eq_true hfill⟩
  bought := by decide +kernel
  book := rfl

theorem start_reachable (ok : Nat → Op → TradeWorld → Prop) :
    (traders ok).Reachable NothingSold ⟨start, fun _ => none⟩ :=
  .init start_nothingSold

/-- Calls that meet the condition because no SELL was claimed before. -/
def Calm (op : Op) (w : TradeWorld) : Prop :=
  match op with
  | .claimOrderIntent .. => w.book.rows = [] ∧ ∀ o ∈ w.db.brokerOrders.rows, o.side = .buy
  | .applyBrokerFill .. => False
  | .updateBrokerOrderStatus .. => False
  | _ => True

instance Calm.decidable : (op : Op) → (w : TradeWorld) → Decidable (Calm op w)
  | .claimOrderIntent .., w =>
    inferInstanceAs (Decidable (w.book.rows = [] ∧ ∀ o ∈ w.db.brokerOrders.rows, o.side = .buy))
  | .applyBrokerFill .., _ => .isFalse id
  | .updateBrokerOrderStatus .., _ => .isFalse id
  | .markOrderSubmitting .., _ => .isTrue trivial
  | .recordOrderSubmission .., _ => .isTrue trivial
  | .markOrderUnknown .., _ => .isTrue trivial
  | .materializeOrderFills .., _ => .isTrue trivial
  | .setRuntimeMetadata .., _ => .isTrue trivial
  | .recordBrokerOrderAudit .., _ => .isTrue trivial

theorem Calm.unhurried {op : Op} {w : TradeWorld} (h : Calm op w) (i : Nat) : Unhurried i op w := by
  cases op with
  | claimOrderIntent now a =>
    obtain ⟨hbook, hbuys⟩ := h
    refine ⟨fun _ s hs => ?_, fun _ id o ho hside => ?_⟩
    · rw [hbook] at hs
      cases hs
    · rw [hbuys o (w.db.brokerOrders.mem_of_find? ho)] at hside
      cases hside
  | applyBrokerFill => exact h.elim
  | updateBrokerOrderStatus => exact h.elim
  | markOrderSubmitting => exact ⟨trivial, trivial⟩
  | recordOrderSubmission => exact ⟨trivial, trivial⟩
  | markOrderUnknown => exact ⟨trivial, trivial⟩
  | materializeOrderFills => exact ⟨trivial, trivial⟩
  | setRuntimeMetadata => exact ⟨trivial, trivial⟩
  | recordBrokerOrderAudit => exact ⟨trivial, trivial⟩

/-- Four of the ten shares are executed: ten are claimed, and ten are held. -/
theorem one_exit_within_holding :
    (execute 4 sentOnce).book.rows.map (fun s => (s.working, s.executed)) = [(6, 4)] ∧
    (execute 4 sentOnce).commitments "005930" = 10 ∧
    (execute 4 sentOnce).commitments "005930" ≤ (execute 4 sentOnce).db.openQuantity "005930" := by
  have hsent : (traders Unhurried).Reachable NothingSold ⟨sentOnce, fun _ => none⟩ :=
    run_reachable (fun i _ _ h => Calm.unhurried h i) 0 60 (cycle (at' 5)) (start_reachable _)
      (by decide +kernel)
  exact ⟨by decide +kernel, by decide +kernel,
    sell_commitments_within_holding _ (execute_reachable 4 hsent) "005930"⟩

/-- The exit is executed and booked as FILLED, the holding is not reduced yet, and the
    next cycle sells it again. -/
theorem holding_sold_twice :
    ¬ ∀ pool : Pool trading TradeWorld, (traders fun _ _ _ => True).Reachable NothingSold pool →
      ∀ symbol, pool.store.commitments symbol ≤ pool.store.db.openQuantity symbol := by
  intro hall
  have hmeets : ∀ (i n : Nat) (program : TradingProgram) (w : TradeWorld),
      Prog.Meets (callMeets fun _ _ => True) (handler i) n (program.program, w) := by
    intro i n program w
    have htrue : callMeets (fun _ _ => True) = fun _ _ => True := by
      funext o w
      cases o <;> rfl
    rw [htrue]
    exact .always _ _ _
  have hok : ∀ (i : Nat) (op : Op) (w : TradeWorld), True → True := fun _ _ _ h => h
  have hsent := run_reachable hok 0 60 (cycle (at' 5)) (start_reachable _) (hmeets ..)
  have hbooked := run_reachable hok 1 4 notice (execute_reachable 10 hsent) (hmeets ..)
  have hagain := run_reachable hok 0 60 (cycle (at' 15)) hbooked (hmeets ..)
  have hle := hall _ hagain "005930"
  revert hle
  change ¬ sentTwice.commitments "005930" ≤ sentTwice.db.openQuantity "005930"
  decide +kernel

end SoldTwice

end AutoTrader
