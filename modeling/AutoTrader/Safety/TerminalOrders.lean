/-
  AutoTrader/Safety/TerminalOrders.lean
  =====================================
  **A finished order stays finished, unless a writer works from an old row.**

  Supervisor stages and notices read rows first and write them later, and no write
  carries a condition on the status it finds.  The world below remembers for every
  process the status and the filled quantity it last saw of an order.  A run is
  safe when every write finds the row as its writer last saw it, and the records a
  pass works with agree with the rows it reads.
-/
import AutoTrader.Pipeline.Alphabet
import AutoTrader.Safety.Headers

namespace AutoTrader

open Relational Transactional Interleave

/-! ### Processes and what they have seen -/

/-- What a process remembers of an order row. -/
structure Seen where
  status : OrderStatus
  filledQty : Nat
deriving DecidableEq

def BrokerOrder.seen (o : BrokerOrder) : Seen := ⟨o.status, o.filledQty⟩

structure WatchedWorld where
  db : Database
  seen : Nat → String → Option Seen

namespace WatchedWorld

/-- Process `i` reads rows. -/
def look (w : WatchedWorld) (i : Nat) (rows : List BrokerOrder) : WatchedWorld :=
  { w with
    seen := Function.update w.seen i fun id =>
      ((rows.find? fun o => o.clientOrderId = id).map (·.seen)).or (w.seen i id) }

/-- Process `i` calls a method and knows the row it has written. -/
def write (w : WatchedWorld) (i : Nat) (op : Op) : WatchedWorld where
  db := op.exec w.db
  seen :=
    match op.target with
    | none => w.seen
    | some id => Function.update w.seen i
        (Function.update (w.seen i) id (((op.exec w.db).brokerOrders.find? id).map (·.seen)))

def sem (i : Nat) : (o : Act) → WatchedWorld → o.Reply → WatchedWorld → Prop
  | .read query, w, b, w' => b = query w.db ∧ w' = w
  | .tryRead query, w, b, w' => (b = .ok (query w.db) ∨ ∃ e, b = .error e) ∧ w' = w
  | .selectOrders query, w, b, w' => b = query w.db ∧ w' = w.look i (query w.db)
  | .call op, w, b, w' => b = (op.call w.db).1 ∧ w' = w.write i op
  | .submitOrder .., w, _, w' => w' = w
  | .cancelOrder .., w, _, w' => w' = w

/-- Everything else leaves finished orders alone and finishes none. -/
structure Env (w w' : WatchedWorld) : Prop where
  seen : w'.seen = w.seen
  kept : ∀ id o, w.db.brokerOrders.find? id = some o → o.status.terminal = true →
    w'.db.brokerOrders.find? id = some o
  only : ∀ id o, w'.db.brokerOrders.find? id = some o → o.status.terminal = true →
    w.db.brokerOrders.find? id = some o
  intent : ∀ id o, w.db.brokerOrders.find? id = some o →
    ∃ o', w'.db.brokerOrders.find? id = some o' ∧ o'.requestedQty = o.requestedQty

end WatchedWorld

/-- The records a process works with. -/
def Process.records : Process → List OrderRecord
  | .supervisor _ _ _ snapshot => snapshot.orders.toOption.getD []
  | _ => []

/-- The process is a notice or a supervisor pass. -/
def Process.watches : Process → Prop
  | .cycle _ => False
  | _ => True

/-- Notices and supervisor passes in any interleaving; every action meets
    `condition`.  A number stands for one process, which may be started, stopped
    and started again. -/
def watchedSystem (processes : Nat → Process) (condition : Nat → Act → WatchedWorld → Prop) :
    System trading WatchedWorld where
  sem i o w b w' := condition i o w ∧ WatchedWorld.sem i o w b w'
  env := WatchedWorld.Env
  spawn i _ q := (processes i).watches ∧ q = (processes i).program

/-! ### The condition -/

/-- A record agrees with a row: it is FILLED only with the whole quantity, it is
    terminal with the whole quantity, and of a finished order it is terminal and
    reports no further part of the quantity. -/
structure RecordAgrees (record : OrderRecord) (o : BrokerOrder) : Prop where
  filled : record.status = .filled → record.filledQuantity = o.requestedQty
  complete : record.filledQuantity = o.requestedQty → terminalStatusForBroker record.status ≠ none
  finished : o.status.terminal = true → terminalStatusForBroker record.status ≠ none ∧
    (record.filledQuantity ≤ o.filledQty ∨ record.filledQuantity = o.requestedQty)

instance (record : OrderRecord) (o : BrokerOrder) : Decidable (RecordAgrees record o) :=
  decidable_of_iff
    ((record.status = .filled → record.filledQuantity = o.requestedQty) ∧
      (record.filledQuantity = o.requestedQty → terminalStatusForBroker record.status ≠ none) ∧
      (o.status.terminal = true → terminalStatusForBroker record.status ≠ none ∧
        (record.filledQuantity ≤ o.filledQty ∨ record.filledQuantity = o.requestedQty)))
    ⟨fun h => ⟨h.1, h.2.1, h.2.2⟩, fun h => ⟨h.filled, h.complete, h.finished⟩⟩

/-- A call finds the row it writes as its process last saw it. -/
def AsSeen (i : Nat) (op : Op) (w : WatchedWorld) : Prop :=
  ∀ id ∈ op.target, ∀ o ∈ w.db.brokerOrders.find? id, ∀ v ∈ w.seen i id, o.seen = v

/-- The rows a process reads agree with its records. -/
def RowsAgree (records : List OrderRecord) (rows : List BrokerOrder) : Prop :=
  ∀ o ∈ rows, ∀ record ∈ byBrokerId records o.brokerIdText, RecordAgrees record o

def UpToDate (processes : Nat → Process) (i : Nat) : Act → WatchedWorld → Prop
  | .selectOrders query, w => RowsAgree (processes i).records (query w.db)
  | .call op, w => AsSeen i op w
  | _, _ => True

/-! ### The invariant -/

/-- A FILLED order is filled. -/
def FilledComplete (w : WatchedWorld) : Prop :=
  ∀ id o, w.db.brokerOrders.find? id = some o → o.status = .filled → o.filledQty = o.requestedQty

/-- What a process does to the world: it remembers only for itself, finished orders
    stay finished, and orders keep their intent. -/
structure Progress (i : Nat) (w w' : WatchedWorld) : Prop where
  seen : ∀ j, j ≠ i → w'.seen j = w.seen j
  finished : ∀ id o, w.db.brokerOrders.find? id = some o → o.status.terminal = true →
    ∃ o', w'.db.brokerOrders.find? id = some o' ∧ o'.status.terminal = true
  intent : ∀ id o, w.db.brokerOrders.find? id = some o →
    ∃ o', w'.db.brokerOrders.find? id = some o' ∧ o'.requestedQty = o.requestedQty

/-- The process last saw the order so, and the order asks for this quantity. -/
def Knows (i : Nat) (id : String) (v : Seen) (quantity : Nat) (w : WatchedWorld) : Prop :=
  w.seen i id = some v ∧ ∃ o, w.db.brokerOrders.find? id = some o ∧ o.requestedQty = quantity

/-- The rows that are still to be handled are known as they were read. -/
def Pending (i : Nat) (rest : List BrokerOrder) (w : WatchedWorld) : Prop :=
  ∀ y ∈ rest, Knows i y.clientOrderId y.seen y.requestedQty w

/-- The process is at the row `x`, which it last saw as `v`. -/
def Handling (i : Nat) (rest : List BrokerOrder) (x : BrokerOrder) (v : Seen) (w : WatchedWorld) :
    Prop :=
  Pending i rest w ∧ Knows i x.clientOrderId v x.requestedQty w

section Watched

variable (processes : Nat → Process) (i : Nat)

abbrev watched : System trading WatchedWorld := watchedSystem processes (UpToDate processes)

abbrev othersProgress : WatchedWorld → WatchedWorld → Prop :=
  (watched processes).rely FilledComplete Progress i

theorem Knows.interfere {id : String} {v : Seen} {quantity : Nat} {w w' : WatchedWorld}
    (h : Knows i id v quantity w) (hstep : othersProgress processes i w w') :
    Knows i id v quantity w' := by
  obtain ⟨hseen, o, ho, hq⟩ := h
  have hkeep : w'.seen i = w.seen i ∧
      ∃ o', w'.db.brokerOrders.find? id = some o' ∧ o'.requestedQty = o.requestedQty := by
    rcases hstep with ⟨-, -, henv | ⟨j, hji, hprog⟩⟩
    · exact ⟨by rw [henv.seen], henv.intent id o ho⟩
    · exact ⟨hprog.seen i (Ne.symm hji), hprog.intent id o ho⟩
  obtain ⟨hsame, o', ho', hq'⟩ := hkeep
  exact ⟨by rw [hsame]; exact hseen, o', ho', hq'.trans hq⟩

/-- Knowledge survives a step that remembers the same and leaves the rows alone. -/
theorem Knows.frame {id : String} {v : Seen} {quantity : Nat} {w w' : WatchedWorld}
    (h : Knows i id v quantity w) (hseen : w'.seen i id = w.seen i id)
    (hrow : w'.db.brokerOrders.find? id = w.db.brokerOrders.find? id) : Knows i id v quantity w' := by
  obtain ⟨hv, o, ho, hq⟩ := h
  exact ⟨by rw [hseen]; exact hv, o, by rw [hrow]; exact ho, hq⟩

/-! ### Programs -/

abbrev PassSafe {α : Type} (p : Pipeline α) (Q : α → WatchedWorld → Prop)
    (E : Exn → WatchedWorld → Prop) (w : WatchedWorld) : Prop :=
  Raising.SafeE ((watched processes).sem i) FilledComplete (othersProgress processes i) (Progress i) p
    Q E w

abbrev PassKeeps (R : WatchedWorld → Prop) {α : Type} (p : Pipeline α) : Prop :=
  Raising.Keeps ((watched processes).sem i) FilledComplete (othersProgress processes i) (Progress i) R p

/-- An assertion about what process `i` remembers and about the rows. -/
structure Steady (R : WatchedWorld → Prop) : Prop where
  others : ∀ w w', othersProgress processes i w w' → R w → R w'
  frame : ∀ w w', w'.seen i = w.seen i →
    (∀ id, w'.db.brokerOrders.find? id = w.db.brokerOrders.find? id) → R w → R w'

theorem Steady.true : Steady processes i fun _ => True :=
  ⟨fun _ _ _ _ => trivial, fun _ _ _ _ _ => trivial⟩

theorem Pending.steady (rest : List BrokerOrder) : Steady processes i (Pending i rest) where
  others := fun _ _ hstep h y hy => (h y hy).interfere processes i hstep
  frame := fun _ _ hseen hrows h y hy => (h y hy).frame i (by rw [hseen]) (hrows _)

theorem Handling.steady (rest : List BrokerOrder) (x : BrokerOrder) (v : Seen) :
    Steady processes i (Handling i rest x v) where
  others := fun w w' hstep h =>
    ⟨(Pending.steady processes i rest).others w w' hstep h.1, h.2.interfere processes i hstep⟩
  frame := fun w w' hseen hrows h =>
    ⟨(Pending.steady processes i rest).frame w w' hseen hrows h.1,
      h.2.frame i (by rw [hseen]) (hrows _)⟩

variable {processes i}

theorem Progress.refl (w : WatchedWorld) : Progress i w w where
  seen := fun _ _ => rfl
  finished := fun _ o ho ht => ⟨o, ho, ht⟩
  intent := fun _ o ho => ⟨o, ho, rfl⟩

theorem keeps_leavesOrders {R : WatchedWorld → Prop} (hR : Steady processes i R) {α : Type}
    {p : Pipeline α} (hp : Raising.Only (S := trading) Act.leavesOrders p) :
    PassKeeps processes i R p := by
  refine Raising.Keeps.of_only hR.others ?_ hp
  rintro o ho w b w' hw hinv ⟨-, hsem⟩
  cases o with
  | read query => obtain ⟨-, rfl⟩ := hsem; exact ⟨hinv, .refl _, hw⟩
  | tryRead query => obtain ⟨-, rfl⟩ := hsem; exact ⟨hinv, .refl _, hw⟩
  | selectOrders query => exact ho.elim
  | call op =>
    obtain ⟨-, rfl⟩ := hsem
    have hrows : ∀ id, (w.write i op).db.brokerOrders.find? id = w.db.brokerOrders.find? id := by
      intro id
      apply op.exec_others
      rw [show op.target = none from ho]
      exact (Option.some_ne_none id).symm
    have hseen : (w.write i op).seen = w.seen := by
      simp only [WatchedWorld.write, show op.target = none from ho]
    refine ⟨fun id o hrow => ?_, ⟨fun j _ => by rw [hseen], ?_, ?_⟩, hR.frame w _ (by rw [hseen]) hrows hw⟩
    · rw [hrows] at hrow; exact hinv id o hrow
    · intro id o hrow ht; exact ⟨o, by rw [hrows]; exact hrow, ht⟩
    · intro id o hrow; exact ⟨o, by rw [hrows]; exact hrow, rfl⟩
  | submitOrder id request => obtain rfl := hsem; exact ⟨hinv, .refl _, hw⟩
  | cancelOrder id number branch quantity price => obtain rfl := hsem; exact ⟨hinv, .refl _, hw⟩

/-! ### Writing the row at hand -/

/-- What a write may make of a row. -/
structure Finishes (o o' : BrokerOrder) : Prop where
  intent : o'.requestedQty = o.requestedQty
  terminal : o.status.terminal = true → o'.status.terminal = true
  complete : o'.status = .filled → o'.filledQty = o'.requestedQty

theorem Finishes.refl {o : BrokerOrder} (h : o.status = .filled → o.filledQty = o.requestedQty) :
    Finishes o o := ⟨rfl, fun ht => ht, h⟩

/-- A call on the row at hand, by what it does to a row that is as it was seen. -/
theorem call_safe {rest : List BrokerOrder} {x : BrokerOrder}
    (hrest : ∀ y ∈ rest, y.clientOrderId ≠ x.clientOrderId) {v : Seen} (op : Op)
    (htarget : op.target = some x.clientOrderId) {Q : Except Exn op.Reply → Seen → Prop}
    (heffect : ∀ (db : Database) (o : BrokerOrder),
      db.brokerOrders.find? x.clientOrderId = some o → o.seen = v → o.requestedQty = x.requestedQty →
      (o.status = .filled → o.filledQty = o.requestedQty) →
      ∃ o', (op.exec db).brokerOrders.find? x.clientOrderId = some o' ∧ Finishes o o' ∧
        Q (op.call db).1 o'.seen)
    {w : WatchedWorld} (h : Handling i rest x v w) :
    PassSafe processes i (execute op)
      (fun a w' => ∃ v', Q (.ok a) v' ∧ Handling i rest x v' w')
      (fun e w' => ∃ v', Q (.error e) v' ∧ Handling i rest x v' w') w := by
  apply Raising.SafeE.bind
  apply Raising.SafeE.ask
  rintro w₁ hw₁ hinv b w₂ ⟨hcurrent, rfl, rfl⟩
  obtain ⟨hpending, hseen, o, ho, hq⟩ :=
    Raising.Keeps.stable (Handling.steady processes i rest x v).others hw₁ h
  have hov : o.seen = v := hcurrent x.clientOrderId htarget o ho v hseen
  obtain ⟨o', ho', hfinishes, hQ⟩ := heffect w₁.db o ho hov hq (hinv _ o ho)
  have hothers : ∀ k, k ≠ x.clientOrderId →
      (w₁.write i op).db.brokerOrders.find? k = w₁.db.brokerOrders.find? k := by
    intro k hk
    apply op.exec_others
    rw [htarget, ne_eq, Option.some.injEq]
    exact fun hxk => hk hxk.symm
  have hself : (w₁.write i op).db.brokerOrders.find? x.clientOrderId = some o' := ho'
  have hseen' : (w₁.write i op).seen = Function.update w₁.seen i
      (Function.update (w₁.seen i) x.clientOrderId (some o'.seen)) := by
    simp only [WatchedWorld.write, htarget, ho', Option.map_some]
  have hhandling : Handling i rest x o'.seen (w₁.write i op) := by
    refine ⟨fun y hy => (hpending y hy).frame i ?_ (hothers _ (hrest y hy)), ?_, o', hself, ?_⟩
    · rw [hseen', Function.update_self, Function.update_of_ne (hrest y hy)]
    · rw [hseen', Function.update_self, Function.update_self]
    · rw [hfinishes.intent, hq]
  refine ⟨?_, ⟨?_, ?_, ?_⟩, fun w' hw' => ?_⟩
  · intro id r hr hfilled
    by_cases hid : id = x.clientOrderId
    · rw [hid, hself, Option.some.injEq] at hr
      subst hr
      exact hfinishes.complete hfilled
    · rw [hothers id hid] at hr
      exact hinv id r hr hfilled
  · intro j hj
    rw [hseen', Function.update_of_ne hj]
  · intro id r hr ht
    by_cases hid : id = x.clientOrderId
    · subst hid
      rw [ho, Option.some.injEq] at hr
      subst hr
      exact ⟨o', hself, hfinishes.terminal ht⟩
    · exact ⟨r, by rw [hothers id hid]; exact hr, ht⟩
  · intro id r hr
    by_cases hid : id = x.clientOrderId
    · subst hid
      rw [ho, Option.some.injEq] at hr
      subst hr
      exact ⟨o', hself, hfinishes.intent⟩
    · exact ⟨r, by rw [hothers id hid]; exact hr, rfl⟩
  · -- the answer is re-raised; what was learned stays known
    have hstable : ∀ w'', Relation.ReflTransGen (othersProgress processes i) w' w'' →
        Handling i rest x o'.seen w'' := fun w'' hw'' =>
      Raising.Keeps.stable (Handling.steady processes i rest x o'.seen).others (hw'.trans hw'')
        hhandling
    cases hb : (op.call w₁.db).1 with
    | ok a =>
      rw [hb] at hQ
      exact Raising.SafeE.pure fun w'' hw'' => ⟨o'.seen, hQ, hstable w'' hw''⟩
    | error e =>
      rw [hb] at hQ
      exact Raising.SafeE.throw fun w'' hw'' => ⟨o'.seen, hQ, hstable w'' hw''⟩

/-- The process is at the row `x`, of which it knows `P`. -/
def Holding (i : Nat) (rest : List BrokerOrder) (x : BrokerOrder) (P : Seen → Prop)
    (w : WatchedWorld) : Prop :=
  ∃ v, P v ∧ Handling i rest x v w

theorem Holding.steady (rest : List BrokerOrder) (x : BrokerOrder) (P : Seen → Prop) :
    Steady processes i (Holding i rest x P) where
  others := fun w w' hstep ⟨v, hv, h⟩ =>
    ⟨v, hv, (Handling.steady processes i rest x v).others w w' hstep h⟩
  frame := fun w w' hseen hrows ⟨v, hv, h⟩ =>
    ⟨v, hv, (Handling.steady processes i rest x v).frame w w' hseen hrows h⟩

section Row

variable {rest : List BrokerOrder} {x : BrokerOrder}
  (hrest : ∀ y ∈ rest, y.clientOrderId ≠ x.clientOrderId) {P T : Seen → Prop} {w : WatchedWorld}

include hrest

/-- A status update of the row at hand. -/
theorem update_safe (now : DateTime) {u : StatusUpdate}
    (hterminal : ∀ v, P v → v.status.terminal = true → u.status.terminal = true)
    (hfilled : u.status = .filled → u.filledQty = some (x.requestedQty : Int))
    (hkept : ∀ v, P v → T v) (hwritten : ∀ v, v.status = u.status → T v)
    (h : Holding i rest x P w) :
    PassSafe processes i (execute (.updateBrokerOrderStatus now x.clientOrderId u))
      (fun _ => Holding i rest x T) (fun _ => Holding i rest x T) w := by
  obtain ⟨v, hv, h⟩ := h
  refine (call_safe hrest (.updateBrokerOrderStatus now x.clientOrderId u) rfl
    (Q := fun _ v' => T v') ?_ h).mono (fun _ _ h' => h') fun _ _ h' => h'
  rintro db o ho rfl hq hcomplete
  rcases updateBrokerOrderStatus_cases now x.clientOrderId u db with
    ⟨e, hr⟩ | ⟨c, -, -, hr⟩ | ⟨o', c, hc, ho', -, hr⟩
  · exact ⟨o, by simp only [Op.exec, Op.call, Op.run, hr]; exact ho, .refl hcomplete, hkept _ hv⟩
  · exact ⟨o, by simp only [Op.exec, Op.call, Op.run, hr]; exact ho, .refl hcomplete, hkept _ hv⟩
  · refine ⟨updatedHeader now u c o, ?_, ⟨rfl, hterminal _ hv, ?_⟩, hwritten _ rfl⟩
    · simp only [Op.exec, Op.call, Op.run, hr, Table.find?_update_self, ho, Option.map_some]
    · intro hstatus
      have hcq := (checkUpdate_ok hc).1
      rw [hfilled hstatus, Option.map_some, Int.toNat_natCast] at hcq
      simp only [updatedHeader, hcq, Option.getD_some, hq]

/-- Marking the row at hand UNKNOWN. -/
theorem markOrderUnknown_safe (now : DateTime) (error : Option String) (updatedAt : Option DateTime)
    (hopen : ∀ v, P v → v.status.terminal = false) (hkept : ∀ v, P v → T v)
    (hwritten : ∀ v, v.status = .unknown → T v) (h : Holding i rest x P w) :
    PassSafe processes i (execute (.markOrderUnknown now x.clientOrderId error updatedAt))
      (fun _ => Holding i rest x T) (fun _ => Holding i rest x T) w := by
  obtain ⟨v, hv, h⟩ := h
  refine (call_safe hrest (.markOrderUnknown now x.clientOrderId error updatedAt) rfl
    (Q := fun _ v' => T v') ?_ h).mono (fun _ _ h' => h') fun _ _ h' => h'
  rintro db o ho rfl hq hcomplete
  simp only [Op.exec, Op.call, Op.run, markOrderUnknown]
  rcases rewriteOrder_cases x.clientOrderId (requireNonemptyIfGiven error "error") (fun _ => true)
      (fun o => { o with status := .unknown, updatedAt := updatedAt.getD now, error := error })
      (fun _ => rfl) db with ⟨e, hr⟩ | ⟨-, hr⟩ | ⟨o', ho', -, hr⟩
  · exact ⟨o, by rw [hr]; exact ho, .refl hcomplete, hkept _ hv⟩
  · exact ⟨o, by rw [hr]; exact ho, .refl hcomplete, hkept _ hv⟩
  · refine ⟨{ o with status := .unknown, updatedAt := updatedAt.getD now, error := error }, ?_,
      ⟨rfl, ?_, fun h => by cases h⟩, hwritten _ rfl⟩
    · rw [hr]; simp only [Table.find?_update_self, ho, Option.map_some]
    · intro ht
      have := hopen _ hv
      simp_all [BrokerOrder.seen]

/-- A fill of the row at hand that finished orders only receive as their last one. -/
theorem applyBrokerFill_safe (now : DateTime) {a : FillArgs} (ha : a.clientOrderId = x.clientOrderId)
    {n : Int} (hn : a.quantity = .int n)
    (hlast : ∀ v, P v → v.status.terminal = true → v.filledQty + n = x.requestedQty)
    (hkept : ∀ v, P v → T v)
    (hrolled : ∀ v v', P v → v'.filledQty = v.filledQty + n →
      (v'.status.terminal = true → (v'.filledQty : Int) = x.requestedQty) → T v')
    (h : Holding i rest x P w) :
    PassSafe processes i (execute (.applyBrokerFill now a))
      (fun _ => Holding i rest x T) (fun _ => Holding i rest x T) w := by
  obtain ⟨v, hv, h⟩ := h
  refine (call_safe hrest (.applyBrokerFill now a) (by rw [← ha]; rfl)
    (Q := fun _ v' => T v') ?_ h).mono (fun _ _ h' => h') fun _ _ h' => h'
  rintro db o ho rfl hq hcomplete
  rcases applyBrokerFill_cases now a db with ⟨e, hr⟩ | ⟨-, hr⟩ | ⟨c, order, hc, horder, -, -, hr⟩
  · exact ⟨o, by simp only [Op.exec, Op.call, Op.run, hr]; exact ho, .refl hcomplete, hkept _ hv⟩
  · exact ⟨o, by simp only [Op.exec, Op.call, Op.run, hr]; exact ho, .refl hcomplete, hkept _ hv⟩
  · have hcn := checkFill_quantity hn hc
    refine ⟨rollFill (fillRow now a c order) o, ?_, ⟨rfl, ?_, ?_⟩, hrolled _ _ hv ?_ ?_⟩
    · simp only [Op.exec, Op.call, Op.run, hr, ha, Table.find?_update_self, ho, Option.map_some]
    · -- a finished order receives its last fill
      intro ht
      have hall : o.filledQty + (fillRow now a c order).quantity = o.requestedQty := by
        have := hlast _ hv ht
        simp only [BrokerOrder.seen, fillRow] at this ⊢
        omega
      simp only [rollFill, if_pos hall]
      rfl
    · intro hstatus
      by_contra hne
      have hpart : ¬ o.filledQty + (fillRow now a c order).quantity = o.requestedQty := hne
      simp only [rollFill, if_neg hpart] at hstatus
      cases hstatus
    · simp only [BrokerOrder.seen, rollFill, fillRow]
      omega
    · intro ht
      by_contra hne
      have hpart : ¬ o.filledQty + (fillRow now a c order).quantity = o.requestedQty := by
        intro hall
        apply hne
        simp only [BrokerOrder.seen, rollFill, hall, hq]
      simp only [BrokerOrder.seen, rollFill, if_neg hpart] at ht
      cases ht

end Row

end Watched

/-! ### The stages of a pass -/

section Stages

variable {processes : Nat → Process} {i : Nat} {rest : List BrokerOrder} {x : BrokerOrder}
  {w : WatchedWorld}

/-- The row at hand has a status that is not final. -/
def Seen.active (v : Seen) : Prop := v.status.terminal = false

theorem Holding.pending {P : Seen → Prop} (h : Holding i rest x P w) : Pending i rest w := by
  obtain ⟨v, -, h⟩ := h
  exact h.1

theorem pendingEnd_safe {α : Type} {p : Pipeline α} (hp : LeavesOrders p) (h : Pending i rest w) :
    PassSafe processes i p (fun _ => Pending i rest) (fun _ _ => True) w :=
  (keeps_leavesOrders (Pending.steady processes i rest) hp w h).mono (fun _ _ h' => h')
    fun _ _ _ => trivial

/-- The end of a row: from here on no order row is touched. -/
theorem rowEnd_safe {P : Seen → Prop} {α : Type} {p : Pipeline α} (hp : LeavesOrders p)
    (h : Holding i rest x P w) :
    PassSafe processes i p (fun _ => Pending i rest) (fun _ _ => True) w :=
  pendingEnd_safe hp h.pending

/-- A part of a row that touches no order row. -/
theorem rowPart_safe {P : Seen → Prop} {α β : Type} {p : Pipeline α} {f : α → Pipeline β}
    {Q : β → WatchedWorld → Prop} (hp : LeavesOrders p) (h : Holding i rest x P w)
    (hf : ∀ a w', Holding i rest x P w' → PassSafe processes i (f a) Q (fun _ _ => True) w') :
    PassSafe processes i (p >>= f) Q (fun _ _ => True) w :=
  Raising.SafeE.bind ((keeps_leavesOrders (Holding.steady rest x P) hp w h).mono (fun a w' h' => hf a w' h')
    fun _ _ _ => trivial)

theorem keptPending_terminal {status local' : OrderStatus} (h : status.terminal = true) :
    (keptPending local' status).terminal = true := by
  unfold keptPending
  split
  · rename_i hkept
    rcases hkept.2 with rfl | rfl
    · cases h
    · cases h
  · exact h

theorem keptPending_filled {status local' : OrderStatus} (h : keptPending local' status = .filled) :
    status = .filled := by
  unfold keptPending at h
  split at h
  · cases h
  · exact h

theorem localStatus_terminal {status : KisOrderStatus} {s : OrderStatus}
    (h : localStatusForBroker status = some s) (ht : terminalStatusForBroker status ≠ none) :
    s.terminal = true := by
  cases status <;> cases h <;> first | rfl | exact absurd rfl ht

theorem localStatus_filled {status : KisOrderStatus} (h : localStatusForBroker status = some .filled) :
    status = .filled := by
  cases status <;> cases h
  rfl

section Row

variable (hrest : ∀ y ∈ rest, y.clientOrderId ≠ x.clientOrderId) (now : DateTime)
  {record : OrderRecord}

include hrest

theorem settleOrder_safe {P : Seen → Prop}
    (hfilled : record.status = .filled → record.filledQuantity = x.requestedQty)
    (hterminal : ∀ v, P v → v.status.terminal = true → terminalStatusForBroker record.status ≠ none)
    (acc : PassState) (h : Holding i rest x P w) :
    PassSafe processes i (settleOrder now x record acc) (fun _ => Pending i rest) (fun _ _ => True) w := by
  unfold settleOrder
  dsimp only
  cases hstatus : localStatusForBroker record.status with
  | none => exact rowEnd_safe (.pure _) h
  | some status =>
    refine Raising.SafeE.bind ((update_safe hrest now (T := fun _ => True) ?_ ?_
      (fun _ _ => trivial) (fun _ _ => trivial) h).mono (fun updated w' h' => ?_) fun _ _ _ => trivial)
    · intro v hv ht
      exact keptPending_terminal (localStatus_terminal hstatus (hterminal v hv ht))
    · intro hkept
      have hrecord := localStatus_filled (hstatus.trans (congrArg some (keptPending_filled hkept)))
      simp only [recordUpdate, hfilled hrecord]
    · refine rowPart_safe (.attempt (leavesOrders_materializeLocalFills now x)) h' fun r w₂ h₂ => ?_
      cases r with
      | ok n => exact rowEnd_safe (.pure _) h₂
      | error e => exact rowEnd_safe (.pure _) h₂

theorem bookDifference_safe (hagrees : RecordAgrees record x)
    (hregression : ¬ record.filledQuantity < x.filledQty) (acc : PassState)
    (h : Holding i rest x (· = x.seen) w) :
    PassSafe processes i (bookDifference now x record acc) (fun _ => Pending i rest)
      (fun _ _ => True) w := by
  have hseen : ∀ v, v = x.seen → v.status.terminal = true →
      terminalStatusForBroker record.status ≠ none := by
    rintro v rfl ht
    exact (hagrees.finished ht).1
  unfold bookDifference
  dsimp only
  split
  · exact settleOrder_safe hrest now hagrees.filled hseen acc h
  · rename_i hdelta
    refine rowPart_safe (leavesOrders_reraise _) h fun price w₁ h₁ => ?_
    -- after the fill the row is as it was, or filled by exactly what the record says
    refine Raising.SafeE.bind (Raising.SafeE.attempt ((applyBrokerFill_safe hrest now
      (T := fun v => v.status.terminal = true → terminalStatusForBroker record.status ≠ none)
      rfl rfl ?_ hseen ?_ h₁).mono (fun inserted w₂ h₂ => ?_) fun e w₂ h₂ => ?_))
    · rintro v rfl ht
      have hall := (hagrees.finished ht).2
      simp only [BrokerOrder.seen]
      omega
    · rintro v v' rfl hq hall ht
      apply hagrees.complete
      have := hall ht
      simp only [BrokerOrder.seen] at hq
      omega
    · exact settleOrder_safe hrest now hagrees.filled (fun v hv => hv) _ h₂
    · exact rowEnd_safe (.pure _) h₂

theorem reconcileOrder_safe {orders : List OrderRecord}
    (hagrees : ∀ record ∈ byBrokerId orders x.brokerIdText, RecordAgrees record x) (acc : PassState)
    (h : Holding i rest x (· = x.seen) w) :
    PassSafe processes i (reconcileOrder now orders acc x) (fun _ => Pending i rest)
      (fun _ _ => True) w := by
  unfold reconcileOrder
  dsimp only
  split
  · exact rowEnd_safe (.pure _) h
  · cases hrecord : byBrokerId orders x.brokerIdText with
    | none => exact rowEnd_safe (.pure _) h
    | some record =>
      dsimp only
      split
      · exact rowEnd_safe (.pure _) h
      · split
        · exact rowEnd_safe (.pure _) h
        · rename_i hregression
          split
          · exact rowEnd_safe (.pure _) h
          · exact bookDifference_safe hrest now (hagrees record hrecord) hregression _ h

theorem markRequestUnknown_safe (error : String) (h : Holding i rest x Seen.active w) :
    PassSafe processes i (markRequestUnknown now x.clientOrderId error) (fun _ => Pending i rest)
      (fun _ _ => True) w :=
  Raising.SafeE.bind ((markOrderUnknown_safe hrest now _ _ (T := fun _ => True) (fun _ hv => hv)
    (fun _ _ => trivial) (fun _ _ => trivial) h).mono
      (fun _ _ h' => rowEnd_safe (leavesOrders_flagReview now) h') fun _ _ _ => trivial)

theorem markUnknown_safe (reason : String) (h : Holding i rest x Seen.active w) :
    PassSafe processes i (markUnknown now x.clientOrderId reason) (fun _ => Pending i rest)
      (fun _ _ => True) w :=
  Raising.SafeE.bind ((markOrderUnknown_safe hrest now _ _ (T := fun _ => True) (fun _ hv => hv)
    (fun _ _ => trivial) (fun _ _ => trivial) h).mono
      (fun _ _ h' => rowEnd_safe (leavesOrders_blockNewEntries now reason) h') fun _ _ _ => trivial)

/-- Moving an active order to CANCEL_PENDING keeps it active. -/
theorem cancelPending_safe (h : Holding i rest x Seen.active w) :
    PassSafe processes i (execute (.updateBrokerOrderStatus now x.clientOrderId
        (recordUpdate now .cancelPending record none)))
      (fun _ => Holding i rest x Seen.active) (fun _ => Holding i rest x Seen.active) w := by
  refine update_safe hrest now ?_ ?_ (fun _ hv => hv) ?_ h
  · intro v hv ht
    rw [hv] at ht
    cases ht
  · intro hstatus
    cases hstatus
  · intro v hv
    unfold Seen.active
    rw [hv]
    rfl

theorem cancelBuy_safe (orders : List OrderRecord) (acc : CancelReport)
    (h : Holding i rest x Seen.active w) :
    PassSafe processes i (cancelBuy now orders acc x) (fun _ => Pending i rest) (fun _ _ => True) w := by
  have hunknown : ∀ {w' : WatchedWorld} (error : String) (acc' : CancelReport),
      Holding i rest x Seen.active w' →
      PassSafe processes i (markRequestUnknown now x.clientOrderId error >>= fun _ => pure acc')
        (fun _ => Pending i rest) (fun _ _ => True) w' := fun error acc' h' =>
    Raising.SafeE.bind ((markRequestUnknown_safe hrest now error h').mono
      (fun _ _ h₂ => pendingEnd_safe (.pure _) h₂) fun _ _ _ => trivial)
  unfold cancelBuy
  dsimp only
  cases byBrokerId orders x.brokerIdText with
  | none => exact hunknown _ _ h
  | some record =>
    dsimp only
    split
    · exact hunknown _ _ h
    · split
      · exact rowEnd_safe (.pure _) h
      · split
        · exact hunknown _ _ h
        · refine Raising.SafeE.bind ((cancelPending_safe hrest now h).mono (fun _ w₁ h₁ => ?_)
            fun _ _ _ => trivial)
          refine rowPart_safe (.attempt (leavesOrders_sendCancel x record)) h₁ fun r w₂ h₂ => ?_
          cases r with
          | error e => exact hunknown _ _ h₂
          | ok u => exact rowEnd_safe (.bind (leavesOrders_execute rfl) fun _ => .pure _) h₂

theorem reconcilePendingMarker_safe (marker : PendingMarker) {broker : Option OrderRecord}
    (hfilled : ∀ record ∈ broker, record.status = .filled → record.filledQuantity = x.requestedQty)
    (h : Holding i rest x Seen.active w) :
    PassSafe processes i (reconcilePendingMarker now x broker marker) (fun _ => Pending i rest)
      (fun _ _ => True) w := by
  unfold reconcilePendingMarker
  dsimp only
  split
  · exact rowEnd_safe (.pure _) h
  · cases broker with
    | none => exact rowEnd_safe (.pure _) h
    | some record =>
      dsimp only
      cases hstatus : terminalStatusForBroker record.status with
      | none =>
        exact Raising.SafeE.bind ((cancelPending_safe hrest now h).mono
          (fun _ _ h₁ => rowEnd_safe (.pure _) h₁) fun _ _ _ => trivial)
      | some status =>
        have hfinal : status.terminal = true ∧ (status = .filled → record.status = .filled) := by
          revert hstatus
          cases record.status <;> intro hstatus <;> cases hstatus
          · exact ⟨rfl, fun _ => rfl⟩
          · exact ⟨rfl, fun h => by cases h⟩
          · exact ⟨rfl, fun h => by cases h⟩
        refine Raising.SafeE.bind ((update_safe hrest now (T := fun _ => True) (fun _ _ _ => hfinal.1)
          ?_ (fun _ _ => trivial) (fun _ _ => trivial) h).mono (fun _ w₁ h₁ => ?_) fun _ _ _ => trivial)
        · intro hs
          simp only [recordUpdate, hfilled record rfl (hfinal.2 hs)]
        · exact rowEnd_safe (.bind (leavesOrders_execute rfl) fun _ =>
            .bind (leavesOrders_execute rfl) fun _ => .pure _) h₁

theorem requestCancel_keeps (entryBarKey : Option String) :
    PassKeeps processes i (Holding i rest x Seen.active) (requestCancel now x record entryBarKey) := by
  have hsteady : Steady processes i (Holding i rest x Seen.active) := Holding.steady ..
  refine .bind (keeps_leavesOrders hsteady (leavesOrders_reraise _)) fun price => ?_
  refine .bind (fun w h => cancelPending_safe hrest now h) fun _ => ?_
  exact .bind (keeps_leavesOrders hsteady (leavesOrders_cancelOrder ..)) fun _ =>
    keeps_leavesOrders hsteady (leavesOrders_execute rfl)

theorem manageActive_safe (calendar : Calendar) (config : OrderManagementConfig)
    (entryBarKey : Option String) (broker : Option OrderRecord) (acc : ManageState)
    (h : Holding i rest x Seen.active w) :
    PassSafe processes i (manageActive now calendar config entryBarKey broker x acc)
      (fun _ => Pending i rest) (fun _ _ => True) w := by
  have hunknown : ∀ {w' : WatchedWorld} (reason : String) (acc' : ManageState),
      Holding i rest x Seen.active w' →
      PassSafe processes i (markUnknown now x.clientOrderId reason >>= fun _ => pure acc')
        (fun _ => Pending i rest) (fun _ _ => True) w' := fun reason acc' h' =>
    Raising.SafeE.bind ((markUnknown_safe hrest now reason h').mono
      (fun _ _ h₂ => pendingEnd_safe (.pure _) h₂) fun _ _ _ => trivial)
  unfold manageActive
  dsimp only
  split
  · exact rowEnd_safe (.pure _) h
  · split
    · exact rowEnd_safe (.pure _) h
    · split
      · exact hunknown _ _ h
      · cases broker with
        | none => exact rowEnd_safe (.pure _) h
        | some record =>
          dsimp only
          split
          · exact rowEnd_safe (.pure _) h
          · split
            · exact hunknown _ _ h
            · split
              · unfold cancelStale
                dsimp only
                split
                · exact hunknown _ _ h
                · refine Raising.SafeE.bind (Raising.SafeE.attempt
                    ((requestCancel_keeps hrest now entryBarKey w h).mono (fun _ w₁ h₁ => ?_)
                      fun e w₁ h₁ => ?_))
                  · exact rowEnd_safe (.pure _) h₁
                  · exact hunknown _ _ h₁
              · exact rowEnd_safe (.pure _) h

theorem manageOrder_safe (calendar : Calendar) (config : OrderManagementConfig)
    (entryBarKey : Option String) {orders : List OrderRecord}
    (hagrees : ∀ record ∈ byBrokerId orders x.brokerIdText, RecordAgrees record x)
    (acc : ManageState) (h : Holding i rest x Seen.active w) :
    PassSafe processes i (manageOrder now calendar config entryBarKey orders acc x)
      (fun _ => Pending i rest) (fun _ _ => True) w := by
  unfold manageOrder
  dsimp only
  refine rowPart_safe (leavesOrders_select _) h fun value w₁ h₁ => ?_
  cases pendingMarker value with
  | none => exact manageActive_safe hrest now calendar config entryBarKey _ acc h₁
  | some marker =>
    refine Raising.SafeE.bind ((reconcilePendingMarker_safe hrest now marker
      (fun record hrecord => (hagrees record hrecord).filled) h₁).mono (fun r w₂ h₂ => ?_)
        fun _ _ _ => trivial)
    cases r with
    | pending => exact pendingEnd_safe (.pure _) h₂
    | confirmed => exact pendingEnd_safe (.pure _) h₂

end Row

/-! ### Whole passes -/

/-- What is known of rows that were just read. -/
structure Read (processes : Nat → Process) (i : Nat) (rows : List BrokerOrder) (w : WatchedWorld) :
    Prop where
  pending : Pending i rows w
  agree : RowsAgree (processes i).records rows
  complete : ∀ o ∈ rows, o.status = .filled → o.filledQty = o.requestedQty

/-- A SELECT of order rows. -/
theorem selectOrders_safe {query : Database → List BrokerOrder}
    (hmem : ∀ db, ∀ o ∈ query db, o ∈ db.brokerOrders.rows)
    (hnodup : ∀ db, ((query db).map (·.clientOrderId)).Nodup) :
    PassSafe processes i (selectOrders query)
      (fun rows w' => (∃ db, rows = query db) ∧ Read processes i rows w') (fun _ _ => True) w := by
  apply Raising.SafeE.ask
  rintro w₁ - hinv b w₂ ⟨hagree, rfl, rfl⟩
  have hfind : ∀ o ∈ query w₁.db, w₁.db.brokerOrders.find? o.clientOrderId = some o :=
    fun o ho => w₁.db.brokerOrders.find?_of_mem (hmem _ o ho)
  have hknows : Pending i (query w₁.db) (w₁.look i (query w₁.db)) := by
    intro o ho
    refine ⟨?_, o, hfind o ho, rfl⟩
    have hfirst : (query w₁.db).find? (fun r => decide (r.clientOrderId = o.clientOrderId)) = some o :=
      Table.find?_of_mem (⟨query w₁.db, hnodup _⟩ : Table BrokerOrder BrokerOrder.clientOrderId) ho
    simp only [WatchedWorld.look, Function.update_self, hfirst, Option.map_some, Option.some_or]
  refine ⟨hinv, ⟨?_, fun _ o ho ht => ⟨o, ho, ht⟩, fun _ o ho => ⟨o, ho, rfl⟩⟩, fun w' hw' => ?_⟩
  · intro j hj
    simp only [WatchedWorld.look, Function.update_of_ne hj]
  · exact ⟨⟨_, rfl⟩, Raising.Keeps.stable (Pending.steady processes i _).others hw' hknows, hagree,
      fun o ho => hinv _ o (hfind o ho)⟩

/-- A loop over rows that were just read, each handled on its own. -/
theorem rowLoop_safe {α : Type} {f : α → BrokerOrder → Pipeline α} {rows : List BrokerOrder}
    (hnodup : (rows.map (·.clientOrderId)).Nodup)
    (hstep : ∀ x ∈ rows, ∀ rest : List BrokerOrder, (∀ y ∈ rest, y.clientOrderId ≠ x.clientOrderId) →
      ∀ acc w', Holding i rest x (· = x.seen) w' →
        PassSafe processes i (f acc x) (fun _ => Pending i rest) (fun _ _ => True) w')
    (acc : α) (h : Pending i rows w) :
    PassSafe processes i (rows.foldlM f acc) (fun _ _ => True) (fun _ _ => True) w := by
  refine (Raising.SafeE.foldlM (E := fun _ _ => True) (I := fun rest _ w' => (∀ y ∈ rest, y ∈ rows) ∧
    (rest.map (·.clientOrderId)).Nodup ∧ Pending i rest w') ?_ ?_ rows
    ⟨fun _ hy => hy, hnodup, h⟩).mono (fun _ _ _ => trivial) fun _ _ _ => trivial
  · rintro _ s s' - -
    exact ⟨by simp, by simp, fun y hy => nomatch hy⟩
  · rintro x rest acc w' ⟨hmem, hnd, hpending⟩
    rw [List.map_cons, List.nodup_cons] at hnd
    have hrest : ∀ y ∈ rest, y.clientOrderId ≠ x.clientOrderId := by
      intro y hy heq
      exact hnd.1 (List.mem_map.mpr ⟨y, hy, heq⟩)
    have hholding : Holding i rest x (· = x.seen) w' :=
      ⟨x.seen, rfl, fun y hy => hpending y (List.mem_cons_of_mem _ hy), hpending x List.mem_cons_self⟩
    refine (hstep x (hmem x List.mem_cons_self) rest hrest acc w' hholding).mono
      (fun _ _ h' => ⟨?_, hnd.2, h'⟩) fun _ _ _ => trivial
    exact fun y hy => hmem y (List.mem_cons_of_mem _ hy)

/-- The rows a stage works on. -/
structure StageRows (processes : Nat → Process) (i : Nat) (p : BrokerOrder → Database → Bool)
    (rows : List BrokerOrder) (w : WatchedWorld) : Prop extends Read processes i rows w where
  nodup : (rows.map (·.clientOrderId)).Nodup
  selected : ∀ x ∈ rows, ∃ db, p x db = true

theorem selectRows_safe {β : Type} {p : BrokerOrder → Database → Bool}
    {g : List BrokerOrder → Pipeline β}
    (hg : ∀ rows w', StageRows processes i p rows w' →
      PassSafe processes i (g rows) (fun _ _ => True) (fun _ _ => True) w') :
    PassSafe processes i
      (selectOrders (fun db => orderedBy (·.createdAt.isoformat) (·.clientOrderId)
        (db.brokerOrders.rows.filter fun o => p o db)) >>= g)
      (fun _ _ => True) (fun _ _ => True) w := by
  have hmem : ∀ (db : Database) (o : BrokerOrder),
      o ∈ orderedBy (·.createdAt.isoformat) (·.clientOrderId)
        (db.brokerOrders.rows.filter fun o => p o db) → o ∈ db.brokerOrders.rows ∧ p o db = true := by
    intro db o ho
    exact List.mem_filter.mp ((List.perm_insertionSort _ _).mem_iff.mp ho)
  refine Raising.SafeE.bind ((selectOrders_safe (fun db o ho => (hmem db o ho).1)
    (fun db => orderedRows_nodup db _)).mono ?_ fun _ _ _ => trivial)
  rintro rows w₁ ⟨⟨db, rfl⟩, hread⟩
  exact hg _ w₁ ⟨hread, orderedRows_nodup db _, fun x hx => ⟨db, (hmem db x hx).2⟩⟩

theorem free_safe {α : Type} {p : Pipeline α} (hp : LeavesOrders p) (w : WatchedWorld) :
    PassSafe processes i p (fun _ _ => True) (fun _ _ => True) w :=
  (keeps_leavesOrders (Steady.true processes i) hp w trivial).mono (fun _ _ h => h) fun _ _ _ => trivial

theorem reconcileBrokerState_safe (now : DateTime) {orders : Except ReadError (List OrderRecord)}
    (horders : ∀ records, orders = .ok records → (processes i).records = records)
    (account : Except ReadError (List AccountPosition)) (w : WatchedWorld) :
    PassSafe processes i (reconcileBrokerState now orders account) (fun _ _ => True)
      (fun _ _ => True) w := by
  cases orders with
  | error e => exact free_safe (leavesOrders_finishPass now _) w
  | ok records =>
    refine selectRows_safe (p := fun o db => !o.status.terminal ||
      (db.fillsOf o.clientOrderId).any fun f => db.unapplied f) fun rows w₁ hrows => ?_
    refine Raising.SafeE.bind ((rowLoop_safe hrows.nodup ?_ _ hrows.pending).mono
      (fun acc w₂ _ => free_safe (leavesOrders_compareHoldings now _ account) w₂) fun _ _ _ => trivial)
    intro x hx rest hrest acc w' h
    have hagrees := hrows.agree x hx
    rw [horders records rfl] at hagrees
    exact reconcileOrder_safe hrest now hagrees acc h

theorem Holding.active (hx : x.status.terminal = false) (h : Holding i rest x (· = x.seen) w) :
    Holding i rest x Seen.active w := by
  obtain ⟨v, rfl, h⟩ := h
  exact ⟨x.seen, hx, h⟩

theorem cancelRequestedBuys_safe (now : DateTime) (orders : Except ReadError (List OrderRecord))
    (w : WatchedWorld) :
    PassSafe processes i (cancelRequestedBuys now orders) (fun _ _ => True) (fun _ _ => True) w := by
  unfold cancelRequestedBuys
  refine Raising.SafeE.bind ((free_safe (leavesOrders_select _) w).mono (fun value w₁ _ => ?_)
    fun _ _ _ => trivial)
  split
  · exact free_safe (.pure _) w₁
  · refine Raising.SafeE.bind ((free_safe (leavesOrders_setFlag ..) w₁).mono (fun _ w₂ _ => ?_)
      fun _ _ _ => trivial)
    cases orders with
    | error e =>
      refine selectRows_safe (p := fun o _ => decide (o.side = .buy ∧
        (o.status = .acknowledged ∨ o.status = .partiallyFilled))) fun rows w₃ _ => ?_
      dsimp only
      split
      · exact free_safe (.pure _) w₃
      · exact free_safe (.bind (leavesOrders_flagReview now) fun _ => .pure _) w₃
    | ok records =>
      refine selectRows_safe (p := fun o _ => decide (o.side = .buy ∧
        (o.status = .acknowledged ∨ o.status = .partiallyFilled))) fun rows w₃ hrows => ?_
      refine rowLoop_safe hrows.nodup ?_ _ hrows.pending
      intro x hx rest hrest acc w' h
      obtain ⟨db, hopen⟩ := hrows.selected x hx
      have hactive : x.status.terminal = false := by
        rcases (of_decide_eq_true hopen).2 with hs | hs
        · rw [hs]; rfl
        · rw [hs]; rfl
      exact cancelBuy_safe hrest now records acc (h.active hactive)

theorem manageStaleOrders_safe (now : DateTime) (calendar : Calendar) (config : OrderManagementConfig)
    (entryBarKey : Option String) {orders : Except ReadError (List OrderRecord)}
    (horders : ∀ records, orders = .ok records → (processes i).records = records) (w : WatchedWorld) :
    PassSafe processes i (manageStaleOrders now calendar config entryBarKey orders) (fun _ _ => True)
      (fun _ _ => True) w := by
  cases orders with
  | error e => exact free_safe (.bind (leavesOrders_blockNewEntries now _) fun _ => .pure _) w
  | ok records =>
    refine selectRows_safe (p := fun o _ => !o.status.terminal) fun rows w₁ hrows => ?_
    refine Raising.SafeE.bind ((rowLoop_safe hrows.nodup ?_ _ hrows.pending).mono
      (fun acc w₂ _ => ?_) fun _ _ _ => trivial)
    · intro x hx rest hrest acc w' h
      obtain ⟨db, hactive⟩ := hrows.selected x hx
      have hagrees := hrows.agree x hx
      rw [horders records rfl] at hagrees
      exact manageOrder_safe hrest now calendar config entryBarKey hagrees acc
        (h.active (by simpa using hactive))
    · apply free_safe
      split
      · exact .bind (leavesOrders_blockNewEntries now _) fun _ => .pure _
      · exact .pure _

/-- A whole supervisor pass. -/
theorem supervisorPass_safe (now : DateTime) (calendar : Calendar) (config : OrderManagementConfig)
    {snapshot : Snapshot} (hrecords : (processes i).records = snapshot.orders.toOption.getD [])
    (w : WatchedWorld) :
    PassSafe processes i (supervisorPass now calendar config snapshot) (fun _ _ => True)
      (fun _ _ => True) w := by
  have horders : ∀ records, snapshot.orders = .ok records → (processes i).records = records := by
    intro records h
    rw [hrecords, h]
    rfl
  refine Raising.SafeE.bind (Raising.SafeE.attempt (Raising.SafeE.mono (Q := fun _ _ => True)
    (E := fun _ _ => True) ?_ (fun report w' _ => ?_) fun e w' _ => ?_))
  · refine Raising.SafeE.bind ((reconcileBrokerState_safe now horders _ w).mono
      (fun _ w₁ _ => ?_) fun _ _ _ => trivial)
    refine Raising.SafeE.bind ((cancelRequestedBuys_safe now _ w₁).mono (fun _ w₂ _ => ?_)
      fun _ _ _ => trivial)
    refine Raising.SafeE.bind ((manageStaleOrders_safe now calendar config none horders w₂).mono
      (fun _ w₃ _ => ?_) fun _ _ _ => trivial)
    exact free_safe (.bind (leavesOrders_setFlag ..) fun _ =>
      .bind (leavesOrders_setFlag ..) fun _ => .pure _) w₃
  · exact free_safe (.pure _) w'
  · exact free_safe (.bind (.attempt (leavesOrders_flagReview now)) fun _ => .pure _) w'

/-! ### Whole notices -/

section Notice

variable {x : BrokerOrder} (h : Holding i [] x (· = x.seen) w)

include h

theorem noticeUpdate_safe (now received : DateTime) {status : OrderStatus}
    (hterminal : x.status.terminal = true → status.terminal = true) (hfilled : status ≠ .filled)
    {f : Except Exn Bool → Pipeline FillNoticeApplyResult} (hf : ∀ r, LeavesOrders (f r)) :
    PassSafe processes i
      (Raising.attempt (execute (.updateBrokerOrderStatus now x.clientOrderId
        (noticeStatus received status))) >>= f) (fun _ _ => True) (fun _ _ => True) w := by
  have hupdate : PassSafe processes i (execute (.updateBrokerOrderStatus now x.clientOrderId
      (noticeStatus received status))) (fun _ => Holding i [] x fun _ => True)
      (fun _ => Holding i [] x fun _ => True) w :=
    update_safe (by intro y hy; cases hy) now (by rintro v rfl ht; exact hterminal ht)
      (fun hs => absurd hs hfilled) (fun _ _ => trivial) (fun _ _ => trivial) h
  exact Raising.SafeE.bind (Raising.SafeE.attempt (hupdate.mono
    (fun _ w' _ => free_safe (hf _) w') fun _ w' _ => free_safe (hf _) w'))

theorem applyAccepted_safe (received : DateTime) (existingFills : Nat) :
    PassSafe processes i (applyAccepted received x existingFills) (fun _ _ => True)
      (fun _ _ => True) w := by
  have hblock : ∀ reason, PassSafe processes i
      (blockNotice received reason (some x.clientOrderId) none) (fun _ _ => True) (fun _ _ => True) w :=
    fun reason => free_safe (leavesOrders_blockNotice ..) w
  unfold applyAccepted
  dsimp only
  split
  · exact hblock _
  · split
    · exact free_safe (.pure _) w
    · split
      · exact free_safe (.pure _) w
      · split
        · exact hblock _
        · split
          · exact hblock _
          · rename_i hactive
            split
            · exact hblock _
            · split
              · refine noticeUpdate_safe h _ _ (fun ht => absurd ht hactive) (by decide) fun r => ?_
                cases r with
                | ok b => exact .pure _
                | error e => exact leavesOrders_blockNotice ..
              · exact free_safe (.pure _) w

theorem applyRejected_safe (received : DateTime) (existingFills : Nat) :
    PassSafe processes i (applyRejected received x existingFills) (fun _ _ => True)
      (fun _ _ => True) w := by
  unfold applyRejected
  dsimp only
  split
  · exact free_safe (leavesOrders_blockNotice ..) w
  · split
    · exact free_safe (.pure _) w
    · split
      · exact free_safe (leavesOrders_blockNotice ..) w
      · refine noticeUpdate_safe h _ _ (fun _ => rfl) (by decide) fun r => ?_
        cases r with
        | ok b => exact .pure _
        | error e => exact leavesOrders_blockNotice ..

theorem applyExecution_safe (hcomplete : x.status = .filled → x.filledQty = x.requestedQty)
    (now received : DateTime) (notice : FillNotice) (side : Side) (orderNo : String)
    (filledAt : DateTime) :
    PassSafe processes i (applyExecution now received notice side orderNo filledAt x)
      (fun _ _ => True) (fun _ _ => True) w := by
  unfold applyExecution
  dsimp only
  refine rowPart_safe (leavesOrders_select _) h fun recorded w₁ h₁ => ?_
  split
  · refine free_safe (.bind (leavesOrders_materializeIfNeeded ..) fun n => ?_) w₁
    cases n with
    | none => exact leavesOrders_blockNotice ..
    | some n => exact .pure _
  · split
    · exact free_safe (leavesOrders_blockNotice ..) w₁
    · rename_i hvalues
      split
      · exact free_safe (leavesOrders_blockNotice ..) w₁
      · rename_i hfits
        split
        · exact free_safe (leavesOrders_blockNotice ..) w₁
        · rename_i hopen
          -- a FILLED order is full, so the fill would have been too much
          have hactive : x.status.terminal = false := by
            cases hs : x.status <;> simp_all [OrderStatus.terminal]
          refine rowPart_safe (leavesOrders_riskFor side x) h₁ fun risk w₂ h₂ => ?_
          split
          · exact free_safe (leavesOrders_blockNotice ..) w₂
          · have hbook : PassSafe processes i
                (bookNotice now (noticeFillArgs notice side x.clientOrderId orderNo filledAt received) risk)
                (fun _ _ => True) (fun _ _ => True) w₂ := by
              have hfill : PassSafe processes i (execute (.applyBrokerFill now
                  (noticeFillArgs notice side x.clientOrderId orderNo filledAt received)))
                  (fun _ => Holding i [] x fun _ => True) (fun _ => Holding i [] x fun _ => True) w₂ :=
                applyBrokerFill_safe (by intro y hy; cases hy) now rfl rfl
                  (by rintro v rfl ht; rw [show x.seen.status = x.status from rfl, hactive] at ht; cases ht)
                  (fun _ _ => trivial) (fun _ _ _ _ _ => trivial) h₂
              refine Raising.SafeE.bind (hfill.mono (fun inserted w₃ _ => ?_) fun _ _ _ => trivial)
              apply free_safe
              split
              · exact .pure _
              · exact .bind (leavesOrders_execute rfl) fun _ => .pure _
            refine Raising.SafeE.bind (Raising.SafeE.attempt (hbook.mono (fun r w₃ _ => ?_)
              fun e w₃ _ => ?_))
            · exact free_safe (.pure _) w₃
            · exact free_safe (leavesOrders_blockNotice ..) w₃

end Notice

theorem applyFillNotice_safe (now : DateTime) (notice : FillNotice) (tradingDate : Option Int)
    (received : Option DateTime) (w : WatchedWorld) :
    PassSafe processes i (applyFillNotice now notice tradingDate received) (fun _ _ => True)
      (fun _ _ => True) w := by
  unfold applyFillNotice
  dsimp only
  refine Raising.SafeE.bind ((free_safe (leavesOrders_reraise _) w).mono (fun at' w₁ _ => ?_)
    fun _ _ _ => trivial)
  cases at' with
  | error reason => exact free_safe (leavesOrders_blockNotice ..) w₁
  | ok filledAt =>
    dsimp only
    cases noticeSide notice.side with
    | none => exact free_safe (leavesOrders_blockNotice ..) w₁
    | some side =>
      dsimp only
      cases publicIdentifier notice.orderNo with
      | none => exact free_safe (leavesOrders_blockNotice ..) w₁
      | some orderNo =>
        refine Raising.SafeE.bind ((selectOrders_safe (fun db o ho => (List.mem_filter.mp ho).1)
          (fun db => db.brokerOrders.nodup.sublist (List.filter_sublist.map _))).mono ?_
          fun _ _ _ => trivial)
        rintro rows w₂ ⟨-, hread⟩
        match rows, hread with
        | [], _ => exact free_safe (leavesOrders_blockNotice ..) w₂
        | _ :: _ :: _, _ => exact free_safe (leavesOrders_blockNotice ..) w₂
        | [local'], hread =>
          have hhandling : Handling i [] local' local'.seen w₂ :=
            ⟨fun y hy => (List.not_mem_nil hy).elim, hread.pending local' List.mem_cons_self⟩
          have hholding : Holding i [] local' (· = local'.seen) w₂ := ⟨_, rfl, hhandling⟩
          dsimp only
          cases identityMismatch local' notice side with
          | some mismatch => exact free_safe (leavesOrders_blockNotice ..) w₂
          | none =>
            refine rowPart_safe (leavesOrders_select _) hholding fun existingFills w₃ h₃ => ?_
            cases notice.kind with
            | accepted => exact applyAccepted_safe h₃ _ _
            | rejected => exact applyRejected_safe h₃ _ _
            | filled =>
              exact applyExecution_safe h₃ (hread.complete local' List.mem_cons_self) _ _ _ _ _ _

end Stages

/-! ### Every run -/

theorem watched_contract (processes : Nat → Process) :
    (watched processes).Contract FilledComplete FilledComplete Progress where
  init := fun _ h => h
  env := by
    intro w w' h henv id o ho hfilled
    have hterminal : o.status.terminal = true := by rw [hfilled]; rfl
    exact h id o (henv.only id o ho hterminal) hfilled
  spawn := by
    rintro i p q - ⟨hwatches, rfl⟩
    cases hprocess : processes i with
    | cycle c => rw [hprocess] at hwatches; exact hwatches.elim
    | notice now n tradingDate received =>
      have hsafe : PassSafe processes i (applyFillNotice now n tradingDate received) (fun _ _ => True)
          (fun _ _ => True) p.store := applyFillNotice_safe ..
      exact Prog.Safe.bind (Prog.Safe.mono hsafe fun _ _ _ => fun _ _ => trivial)
    | supervisor now calendar config snapshot =>
      have hsafe : PassSafe processes i (supervisorPass now calendar config snapshot)
          (fun _ _ => True) (fun _ _ => True) p.store :=
        supervisorPass_safe now calendar config (by rw [hprocess]; rfl) p.store
      exact Prog.Safe.bind (Prog.Safe.mono hsafe fun _ _ _ => fun _ _ => trivial)

/-- One step leaves a finished order finished. -/
theorem terminal_step {processes : Nat → Process} {pool next : Pool trading WatchedWorld}
    (h : (watched processes).Reachable FilledComplete pool) (hstep : (watched processes).Step pool next)
    {id : String} {o : BrokerOrder} (ho : pool.store.db.brokerOrders.find? id = some o)
    (ht : o.status.terminal = true) :
    ∃ o', next.store.db.brokerOrders.find? id = some o' ∧ o'.status.terminal = true := by
  rcases System.reachable_step (watched_contract processes) h hstep with hsame | henv | ⟨i, hprog⟩
  · exact ⟨o, by rw [hsame]; exact ho, ht⟩
  · exact ⟨o, henv.kept id o ho ht, ht⟩
  · exact hprog.finished id o ho ht

/-- **Finished orders stay finished, while nobody works from an old row.**  In every
    run in which each write finds its row as the writer last saw it, and the
    records of a pass agree with the rows it reads, a finished order stays finished
    and a FILLED order has its whole quantity. -/
theorem terminal_orders_absorbing (processes : Nat → Process) (pool next : Pool trading WatchedWorld)
    (h : (watchedSystem processes (UpToDate processes)).Reachable FilledComplete pool)
    (hrun : Relation.ReflTransGen (watchedSystem processes (UpToDate processes)).Step pool next) :
    (∀ id o, pool.store.db.brokerOrders.find? id = some o → o.status.terminal = true →
      ∃ o', next.store.db.brokerOrders.find? id = some o' ∧ o'.status.terminal = true) ∧
    ∀ o ∈ next.store.db.brokerOrders.rows, o.status = .filled → o.filledQty = o.requestedQty := by
  constructor
  · intro id o ho ht
    induction hrun with
    | refl => exact ⟨o, ho, ht⟩
    | tail hpre hstep ih =>
      obtain ⟨o', ho', ht'⟩ := ih
      exact terminal_step (h.steps hpre) hstep ho' ht'
  · intro o ho
    exact System.reachable_inv (watched_contract processes) (h.steps hrun) _ o
      (next.store.db.brokerOrders.find?_of_mem ho)

/-! ### A fill between a read and a write -/

namespace OldRow

open StaleSnapshot

/-- All ten shares of the order are executed. -/
def fullNotice : FillNotice := { notice with fillQty := 10 }

/-- What the broker says before and after. -/
def fullSnapshot : Snapshot where
  orders := .ok [⟨"K1", "005930", some .buy, 10, 10, 0, some (.fin 100), some (.fin 100), .filled,
    some "00001"⟩]
  account := .ok []

/-- A notice, a pass on a snapshot from before it, and a pass on one from after it. -/
def processes : Nat → Process
  | 0 => .notice now fullNotice none (some later)
  | 1 => .supervisor later none ⟨60, 30⟩ (snapshot 0)
  | _ => .supervisor later none ⟨60, 30⟩ fullSnapshot

def handler (i : Nat) : (o : Act) → WatchedWorld → o.Reply × WatchedWorld
  | .read query, w => (query w.db, w)
  | .tryRead query, w => (.ok (query w.db), w)
  | .selectOrders query, w => (query w.db, w.look i (query w.db))
  | .call op, w => ((op.call w.db).1, w.write i op)
  | .submitOrder id request, w => (broker.submitOrder id request, w)
  | .cancelOrder _ number branch quantity price, w =>
    (broker.cancelOrder number branch quantity price, w)

theorem watched_sem (condition : Nat → Act → WatchedWorld → Prop) (i : Nat) (o : Act)
    (w : WatchedWorld) (h : condition i o w) :
    (watchedSystem processes condition).sem i o w (handler i o w).1 (handler i o w).2 := by
  cases o with
  | read query => exact ⟨h, rfl, rfl⟩
  | tryRead query => exact ⟨h, .inl rfl, rfl⟩
  | selectOrders query => exact ⟨h, rfl, rfl⟩
  | call op => exact ⟨h, rfl, rfl⟩
  | submitOrder id request => exact ⟨h, rfl⟩
  | cancelOrder id number branch quantity price => exact ⟨h, rfl⟩

def orderId : String := "ai:buy:entry:005930:2024-10-04T09:59"

/-- The order is acknowledged and nobody has looked at it. -/
def start : WatchedWorld :=
  ⟨{ bought with aiDecisionAudits := (prepare bought).aiDecisionAudits }, fun _ _ => none⟩

theorem filledComplete_of_rows {w : WatchedWorld}
    (h : ∀ o ∈ w.db.brokerOrders.rows, o.status = .filled → o.filledQty = o.requestedQty) :
    FilledComplete w :=
  fun _ o ho => h o (w.db.brokerOrders.mem_of_find? ho)

theorem start_complete : FilledComplete start := filledComplete_of_rows (by decide +kernel)

def run (i n : Nat) (w : WatchedWorld) : WatchedWorld :=
  (Prog.advance (handler i) n ((processes i).program, w)).2

instance (i : Nat) (op : Op) (w : WatchedWorld) : Decidable (AsSeen i op w) :=
  inferInstanceAs (Decidable (∀ id ∈ op.target, ∀ o ∈ w.db.brokerOrders.find? id,
    ∀ v ∈ w.seen i id, o.seen = v))

instance (records : List OrderRecord) (rows : List BrokerOrder) : Decidable (RowsAgree records rows) :=
  inferInstanceAs (Decidable (∀ o ∈ rows, ∀ record ∈ byBrokerId records o.brokerIdText,
    RecordAgrees record o))

instance UpToDate.decidable (i : Nat) : (o : Act) → (w : WatchedWorld) →
    Decidable (UpToDate processes i o w)
  | .selectOrders query, w => inferInstanceAs (Decidable (RowsAgree (processes i).records (query w.db)))
  | .call op, w => inferInstanceAs (Decidable (AsSeen i op w))
  | .read _, _ => .isTrue trivial
  | .tryRead _, _ => .isTrue trivial
  | .submitOrder .., _ => .isTrue trivial
  | .cancelOrder .., _ => .isTrue trivial

/-- A pass that books the ten shares, and then the notice of them. -/
def booked : WatchedWorld := run 2 60 start

def noticed : WatchedWorld := run 0 60 booked

/-- The order that the pass filled is still finished after the notice. -/
theorem filled_order_stays :
    booked.db.brokerOrders.rows.map (·.status) = [.filled] ∧
    ∀ id o, booked.db.brokerOrders.find? id = some o → o.status.terminal = true →
      ∃ o', noticed.db.brokerOrders.find? id = some o' ∧ o'.status.terminal = true := by
  have hbooked : (watchedSystem processes (UpToDate processes)).Reachable FilledComplete
      ⟨booked, fun _ => none⟩ :=
    (System.Reachable.init start_complete).steps (System.steps_excursion (i := 2)
      (watched_sem (UpToDate processes) 2) 60 rfl ⟨trivial, rfl⟩ (by decide +kernel))
  have hnoticed : Relation.ReflTransGen (watchedSystem processes (UpToDate processes)).Step
      ⟨booked, fun _ => none⟩ ⟨noticed, fun _ => none⟩ :=
    System.steps_excursion (i := 0) (watched_sem (UpToDate processes) 0) 60 rfl ⟨trivial, rfl⟩
      (by decide +kernel)
  exact ⟨by decide +kernel, (terminal_orders_absorbing processes _ _ hbooked hnoticed).1⟩

/-- The pass has read the row and nothing else. -/
def reading : WatchedWorld := run 1 1 start

def filledMeanwhile : WatchedWorld := run 0 60 reading

/-- The rest of the pass, on the row it read. -/
def rest : Prog trading Unit := (Prog.advance (handler 1) 1 ((processes 1).program, start)).1

def midPass : Nat → Option (Prog trading Unit) := Function.update (fun _ => none) 1 (some rest)

def overwritten : WatchedWorld := (Prog.advance (handler 1) 60 (rest, filledMeanwhile)).2

/-- A notice that fills the order between the read and the write of a pass is
    undone: the order is acknowledged again. -/
theorem filled_order_reopened :
    ¬ ∀ (processes : Nat → Process) (pool next : Pool trading WatchedWorld),
      (watchedSystem processes fun _ _ _ => True).Reachable FilledComplete pool →
      Relation.ReflTransGen (watchedSystem processes fun _ _ _ => True).Step pool next →
      (∀ id o, pool.store.db.brokerOrders.find? id = some o → o.status.terminal = true →
        ∃ o', next.store.db.brokerOrders.find? id = some o' ∧ o'.status.terminal = true) ∧
      ∀ o ∈ next.store.db.brokerOrders.rows, o.status = .filled → o.filledQty = o.requestedQty := by
  intro hall
  have hreading : (watchedSystem processes fun _ _ _ => True).Reachable FilledComplete
      ⟨reading, midPass⟩ := by
    have hinit : (watchedSystem processes fun _ _ _ => True).Reachable FilledComplete
        ⟨start, fun _ => none⟩ := .init start_complete
    have hstart := hinit.step (.start (i := 1) rfl ⟨trivial, rfl⟩)
    have hread := hstart.steps (System.steps_advance (watched_sem (fun _ _ _ => True) 1) 1
      (Function.update_self ..) (.always _ _ _))
    simp only [Function.update_idem] at hread
    exact hread
  have hfilled : (watchedSystem processes fun _ _ _ => True).Reachable FilledComplete
      ⟨filledMeanwhile, midPass⟩ :=
    hreading.steps (System.steps_excursion (i := 0) (watched_sem (fun _ _ _ => True) 0) 60 rfl
      ⟨trivial, rfl⟩ (.always _ _ _))
  have hrest : Relation.ReflTransGen (watchedSystem processes fun _ _ _ => True).Step
      ⟨filledMeanwhile, midPass⟩ _ :=
    System.steps_advance (q := rest) (watched_sem (fun _ _ _ => True) 1) 60 rfl (.always _ _ _)
  have hkept := (hall processes _ _ hfilled hrest).1
  have hbefore : (filledMeanwhile.db.brokerOrders.find? orderId).map (·.status) = some .filled := by
    decide +kernel
  have hafter : (overwritten.db.brokerOrders.find? orderId).map (·.status) = some .acknowledged := by
    decide +kernel
  obtain ⟨o, ho, hstatus⟩ := Option.map_eq_some_iff.mp hbefore
  obtain ⟨o', ho', hterminal⟩ := hkept orderId o ho (by rw [hstatus]; rfl)
  have hopen : o'.status = .acknowledged := by
    have ho'' : overwritten.db.brokerOrders.find? orderId = some o' := ho'
    rw [ho'', Option.map_some, Option.some.injEq] at hafter
    exact hafter
  rw [hopen] at hterminal
  cases hterminal

end OldRow

end AutoTrader
