/-
  AutoTrader/Safety/OrderGate.lean
  ================================
  **The last gate before the broker.**

  `GuardedSubmitter` reads about a dozen values one after the other while other
  processes write them.  Every read below finds a database of its own, so any
  writes may have happened in between, and every read may raise.  The broker is
  called once or not at all, and only after a second look at the runtime state.
-/
import AutoTrader.Lib.Trace
import AutoTrader.Pipeline.Submission

namespace AutoTrader

open Relational Interleave

/-! ### What happens around a submission -/

/-- An entry in the trace of a submission. -/
inductive Moment where
  | saw (db : Database)
  | failed (e : Exn)
  | called (request : OrderRequest) (answer : Except Exn (Option String))
  | cancelled

/-- Every action finds some database; a SELECT may raise and the broker may answer
    anything. -/
def interrupted : (o : Act) → o.Reply → Moment → Prop
  | .read query, b, m => ∃ db, m = .saw db ∧ b = query db
  | .tryRead query, b, m =>
    (∃ db, m = .saw db ∧ b = .ok (query db)) ∨ ∃ e, m = .failed e ∧ b = .error e
  | .selectOrders query, b, m => ∃ db, m = .saw db ∧ b = query db
  | .call op, b, m => ∃ db, m = .saw db ∧ b = (op.call db).1
  | .submitOrder _ request, b, m => m = .called request b
  | .cancelOrder .., _, m => m = .cancelled

/-- The broker was not called. -/
def NotCalled (moments : List Moment) : Prop :=
  ∀ m ∈ moments, ∀ request answer, m ≠ .called request answer

/-- A run of the gate's checks: what they saw, and whether they let the order pass. -/
abbrev Checked {α : Type} (p : Pipeline α) (moments : List Moment) (r : Except Exn α) : Prop :=
  Raising.Trace interrupted p moments r

/-! ### What the gate demands -/

/-- One look at the runtime state, each value in the database of its read. -/
structure RuntimeAllows (guard : Guard) (now : DateTime) (control emergency telegram lease : Database) :
    Prop where
  running : control.getRuntimeControl.paused = false
  environment : control.getRuntimeControl.environment = guard.environment
  emergency : isTrue (emergency.getRuntimeMetadata "emergency_stop") = false
  telegram : isTrue (telegram.getRuntimeMetadata "telegram.emergency_stop") = false
  lease : ∃ row expiresAt, lease.serviceLeases.find? guard.leaseName = some row ∧
    row.ownerId = guard.ownerId ∧ row.expiresAt = .iso expiresAt ∧ now.instant < expiresAt.instant

/-- The reads of `_check_runtime_state`, in their order. -/
def RuntimeReads (guard : Guard) (now : DateTime) (reads : List Database) : Prop :=
  ∃ control emergency telegram lease, reads = [control, emergency, telegram, lease] ∧
    RuntimeAllows guard now control emergency telegram lease

/-- No BUY is open at the broker or unknown. -/
def NoUnresolvedBuy (db : Database) : Prop :=
  ∀ o ∈ db.brokerOrders.rows, o.side = .buy → o.status ≠ .acknowledged ∧
    o.status ≠ .partiallyFilled ∧ o.status ≠ .cancelPending ∧ o.status ≠ .unknown

/-- The reads of the checks of one side, in their order. -/
def SideReads (request : OrderRequest) (quantity : Int) (reads : List Database) : Prop :=
  match request.side with
  | .buy => ∃ entries review orders, reads = [entries, review, orders] ∧
      isTrue (entries.getRuntimeMetadata "block_new_entries") = false ∧
      isTrue (review.getRuntimeMetadata "operator_review") = false ∧ NoUnresolvedBuy orders
  | .sell => ∃ positions, reads = [positions] ∧ quantity ≤ positions.openQuantity request.symbol

/-- Everything the gate demands of a request and of what it read: the connection,
    the runtime state, the checks of the side, and the runtime state once more. -/
structure GatePassed (guard : Guard) (request : OrderRequest) (reads : List Database) : Prop where
  exchange : String.ofList (request.exchangeId.toList.map Text.upperChar) = "KRX"
  quantity : ∃ n, request.quantity = .int n ∧ 0 < n
  reads : ∃ now connected first side last, guard.clock = .ok now ∧
    Schedule.isRegularMarketOpen guard.calendar now = true ∧
    reads = connected :: (first ++ side ++ last) ∧ RuntimeReads guard now first ∧
    (∀ n, request.quantity = .int n → SideReads request n side) ∧ RuntimeReads guard now last

/-! ### The checks -/

section Checks

variable {moments : List Moment}

theorem checked_reraise {α : Type} {x r : Except Exn α} (h : Checked (reraise x) moments r) :
    moments = [] ∧ r = x := by
  cases x with
  | ok a => exact Raising.Trace.pure_inv h
  | error e => exact Raising.Trace.throw_inv h

theorem checked_trySelect {β : Type} {query : Database → β} {r : Except Exn β}
    (h : Checked (trySelect query) moments r) :
    (∃ db, moments = [.saw db] ∧ r = .ok (query db)) ∨ ∃ e, moments = [.failed e] ∧ r = .error e := by
  rcases Raising.Trace.bind_inv h with ⟨front, back, b, rfl, hask, hrest⟩ | ⟨e, hask, -⟩
  · obtain ⟨b', m, hlabel, rfl, hb⟩ := Raising.Trace.ask_inv hask
    cases hb
    obtain ⟨rfl, rfl⟩ := checked_reraise hrest
    rcases hlabel with ⟨db, rfl, rfl⟩ | ⟨e, rfl, rfl⟩
    · exact .inl ⟨db, rfl, rfl⟩
    · exact .inr ⟨e, rfl, rfl⟩
  · obtain ⟨b, m, -, -, hb⟩ := Raising.Trace.ask_inv hask
    cases hb

theorem checked_raiseIf {c : Bool} {e : Exn} {r : Except Exn Unit}
    (h : Checked (raiseIf c e) moments r) :
    moments = [] ∧ ((c = false ∧ r = .ok ()) ∨ (c = true ∧ r = .error e)) := by
  cases c with
  | true =>
    obtain ⟨rfl, rfl⟩ := Raising.Trace.throw_inv h
    exact ⟨rfl, .inr ⟨rfl, rfl⟩⟩
  | false =>
    obtain ⟨rfl, rfl⟩ := Raising.Trace.pure_inv h
    exact ⟨rfl, .inl ⟨rfl, rfl⟩⟩

/-- A sequence that passed, passed in both parts. -/
theorem checked_bind {α β : Type} {p : Pipeline α} {f : α → Pipeline β} {b : β}
    (h : Checked (p >>= f) moments (.ok b)) :
    ∃ front back a, moments = front ++ back ∧ Checked p front (.ok a) ∧ Checked (f a) back (.ok b) := by
  rcases Raising.Trace.bind_inv h with hok | ⟨e, -, herror⟩
  · exact hok
  · cases herror

theorem passed_trySelect {α β : Type} {query : Database → β} {f : β → Pipeline α} {a : α}
    (h : Checked (trySelect query >>= f) moments (.ok a)) :
    ∃ db rest, moments = .saw db :: rest ∧ Checked (f (query db)) rest (.ok a) := by
  obtain ⟨front, rest, b, rfl, hread, hrest⟩ := checked_bind h
  rcases checked_trySelect hread with ⟨db, rfl, hb⟩ | ⟨e, -, hb⟩
  · cases hb; exact ⟨db, rest, rfl, hrest⟩
  · cases hb

theorem passed_raiseIf {α : Type} {c : Bool} {e : Exn} {f : Unit → Pipeline α} {a : α}
    (h : Checked (raiseIf c e >>= f) moments (.ok a)) : c = false ∧ Checked (f ()) moments (.ok a) := by
  obtain ⟨front, rest, b, rfl, hraise, hrest⟩ := checked_bind h
  rcases checked_raiseIf hraise with ⟨rfl, ⟨hc, -⟩ | ⟨-, hr⟩⟩
  · exact ⟨hc, hrest⟩
  · cases hr

theorem passed_reraise {α β : Type} {x : Except Exn β} {f : β → Pipeline α} {a : α}
    (h : Checked (reraise x >>= f) moments (.ok a)) : ∃ b, x = .ok b ∧ Checked (f b) moments (.ok a) := by
  obtain ⟨front, rest, b, rfl, hraise, hrest⟩ := checked_bind h
  obtain ⟨rfl, rfl⟩ := checked_reraise hraise
  exact ⟨b, rfl, hrest⟩

/-- Keys that were all found not to be true, each in the database of its read. -/
theorem passed_trueKeys {keys found : List String} (h : Checked (trueKeys keys) moments (.ok found))
    (hfound : found.isEmpty = true) :
    ∃ reads : List Database, moments = reads.map .saw ∧
      List.Forall₂ (fun key db => isTrue (db.getRuntimeMetadata key) = false) keys reads := by
  induction keys generalizing moments found with
  | nil =>
    obtain ⟨rfl, -⟩ := Raising.Trace.pure_inv h
    exact ⟨[], rfl, .nil⟩
  | cons key rest ih =>
    obtain ⟨db, afterRead, rfl, hafter⟩ := passed_trySelect h
    obtain ⟨middle, last, others, rfl, hothers, hreturn⟩ := checked_bind hafter
    obtain ⟨rfl, hall⟩ := Raising.Trace.pure_inv hreturn
    cases hall
    have hfalse : isTrue (db.getRuntimeMetadata key) = false := by
      by_contra hne
      rw [Bool.not_eq_false] at hne
      simp [hne] at hfound
    rw [hfalse] at hfound
    obtain ⟨reads, rfl, hreads⟩ := ih hothers hfound
    exact ⟨db :: reads, by simp, .cons hfalse hreads⟩

theorem lease_of_belongs {row : Option ServiceLease} {ownerId : String} {now : DateTime}
    (h : leaseBelongsToOwner row ownerId now = true) :
    ∃ lease expiresAt, row = some lease ∧ lease.ownerId = ownerId ∧ lease.expiresAt = .iso expiresAt ∧
      now.instant < expiresAt.instant := by
  cases row with
  | none => cases h
  | some lease =>
    simp only [leaseBelongsToOwner, Bool.and_eq_true, decide_eq_true_eq] at h
    obtain ⟨howner, hexpires⟩ := h
    cases htext : lease.expiresAt with
    | iso expiresAt =>
      rw [htext] at hexpires
      exact ⟨lease, expiresAt, rfl, howner, htext, of_decide_eq_true hexpires⟩
    | unreadable text =>
      rw [htext] at hexpires
      cases hexpires

theorem passed_checkRuntimeState {guard : Guard} {now : DateTime} {u : Unit}
    (h : Checked (checkRuntimeState guard now) moments (.ok u)) :
    ∃ reads : List Database, moments = reads.map .saw ∧ RuntimeReads guard now reads := by
  obtain ⟨control, m₁, rfl, h₁⟩ := passed_trySelect h
  obtain ⟨hrunning, h₂⟩ := passed_raiseIf h₁
  obtain ⟨henvironment, h₃⟩ := passed_raiseIf h₂
  obtain ⟨m₂, m₃, found, rfl, hkeys, h₄⟩ := checked_bind h₃
  obtain ⟨hfound, h₅⟩ := passed_raiseIf h₄
  obtain ⟨lease, m₄, rfl, h₆⟩ := passed_trySelect h₅
  obtain ⟨rfl, ⟨hlease, -⟩ | ⟨-, hr⟩⟩ := checked_raiseIf h₆
  swap
  · cases hr
  obtain ⟨reads, rfl, hreads⟩ := passed_trueKeys hkeys (by simpa using hfound)
  match reads, hreads with
  | [emergency, telegram], .cons hemergency (.cons htelegram .nil) =>
    refine ⟨[control, emergency, telegram, lease], by simp, control, emergency, telegram, lease, rfl,
      ⟨hrunning, by simpa using henvironment, hemergency, htelegram, ?_⟩⟩
    exact lease_of_belongs (by simpa using hlease)

theorem noUnresolvedBuy_of {db : Database} (h : unresolvedBuy db = none) : NoUnresolvedBuy db := by
  intro o ho hside
  rw [unresolvedBuy, Option.map_eq_none_iff, List.find?_eq_none] at h
  have hnot := h o ho
  simp only [hside, true_and, decide_eq_true_eq, not_or] at hnot
  exact hnot

theorem passed_checkSide {request : OrderRequest} {quantity : Int} {u : Unit}
    (h : Checked (checkSide request quantity) moments (.ok u)) :
    ∃ reads : List Database, moments = reads.map .saw ∧ SideReads request quantity reads := by
  unfold checkSide at h
  unfold SideReads
  cases hside : request.side with
  | buy =>
    rw [hside] at h
    obtain ⟨m₁, m₂, found, rfl, hkeys, h₁⟩ := checked_bind h
    obtain ⟨hfound, h₂⟩ := passed_raiseIf h₁
    obtain ⟨orders, m₃, rfl, h₃⟩ := passed_trySelect h₂
    have hnone : m₃ = [] ∧ unresolvedBuy orders = none := by
      cases hunresolved : unresolvedBuy orders with
      | none =>
        rw [hunresolved] at h₃
        exact ⟨(Raising.Trace.pure_inv h₃).1, rfl⟩
      | some status =>
        rw [hunresolved] at h₃
        cases (Raising.Trace.throw_inv h₃).2
    obtain ⟨rfl, hunresolved⟩ := hnone
    obtain ⟨reads, rfl, hreads⟩ := passed_trueKeys hkeys (by simpa using hfound)
    match reads, hreads with
    | [entries, review], .cons hentries (.cons hreview .nil) =>
      exact ⟨[entries, review, orders], by simp, entries, review, orders, rfl, hentries, hreview,
        noUnresolvedBuy_of hunresolved⟩
  | sell =>
    rw [hside] at h
    obtain ⟨positions, m₁, rfl, h₁⟩ := passed_trySelect h
    obtain ⟨-, h₂⟩ := passed_raiseIf h₁
    obtain ⟨rfl, ⟨henough, -⟩ | ⟨-, hr⟩⟩ := checked_raiseIf h₂
    swap
    · cases hr
    refine ⟨[positions], rfl, positions, rfl, ?_⟩
    have hle := of_decide_eq_false henough
    omega

/-- The checks passed: everything the gate demands was so. -/
theorem passed_safetyGate {guard : Guard} {request : OrderRequest} {u : Unit}
    (h : Checked (safetyGate guard request) moments (.ok u)) :
    ∃ reads : List Database, moments = reads.map .saw ∧ GatePassed guard request reads := by
  obtain ⟨now, hclock, h₁⟩ := passed_reraise h
  obtain ⟨quantity, hquantity, h₂⟩ := passed_reraise h₁
  obtain ⟨hexchange, h₃⟩ := passed_raiseIf h₂
  obtain ⟨connected, m₁, rfl, h₄⟩ := passed_trySelect h₃
  obtain ⟨m₂, m₃, _, rfl, hcheck, h₅⟩ := checked_bind h₄
  obtain ⟨hopen, h₆⟩ := passed_raiseIf h₅
  obtain ⟨m₄, m₅, _, rfl, hsides, hagain⟩ := checked_bind h₆
  obtain ⟨first, rfl, hfirst⟩ := passed_checkRuntimeState hcheck
  obtain ⟨side, rfl, hside⟩ := passed_checkSide hsides
  obtain ⟨last, rfl, hlast⟩ := passed_checkRuntimeState hagain
  have hint : request.quantity = .int quantity ∧ 0 < quantity := by
    cases hnumber : request.quantity with
    | int n =>
      rw [hnumber, positiveQuantity] at hquantity
      split at hquantity
      · cases hquantity; exact ⟨rfl, ‹_›⟩
      · cases hquantity
    | bool b => rw [hnumber] at hquantity; cases hquantity
    | float x => rw [hnumber] at hquantity; cases hquantity
  refine ⟨connected :: (first ++ side ++ last), by simp, ⟨by simpa using hexchange, ⟨quantity, hint⟩, ?_⟩⟩
  refine ⟨now, connected, first, side, last, hclock, by simpa using hopen, rfl, hfirst, ?_, hlast⟩
  intro n hn
  rw [hint.1] at hn
  cases hn
  exact hside

end Checks

/-! ### The gate -/

/-- A program that only reads does not call the broker. -/
theorem notCalled_of_reads {α : Type} {p : Pipeline α} (hp : ReadsOnly p) {moments : List Moment}
    {r : Except Exn α} (h : Checked p moments r) : NotCalled moments := by
  have hprog : ∀ (q : Prog trading (Except Exn α)), q.Only Act.isRead → ∀ moments r,
      Prog.Trace interrupted q moments r → NotCalled moments := by
    intro q
    induction q with
    | ret a =>
      intro _ moments r h
      cases h
      intro m hm
      cases hm
    | act o k ih =>
      rintro ⟨hread, hrest⟩ moments r h
      cases h with
      | @act _ _ b m rest _ hlabel htrace =>
        intro m' hm' request answer heq
        rcases List.mem_cons.mp hm' with rfl | hm'
        · subst heq
          cases o with
          | read query => obtain ⟨db, hm, -⟩ := hlabel; cases hm
          | tryRead query => rcases hlabel with ⟨db, hm, -⟩ | ⟨e, hm, -⟩ <;> cases hm
          | selectOrders query => obtain ⟨db, hm, -⟩ := hlabel; cases hm
          | call op => exact hread
          | submitOrder id request => exact hread
          | cancelOrder id number branch quantity price => exact hread
        · exact ih b (hrest b) rest r htrace m' hm' request answer heq
  exact hprog p.run hp moments r h

/-- **The final order gate.**  Whatever is written between its reads and whichever
    of them raises, a guarded submission either ends in `OrderSafetyGateError`
    without a call of the broker, or calls it once, with the request, after reads
    that all allowed it.  A read that raised means the former. -/
theorem guarded_submission_gated (guard : Guard) (clientOrderId : String) (request : OrderRequest)
    (moments : List Moment) (outcome : Except Exn (Option String))
    (h : Raising.Trace interrupted (guardedSubmitter guard clientOrderId request) moments outcome) :
    ((∃ message, outcome = .error (.orderSafetyGateError message)) ∧ NotCalled moments ∨
      ∃ reads : List Database, moments = reads.map .saw ++ [.called request outcome] ∧
        GatePassed guard request reads) ∧
    ∀ e, .failed e ∈ moments →
      (∃ message, outcome = .error (.orderSafetyGateError message)) ∧ NotCalled moments := by
  have hcases : ((∃ message, outcome = .error (.orderSafetyGateError message)) ∧ NotCalled moments) ∨
      ∃ reads : List Database, moments = reads.map .saw ++ [.called request outcome] ∧
        GatePassed guard request reads := by
    rcases Raising.Trace.bind_inv h with ⟨front, back, r, rfl, hgate, hrest⟩ | ⟨e, hgate, -⟩
    swap
    · obtain ⟨r, -, hr⟩ := Raising.Trace.attempt_inv hgate
      cases hr
    obtain ⟨r', hgate, hr⟩ := Raising.Trace.attempt_inv hgate
    cases hr
    cases r with
    | error e =>
      obtain ⟨rfl, rfl⟩ := Raising.Trace.throw_inv hrest
      rw [List.append_nil]
      refine .inl ⟨?_, notCalled_of_reads (readsOnly_safetyGate guard request) hgate⟩
      cases e <;> exact ⟨_, rfl⟩
    | ok u =>
      obtain ⟨reads, rfl, hpassed⟩ := passed_safetyGate hgate
      rcases Raising.Trace.bind_inv hrest with ⟨m₁, m₂, answer, rfl, hask, hreturn⟩ | ⟨e, hask, -⟩
      · obtain ⟨b, m, hlabel, rfl, hb⟩ := Raising.Trace.ask_inv hask
        cases hb
        obtain ⟨rfl, rfl⟩ := checked_reraise hreturn
        refine .inr ⟨reads, ?_, hpassed⟩
        rw [show m = .called request outcome from hlabel]
        rfl
      · obtain ⟨b, m, -, -, hb⟩ := Raising.Trace.ask_inv hask
        cases hb
  refine ⟨hcases, fun e he => ?_⟩
  rcases hcases with hrefused | ⟨reads, rfl, -⟩
  · exact hrefused
  · simp at he

/-! ### An order that passes -/

namespace OpenGate

def now : DateTime := .combine 20000 10 0 0 (some DateTime.kstOffset)

/-- The service runs, and its lease has another minute. -/
def db : Database :=
  { Database.empty with
    runtimeControl := some ⟨false, "demo", now, "started", "operator"⟩
    serviceLeases := (Table.empty.insertOrIgnore
      ⟨"trading-service", "owner-1", now, now, .iso ⟨now.wall + 60000000, now.offset⟩⟩).1 }

def guard : Guard := ⟨"demo", "trading-service", "owner-1", none, .ok now⟩

def request : OrderRequest := ⟨"005930", .buy, .int 10, .int 100, "KRX"⟩

def broker : BrokerReplies := ⟨fun _ _ => .ok (some "K1"), fun _ _ _ _ => .ok ()⟩

def entry : Act → Database → Moment
  | .submitOrder id request, _ => .called request (broker.submitOrder id request)
  | .cancelOrder .., _ => .cancelled
  | _, db => .saw db

theorem entry_interrupted (o : Act) (db : Database) :
    interrupted o (dbHandler broker o db).1 (entry o db) := by
  cases o with
  | read query => exact ⟨db, rfl, rfl⟩
  | tryRead query => exact .inl ⟨db, rfl, rfl⟩
  | selectOrders query => exact ⟨db, rfl, rfl⟩
  | call op => exact ⟨db, rfl, rfl⟩
  | submitOrder id request => rfl
  | cancelOrder id number branch quantity price => rfl

def moments : List Moment :=
  Prog.log (dbHandler broker) entry (guardedSubmitter guard "c1" request).run db

def outcome : Except Exn (Option String) :=
  (Raising.eval (dbHandler broker) (guardedSubmitter guard "c1" request) db).1

/-- Twelve reads allow the order, and the broker is called once. -/
theorem open_gate_calls_once :
    moments.length = 13 ∧ outcome.toOption = some (some "K1") ∧
    ∃ reads : List Database, moments = reads.map .saw ++ [.called request outcome] ∧
      GatePassed guard request reads := by
  have hok : outcome.toOption = some (some "K1") := by decide +kernel
  refine ⟨by decide +kernel, hok, ?_⟩
  rcases (guarded_submission_gated guard "c1" request moments outcome
    (Prog.trace_eval entry_interrupted _ db)).1 with ⟨⟨message, herror⟩, -⟩ | hcalled
  · rw [herror] at hok
    cases hok
  · exact hcalled

end OpenGate

end AutoTrader
