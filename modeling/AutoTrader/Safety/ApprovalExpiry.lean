/-
  AutoTrader/Safety/ApprovalExpiry.lean
  =====================================
  **When an approval request lapses.**

  The trading cycle writes the expiry of a request in naive KST and reads its own
  clock the same way; the Telegram handlers pass aware UTC times.  SQLite compares
  the two texts, and texts sort like wall clocks.  So the cycle sees the expiry at
  the right instant, and Telegram nine hours late: a lapsed request can be approved
  from Telegram until then.  `approval_expiry_respected_iff` is the exact condition,
  for every call on a request after every run of calls.
-/
import AutoTrader.Python.IsoOrder
import AutoTrader.Pipeline.ApprovedEntry

namespace AutoTrader

open Relational Transactional

/-- Nine hours in microseconds. -/
def kstAhead : Int := DateTime.kstOffset * DateTime.microsPerSecond

/-- An instant, in microseconds since the epoch, that has a wall clock in UTC and
    in KST. -/
structure Instant where
  micros : Int
  utc_inRange : DateTime.InRange ⟨micros, some 0⟩
  kst_inRange : DateTime.InRange ⟨micros + kstAhead, none⟩

/-- Who calls the methods on approval requests. -/
inductive ApprovalCaller where
  | cycle
  | telegram
deriving DecidableEq

/-- The clock of a caller: `_clock_now` gives naive KST, `_utcnow` aware UTC. -/
def ApprovalCaller.clock : ApprovalCaller → Instant → DateTime
  | .cycle, i => DateTime.asKst ⟨i.micros, some 0⟩
  | .telegram, i => ⟨i.micros, some 0⟩

theorem clock_cycle (i : Instant) : ApprovalCaller.cycle.clock i = ⟨i.micros + kstAhead, none⟩ := by
  simp [ApprovalCaller.clock, DateTime.asKst, DateTime.toKst, DateTime.instant, kstAhead]

/-- The terms of the entry an approval request is for. -/
structure EntryTerms where
  decisionId : String
  signalId : String
  quantity : Nat
  entryPrice : ℚ
  stopLossPrice : ℚ
  takeProfitPrice : ℚ
  maxHoldingSeconds : Option Int

/-- What `_maybe_enter_position` passes to `record_approval_request` at an instant. -/
def cycleApproval (symbol : String) (barStart : DateTime) (terms : EntryTerms) (now : DateTime) :
    ApprovalArgs where
  requestId := approvalRequestId symbol barStart
  symbol := symbol
  decisionId := some terms.decisionId
  reason := "high_risk_ai_decision"
  status := .pending
  signalId := some terms.signalId
  quantity := some (.int terms.quantity)
  entryPrice := some (.float (.fin terms.entryPrice))
  takeProfitPrice := some (.float (.fin terms.takeProfitPrice))
  stopLossPrice := some (.float (.fin terms.stopLossPrice))
  maxHoldingSeconds := terms.maxHoldingSeconds
  expiresAt := none
  createdAt := some now

/-- A later call that may find the request lapsed. -/
inductive ApprovalAct where
  | expire
  | resolve (decision : String) (resolvedBy : Option String)
  | consume

namespace ApprovalAct

/-- The call on the request `id` at a time, with its answer if that is a `bool`. -/
def call (id : String) (now : DateTime) : ApprovalAct → Tx (Option Bool)
  | .expire => do
    let _ ← expireApprovalRequests now (some now)
    pure none
  | .resolve decision resolvedBy => do
    let resolved ← resolveApprovalRequest now id decision resolvedBy (some now)
    pure (some resolved)
  | .consume => do
    let consumed ← consumeApprovalRequest now id (some now)
    pure (some consumed)

/-- A call that lets the entry go on if it answers `True`. -/
def Grants : ApprovalAct → Prop
  | .expire => False
  | .resolve decision _ => approvalDecision? decision = some .approved
  | .consume => True

/-- The call deals with a request in this state: resolving with a PENDING one,
    consuming with an APPROVED one, expiring with both. -/
def Awaits : ApprovalAct → ApprovalStatus → Prop
  | .expire, status => status = .pending ∨ status = .approved
  | .resolve decision _, status => status = .pending ∧ (approvalDecision? decision).isSome
  | .consume, status => status = .approved

end ApprovalAct

/-- What the expiry of a request promises of a call at an instant: from the expiry
    on it answers `False` and the request it deals with is EXPIRED afterwards; before
    the expiry a PENDING request does not become EXPIRED. -/
structure ExpiryRespected (id : String) (expiry : Int) (caller : ApprovalCaller) (i : Instant)
    (act : ApprovalAct) (db : Database) : Prop where
  refused : expiry ≤ i.micros → act.Grants →
    ((act.call id (caller.clock i)).run db).1 = .ok (some false)
  expired : expiry ≤ i.micros → (∃ status, db.approvalStatus? id = some status ∧ act.Awaits status) →
    ((act.call id (caller.clock i)).run db).2.approvalStatus? id = some .expired
  kept : i.micros < expiry → db.approvalStatus? id = some .pending →
    ((act.call id (caller.clock i)).run db).2.approvalStatus? id ≠ some .expired

/-! ### The texts and the instants -/

/-- The expiry the cycle writes, for a request created at `c`. -/
def cycleExpiry (c : Instant) : DateTime := ⟨c.micros + kstAhead + approvalLifetime, none⟩

/-- By how much a caller's clock makes the expiry late. -/
def ApprovalCaller.lag : ApprovalCaller → Int
  | .cycle => 0
  | .telegram => kstAhead

theorem lapsedAt_iff {request : ApprovalRequest} {c : Instant}
    (hexpiry : request.expiresAt = some (cycleExpiry c)) (hrange : (cycleExpiry c).InRange)
    (caller : ApprovalCaller) (i : Instant) :
    request.lapsedAt (caller.clock i) = true ↔
      c.micros + approvalLifetime + caller.lag ≤ i.micros := by
  simp only [ApprovalRequest.lapsedAt, hexpiry, decide_eq_true_eq]
  cases caller with
  | cycle =>
    rw [clock_cycle, DateTime.isoformat_le_iff hrange i.kst_inRange rfl (.inl rfl)]
    simp only [cycleExpiry, ApprovalCaller.lag]
    omega
  | telegram =>
    rw [show ApprovalCaller.telegram.clock i = ⟨i.micros, some 0⟩ from rfl,
      DateTime.isoformat_le_iff hrange i.utc_inRange rfl (.inr rfl)]
    simp only [cycleExpiry, ApprovalCaller.lag]
    omega

theorem approvalRequestId_nonempty (symbol : String) (barStart : DateTime) :
    Text.blank (approvalRequestId symbol barStart) = false := by
  simp only [Text.blank, approvalRequestId, String.toList_append, List.all_append]
  rw [show ("approval:".toList.all Text.isSpace) = false from by decide]
  simp

/-- A request the cycle recorded expires two minutes later. -/
theorem cycleApproval_expiresAt {symbol : String} {barStart : DateTime} {terms : EntryTerms}
    {c : Instant} {clock : DateTime} {db db' : Database}
    (h : (recordApprovalRequest clock
      (cycleApproval symbol barStart terms (ApprovalCaller.cycle.clock c))).run db = (.ok true, db')) :
    (cycleExpiry c).InRange ∧ ExpiresAt (approvalRequestId symbol barStart) (cycleExpiry c) db' := by
  obtain ⟨row, hrow, hfind⟩ := recordApprovalRequest_true h
  obtain ⟨hid, expiry, hexpiry, hat⟩ := approvalRow_ok hrow
  rw [hid] at hfind
  simp only [cycleApproval, approvalExpiry, Option.getD_some, clock_cycle, DateTime.add] at hexpiry
  split at hexpiry
  · rename_i hrange
    cases hexpiry
    exact ⟨hrange, row, hfind, hat⟩
  · cases hexpiry

/-! ### What each call does to the request -/

/-- A call leaves a request it does not deal with alone; one it deals with is
    expired if its text has lapsed, and otherwise goes on. -/
structure CallSpec (id : String) (now : DateTime) (act : ApprovalAct) (request : ApprovalRequest)
    (db : Database) : Prop where
  other : ¬ act.Awaits request.status →
    ((act.call id now).run db).2.approvalStatus? id = some request.status ∧
    (act.Grants → ((act.call id now).run db).1 = .ok (some false))
  lapsed : act.Awaits request.status → request.lapsedAt now = true →
    ((act.call id now).run db).2.approvalStatus? id = some .expired ∧
    (act.Grants → ((act.call id now).run db).1 = .ok (some false))
  runs : act.Awaits request.status → request.lapsedAt now = false →
    ((act.call id now).run db).2.approvalStatus? id ≠ some .expired

section Calls

variable {id : String} {request : ApprovalRequest} {db : Database}

theorem expire_spec (hfind : db.approvalRequests.find? id = some request) (now : DateTime) :
    CallSpec id now .expire request db := by
  have hafter : ((ApprovalAct.expire.call id now).run db).2.approvalStatus? id =
      some (if (request.status = .pending || request.status = .approved) && request.lapsedAt now
        then .expired else request.status) := by
    have hrun := find?_expireApprovalRequests now (some now) db id
    rw [hfind, Option.map_some, Option.getD_some] at hrun
    rw [Database.approvalStatus?, show ((ApprovalAct.expire.call id now).run db).2 =
      ((expireApprovalRequests now (some now)).run db).2 from rfl, hrun, Option.map_some]
    split <;> rfl
  constructor
  · intro hawaits
    rw [hafter]
    simp only [ApprovalAct.Awaits, not_or] at hawaits
    simp [hawaits, ApprovalAct.Grants]
  · intro hawaits hlapsed
    rw [hafter]
    rcases hawaits with h | h <;> simp [h, hlapsed, ApprovalAct.Grants]
  · intro hawaits hlapsed
    rw [hafter]
    rcases hawaits with h | h <;> simp [h, hlapsed]

/-- Settling a request in state `awaited`, as a call. -/
theorem settle_spec (hfind : db.approvalRequests.find? id = some request) (now : DateTime)
    {act : ApprovalAct} (awaited : ApprovalStatus) (hawaited : awaited ≠ .expired)
    (hawaits : ∀ status, act.Awaits status ↔ status = awaited)
    {f : ApprovalRequest → ApprovalRequest} {hf : ∀ r, (f r).requestId = r.requestId}
    (hnot : (f request).status ≠ .expired)
    (hcall : (act.call id now).run db =
      ((settleApproval id awaited now f hf >>= fun b => pure (some b) : Tx (Option Bool))).run db) :
    CallSpec id now act request db := by
  obtain ⟨hanswer, hrow⟩ := settleApproval_run hfind hawaited now f hf
  have hstate : ((act.call id now).run db).1 =
        .ok (some (decide (request.status = awaited) && !request.lapsedAt now)) ∧
      ((act.call id now).run db).2.approvalStatus? id = some
        (if request.status = awaited then
          if request.lapsedAt now then .expired else (f request).status else request.status) := by
    rw [hcall, Exec.run_bind_ok (Prod.ext hanswer rfl)]
    refine ⟨rfl, ?_⟩
    rw [Database.approvalStatus?, Exec.run_pure, hrow, Option.map_some]
    split
    · split <;> rfl
    · rfl
  constructor
  · intro hother
    rw [hawaits] at hother
    rw [hstate.1, hstate.2]
    simp [hother]
  · intro hthis hlapsed
    rw [hawaits] at hthis
    rw [hstate.1, hstate.2]
    simp [hthis, hlapsed]
  · intro hthis hruns
    rw [hawaits] at hthis
    rw [hstate.2]
    simp [hthis, hruns, hnot]

theorem approvalDecision?_ne_expired {decision : String} {status : ApprovalStatus}
    (h : approvalDecision? decision = some status) : status ≠ .expired := by
  unfold approvalDecision? at h
  dsimp only at h
  split at h
  · cases h
    decide
  · split at h
    · cases h
      decide
    · cases h

theorem call_spec (hid : Text.blank id = false) (hfind : db.approvalRequests.find? id = some request)
    (now : DateTime) (act : ApprovalAct) : CallSpec id now act request db := by
  cases act with
  | expire => exact expire_spec hfind now
  | resolve decision resolvedBy =>
    cases hdecision : approvalDecision? decision with
    | none =>
      -- the call raises before its transaction
      have hrun : ((ApprovalAct.resolve decision resolvedBy).call id now).run db =
          (.error (.valueError "decision must be APPROVED or REJECTED"), db) := by
        simp only [ApprovalAct.call, resolveApprovalRequest, requireNonempty_of hid,
          validateApprovalDecision, hdecision]
        rfl
      constructor
      · intro _
        rw [hrun]
        simp [Database.approvalStatus?, hfind, ApprovalAct.Grants, hdecision]
      · intro hawaits
        simp [ApprovalAct.Awaits, hdecision] at hawaits
      · intro hawaits
        simp [ApprovalAct.Awaits, hdecision] at hawaits
    | some status =>
      apply settle_spec hfind now .pending (by decide)
      · intro status
        simp [ApprovalAct.Awaits, hdecision]
      rotate_left
      · simp only [ApprovalAct.call, resolveApprovalRequest, requireNonempty_of hid,
          validateApprovalDecision, hdecision]
        rfl
      · exact approvalDecision?_ne_expired hdecision
  | consume =>
    apply settle_spec hfind now .approved (by decide)
    · intro status
      exact Iff.rfl
    rotate_left
    · simp only [ApprovalAct.call, consumeApprovalRequest, requireNonempty_of hid]
      rfl
    · show ApprovalStatus.consuming ≠ .expired
      decide

end Calls

/-! ### The exact condition -/

/-- **A lapsed request is refused, and a running one kept, exactly when** the cycle
    is calling, or the instant is not in the nine hours after the expiry, or the call
    does not deal with the request. -/
theorem approval_expiry_respected_iff (symbol : String) (barStart : DateTime) (terms : EntryTerms)
    (c : Instant) (clock : DateTime) (db db' : Database)
    (hcreated : (recordApprovalRequest clock
      (cycleApproval symbol barStart terms (ApprovalCaller.cycle.clock c))).run db = (.ok true, db'))
    (calls : List ApprovalCall) (caller : ApprovalCaller) (i : Instant) (act : ApprovalAct) :
    ExpiryRespected (approvalRequestId symbol barStart) (c.micros + approvalLifetime) caller i act
        (runApprovals calls db') ↔
      caller = .cycle ∨ i.micros < c.micros + approvalLifetime ∨
      c.micros + approvalLifetime + kstAhead ≤ i.micros ∨
      ∀ status, (runApprovals calls db').approvalStatus? (approvalRequestId symbol barStart) =
        some status → ¬ act.Awaits status := by
  obtain ⟨hrange, hexpires⟩ := cycleApproval_expiresAt hcreated
  obtain ⟨request, hfind, hexpiry⟩ := runApprovals_expiresAt calls hexpires
  have hspec := call_spec (approvalRequestId_nonempty symbol barStart) hfind (caller.clock i) act
  have hlapsed := lapsedAt_iff hexpiry hrange caller i
  have hstatus : (runApprovals calls db').approvalStatus? (approvalRequestId symbol barStart) =
      some request.status := by
    rw [Database.approvalStatus?, hfind, Option.map_some]
  constructor
  · intro hrespected
    by_contra hcond
    simp only [not_or, not_forall, not_lt, not_le, not_not] at hcond
    obtain ⟨hcaller, hfrom, hto, status, hstatus', hawaits⟩ := hcond
    obtain rfl : status = request.status := by
      rw [hstatus] at hstatus'
      exact (Option.some.inj hstatus').symm
    -- Telegram's text says that the request still runs
    have hruns : request.lapsedAt (caller.clock i) = false := by
      rw [Bool.eq_false_iff, ne_eq, hlapsed]
      cases caller with
      | cycle => exact absurd rfl hcaller
      | telegram =>
        simp only [ApprovalCaller.lag]
        omega
    exact hspec.runs hawaits hruns (hrespected.expired hfrom ⟨_, hstatus, hawaits⟩)
  · intro hcond
    by_cases hawaits : act.Awaits request.status
    · -- the text lapses at the instant the request expires
      have hat : request.lapsedAt (caller.clock i) = true ↔
          c.micros + approvalLifetime ≤ i.micros := by
        rw [hlapsed]
        have hnine : (0 : Int) ≤ kstAhead := by decide
        rcases hcond with rfl | hbefore | hafter | hother
        · simp [ApprovalCaller.lag]
        · cases caller <;> simp only [ApprovalCaller.lag] <;> omega
        · cases caller <;> simp only [ApprovalCaller.lag] <;> omega
        · exact absurd hawaits (hother _ hstatus)
      constructor
      · intro hfrom hgrants
        exact (hspec.lapsed hawaits (hat.mpr hfrom)).2 hgrants
      · intro hfrom _
        exact (hspec.lapsed hawaits (hat.mpr hfrom)).1
      · intro hbefore _
        apply hspec.runs hawaits
        rw [Bool.eq_false_iff, ne_eq, hat]
        omega
    · constructor
      · intro _ hgrants
        exact (hspec.other hawaits).2 hgrants
      · rintro _ ⟨status, hstatus', hawaits'⟩
        rw [hstatus] at hstatus'
        cases hstatus'
        exact absurd hawaits' hawaits
      · intro _ hpending
        rw [(hspec.other hawaits).1]
        rw [hstatus] at hpending
        rw [hpending]
        decide

namespace LateApproval

/-- Ten in the morning in Seoul, and three minutes later. -/
def created : Instant := ⟨20000 * 86400000000 + 3600000000, by decide, by decide⟩
def asked : Instant := ⟨created.micros + 180000000, by decide, by decide⟩

def barStart : DateTime := .combine 20000 10 0 0 none

def terms : EntryTerms := ⟨"d1", "s1", 10, 100, 95, 110, none⟩

def recording : Tx Bool :=
  recordApprovalRequest (ApprovalCaller.cycle.clock created)
    (cycleApproval "005930" barStart terms (ApprovalCaller.cycle.clock created))

def db : Database := (recording.run .empty).2

theorem recorded : recording.run .empty = (.ok true, db) := by
  refine Prod.ext (Except.eq_ok_of_toOption ?_) rfl
  decide +kernel

def approve : ApprovalAct := .resolve "APPROVED" (some "8")

/-- A minute after the expiry Telegram approves the request, and the cycle refuses it. -/
theorem late_approval_depends_on_caller :
    ExpiryRespected (approvalRequestId "005930" barStart) (created.micros + approvalLifetime) .cycle
      asked approve db ∧
    ¬ ExpiryRespected (approvalRequestId "005930" barStart) (created.micros + approvalLifetime)
      .telegram asked approve db := by
  have hiff := fun caller => approval_expiry_respected_iff "005930" barStart terms created
    (ApprovalCaller.cycle.clock created) .empty db recorded [] caller asked approve
  refine ⟨(hiff .cycle).mpr (.inl rfl), fun h => ?_⟩
  rcases (hiff .telegram).mp h with hcaller | hbefore | hafter | hother
  · cases hcaller
  · revert hbefore
    decide
  · revert hafter
    decide
  · exact hother .pending (by decide +kernel) ⟨rfl, by decide⟩

/-- The approval answers `True` a minute after the request has expired. -/
theorem late_telegram_approval_granted :
    created.micros + approvalLifetime ≤ asked.micros ∧ approve.Grants ∧
    ((approve.call (approvalRequestId "005930" barStart) (ApprovalCaller.telegram.clock asked)).run
      db).1.toOption = some (some true) ∧
    ¬ ∀ (caller : ApprovalCaller) (i : Instant) (act : ApprovalAct),
      ExpiryRespected (approvalRequestId "005930" barStart) (created.micros + approvalLifetime) caller
        i act db := by
  have hlate : created.micros + approvalLifetime ≤ asked.micros := by decide
  have hgrants : approve.Grants := show approvalDecision? "APPROVED" = some .approved by decide
  have hanswer : ((approve.call (approvalRequestId "005930" barStart)
      (ApprovalCaller.telegram.clock asked)).run db).1.toOption = some (some true) := by
    decide +kernel
  refine ⟨hlate, hgrants, hanswer, fun hall => ?_⟩
  rw [(hall .telegram asked approve).refused hlate hgrants] at hanswer
  cases hanswer

end LateApproval

end AutoTrader
