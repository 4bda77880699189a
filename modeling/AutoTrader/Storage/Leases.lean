/-
  AutoTrader/Storage/Leases.lean
  ==============================
  **Service leases: `service_leases`.**

  One row per lease name says who holds it and until when.  Acquiring takes a lease
  that is absent, expired or already one's own; renewing needs a lease of one's own
  that has not expired; releasing deletes it.  SQLite compares the texts of the two
  timestamps through `julianday`, taken here as exact on instants.

  Each method is one statement, so an interleaving of owners is a list of calls.
-/
import AutoTrader.Storage.Orders

namespace AutoTrader

open Relational Transactional

/-- A statement on `service_leases`; its answer is the row count. -/
def onLeases (f : Table ServiceLease ServiceLease.leaseName →
    Table ServiceLease ServiceLease.leaseName × Bool) : Tx Bool :=
  .statement fun db => ((f db.serviceLeases).2, { db with serviceLeases := (f db.serviceLeases).1 })

/-- `julianday(expires_at) <= julianday(now)`. -/
def ServiceLease.expiredAt (lease : ServiceLease) (now : DateTime) : Bool :=
  sqlLe lease.expiresAt.julianday (TimeText.iso now).julianday

/-- `julianday(expires_at) > julianday(now)`. -/
def ServiceLease.runningAt (lease : ServiceLease) (now : DateTime) : Bool :=
  sqlGt lease.expiresAt.julianday (TimeText.iso now).julianday

/-- What `acquire_service_lease` and `renew_service_lease` check and compute before
    their statement: the expiry. -/
def leaseExpiry (leaseName ownerId : String) (ttlSeconds : Number) (now : DateTime) :
    Except Exn DateTime := do
  requireNonempty leaseName "lease_name"
  requireNonempty ownerId "owner_id"
  let ttl ← validatePositiveNumber ttlSeconds "ttl_seconds"
  now.add (timedelta ttl.val)

/-- `acquire_service_lease`; `clock` is read when no time is given. -/
def acquireServiceLease (clock : DateTime) (leaseName ownerId : String) (ttlSeconds : Number)
    (now : Option DateTime) : Tx Bool := do
  let acquired := now.getD clock
  let expires ← Exec.ofExcept (leaseExpiry leaseName ownerId ttlSeconds acquired)
  Exec.atomically (onLeases fun t =>
    t.upsertWhere ⟨leaseName, ownerId, acquired, acquired, .iso expires⟩
      fun old => old.ownerId = ownerId || old.expiredAt acquired)

/-- `renew_service_lease`. -/
def renewServiceLease (clock : DateTime) (leaseName ownerId : String) (ttlSeconds : Number)
    (now : Option DateTime) : Tx Bool := do
  let renewed := now.getD clock
  let expires ← Exec.ofExcept (leaseExpiry leaseName ownerId ttlSeconds renewed)
  Exec.atomically (onLeases fun t =>
    t.updateWhere leaseName (fun lease => lease.ownerId = ownerId && lease.runningAt renewed)
      (fun lease => { lease with renewedAt := renewed, expiresAt := .iso expires }) fun _ => rfl)

/-- `release_service_lease`. -/
def releaseServiceLease (leaseName ownerId : String) : Tx Bool := do
  Exec.ofExcept (requireNonempty leaseName "lease_name")
  Exec.ofExcept (requireNonempty ownerId "owner_id")
  Exec.atomically (onLeases fun t => t.deleteWhere leaseName fun lease => lease.ownerId = ownerId)

/-! ### Calls -/

inductive LeaseCall where
  | acquire (clock : DateTime) (leaseName ownerId : String) (ttlSeconds : Number)
      (now : Option DateTime)
  | renew (clock : DateTime) (leaseName ownerId : String) (ttlSeconds : Number)
      (now : Option DateTime)
  | release (leaseName ownerId : String)

namespace LeaseCall

def run : LeaseCall → Tx Bool
  | .acquire clock name owner ttl now => acquireServiceLease clock name owner ttl now
  | .renew clock name owner ttl now => renewServiceLease clock name owner ttl now
  | .release name owner => releaseServiceLease name owner

def leaseName : LeaseCall → String
  | .acquire _ name _ _ _ => name
  | .renew _ name _ _ _ => name
  | .release name _ => name

def ownerId : LeaseCall → String
  | .acquire _ _ owner _ _ => owner
  | .renew _ _ owner _ _ => owner
  | .release _ owner => owner

/-- The time of an acquisition or a renewal. -/
def time : LeaseCall → Option DateTime
  | .acquire clock _ _ _ now => some (now.getD clock)
  | .renew clock _ _ _ now => some (now.getD clock)
  | .release .. => none

/-- The TTL of an acquisition or a renewal, in seconds. -/
def ttl : LeaseCall → Option ℚ
  | .acquire _ _ _ ttl _ => ttl.positive?.map PosRat.val
  | .renew _ _ _ ttl _ => ttl.positive?.map PosRat.val
  | .release .. => none

def exec (c : LeaseCall) (db : Database) : Database := (c.run.run db).2

/-- The call returned `True`. -/
def succeeds (c : LeaseCall) (db : Database) : Prop := (c.run.run db).1 = .ok true

/-- The call takes the lease until the instant `expiry`: it starts at its own time
    and lasts its TTL, a whole number of microseconds. -/
def LeasesUntil (c : LeaseCall) (expiry : Int) : Prop :=
  ∃ t d, c.time = some t ∧ c.ttl = some d ∧ expiry = t.utcInstant + timedelta d

end LeaseCall

/-- The database after a list of calls. -/
def runLeases (calls : List LeaseCall) (db : Database) : Database :=
  calls.foldl (fun db c => c.exec db) db

theorem runLeases_append (calls calls' : List LeaseCall) (db : Database) :
    runLeases (calls ++ calls') db = runLeases calls' (runLeases calls db) :=
  List.foldl_append

/-! ### What a call does -/

theorem leaseExpiry_ok {leaseName ownerId : String} {ttlSeconds : Number} {now expires : DateTime}
    (h : leaseExpiry leaseName ownerId ttlSeconds now = .ok expires) :
    ∃ ttl, ttlSeconds.positive? = some ttl ∧ expires = { now with wall := now.wall + timedelta ttl.val } := by
  unfold leaseExpiry at h
  obtain ⟨_, -, h₁⟩ := Except.bind_eq_ok h
  obtain ⟨_, -, h₂⟩ := Except.bind_eq_ok h₁
  obtain ⟨ttl, httl, h₃⟩ := Except.bind_eq_ok h₂
  refine ⟨ttl, ?_, ?_⟩
  · unfold validatePositiveNumber at httl
    split at httl
    · cases httl; assumption
    · cases httl
  · unfold DateTime.add at h₃
    split at h₃
    · cases h₃; rfl
    · cases h₃

/-- What a call can do to the leases: nothing; write the caller's own lease, which
    was free for it; delete the caller's own lease. -/
inductive LeasesAfter (c : LeaseCall) (db : Database) : Prop
  | refused : ¬ c.succeeds db → c.exec db = db → LeasesAfter c db
  | leased (t expires : DateTime) (row : ServiceLease) : c.succeeds db → c.time = some t →
      c.LeasesUntil expires.utcInstant → expires.offset = t.offset →
      (∀ old, db.serviceLeases.find? c.leaseName = some old →
        old.ownerId = c.ownerId ∨ old.expiredAt t = true) →
      (c.exec db).serviceLeases.find? c.leaseName = some row → row.ownerId = c.ownerId →
      row.expiresAt = .iso expires →
      (∀ name, name ≠ c.leaseName →
        (c.exec db).serviceLeases.find? name = db.serviceLeases.find? name) → LeasesAfter c db
  | released (old : ServiceLease) : c.succeeds db → c.time = none →
      db.serviceLeases.find? c.leaseName = some old → old.ownerId = c.ownerId →
      (c.exec db).serviceLeases.find? c.leaseName = none →
      (∀ name, name ≠ c.leaseName →
        (c.exec db).serviceLeases.find? name = db.serviceLeases.find? name) → LeasesAfter c db

theorem LeasesAfter.of_error {c : LeaseCall} {db : Database} {e : Exn}
    (h : c.run.run db = (.error e, db)) : LeasesAfter c db := by
  refine .refused ?_ ?_
  · rw [LeaseCall.succeeds, h]
    exact fun h' => by cases h'
  · rw [LeaseCall.exec, h]

theorem LeasesAfter.of_false {c : LeaseCall} {db : Database} (h : c.run.run db = (.ok false, db)) :
    LeasesAfter c db := by
  refine .refused ?_ ?_
  · rw [LeaseCall.succeeds, h]
    exact fun h' => by cases h'
  · rw [LeaseCall.exec, h]

theorem utcInstant_add (t : DateTime) (delta : Int) :
    DateTime.utcInstant { t with wall := t.wall + delta } = t.utcInstant + delta := by
  simp only [DateTime.utcInstant]
  omega

theorem acquire_after (clock : DateTime) (name owner : String) (ttl : Number) (now : Option DateTime)
    (db : Database) : LeasesAfter (.acquire clock name owner ttl now) db := by
  cases hexpiry : leaseExpiry name owner ttl (now.getD clock) with
  | error e =>
    apply LeasesAfter.of_error (e := e)
    simp only [LeaseCall.run, acquireServiceLease, hexpiry, Exec.run_ofExcept_error_bind]
  | ok expires =>
    obtain ⟨d, hd, hexpires⟩ := leaseExpiry_ok hexpiry
    let row : ServiceLease := ⟨name, owner, now.getD clock, now.getD clock, .iso expires⟩
    have hrun : (LeaseCall.acquire clock name owner ttl now).run.run db =
        (.ok (db.serviceLeases.upsertWhere row fun old =>
            old.ownerId = owner || old.expiredAt (now.getD clock)).2,
          { db with serviceLeases := (db.serviceLeases.upsertWhere row fun old =>
            old.ownerId = owner || old.expiredAt (now.getD clock)).1 }) := by
      simp only [LeaseCall.run, acquireServiceLease, hexpiry, Exec.run_ofExcept_ok_bind,
        Exec.run_atomically, onLeases, Exec.run_statement]
      rfl
    rcases db.serviceLeases.upsertWhere_cases row
        (fun old => old.ownerId = owner || old.expiredAt (now.getD clock)) with
      ⟨old, -, -, hupsert⟩ | ⟨hfree, hupsert⟩
    · rw [hupsert] at hrun
      exact .of_false hrun
    · rw [hupsert] at hrun
      have hexec : (LeaseCall.exec (.acquire clock name owner ttl now) db).serviceLeases =
          db.serviceLeases.upsert row := by
        rw [LeaseCall.exec, hrun]
      refine .leased (now.getD clock) expires row (by rw [LeaseCall.succeeds, hrun]) rfl
        ⟨_, d.val, rfl, ?_, ?_⟩ (by rw [hexpires]) ?_ ?_ rfl rfl ?_
      · simp only [LeaseCall.ttl, hd, Option.map_some]
      · rw [hexpires, utcInstant_add]
      · intro old hold
        have hold' := hfree old hold
        rw [Bool.or_eq_true, decide_eq_true_eq] at hold'
        exact hold'
      · rw [hexec]
        exact db.serviceLeases.find?_upsert_self row
      · intro other hother
        rw [hexec]
        exact db.serviceLeases.find?_upsert_ne hother

theorem renew_after (clock : DateTime) (name owner : String) (ttl : Number) (now : Option DateTime)
    (db : Database) : LeasesAfter (.renew clock name owner ttl now) db := by
  cases hexpiry : leaseExpiry name owner ttl (now.getD clock) with
  | error e =>
    apply LeasesAfter.of_error (e := e)
    simp only [LeaseCall.run, renewServiceLease, hexpiry, Exec.run_ofExcept_error_bind]
  | ok expires =>
    obtain ⟨d, hd, hexpires⟩ := leaseExpiry_ok hexpiry
    let cond : ServiceLease → Bool := fun lease =>
      lease.ownerId = owner && lease.runningAt (now.getD clock)
    let rewrite : ServiceLease → ServiceLease := fun lease =>
      { lease with renewedAt := now.getD clock, expiresAt := .iso expires }
    have hrun : (LeaseCall.renew clock name owner ttl now).run.run db =
        (.ok (db.serviceLeases.updateWhere name cond rewrite fun _ => rfl).2,
          { db with
            serviceLeases := (db.serviceLeases.updateWhere name cond rewrite fun _ => rfl).1 }) := by
      simp only [LeaseCall.run, renewServiceLease, hexpiry, Exec.run_ofExcept_ok_bind,
        Exec.run_atomically, onLeases, Exec.run_statement]
      rfl
    rcases db.serviceLeases.updateWhere_cases name cond rewrite (fun _ => rfl) with
      ⟨-, hupdate⟩ | ⟨lease, hlease, hcond, hupdate⟩
    · rw [hupdate] at hrun
      exact .of_false hrun
    · rw [hupdate] at hrun
      have hexec : (LeaseCall.exec (.renew clock name owner ttl now) db).serviceLeases =
          db.serviceLeases.update name rewrite fun _ => rfl := by
        rw [LeaseCall.exec, hrun]
      have howner : lease.ownerId = owner := by
        simp only [cond, Bool.and_eq_true, decide_eq_true_eq] at hcond
        exact hcond.1
      refine .leased (now.getD clock) expires (rewrite lease) (by rw [LeaseCall.succeeds, hrun]) rfl
        ⟨_, d.val, rfl, ?_, ?_⟩ (by rw [hexpires]) ?_ ?_ howner rfl ?_
      · simp only [LeaseCall.ttl, hd, Option.map_some]
      · rw [hexpires, utcInstant_add]
      · intro old hold
        simp only [LeaseCall.leaseName, hlease, Option.some.injEq] at hold
        subst hold
        exact .inl howner
      · rw [hexec]
        simp only [LeaseCall.leaseName, Table.find?_update_self, hlease, Option.map_some]
      · intro other hother
        rw [hexec]
        exact Table.find?_update_ne _ hother _ _

theorem release_after (name owner : String) (db : Database) :
    LeasesAfter (.release name owner) db := by
  cases hname : requireNonempty name "lease_name" with
  | error e =>
    apply LeasesAfter.of_error (e := e)
    simp only [LeaseCall.run, releaseServiceLease, hname, Exec.run_ofExcept_error_bind]
  | ok _ =>
    cases howner : requireNonempty owner "owner_id" with
    | error e =>
      apply LeasesAfter.of_error (e := e)
      simp only [LeaseCall.run, releaseServiceLease, hname, howner, Exec.run_ofExcept_ok_bind,
        Exec.run_ofExcept_error_bind]
    | ok _ =>
      let cond : ServiceLease → Bool := fun lease => lease.ownerId = owner
      have hrun : (LeaseCall.release name owner).run.run db =
          (.ok (db.serviceLeases.deleteWhere name cond).2,
            { db with serviceLeases := (db.serviceLeases.deleteWhere name cond).1 }) := by
        simp only [LeaseCall.run, releaseServiceLease, hname, howner, Exec.run_ofExcept_ok_bind,
          Exec.run_atomically, onLeases, Exec.run_statement]
        rfl
      rcases db.serviceLeases.deleteWhere_cases name cond with ⟨-, hdelete⟩ | ⟨old, hold, hcond, hdelete⟩
      · rw [hdelete] at hrun
        exact .of_false hrun
      · rw [hdelete] at hrun
        have hexec : (LeaseCall.exec (.release name owner) db).serviceLeases =
            db.serviceLeases.delete name := by
          rw [LeaseCall.exec, hrun]
        refine .released old (by rw [LeaseCall.succeeds, hrun]) rfl hold (of_decide_eq_true hcond) ?_ ?_
        · rw [hexec]
          exact db.serviceLeases.find?_delete_self name
        · intro other hother
          rw [hexec]
          exact db.serviceLeases.find?_delete_ne hother

theorem LeaseCall.after (c : LeaseCall) (db : Database) : LeasesAfter c db := by
  cases c with
  | acquire clock name owner ttl now => exact acquire_after clock name owner ttl now db
  | renew clock name owner ttl now => exact renew_after clock name owner ttl now db
  | release name owner => exact release_after name owner db

end AutoTrader
