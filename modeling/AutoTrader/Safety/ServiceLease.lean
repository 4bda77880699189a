/-
  AutoTrader/Safety/ServiceLease.lean
  ===================================
  **A lease has one holder.**

  Owners acquire, renew and release leases in any order, at times that do not
  decrease.  Who took a lease keeps it until its expiry, unless the owner releases
  it or takes it again for less.  The expiry is judged by SQLite, by the guard of
  the submitter and by the supervisor; on aware timestamps the three agree.

  A TTL becomes a `timedelta`, a whole number of microseconds: a lease of less than
  half a microsecond has expired when it is taken.
-/
import AutoTrader.Pipeline.Submission
import AutoTrader.Pipeline.Supervisor
import AutoTrader.Storage.Leases

namespace AutoTrader

open Relational Transactional

/-! ### Times -/

/-- All times of the calls are aware. -/
def AwareCalls (calls : List LeaseCall) : Prop := ∀ c ∈ calls, ∀ t ∈ c.time, t.offset ≠ none

/-- The times of the calls do not decrease. -/
def Chronological (calls : List LeaseCall) : Prop :=
  (calls.filterMap LeaseCall.time).Pairwise fun t t' => t.utcInstant ≤ t'.utcInstant

/-- Every stored expiry is an aware timestamp. -/
def AwareLeases (db : Database) : Prop :=
  ∀ name lease, db.serviceLeases.find? name = some lease →
    ∃ t, lease.expiresAt = .iso t ∧ t.offset ≠ none

/-- An aware time is one instant, whatever a naive one would be read as. -/
theorem instant_eq_utcInstant {t : DateTime} (h : t.offset ≠ none) : t.instant = t.utcInstant := by
  cases hoffset : t.offset with
  | none => exact absurd hoffset h
  | some o => simp only [DateTime.instant, DateTime.utcInstant, hoffset, Option.getD_some]

/-! ### Holding a lease -/

/-- The lease is the owner's until `expiry` at least. -/
def HeldUntil (name owner : String) (expiry : Int) (db : Database) : Prop :=
  ∃ lease t, db.serviceLeases.find? name = some lease ∧ lease.ownerId = owner ∧
    lease.expiresAt = .iso t ∧ expiry ≤ t.utcInstant

/-- The call gives the lease up, or takes it for less. -/
def GivesUp (name owner : String) (expiry : Int) (c : LeaseCall) (db : Database) : Prop :=
  c.leaseName = name ∧ c.ownerId = owner ∧ c.succeeds db ∧
    (c.time = none ∨ ∃ expiry', c.LeasesUntil expiry' ∧ expiry' < expiry)

section Holding

variable {name owner : String} {expiry : Int} {db : Database}

/-- Who takes a lease holds it. -/
theorem HeldUntil.of_leased {c : LeaseCall} (hc : c.succeeds db) (hexpiry : c.LeasesUntil expiry) :
    HeldUntil c.leaseName c.ownerId expiry (c.exec db) := by
  obtain ⟨t, d, ht, hd, rfl⟩ := hexpiry
  cases c.after db with
  | refused hno => exact absurd hc hno
  | leased t' expires row _ _ huntil _ _ hrow howner hexpires _ =>
    obtain ⟨t'', d', ht'', hd', heq⟩ := huntil
    rw [ht, Option.some.injEq] at ht''
    rw [hd, Option.some.injEq] at hd'
    subst ht'' hd'
    exact ⟨row, expires, hrow, howner, hexpires, heq.ge⟩
  | released old _ hnone =>
    rw [ht] at hnone
    cases hnone

/-- A held lease has not expired. -/
theorem HeldUntil.not_expired (h : HeldUntil name owner expiry db) {t : DateTime}
    (ht : t.utcInstant < expiry) {lease : ServiceLease}
    (hlease : db.serviceLeases.find? name = some lease) : lease.ownerId = owner ∧ lease.expiredAt t = false := by
  obtain ⟨lease', expires, hlease', howner, hexpires, hle⟩ := h
  rw [hlease, Option.some.injEq] at hlease'
  subst hlease'
  refine ⟨howner, ?_⟩
  simp only [ServiceLease.expiredAt, hexpires, TimeText.julianday, sqlLe, decide_eq_false_iff_not]
  omega

/-- Before the expiry nobody else takes a held lease. -/
theorem HeldUntil.excludes (h : HeldUntil name owner expiry db) {c : LeaseCall} {t : DateTime}
    (hname : c.leaseName = name) (howner : c.ownerId ≠ owner) (htime : c.time = some t)
    (ht : t.utcInstant < expiry) : ¬ c.succeeds db := by
  intro hc
  cases c.after db with
  | refused hno => exact hno hc
  | leased t' expires row _ ht' _ _ hfree _ _ _ _ =>
    rw [htime, Option.some.injEq] at ht'
    subst ht'
    obtain ⟨lease, expires', hlease, howner', -, -⟩ := id h
    obtain ⟨-, hrunning⟩ := h.not_expired ht hlease
    rcases hfree lease (by rw [hname]; exact hlease) with hsame | hexpired
    · exact howner (hsame.symm.trans howner')
    · rw [hrunning] at hexpired
      cases hexpired
  | released old _ hnone =>
    rw [htime] at hnone
    cases hnone

/-- One call before the expiry: the lease stays held, or its owner gives it up. -/
theorem HeldUntil.step (h : HeldUntil name owner expiry db) (c : LeaseCall)
    (ht : ∀ t ∈ c.time, t.utcInstant < expiry) :
    HeldUntil name owner expiry (c.exec db) ∨ GivesUp name owner expiry c db := by
  obtain ⟨lease, expires', hlease, howner', hexpires', hle⟩ := id h
  cases c.after db with
  | refused _ hexec => rw [hexec]; exact .inl h
  | leased t expires row hc htime huntil _ hfree hrow howner hexpires hothers =>
    by_cases hname : c.leaseName = name
    · -- the lease is not expired, so the call is its owner's
      have hown : c.ownerId = owner := by
        by_contra hne
        exact h.excludes hname hne htime (ht t htime) hc
      by_cases hless : expires.utcInstant < expiry
      · exact .inr ⟨hname, hown, hc, .inr ⟨_, huntil, hless⟩⟩
      · rw [hname] at hrow
        exact .inl ⟨row, expires, hrow, howner.trans hown, hexpires, by omega⟩
    · exact .inl ⟨lease, expires', by rw [hothers name (Ne.symm hname)]; exact hlease, howner',
        hexpires', hle⟩
  | released old hc htime hold hown _ hothers =>
    by_cases hname : c.leaseName = name
    · rw [hname, hlease, Option.some.injEq] at hold
      subst hold
      exact .inr ⟨hname, hown.symm.trans howner', hc, .inl htime⟩
    · exact .inl ⟨lease, expires', by rw [hothers name (Ne.symm hname)]; exact hlease, howner',
        hexpires', hle⟩

/-- Any calls before the expiry: the lease stays held, or its owner gives it up in
    between. -/
theorem HeldUntil.run (calls : List LeaseCall) {db : Database} (h : HeldUntil name owner expiry db)
    (ht : ∀ c ∈ calls, ∀ t ∈ c.time, t.utcInstant < expiry) :
    HeldUntil name owner expiry (runLeases calls db) ∨
    ∃ front c back, calls = front ++ c :: back ∧
      GivesUp name owner expiry c (runLeases front db) := by
  induction calls generalizing db with
  | nil => exact .inl h
  | cons c rest ih =>
    rcases h.step c (ht c List.mem_cons_self) with hheld | hgives
    · rcases ih hheld (fun c' hc' => ht c' (List.mem_cons_of_mem _ hc')) with hrest | ⟨front, c', back, rfl, hc'⟩
      · exact .inl hrest
      · exact .inr ⟨c :: front, c', back, rfl, hc'⟩
    · exact .inr ⟨[], c, rest, rfl, hgives⟩

end Holding

/-- Calls keep the stored timestamps aware. -/
theorem AwareLeases.run (calls : List LeaseCall) {db : Database} (h : AwareLeases db)
    (haware : AwareCalls calls) : AwareLeases (runLeases calls db) := by
  induction calls generalizing db with
  | nil => exact h
  | cons c rest ih =>
    refine ih ?_ fun c' hc' => haware c' (List.mem_cons_of_mem _ hc')
    intro name lease hlease
    change (c.exec db).serviceLeases.find? name = some lease at hlease
    cases c.after db with
    | refused _ hexec => rw [hexec] at hlease; exact h name lease hlease
    | leased t expires row _ htime _ hoffset _ hrow _ hexpires hothers =>
      by_cases hname : name = c.leaseName
      · rw [hname, hrow, Option.some.injEq] at hlease
        subst hlease
        exact ⟨expires, hexpires, by rw [hoffset]; exact haware c List.mem_cons_self t htime⟩
      · rw [hothers name hname] at hlease
        exact h name lease hlease
    | released old _ _ _ _ hnone hothers =>
      by_cases hname : name = c.leaseName
      · rw [hname, hnone] at hlease
        cases hlease
      · rw [hothers name hname] at hlease
        exact h name lease hlease

/-! ### The three judgements -/

section Judgements

variable {lease : ServiceLease} {now : DateTime}

/-- SQLite's two comparisons are opposite on timestamps it can read. -/
theorem expiredAt_eq_not {t : DateTime} (h : lease.expiresAt = .iso t) :
    lease.expiredAt now = !lease.runningAt now := by
  simp only [ServiceLease.expiredAt, ServiceLease.runningAt, h, TimeText.julianday, sqlLe, sqlGt]
  by_cases hlt : now.utcInstant < t.utcInstant
  · simp [hlt]
  · simp [hlt, not_lt.mp hlt]

theorem guard_eq_runningAt {t : DateTime} (h : lease.expiresAt = .iso t) (haware : t.offset ≠ none)
    (hnow : now.offset ≠ none) :
    leaseBelongsToOwner (some lease) lease.ownerId now = lease.runningAt now := by
  simp only [leaseBelongsToOwner, ServiceLease.runningAt, h, TimeText.fromisoformat, TimeText.julianday,
    sqlGt, decide_true, Bool.true_and, instant_eq_utcInstant haware, instant_eq_utcInstant hnow]

theorem supervisor_eq_runningAt {db : Database} (hlease : db.serviceLeases.find? serviceLeaseName = some lease)
    {t : DateTime} (h : lease.expiresAt = .iso t) :
    leaseIsValid db (some lease.ownerId) now = lease.runningAt now := by
  simp only [leaseIsValid, hlease, parseTimestamp, h, TimeText.fromisoformat, ServiceLease.runningAt,
    TimeText.julianday, sqlGt, Option.all_some, decide_true, Bool.true_and]

theorem owner_of_guard {row : Option ServiceLease} {owner : String}
    (h : leaseBelongsToOwner row owner now = true) : ∃ lease, row = some lease ∧ lease.ownerId = owner := by
  cases row with
  | none => cases h
  | some lease =>
    simp only [leaseBelongsToOwner, Bool.and_eq_true, decide_eq_true_eq] at h
    exact ⟨lease, rfl, h.1⟩

theorem owner_of_supervisor {db : Database} {owner : String} (h : leaseIsValid db (some owner) now = true) :
    ∃ lease, db.serviceLeases.find? serviceLeaseName = some lease ∧ lease.ownerId = owner := by
  unfold leaseIsValid at h
  cases hlease : db.serviceLeases.find? serviceLeaseName with
  | none => rw [hlease] at h; cases h
  | some lease =>
    rw [hlease] at h
    simp only [Option.all_some, Bool.and_eq_true, decide_eq_true_eq] at h
    exact ⟨lease, rfl, h.1.symm⟩

end Judgements

/-- The owner passes the guard's check or the supervisor's. -/
def Passes (db : Database) (now : DateTime) (owner : String) : Prop :=
  leaseBelongsToOwner (db.serviceLeases.find? serviceLeaseName) owner now = true ∨
    leaseIsValid db (some owner) now = true

theorem Passes.holder {db : Database} {now : DateTime} {owner : String} (h : Passes db now owner) :
    ∃ lease, db.serviceLeases.find? serviceLeaseName = some lease ∧ lease.ownerId = owner := by
  rcases h with h | h
  · exact owner_of_guard h
  · exact owner_of_supervisor h

/-! ### Every interleaving -/

theorem Chronological.before {pre mid post : List LeaseCall} {a b c : LeaseCall}
    (h : Chronological (pre ++ a :: (mid ++ b :: post))) (hc : c ∈ mid) {t t' : DateTime}
    (ht : c.time = some t) (ht' : b.time = some t') : t.utcInstant ≤ t'.utcInstant := by
  unfold Chronological at h
  have hsub : (mid ++ b :: post).Sublist (pre ++ a :: (mid ++ b :: post)) :=
    (List.sublist_cons_self a _).trans (List.sublist_append_right pre _)
  have htail := h.sublist (hsub.filterMap LeaseCall.time)
  rw [List.filterMap_append, List.pairwise_append] at htail
  refine htail.2.2 t (List.mem_filterMap.mpr ⟨c, hc, ht⟩) t' ?_
  exact List.mem_filterMap.mpr ⟨b, List.mem_cons_self, ht'⟩

/-- **A lease excludes the other owners.**  In every interleaving with aware times
    that do not decrease: who took a lease at `t` for the TTL `d` keeps it until
    `t + timedelta(d)`, unless that owner released it or took it again for less;
    one owner at most passes the checks; and they agree with SQLite. -/
theorem service_lease_exclusion (db : Database) (hdb : AwareLeases db) (calls : List LeaseCall)
    (haware : AwareCalls calls) (hchronological : Chronological calls) :
    (∀ pre a mid b post expiry t, calls = pre ++ a :: (mid ++ b :: post) →
      a.succeeds (runLeases pre db) → a.LeasesUntil expiry → b.leaseName = a.leaseName →
      b.ownerId ≠ a.ownerId → b.time = some t → t.utcInstant < expiry →
      b.succeeds (runLeases (pre ++ a :: mid) db) →
      ∃ front c back, mid = front ++ c :: back ∧
        GivesUp a.leaseName a.ownerId expiry c (runLeases (pre ++ a :: front) db)) ∧
    ∀ pre post, calls = pre ++ post → ∀ now : DateTime, now.offset ≠ none →
      (∀ owner owner', Passes (runLeases pre db) now owner → Passes (runLeases pre db) now owner' →
        owner = owner') ∧
      ∀ name lease, (runLeases pre db).serviceLeases.find? name = some lease →
        leaseBelongsToOwner (some lease) lease.ownerId now = lease.runningAt now ∧
        (name = serviceLeaseName →
          leaseIsValid (runLeases pre db) (some lease.ownerId) now = lease.runningAt now) ∧
        lease.expiredAt now = !lease.runningAt now := by
  constructor
  · intro pre a mid b post expiry t hcalls ha hexpiry hname howner htime ht hb
    subst hcalls
    have hheld := HeldUntil.of_leased ha hexpiry
    have hbefore : ∀ c ∈ mid, ∀ t' ∈ c.time, t'.utcInstant < expiry := fun c hc t' ht' =>
      lt_of_le_of_lt (hchronological.before hc ht' htime) ht
    have hstate : ∀ rest, runLeases (pre ++ a :: rest) db =
        runLeases rest (a.exec (runLeases pre db)) := fun rest => by
      rw [runLeases_append]
      rfl
    rcases hheld.run mid hbefore with hstill | ⟨front, c, back, hmid, hgives⟩
    · rw [hstate] at hb
      exact absurd hb (hstill.excludes hname howner htime ht)
    · exact ⟨front, c, back, hmid, by rw [hstate]; exact hgives⟩
  · intro pre post hcalls now hnow
    have hleases : AwareLeases (runLeases pre db) := hdb.run pre fun c hc =>
      haware c (by rw [hcalls]; exact List.mem_append_left _ hc)
    constructor
    · intro owner owner' h h'
      obtain ⟨lease, hlease, rfl⟩ := h.holder
      obtain ⟨lease', hlease', rfl⟩ := h'.holder
      rw [hlease, Option.some.injEq] at hlease'
      rw [hlease']
    · intro name lease hlease
      obtain ⟨t, hexpires, ht⟩ := hleases name lease hlease
      refine ⟨guard_eq_runningAt hexpires ht hnow, ?_, expiredAt_eq_not hexpires⟩
      rintro rfl
      exact supervisor_eq_runningAt hlease hexpires

namespace ShortLease

def start : DateTime := .combine 20000 10 0 0 (some DateTime.kstOffset)

/-- The same time on a UTC clock, and half a minute later. -/
def startUtc : DateTime := .combine 20000 1 0 0 (some 0)

def later : DateTime := .combine 20000 1 0 30 (some 0)

/-- One owner takes the lease for a minute, another tries half a minute later. -/
def minute : List LeaseCall :=
  [.acquire start serviceLeaseName "owner-a" (.int 60) none,
    .acquire later serviceLeaseName "owner-b" (.int 60) none]

/-- The second owner is refused. -/
theorem minute_lease_excludes :
    (LeaseCall.acquire start serviceLeaseName "owner-a" (.int 60) none).succeeds Database.empty ∧
    ¬ (LeaseCall.acquire later serviceLeaseName "owner-b" (.int 60) none).succeeds
      (runLeases [.acquire start serviceLeaseName "owner-a" (.int 60) none] Database.empty) := by
  have hfirst : (LeaseCall.acquire start serviceLeaseName "owner-a" (.int 60) none).succeeds
      Database.empty := Except.eq_ok_of_toOption (by decide +kernel)
  refine ⟨hfirst, fun hsecond => ?_⟩
  have hexclusion := (service_lease_exclusion Database.empty (fun name lease h => by cases h) minute
    (by unfold AwareCalls minute; decide +kernel) (by unfold Chronological minute; decide +kernel)).1
  obtain ⟨front, c, back, hmid, -⟩ := hexclusion [] _ [] _ [] (start.utcInstant + 60000000) later rfl
    hfirst ⟨start, 60, rfl, by decide +kernel, by decide +kernel⟩ rfl (by decide) rfl (by decide +kernel)
    hsecond
  cases front <;> cases hmid

/-- A TTL of 0.4 microseconds, and another owner at the same instant. -/
def short : Number := .float (.fin (4 / 10000000))

/-- With the TTL taken exactly the exclusion fails: the second owner succeeds at an
    instant before `t + d`. -/
theorem short_lease_shared :
    ¬ ∀ (db : Database), AwareLeases db → ∀ calls, AwareCalls calls → Chronological calls →
      ∀ pre a mid b post t d t', calls = pre ++ a :: (mid ++ b :: post) →
      a.succeeds (runLeases pre db) → a.time = some t → a.ttl = some d → b.leaseName = a.leaseName →
      b.ownerId ≠ a.ownerId → b.time = some t' →
      (t'.utcInstant : ℚ) < t.utcInstant + d * DateTime.microsPerSecond →
      b.succeeds (runLeases (pre ++ a :: mid) db) → ∃ c ∈ mid, c.ownerId = a.ownerId := by
  intro hall
  obtain ⟨c, hc, -⟩ := hall Database.empty (fun name lease h => by cases h)
    [.acquire start serviceLeaseName "owner-a" short none,
      .acquire startUtc serviceLeaseName "owner-b" short none]
    (by unfold AwareCalls; decide +kernel) (by unfold Chronological; decide +kernel)
    [] _ [] _ [] start (4 / 10000000) startUtc rfl (Except.eq_ok_of_toOption (by decide +kernel)) rfl
    (by decide +kernel) rfl (by decide) rfl (by decide +kernel)
    (Except.eq_ok_of_toOption (by decide +kernel))
  cases hc

end ShortLease

end AutoTrader
