import Artoo.Server.Effects
import Artoo.Lib.TimestampText

/-! Expiry of file leases: the stored text of `expires_at` against the text of now. -/
namespace Artoo.Server
open Artoo.Lib Tx

variable {lease l : LeaseRow} {leases : List LeaseRow} {expiry : Option Timestamptz}
  {now : IsoMoment} {text : String} {db : Database}

/-! ## The sweep -/

/-- What the sweep over some leases makes of a lease. -/
def swept (leases : List LeaseRow) (now : String) (l : LeaseRow) : LeaseRow :=
  if l ∈ leases ∧ l.status = .held ∧ isActive l now = false then { l with status := .expired } else l

theorem stale_iff : (l.status == .held && leasePast l text) = true ↔
    l.status = .held ∧ isActive l text = false := by
  unfold isActive
  rw [Bool.and_eq_true, beq_iff_eq]
  constructor
  · rintro ⟨held, past⟩
    exact ⟨held, by simp [past]⟩
  · rintro ⟨held, off⟩
    refine ⟨held, ?_⟩
    simpa [held] using off

theorem swept_cons {rest : List LeaseRow} (apart : l.id ∉ rest.map (·.id)) (x : LeaseRow) :
    swept rest text (swept [l] text x) = swept (l :: rest) text x := by
  have fresh : l ∉ rest := fun there => apart (List.mem_map_of_mem there)
  unfold swept
  by_cases hit : x = l
  · subst hit
    by_cases stale : x.status = .held ∧ isActive x text = false
    · have off : ({ x with status := .expired } : LeaseRow).status ≠ .held := nofun
      simp [stale, off]
    · simp [stale, fresh]
  · simp [hit]

/-- The leases that a round of the loop leaves. -/
theorem swept_one {db' : Database} (current : db.leases.get? l.id = some l)
    (here : db'.leases.get? l.id = some (swept [l] text l))
    (others : ∀ id, id ≠ l.id → db'.leases.get? id = db.leases.get? id) (id : String) :
    db'.leases.get? id = (db.leases.get? id).map (swept [l] text) := by
  by_cases hit : id = l.id
  · rw [hit, here, current]
    rfl
  · rw [others id hit]
    cases found : db.leases.get? id with
    | none => rfl
    | some x =>
      have other : x ≠ l := by
        rintro rfl
        exact hit (Table.key_of_get? found).symm
      have kept : swept [l] text x = x := if_neg fun h => other (List.mem_singleton.mp h.1)
      exact congrArg some kept.symm

theorem wp_sweepOne (current : db.leases.get? l.id = some l) :
    wp (expireStaleLeases [l] text) (fun _ db' =>
      ∀ id, db'.leases.get? id = (db.leases.get? id).map (swept [l] text)) db := by
  unfold expireStaleLeases
  change wp ((if l.status == .held && leasePast l text then _ else _) >>= fun _ => _) _ db
  split
  · rename_i stale
    have expired : swept [l] text l = { l with status := .expired } :=
      if_pos ⟨List.mem_singleton_self l, stale_iff.mp stale⟩
    unfold updateLease
    simp only [wp_bind, wp_update, current, Option.toList_some, List.map_cons, List.map_nil,
      writeAll_cons, writeAll_nil, write_eq, wp_logEvent]
    intro _ _ _
    apply swept_one current
    · change (db.leases.put { l with status := .expired }).get? l.id = _
      rw [expired]
      exact Table.get?_put_self
    · intro id other
      change (db.leases.put { l with status := .expired }).get? id = _
      exact Table.get?_put_other (Ne.symm other)
  · rename_i fresh
    have same : swept [l] text l = l :=
      if_neg fun h => fresh (stale_iff.mpr h.2)
    exact swept_one current (same.symm ▸ current) fun _ _ => rfl

/-- The sweep expires, of the leases given, the held ones that are not active, and changes no other
lease. -/
theorem wp_sweep (apart : (leases.map (·.id)).Nodup)
    (current : ∀ l ∈ leases, db.leases.get? l.id = some l) :
    wp (expireStaleLeases leases text) (fun _ db' =>
      ∀ id, db'.leases.get? id = (db.leases.get? id).map (swept leases text)) db := by
  induction leases generalizing db with
  | nil =>
    intro id
    cases found : db.leases.get? id with
    | none => rfl
    | some x =>
      have kept : swept [] text x = x := if_neg fun h => List.not_mem_nil h.1
      exact congrArg some kept.symm
  | cons l rest ih =>
    rw [List.map_cons, List.nodup_cons] at apart
    have split_ : expireStaleLeases (l :: rest) text =
        (expireStaleLeases [l] text >>= fun _ => expireStaleLeases rest text) := by
      unfold expireStaleLeases
      simp
    rw [split_]
    apply wp_seq (wp_sweepOne (current l List.mem_cons_self))
    intro _ mid first
    have still : ∀ m ∈ rest, mid.leases.get? m.id = some m := by
      intro m member
      have other : m ≠ l := by
        rintro rfl
        exact apart.1 (List.mem_map_of_mem member)
      have kept : swept [l] text m = m := if_neg fun h => other (List.mem_singleton.mp h.1)
      rw [first, current m (List.mem_cons_of_mem _ member)]
      exact congrArg some kept
    apply wp_mono (ih apart.2 still)
    intro _ db' later id
    rw [later, first, Option.map_map]
    congr 1
    funext x
    exact swept_cons apart.1 x

/-! ## The comparison -/

/-- A lease is active while it is held and does not expire or expires at an instant after now, and
the sweep expires the held leases that are not active. -/
structure ExpiresInTime (lease : LeaseRow) (expiry : Option Timestamptz) (now : IsoMoment) :
    Prop where
  active : isActive lease now.text ↔ lease.status = .held ∧ ∀ t ∈ expiry, t.After now
  sweep : ∀ db leases, (leases.map LeaseRow.id).Nodup →
    (∀ l ∈ leases, db.leases.get? l.id = some l) →
    wp (expireStaleLeases leases now.text) (fun _ db' =>
      ∀ id, db'.leases.get? id = (db.leases.get? id).map (swept leases now.text)) db

theorem isActive_iff (stored : lease.expiresAt = expiry.map (·.text)) : isActive lease now.text ↔
    lease.status = .held ∧ ∀ t ∈ expiry, isoDate now.date < t.written := by
  unfold isActive leasePast
  rw [stored, Bool.and_eq_true, beq_iff_eq]
  cases expiry with
  | none => simp
  | some t =>
    simp only [Option.map_some, Bool.not_not, decide_eq_true_eq, Option.mem_def, Option.some.injEq,
      forall_eq', text_lt]

/-- In a session of UTC the dates decide, but for a lease that expires later on the same day. -/
theorem written_iff_after {m : Moment} (offset : m.offset = now.zone.seconds)
    (least : 1 ≤ m.date.year) (most : m.date.year ≤ 9999) (least' : 0 ≤ now.date.year)
    (most' : now.date.year ≤ 9999) :
    (isoDate now.date < (Timestamptz.moment m).written ↔ (Timestamptz.moment m).After now) ↔
      ¬ (now.date = m.date ∧ now.time.seconds < m.time.seconds) := by
  have order : isoDate now.date < (Timestamptz.moment m).written ↔ now.date.Before m.date :=
    isoDate_lt_pgDate least' most' least most
  have after : (Timestamptz.moment m).After now ↔ now.date.Before m.date ∨
      (now.date = m.date ∧ now.time.seconds < m.time.seconds) :=
    Moment.instant_lt (x := ⟨now.date, now.time, now.zone.seconds⟩) offset.symm
  rw [order, after]
  constructor
  · intro same later
    have before := same.mpr (Or.inr later)
    rw [later.1] at before
    exact absurd (Date.before_iff.mp before) (lt_irrefl _)
  · intro off
    constructor
    · exact Or.inl
    · rintro (before | later)
      · exact before
      · exact absurd later off

/-- A lease expires in time where the date that its expiry writes is after the date of now exactly
when the expiry is after now. Of two texts of one offset, this fails on the day of the expiry. -/
theorem lease_expiry (stored : lease.expiresAt = expiry.map (·.text)) :
    (ExpiresInTime lease expiry now ↔ (lease.status = .held →
      ∀ t ∈ expiry, (isoDate now.date < t.written ↔ t.After now))) ∧
    ∀ m, expiry = some (.moment m) → lease.status = .held → m.offset = now.zone.seconds →
      1 ≤ m.date.year → m.date.year ≤ 9999 → 0 ≤ now.date.year → now.date.year ≤ 9999 →
      (ExpiresInTime lease expiry now ↔
        ¬ (now.date = m.date ∧ now.time.seconds < m.time.seconds)) := by
  have first : ExpiresInTime lease expiry now ↔ (lease.status = .held →
      ∀ t ∈ expiry, (isoDate now.date < t.written ↔ t.After now)) := by
    have active := @isActive_iff lease expiry now stored
    constructor
    · intro in_ held t there
      cases there
      have both := active.symm.trans in_.active
      simpa [held] using both
    · intro agree
      refine ⟨active.trans ?_, fun db leases apart current => wp_sweep apart current⟩
      constructor
      · rintro ⟨held, later⟩
        exact ⟨held, fun t there => (agree held t there).mp (later t there)⟩
      · rintro ⟨held, later⟩
        exact ⟨held, fun t there => (agree held t there).mpr (later t there)⟩
  refine ⟨first, ?_⟩
  rintro m rfl held offset least most least' most'
  rw [first, ← written_iff_after offset least most least' most']
  constructor
  · intro agree
    exact agree held _ rfl
  · intro agree _ t there
    cases there
    exact agree

namespace Sample

def july11 : Date where
  year := 2026
  month := 7
  day := 11
  month_range := by decide
  day_range := by decide

def july10 : Date where
  year := 2026
  month := 7
  day := 10
  month_range := by decide
  day_range := by decide

def one : TimeOfDay where
  hour := 1
  minute := 0
  second := 0
  fraction := [0, 0, 0]
  hour_range := by decide
  minute_range := by decide
  second_range := by decide

def evening : TimeOfDay where
  hour := 23
  minute := 0
  second := 0
  hour_range := by decide
  minute_range := by decide
  second_range := by decide

def nightly : IsoMoment := ⟨july11, one, .utc⟩

def tonight : Moment := ⟨july11, evening, 0⟩

def writer : LeaseRow :=
  { id := "lease", projectId := "project", taskId := "task", runId := none, holderType := .task
    holderId := "task", path := "src", mode := .write, status := .held
    acquiredAt := "2026-07-11 00:00:00+00", expiresAt := some "2026-07-11 23:00:00+00"
    releasedAt := none }

end Sample
open Sample

theorem lease_expiry_day_before :
    ExpiresInTime writer (some (.moment tonight)) ⟨july10, one, .utc⟩ := by
  have stored : writer.expiresAt = (some (Timestamptz.moment tonight)).map (·.text) := by
    decide +kernel
  have timely := (@lease_expiry writer _ ⟨july10, one, .utc⟩ stored).2 tonight rfl rfl rfl (by decide)
    (by decide) (by decide) (by decide)
  exact timely.mpr fun h => absurd h.1 (by decide)

/-- At one o'clock a lease that expires at eleven in the evening counts as past. -/
theorem lease_expires_early : nightly.text = "2026-07-11T01:00:00.000Z" ∧
    (Timestamptz.moment tonight).text = "2026-07-11 23:00:00+00" ∧
    (Timestamptz.moment tonight).After nightly ∧ isActive writer nightly.text = false ∧
    ¬ ExpiresInTime writer (some (.moment tonight)) nightly := by
  have later : (Timestamptz.moment tonight).After nightly := by
    change nightly.instant < tonight.instant
    decide +kernel
  have off : isActive writer nightly.text = false := by decide +kernel
  refine ⟨by decide +kernel, by decide +kernel, later, off, fun in_ => ?_⟩
  have on := in_.active.mpr ⟨rfl, fun t there => by cases there; exact later⟩
  rw [off] at on
  cases on

end Artoo.Server
