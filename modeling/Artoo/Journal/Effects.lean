import Artoo.Journal.Execute

/-! What one call means for every run of the database: where each run comes from, what it
keeps, and where its attempts and acknowledgements come from. -/
namespace Artoo.Journal
open Artoo.Protocol Artoo.Lib

variable {w : Worker} {digest : NodeRunEvent → String} {db db' : Database}

/-- A database holds at most one cell for a run. -/
theorem Held.unique {c d : Cell} (hc : Held db c) (hd : Held db d) (same : c.row.runId = d.row.runId) :
    c = d := by
  obtain ⟨row, receipt, rows⟩ := c
  obtain ⟨row', receipt', rows'⟩ := d
  obtain ⟨runs, outbox, recorded⟩ := hc
  obtain ⟨runs', outbox', recorded'⟩ := hd
  simp only at same runs outbox recorded runs' outbox' recorded'
  rw [same] at runs outbox
  obtain rfl := Option.some.inj (runs.symm.trans runs')
  rw [← outbox, ← outbox', ← recorded, ← recorded']

/-- A run outside the frame is stored as before. -/
theorem Frame.stored {r : String} {c : Cell} (frame : Frame r db db') (other : c.row.runId ≠ r)
    (h : Stored digest db c) : Stored digest db' c where
  runs := (frame.runs _ other).trans h.runs
  outbox := (frame.outbox _ other).trans h.outbox
  receipt := by
    have found := h.receipt
    have recorded := h.inv.recorded
    cases id : c.row.receiptId with
    | none =>
      rw [id, Option.bind_none] at found
      rw [Option.bind_none, found]
    | some key =>
      rw [id, Option.bind_some] at found
      rw [id] at recorded
      cases saved : c.receipt with
      | none => simp [saved] at recorded
      | some receipt =>
        rw [saved] at found
        exact frame.receipts key receipt found
  inv := h.inv

namespace Effect

variable {cmd : Command} {reply : Reply}

/-- Where a stored run of the new database comes from. -/
inductive Origin (w : Worker) (cmd : Command) (db : Database) (reply : Reply) (db' : Database)
    (c' : Cell) : Prop where
  | admitted {input : AdmitInput} (command : cmd = .admitRun input)
      (reply : reply = .admission .fresh ((Cell.admitted input w.incarnation).view w.incarnation))
      (absent : db.runs c'.row.runId = none) (cell : c' = Cell.admitted input w.incarnation)
  | fenced {key : Option String} {receipt : ReceiptRow} (stale : reply.fresh = false)
      (absent : db.runs c'.row.runId = none) (cell : c' = Cell.fenced c'.row.runId key receipt)
  | kept (stored : Stored w.digest db c')
  | moved {c : Cell} {ls : List Label} (names : c.row.runId = cmd.runId)
      (stored : Stored w.digest db c) (account : Account w cmd db c reply db' c' ls)

theorem origin (effect : Effect w cmd db reply db') (inv : db.Inv w.digest) {c' : Cell}
    (h : Held db' c') : Origin w cmd db reply db' c' := by
  -- A run outside the frame is the one stored before.
  have outside : ∀ {r : String}, Frame r db db' → c'.row.runId ≠ r → Stored w.digest db c' := by
    intro r frame other
    obtain ⟨c, same, -, stored⟩ := inv.stored _ _ ((frame.runs _ other).symm.trans h.runs)
    have kept := frame.stored (same ▸ other) stored
    exact kept.toHeld.unique h (by rw [same]) ▸ stored
  cases effect with
  | same absent reads unchanged =>
    rw [unchanged] at h
    obtain ⟨c, same, -, stored⟩ := inv.stored _ _ h.runs
    exact .kept (stored.toHeld.unique h (by rw [same]) ▸ stored)
  | @admitted input command absent reply stored frame =>
    by_cases hit : c'.row.runId = input.runId
    · exact .admitted command reply (hit ▸ absent) (h.unique stored.toHeld hit)
    · exact .kept (outside frame hit)
  | @fenced runId key receipt command absent reply stored frame =>
    by_cases hit : c'.row.runId = runId
    · have cell : c' = Cell.fenced c'.row.runId key receipt := by
        rw [hit]
        exact h.unique stored.toHeld hit
      exact .fenced (by rw [reply]; rfl) (hit ▸ absent) cell
    · exact .kept (outside frame hit)
  | @moved c d ls names stored account =>
    by_cases hit : c'.row.runId = c.row.runId
    · have same : d.row.runId = c.row.runId := path_runId account.moves.path
      obtain rfl := h.unique account.moves.stored.toHeld (hit.trans same.symm)
      exact .moved names stored account
    · exact .kept (outside account.moves.frame hit)

/-- What becomes of a stored run. -/
theorem onward (effect : Effect w cmd db reply db') {c : Cell} (h : Stored w.digest db c) :
    ∃ c', Stored w.digest db' c' ∧ (c' = c ∨ ∃ ls, c.row.runId = cmd.runId ∧
      Account w cmd db c reply db' c' ls) := by
  cases effect with
  | same absent reads unchanged => exact ⟨c, unchanged ▸ h, .inl rfl⟩
  | @admitted input command absent reply stored frame =>
    refine ⟨c, frame.stored ?_ h, .inl rfl⟩
    rintro hit
    rw [← hit, h.runs] at absent
    cases absent
  | @fenced runId key receipt command absent reply stored frame =>
    refine ⟨c, frame.stored ?_ h, .inl rfl⟩
    rintro hit
    rw [← hit, h.runs] at absent
    cases absent
  | @moved d d' ls names stored account =>
    by_cases hit : c.row.runId = d.row.runId
    · obtain rfl := h.toHeld.unique stored.toHeld hit
      exact ⟨d', account.moves.stored, .inr ⟨ls, names, account⟩⟩
    · exact ⟨c, account.moves.frame.stored hit h, .inl rfl⟩

theorem inv (effect : Effect w cmd db reply db') (inv : db.Inv w.digest) : db'.Inv w.digest := by
  -- A call that writes to run `r` leaves it known.
  have known : ∀ {r : String} {c : Cell}, Frame r db db' → c.row.runId = r → Stored w.digest db' c →
      db'.Inv w.digest := by
    intro r c frame names stored
    refine ⟨fun s absent => ?_, fun s row found => ?_⟩
    · by_cases hit : s = r
      · rw [hit, ← names, stored.runs] at absent
        cases absent
      · exact (frame.outbox s hit).trans (inv.empty s ((frame.runs s hit).symm.trans absent))
    · by_cases hit : s = r
      · rw [hit, ← names, stored.runs] at found
        exact ⟨c, Option.some.inj found, by rw [← Option.some.inj found, names, hit], stored⟩
      · obtain ⟨d, rfl, runId, old⟩ := inv.stored s row ((frame.runs s hit).symm.trans found)
        exact ⟨d, rfl, runId, frame.stored (runId ▸ hit) old⟩
  cases effect with
  | same absent reads unchanged => exact unchanged ▸ inv
  | admitted command absent reply stored frame => exact known frame rfl stored
  | fenced command absent reply stored frame => exact known frame rfl stored
  | moved names stored account =>
    exact known account.moves.frame (path_runId account.moves.path) account.moves.stored

end Effect

/-- Every run of the earlier database, moved forward. -/
def Later (digest : NodeRunEvent → String) (db db' : Database) : Prop :=
  ∀ c, Stored digest db c → ∃ c', Stored digest db' c' ∧ Forward c c'

theorem Later.refl (digest : NodeRunEvent → String) (db : Database) : Later digest db db :=
  fun c h => ⟨c, h, Forward.refl c⟩

theorem Later.trans {db'' : Database} (first : Later digest db db') (last : Later digest db' db'') :
    Later digest db db'' := by
  intro c h
  obtain ⟨c', h', forward⟩ := first c h
  obtain ⟨c'', h'', forward'⟩ := last c' h'
  exact ⟨c'', h'', forward.trans forward'⟩

theorem Effect.later {cmd : Command} {reply : Reply} (effect : Effect w cmd db reply db') :
    Later w.digest db db' := by
  intro c h
  obtain ⟨c', h', rfl | ⟨ls, -, account⟩⟩ := effect.onward h
  · exact ⟨c', h', Forward.refl c'⟩
  · exact ⟨c', h', path_forward account.moves.path h.inv⟩

end Artoo.Journal
