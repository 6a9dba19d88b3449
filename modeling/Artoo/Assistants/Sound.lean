import Artoo.Assistants.Invariant

/-! The committed discussions with their threads and fences, and the rely of the transactions. -/
namespace Artoo.Assistants
open Artoo.Lib

/-! ## Discussions -/

structure DiscussionsSound (db : Database) : Prop where
  roots : ∀ d ∈ db.discussions,
    (db.messages.get? d.threadRootId).isSome ∧ (db.tasks.get? d.taskId).isSome
  apart : ∀ d ∈ db.discussions, ∀ e ∈ db.discussions,
    d.threadRootId = e.threadRootId ∨ d.taskId = e.taskId → d.id = e.id
  oneActive : ∀ d ∈ db.discussions, ∀ e ∈ db.discussions, d.active → e.active →
    d.goalId = e.goalId → d.id = e.id
  machine : ∀ d ∈ db.discussions, Machine d (db.thread d.threadRootId)

variable {db db' : Database} {new : Option MessageRow} {d d' e : DiscussionRow}
  {t row row' : TurnRow}

theorem mem_thread {root : String} :
    t ∈ db.thread root ↔ t ∈ db.turns ∧ t.threadRootId = some root := by
  unfold Database.thread
  rw [Table.mem_select, beq_iff_eq]

/-- The turns of a thread are its discussion's. -/
theorem DiscussionsSound.asked (h : DiscussionsSound db) (there : d ∈ db.discussions)
    (member : t ∈ db.turns) (thread : t.threadRootId = some d.threadRootId) :
    ∃ n, t.asked = d.asks n := by
  have known : t.asked ∈ (db.thread d.threadRootId).map TurnRow.asked :=
    List.mem_map_of_mem (mem_thread.mpr ⟨member, thread⟩)
  rw [(h.machine d there).asked] at known
  obtain ⟨n, _, same⟩ := List.mem_map.mp known
  exact ⟨n, same.symm⟩

theorem DiscussionsSound.room_eq (h : DiscussionsSound db) (there : d ∈ db.discussions)
    (member : t ∈ db.turns) (thread : t.threadRootId = some d.threadRootId) :
    t.roomId = d.roomId := by
  obtain ⟨n, same⟩ := h.asked there member thread
  exact congrArg (fun a => a.2.2.1) same

theorem DiscussionsSound.task_eq (h : DiscussionsSound db) (there : d ∈ db.discussions)
    (member : t ∈ db.turns) (thread : t.threadRootId = some d.threadRootId) :
    t.taskId = d.taskId := by
  obtain ⟨n, same⟩ := h.asked there member thread
  exact congrArg (fun a => a.2.2.2.1) same

theorem DiscussionsSound.aside (h : DiscussionsSound db) (aside : Aside new db db') :
    DiscussionsSound db' := by
  constructor
  case roots =>
    rw [aside.discussions]
    exact fun d there => ⟨aside.message (h.roots d there).1, aside.tasks _ (h.roots d there).2⟩
  case apart => rw [aside.discussions]; exact h.apart
  case oneActive => rw [aside.discussions]; exact h.oneActive
  case machine =>
    rw [aside.discussions]
    intro d there
    unfold Database.thread
    rw [aside.turns]
    exact h.machine d there

theorem thread_setTurn {root : String} (found : db.turns.get? row.id = some row)
    (later : TurnLater row row') : List.Forall₂ TurnLater (db.thread root)
      ((db.turns.put row').select fun t => t.threadRootId == some root) := by
  have there : db.turns.get? row'.id = some row := by
    rw [later.id_eq]
    exact found
  apply Table.select_put_there there
  · rw [later.thread_eq]
  · exact TurnLater.refl
  · exact later

theorem DiscussionsSound.setTurn (h : DiscussionsSound db)
    (found : db.turns.get? row.id = some row) (later : TurnLater row row') :
    DiscussionsSound { db with turns := db.turns.put row' } :=
  ⟨h.roots, h.apart, h.oneActive, fun d there => (h.machine d there).later (thread_setTurn found later)⟩

theorem thread_addTurn {root : String} (fresh : db.turns.get? t.id = none) :
    (db.turns.put t).select (fun u => u.threadRootId == some root) =
      db.thread root ++ if t.threadRootId = some root then [t] else [] := by
  rw [Table.select_put_fresh fresh]
  simp only [beq_iff_eq]
  rfl

/-- A turn of a conversation of the room. -/
theorem DiscussionsSound.addTurn (h : DiscussionsSound db) (fresh : db.turns.get? t.id = none)
    (ordinary : db.ordinary t) : DiscussionsSound { db with turns := db.turns.put t } := by
  refine ⟨h.roots, h.apart, h.oneActive, fun d there => ?_⟩
  have same : ({ db with turns := db.turns.put t } : Database).thread d.threadRootId =
      db.thread d.threadRootId := by
    refine (thread_addTurn fresh).trans ?_
    rw [if_neg (ordinary d there), List.append_nil]
  rw [same]
  exact h.machine d there

/-- The row of a discussion changes; `turns'` is its thread then, and the other threads stay. -/
theorem DiscussionsSound.put (h : DiscussionsSound db) (there : d ∈ db.discussions)
    (origin : d'.origin = d.origin) (active : d'.active → d.active)
    {turns' : Table TurnRow.id}
    (machine : Machine d' (turns'.select fun t => t.threadRootId == some d.threadRootId))
    (others : ∀ e ∈ db.discussions, e.id ≠ d.id →
      turns'.select (fun t => t.threadRootId == some e.threadRootId) = db.thread e.threadRootId) :
    DiscussionsSound { db with turns := turns', discussions := db.discussions.put d' } := by
  have key : d'.id = d.id := by
    have same := congrArg DiscussionRow.id origin
    exact same
  have root : d'.threadRootId = d.threadRootId := by
    have same := congrArg DiscussionRow.threadRootId origin
    exact same
  have task : d'.taskId = d.taskId := by
    have same := congrArg DiscussionRow.taskId origin
    exact same
  have goal : d'.goalId = d.goalId := by
    have same := congrArg DiscussionRow.goalId origin
    exact same
  have case_ : ∀ e ∈ db.discussions.put d', e = d' ∨ (e ∈ db.discussions ∧ e.id ≠ d.id) := by
    intro e member
    rcases Table.mem_put.mp member with is | ⟨old, other⟩
    · exact Or.inl is
    · exact Or.inr ⟨old, key ▸ other⟩
  constructor
  case roots =>
    intro e member
    rcases case_ e member with rfl | ⟨old, _⟩
    · rw [root, task]
      exact h.roots d there
    · exact h.roots e old
  case apart =>
    intro a ha b hb same
    rcases case_ a ha with rfl | ⟨oldA, otherA⟩
    · rcases case_ b hb with rfl | ⟨oldB, otherB⟩
      · rfl
      · rw [root, task] at same
        exact absurd (h.apart d there b oldB same).symm otherB
    · rcases case_ b hb with rfl | ⟨oldB, _⟩
      · rw [root, task] at same
        exact absurd (h.apart a oldA d there same) otherA
      · exact h.apart a oldA b oldB same
  case oneActive =>
    intro a ha b hb isA isB same
    rcases case_ a ha with rfl | ⟨oldA, otherA⟩
    · rcases case_ b hb with rfl | ⟨oldB, otherB⟩
      · rfl
      · rw [goal] at same
        exact absurd (h.oneActive d there b oldB (active isA) isB same).symm otherB
    · rcases case_ b hb with rfl | ⟨oldB, _⟩
      · rw [goal] at same
        exact absurd (h.oneActive a oldA d there isA (active isB) same) otherA
      · exact h.oneActive a oldA b oldB isA isB same
  case machine =>
    intro e member
    rcases case_ e member with rfl | ⟨old, other⟩
    · unfold Database.thread
      rw [root]
      exact machine
    · unfold Database.thread
      rw [others e old other]
      exact h.machine e old

theorem DiscussionsSound.setDiscussion (h : DiscussionsSound db) (there : d ∈ db.discussions)
    (origin : d'.origin = d.origin) (active : d'.active → d.active)
    (machine : Machine d' (db.thread d.threadRootId)) :
    DiscussionsSound { db with discussions := db.discussions.put d' } :=
  h.put there origin active machine fun _ _ _ => rfl

/-- The next turn of a discussion. -/
theorem DiscussionsSound.ask (h : DiscussionsSound db) (there : d ∈ db.discussions)
    (running : d.status = .running) (idle : d.activeTurnId = none)
    (fresh : db.turns.get? t.id = none) (thread : t.threadRootId = some d.threadRootId)
    (asked : t.asked = d.asks d.currentStep)
    (later : ∀ u ∈ db.thread d.threadRootId, u.position < t.position) :
    DiscussionsSound { db with
      turns := db.turns.put t
      discussions := db.discussions.put (d.ask t.id) } := by
  have active : d.active = true := by
    unfold DiscussionRow.active
    rw [running]
    rfl
  refine h.put there (rfl : (d.ask t.id).origin = d.origin) (fun _ => active) ?_ ?_
  · rw [thread_addTurn fresh, if_pos thread]
    exact (h.machine d there).ask running idle asked later
  · intro e member other
    rw [thread_addTurn fresh, if_neg, List.append_nil]
    intro same
    rw [thread] at same
    exact other (h.apart e member d there (Or.inl (Option.some.inj same).symm))

/-- A new discussion, with a root and a task of its own. -/
theorem DiscussionsSound.open_ (h : DiscussionsSound db) (turns : TurnsSound db)
    (aside : Aside new db db') (fresh : db.discussions.get? d.id = none)
    (alone : ∀ e ∈ db.discussions, e.active → e.goalId ≠ d.goalId)
    (root : db.messages.get? d.threadRootId = none ∧ (db'.messages.get? d.threadRootId).isSome)
    (task : db.tasks.get? d.taskId = none ∧ (db'.tasks.get? d.taskId).isSome)
    (running : d.status = .running) (start : d.currentStep = 0 ∧ d.activeTurnId = none) :
    DiscussionsSound { db' with discussions := db'.discussions.put d } := by
  have case_ : ∀ e ∈ db'.discussions.put d, e = d ∨ (e ∈ db.discussions ∧ e.id ≠ d.id) := by
    intro e member
    rcases Table.mem_put.mp member with is | ⟨old, other⟩
    · exact Or.inl is
    · exact Or.inr ⟨aside.discussions ▸ old, other⟩
  have other : ∀ e ∈ db.discussions, ¬ (e.threadRootId = d.threadRootId ∨ e.taskId = d.taskId) := by
    rintro e member (same | same)
    · have there := (h.roots e member).1
      rw [same, root.1] at there
      cases there
    · have there := (h.roots e member).2
      rw [same, task.1] at there
      cases there
  have empty : db'.thread d.threadRootId = [] := by
    rw [List.eq_nil_iff_forall_not_mem]
    intro t member
    obtain ⟨there, is⟩ := mem_thread.mp member
    rw [aside.turns] at there
    have known := turns.threads t there _ is
    rw [root.1] at known
    cases known
  constructor
  case roots =>
    intro e member
    rcases case_ e member with rfl | ⟨old, _⟩
    · exact ⟨root.2, task.2⟩
    · exact ⟨aside.message (h.roots e old).1, aside.tasks _ (h.roots e old).2⟩
  case apart =>
    intro a ha b hb same
    rcases case_ a ha with rfl | ⟨oldA, _⟩
    · rcases case_ b hb with rfl | ⟨oldB, _⟩
      · rfl
      · exact absurd (same.imp Eq.symm Eq.symm) (other b oldB)
    · rcases case_ b hb with rfl | ⟨oldB, _⟩
      · exact absurd same (other a oldA)
      · exact h.apart a oldA b oldB same
  case oneActive =>
    intro a ha b hb isA isB same
    rcases case_ a ha with rfl | ⟨oldA, _⟩
    · rcases case_ b hb with rfl | ⟨oldB, _⟩
      · rfl
      · exact absurd same.symm (alone b oldB isB)
    · rcases case_ b hb with rfl | ⟨oldB, _⟩
      · exact absurd same (alone a oldA isA)
      · exact h.oneActive a oldA b oldB isA isB same
  case machine =>
    intro e member
    rcases case_ e member with rfl | ⟨old, _⟩
    · change Machine e (db'.thread e.threadRootId)
      have off : ¬ e.status = .ready := by simp [running]
      rw [empty]
      constructor
      · rfl
      · exact List.Pairwise.nil
      · rw [start.1, start.2]
        rfl
      · exact Nat.zero_le _
      · rw [start.2]
        rfl
      · exact fun t there => absurd there (by simp)
      · rw [start.1]
        exact ⟨fun is => absurd is off, fun is => absurd is (Nat.succ_ne_zero _).symm⟩
      · exact fun is => absurd is off
    · change Machine e (db'.thread e.threadRootId)
      unfold Database.thread
      rw [aside.turns]
      exact h.machine e old

/-! ## Fences -/

/-- Since the discussion stopped, its last turn was seen settled or bound, or it was retried. -/
def Database.Quenched (db : Database) (d : DiscussionRow) : Prop :=
  ∀ x row, d.activeTurnId = some x → db.turns.get? x = some row →
    db.fences d.id = some row.retries → row.unbound = false

structure FencesSound (db : Database) : Prop where
  stopped : FencesStopped db
  fenced : ∀ d ∈ db.discussions, d.status ≠ .running → (db.fences d.id).isSome
  least : ∀ d ∈ db.discussions, ∀ k, db.fences d.id = some k → ∀ x row,
    d.activeTurnId = some x → db.turns.get? x = some row → k ≤ row.retries
  quenched : ∀ d ∈ db.discussions, d.closed → db.Quenched d

structure Sound (db : Database) : Prop where
  turns : TurnsSound db
  discussions : DiscussionsSound db
  fences : FencesSound db

theorem DiscussionRow.closed.off (h : d.closed) : d.status ≠ .running := by
  rcases h with is | is <;> simp [is]

/-- What is quenched stays so, from a moment when the discussion had stopped. -/
theorem Quenched.later (step : Later db db') (sound : FencesSound db) (there : d ∈ db.discussions)
    (off : d.status ≠ .running) (exists_ : ∀ x, d.activeTurnId = some x → (db.turns.get? x).isSome)
    (h : db.Quenched d) (there' : d' ∈ db'.discussions) (same : d'.id = d.id) : db'.Quenched d' := by
  have later := step.discussion_back there' (same ▸ Table.get?_of_mem there)
  intro x row active found fence
  rw [(later.stopped off).2.2.1] at active
  obtain ⟨k, is⟩ := Option.isSome_iff_exists.mp (sound.fenced d there off)
  obtain ⟨old, found'⟩ := Option.isSome_iff_exists.mp (exists_ x active)
  obtain ⟨row', found'', turn⟩ := step.turns x old found'
  rw [found] at found''
  cases found''
  have kept := step.fences d.id k is
  rw [same, kept] at fence
  cases fence
  have least := sound.least d there _ is x old active found'
  have most := turn.retries
  have equal : row.retries = old.retries := by omega
  exact turn.unbound_eq equal (h x old active found' (equal ▸ is))

theorem DiscussionsSound.active_found (h : DiscussionsSound db) (there : d ∈ db.discussions)
    {x : String} (active : d.activeTurnId = some x) :
    ∃ row, db.turns.get? x = some row ∧ row.threadRootId = some d.threadRootId := by
  obtain ⟨t, found, same, _⟩ := (h.machine d there).active_last active
  obtain ⟨member, thread⟩ := mem_thread.mp (List.mem_of_getElem? found)
  exact ⟨t, same ▸ Table.get?_of_mem member, thread⟩

/-- The fences at the end of a transaction. -/
theorem FencesSound.fence (h : FencesSound db) (discussions : DiscussionsSound db)
    (same : db'.fences = db.fences) (step : Later db db')
    (closes : ∀ d ∈ db'.discussions, d.closed →
      (∃ e, db.discussions.get? d.id = some e ∧ e.closed) ∨ db'.fence.Quenched d)
    (later : Later db db'.fence) : FencesSound db'.fence := by
  have kept : ∀ id k, db.fences id = some k → db'.fence.fences id = some k := later.fences
  have back : ∀ d ∈ db'.discussions, ∀ e, db.discussions.get? d.id = some e →
      DiscussionLater e d ∧ e ∈ db.discussions ∧ e.id = d.id := fun d there e found =>
    ⟨step.discussion_back there found, Table.mem_of_get? found, Table.key_of_get? found⟩
  have get : ∀ id, db'.fence.fences id = (db.fences id).or
      (((db'.discussions.get? id).filter (·.status != .running)).map fun d =>
        db'.retriesOf d.activeTurnId) := by
    intro id
    rw [← same]
    rfl
  constructor
  case stopped =>
    intro id k is
    rw [get, Option.or_eq_some_iff] at is
    rcases is with old | ⟨_, new⟩
    · obtain ⟨d, found, off⟩ := h.stopped id k old
      obtain ⟨d', found', turn⟩ := step.discussions id d found
      exact ⟨d', found', (turn.stopped off).1⟩
    · obtain ⟨d, found, _⟩ := Option.map_eq_some_iff.mp new
      obtain ⟨found, off⟩ := Option.filter_eq_some_iff.mp found
      exact ⟨d, found, by simpa using off⟩
  case fenced =>
    intro d there off
    have found : db'.discussions.get? d.id = some d := Table.get?_of_mem there
    have here : Option.filter (fun e => e.status != .running) (some d) = some d := by
      simp [Option.filter, off]
    rw [get, found, here]
    cases db.fences d.id <;> rfl
  case least =>
    intro d there k is x row active found
    rw [get, Option.or_eq_some_iff] at is
    rcases is with old | ⟨_, new⟩
    · obtain ⟨e, found', off⟩ := h.stopped d.id k old
      obtain ⟨turn, there', key⟩ := back d there e found'
      rw [(turn.stopped off).2.2.1] at active
      obtain ⟨first, found'', _⟩ := discussions.active_found there' active
      obtain ⟨row', is', rows⟩ := step.turns x first found''
      cases (found.symm.trans is')
      exact Nat.le_trans (h.least e there' k (key ▸ old) x first active found'') rows.retries
    · obtain ⟨e, found', rfl⟩ := Option.map_eq_some_iff.mp new
      obtain ⟨found', _⟩ := Option.filter_eq_some_iff.mp found'
      cases (found'.symm.trans (Table.get?_of_mem there))
      have value : db'.retriesOf d.activeTurnId = row.retries := by
        unfold Database.retriesOf
        rw [active]
        exact congrArg (fun o : Option TurnRow => (o.map (·.retries)).getD 0) found
      exact Nat.le_of_eq value
  case quenched =>
    intro d there closed
    rcases closes d there closed with ⟨e, found, closed'⟩ | quenched
    · obtain ⟨_, there', key⟩ := back d there e found
      refine Quenched.later later h there' closed'.off (fun x active => ?_)
        (h.quenched e there' closed') there key.symm
      obtain ⟨row, found'', _⟩ := discussions.active_found there' active
      rw [found'']
      rfl
    · exact quenched

/-! ## The rely -/

def assistantRely : Rely Database Lock where
  rel locks db db' := Later db db' ∧ (Sound db → Sound db' ∧ ∀ k ∈ locks, k.Same db db')
  refl _ db := ⟨Later.refl db, fun sound => ⟨sound, fun k _ => Lock.Same.refl k db⟩⟩
  trans locks a b c first last := by
    refine ⟨first.1.trans last.1, fun sound => ?_⟩
    obtain ⟨mid, same⟩ := first.2 sound
    obtain ⟨done, same'⟩ := last.2 mid
    exact ⟨done, fun k held =>
      (same k held).trans first.1 last.1 mid.fences.stopped (same' k held)⟩
  weaken _ _ _ _ subset step :=
    ⟨step.1, fun sound => ⟨(step.2 sound).1, fun k held => (step.2 sound).2 k (subset held)⟩⟩

theorem sound_empty : Sound {} := by
  constructor
  case turns =>
    constructor
    all_goals exact fun _ member => absurd member Table.not_mem_empty
  case discussions =>
    constructor
    all_goals exact fun _ member => absurd member Table.not_mem_empty
  case fences =>
    refine ⟨fun _ _ is => (nomatch is), ?_, ?_, ?_⟩
    all_goals exact fun _ member => absurd member Table.not_mem_empty

end Artoo.Assistants
