import Artoo.Lib.Sorting
import Mathlib.Data.List.Induction
import Mathlib.Data.List.Nodup
import Mathlib.Data.Set.Defs
import Mathlib.Data.String.Basic

/-! The history of a room: overlapping pages of messages are merged. -/
namespace Artoo.Client.RoomMessages

open Lib (Consistent Sorting)

/-! ## Messages -/

inductive PayloadValue where
  | string (text : String)
  | other
  deriving DecidableEq

/-- `ρ` holds the fields that a merge leaves alone. -/
structure Message (ρ : Type) where
  id : String
  sequence : Option ℕ
  createdAt : String
  body : String
  payload : List (String × PayloadValue)
  rest : ρ

/-- `localeCompare`: an order of texts in which different ones can be equal. -/
structure Collation where
  compare : String → String → ℤ
  antisymm : ∀ a b, (compare a b).sign = -(compare b a).sign
  trans : ∀ a b c, compare a b ≤ 0 → compare b c ≤ 0 → compare a c ≤ 0

def removedText : String := "This message was removed by a team administrator."

section Merge

variable {ρ : Type}

def discussionId (message : Message ρ) : List (String × PayloadValue) :=
  match message.payload.lookup "discussion_id" with
  | some (.string id) => [("discussion_id", .string id)]
  | _ => []

def removedMessage (message : Message ρ) : Message ρ :=
  { message with
    body := removedText
    payload := ("moderation", .string "removed") :: discussionId message }

def isRemovedMessage (message : Message ρ) : Bool :=
  message.payload.lookup "moderation" == some (.string "removed")

/-- What a message is kept as, after what there was of it. -/
def absorb (previous : Option (Message ρ)) (message : Message ρ) : Message ρ :=
  if isRemovedMessage message || previous.any isRemovedMessage then removedMessage message
  else message

def find (id : String) (messages : List (Message ρ)) : Option (Message ρ) :=
  messages.find? (·.id == id)

/-- `set` of the `Map`: a message that is there keeps its place. -/
def put (messages : List (Message ρ)) (message : Message ρ) : List (Message ρ) :=
  let kept := absorb (find message.id messages) message
  if messages.any (·.id == message.id) then
    messages.map fun m => if m.id == message.id then kept else m
  else messages ++ [kept]

/-- What the order of a message depends on. -/
structure Key where
  id : String
  sequence : Option ℕ
  createdAt : String

def Message.key (message : Message ρ) : Key := ⟨message.id, message.sequence, message.createdAt⟩

def compareTimes (collation : Collation) (a b : Key) : ℤ :=
  if collation.compare a.createdAt b.createdAt ≠ 0 then collation.compare a.createdAt b.createdAt
  else collation.compare a.id b.id

def compareKeys (collation : Collation) (a b : Key) : ℤ :=
  match a.sequence, b.sequence with
  | some s, some t => (s : ℤ) - t
  | _, _ => compareTimes collation a b

/-- The comparator. -/
def compareMessages (collation : Collation) (a b : Message ρ) : ℤ :=
  compareKeys collation a.key b.key

def mergeMessages (collation : Collation) (sorting : Sorting (Message ρ))
    (pages : List (List (Message ρ))) : List (Message ρ) :=
  sorting.sort (compareMessages collation) (pages.flatten.foldl put [])

/-! ## What the map holds -/

variable {messages : List (Message ρ)} {message m : Message ρ} {id : String}

/-- One more message of an id. -/
def note (id : String) (previous : Option (Message ρ)) (message : Message ρ) :
    Option (Message ρ) :=
  if message.id = id then some (absorb previous message) else previous

theorem absorb_key (previous : Option (Message ρ)) (message : Message ρ) :
    (absorb previous message).key = message.key := by
  unfold absorb
  split_ifs <;> rfl

theorem absorb_id (previous : Option (Message ρ)) (message : Message ρ) :
    (absorb previous message).id = message.id := congrArg Key.id (absorb_key previous message)

theorem isRemoved_removed (message : Message ρ) :
    isRemovedMessage (removedMessage message) = true := rfl

theorem removed_removed (message : Message ρ) :
    removedMessage (removedMessage message) = removedMessage message := by
  have lookup : (removedMessage message).payload.lookup "discussion_id" =
      (discussionId message).lookup "discussion_id" := by
    change List.lookup "discussion_id" (("moderation", .string "removed") :: _) = _
    have other : ("discussion_id" == "moderation") = false := by decide
    rw [List.lookup_cons, other]
  have same : discussionId (removedMessage message) = discussionId message := by
    conv_lhs => rw [discussionId, lookup]
    unfold discussionId
    cases message.payload.lookup "discussion_id" with
    | none => rfl
    | some value =>
      cases value with
      | string id =>
        dsimp only
        rw [List.lookup_cons, beq_self_eq_true]
      | other => rfl
  unfold removedMessage at same ⊢
  rw [same]

theorem isRemoved_absorb (previous : Option (Message ρ)) (message : Message ρ) :
    isRemovedMessage (absorb previous message) =
      (isRemovedMessage message || previous.any isRemovedMessage) := by
  unfold absorb
  split_ifs with removed
  · rw [removed]
    exact isRemoved_removed message
  · rw [Bool.not_eq_true] at removed
    rw [removed]
    exact (Bool.or_eq_false_iff.mp removed).1

theorem absorb_twice (previous earlier : Option (Message ρ)) (message : Message ρ) :
    absorb previous (absorb earlier message) =
      if isRemovedMessage message || earlier.any isRemovedMessage ||
        previous.any isRemovedMessage then removedMessage message else message := by
  have removed := isRemoved_absorb earlier message
  conv_lhs => rw [absorb]
  rw [removed]
  split_ifs with off
  · unfold absorb
    split_ifs
    · exact removed_removed message
    · rfl
  · rw [Bool.not_eq_true, Bool.or_eq_false_iff] at off
    unfold absorb
    rw [off.1]
    rfl

/-- To absorb one after another is to absorb what the later makes of the earlier. -/
theorem absorb_absorb (previous : Option (Message ρ)) (message next : Message ρ) :
    absorb (some (absorb previous message)) next = absorb previous (absorb (some message) next) := by
  rw [absorb_twice, absorb, Option.any_some, isRemoved_absorb, Option.any_some, Bool.or_assoc]

theorem absorb_alone (previous : Option (Message ρ)) (message : Message ρ) :
    absorb previous (absorb none message) = absorb previous message := by
  rw [absorb_twice, Option.any_none, Bool.or_false]
  rfl

theorem replaced_id {kept : Message ρ} (same : kept.id = id) (m : Message ρ) :
    (if m.id == id then kept else m).id = m.id := by
  split_ifs with is
  · exact same.trans (beq_iff_eq.mp is).symm
  · rfl

theorem find_put (messages : List (Message ρ)) (message : Message ρ) (id : String) :
    find id (put messages message) = note id (find id messages) message := by
  unfold put note
  dsimp only
  have kept_id := absorb_id (find message.id messages) message
  generalize kept_is : absorb (find message.id messages) message = kept at kept_id
  split_ifs with there same same
  · subst same
    unfold find at kept_is ⊢
    have ids : (fun m : Message ρ => m.id == message.id) ∘
        (fun m => if m.id == message.id then kept else m) = fun m => m.id == message.id := by
      funext m
      exact congrArg (· == message.id) (replaced_id kept_id m)
    rw [List.find?_map, ids]
    cases found : messages.find? (·.id == message.id) with
    | none =>
      obtain ⟨m, among, is⟩ := List.any_eq_true.mp there
      exact absurd is (List.find?_eq_none.mp found m among)
    | some m =>
      have is := List.find?_some (p := fun m : Message ρ => m.id == message.id) found
      rw [found] at kept_is
      rw [kept_is, Option.map_some, if_pos is]
  · unfold find
    have ids : (fun m : Message ρ => m.id == id) ∘
        (fun m => if m.id == message.id then kept else m) = fun m => m.id == id := by
      funext m
      exact congrArg (· == id) (replaced_id kept_id m)
    rw [List.find?_map, ids]
    cases found : messages.find? (·.id == id) with
    | none => rfl
    | some m =>
      have is := List.find?_some (p := fun m : Message ρ => m.id == id) found
      have is' : m.id = id := beq_iff_eq.mp is
      rw [Option.map_some, if_neg (by
        rw [is']
        exact fun off => same (beq_iff_eq.mp off).symm)]
  · subst same
    have none_ : find message.id messages = none := by
      rw [find, List.find?_eq_none]
      intro m among is
      exact there (List.any_eq_true.mpr ⟨m, among, is⟩)
    rw [kept_is, find, List.find?_append]
    unfold find at none_
    rw [none_, List.find?_cons_of_pos (by rw [kept_id]; exact beq_self_eq_true _)]
    rfl
  · unfold find
    rw [List.find?_append, List.find?_cons_of_neg (by
      rw [kept_id]
      exact fun off => same (beq_iff_eq.mp off)), List.find?_nil, Option.or_none]

theorem ids_put (messages : List (Message ρ)) (message : Message ρ)
    (single : (messages.map (·.id)).Nodup) : ((put messages message).map (·.id)).Nodup := by
  unfold put
  dsimp only
  have kept_id := absorb_id (find message.id messages) message
  split_ifs with there
  · rw [List.map_map]
    have ids : (fun m : Message ρ => m.id) ∘ (fun m =>
        if m.id == message.id then absorb (find message.id messages) message else m) =
          fun m => m.id := by
      funext m
      exact replaced_id kept_id m
    rw [ids]
    exact single
  · rw [List.map_append]
    refine List.Nodup.append single (List.nodup_singleton _) ?_
    intro id among is
    obtain ⟨m, there', rfl⟩ := List.mem_map.mp among
    have same : m.id = message.id := (List.mem_singleton.mp is).trans kept_id
    exact there (List.any_eq_true.mpr ⟨m, there', beq_iff_eq.mpr same⟩)

theorem find_foldl (l messages : List (Message ρ)) (id : String) :
    find id (l.foldl put messages) = l.foldl (note id) (find id messages) := by
  induction l generalizing messages with
  | nil => rfl
  | cons message l ih =>
    rw [List.foldl_cons, ih, find_put]
    rfl

theorem ids_foldl (l messages : List (Message ρ)) (single : (messages.map (·.id)).Nodup) :
    ((l.foldl put messages).map (·.id)).Nodup := by
  induction l generalizing messages with
  | nil => exact single
  | cons message l ih => exact ih _ (ids_put messages message single)

/-! ## Notes of one id -/

theorem note_foldl_absorb (l : List (Message ρ)) (previous : Option (Message ρ)) :
    l.foldl (note id) previous =
      match l.foldl (note id) none with
      | none => previous
      | some m => some (absorb previous m) := by
  induction l using List.reverseRecOn with
  | nil => rfl
  | append_singleton l message ih =>
    rw [List.foldl_append, List.foldl_append, List.foldl_cons, List.foldl_nil, List.foldl_cons,
      List.foldl_nil, ih]
    generalize l.foldl (note id) none = noted
    unfold note
    split_ifs
    · cases noted with
      | none => exact congrArg some (absorb_alone previous message).symm
      | some m => exact congrArg some (absorb_absorb previous m message)
    · rfl

/-- Of different ids at most one is noted. -/
theorem note_foldl_single (l : List (Message ρ)) (single : (l.map (·.id)).Nodup)
    (previous : Option (Message ρ)) :
    l.foldl (note id) previous =
      match find id l with
      | none => previous
      | some m => some (absorb previous m) := by
  induction l generalizing previous with
  | nil => rfl
  | cons message l ih =>
    obtain ⟨new, rest⟩ := List.nodup_cons.mp single
    rw [List.foldl_cons, ih rest]
    unfold note find
    by_cases is : message.id = id
    · subst is
      have none_ : l.find? (·.id == message.id) = none := by
        rw [List.find?_eq_none]
        intro m among same
        exact new (List.mem_map.mpr ⟨m, among, beq_iff_eq.mp same⟩)
      rw [none_, if_pos rfl,
        List.find?_cons_of_pos (p := fun m : Message ρ => m.id == message.id)
          (beq_self_eq_true message.id)]
    · rw [if_neg is, List.find?_cons_of_neg (p := fun m : Message ρ => m.id == id)
        (fun same => is (beq_iff_eq.mp same))]

theorem find_eq_some (l : List (Message ρ)) (single : (l.map (·.id)).Nodup) :
    find m.id l = some m ↔ m ∈ l := by
  constructor
  · exact List.mem_of_find?_eq_some
  · intro among
    cases found : find m.id l with
    | none => exact absurd (beq_self_eq_true m.id) (List.find?_eq_none.mp found m among)
    | some m' =>
      have is := List.find?_some (p := fun x : Message ρ => x.id == m.id) found
      have there := List.mem_of_find?_eq_some found
      rw [List.inj_on_of_nodup_map single there among (beq_iff_eq.mp is)]

theorem perm_of_find {l l' : List (Message ρ)} (single : (l.map (·.id)).Nodup)
    (single' : (l'.map (·.id)).Nodup) (same : ∀ id, find id l = find id l') : l.Perm l' := by
  rw [List.perm_ext_iff_of_nodup (List.Nodup.of_map _ single) (List.Nodup.of_map _ single')]
  intro m
  rw [← find_eq_some l single, ← find_eq_some l' single', same]

theorem find_of_perm {l l' : List (Message ρ)} (single : (l.map (·.id)).Nodup)
    (perm : l.Perm l') (id : String) : find id l = find id l' := by
  have single' : (l'.map (·.id)).Nodup := (perm.map _).nodup_iff.mp single
  cases found : find id l with
  | none =>
    symm
    rw [find, List.find?_eq_none] at found ⊢
    exact fun m among => found m (perm.symm.subset among)
  | some m =>
    have is := beq_iff_eq.mp (List.find?_some (p := fun x : Message ρ => x.id == id) found)
    subst is
    exact ((find_eq_some l' single').mpr (perm.subset (List.mem_of_find?_eq_some found))).symm

/-- What is removed stays removed. -/
theorem note_foldl_removed (l : List (Message ρ)) (previous : Option (Message ρ))
    (removed : previous.any isRemovedMessage = true ∨
      ∃ m ∈ l, m.id = id ∧ isRemovedMessage m = true) :
    (l.foldl (note id) previous).any isRemovedMessage = true := by
  induction l generalizing previous with
  | nil =>
    rcases removed with removed | ⟨m, among, -⟩
    · exact removed
    · cases among
  | cons message l ih =>
    apply ih
    unfold note
    rcases removed with removed | ⟨m, among, is, removed⟩
    · left
      split_ifs
      · rw [Option.any_some, isRemoved_absorb, removed, Bool.or_true]
      · exact removed
    · rcases List.mem_cons.mp among with rfl | among
      · left
        rw [if_pos is, Option.any_some, isRemoved_absorb, removed, Bool.true_or]
      · exact .inr ⟨m, among, is, removed⟩

theorem note_foldl_isSome (l : List (Message ρ)) (previous : Option (Message ρ)) :
    (l.foldl (note id) previous).isSome = true ↔ previous.isSome = true ∨ ∃ m ∈ l, m.id = id := by
  induction l generalizing previous with
  | nil => simp
  | cons message l ih =>
    rw [List.foldl_cons, ih]
    unfold note
    by_cases is : message.id = id
    · simp [is]
    · simp [is]

/-! ## What the map holds -/

/-- The map after all pages. -/
def collected (messages : List (Message ρ)) : List (Message ρ) := messages.foldl put []

theorem collected_single (messages : List (Message ρ)) :
    ((collected messages).map (·.id)).Nodup := ids_foldl messages [] List.nodup_nil

theorem find_collected (messages : List (Message ρ)) (id : String) :
    find id (collected messages) = messages.foldl (note id) none := find_foldl messages [] id

theorem mem_collected_id (messages : List (Message ρ)) :
    id ∈ (collected messages).map (·.id) ↔ ∃ m ∈ messages, m.id = id := by
  have noted : _ ↔ none.isSome = true ∨ ∃ m ∈ messages, m.id = id :=
    note_foldl_isSome messages none
  rw [← find_collected] at noted
  constructor
  · intro among
    obtain ⟨m, there, rfl⟩ := List.mem_map.mp among
    have found := (find_eq_some _ (collected_single messages)).mpr there
    rw [found] at noted
    exact (noted.mp rfl).resolve_left Bool.false_ne_true
  · intro some_
    obtain ⟨m, found⟩ := Option.isSome_iff_exists.mp (noted.mpr (.inr some_))
    have is := List.find?_some (p := fun m : Message ρ => m.id == id) found
    exact List.mem_map.mpr ⟨m, List.mem_of_find?_eq_some found, beq_iff_eq.mp is⟩

/-- The keys of the map are those of the messages. -/
theorem key_of_put {messages : List (Message ρ)} {message m : Message ρ}
    (among : m ∈ put messages message) : m.key = message.key ∨ m ∈ messages := by
  unfold put at among
  dsimp only at among
  split_ifs at among
  · obtain ⟨m', there, is⟩ := List.mem_map.mp among
    split_ifs at is
    · subst is
      exact .inl (absorb_key _ message)
    · subst is
      exact .inr there
  · rcases List.mem_append.mp among with there | new
    · exact .inr there
    · rw [List.mem_singleton.mp new]
      exact .inl (absorb_key _ message)

theorem key_of_collected {messages : List (Message ρ)} {m : Message ρ}
    (among : m ∈ collected messages) : ∃ m' ∈ messages, m'.key = m.key := by
  unfold collected at among
  induction messages using List.reverseRecOn with
  | nil => cases among
  | append_singleton l message ih =>
    rw [List.foldl_append] at among
    rcases key_of_put among with is | there
    · exact ⟨message, List.mem_append_right l List.mem_cons_self, is.symm⟩
    · obtain ⟨m', there', is⟩ := ih there
      exact ⟨m', List.mem_append_left _ there', is⟩

/-! ## What is promised -/

/-- Equal ids denote one message, and so do equal sequences. -/
structure Coherent (M : Set (Message ρ)) : Prop where
  same : ∀ a ∈ M, ∀ b ∈ M, a.id = b.id → a.key = b.key
  distinct : ∀ a ∈ M, ∀ b ∈ M, ∀ s, a.sequence = some s → b.sequence = some s → a.id = b.id

def Pages (M : Set (Message ρ)) (pages : List (List (Message ρ))) : Prop :=
  ∀ m ∈ pages.flatten, m ∈ M

/-- For all pages of messages of `M`. -/
structure Lawful (collation : Collation) (sorting : Sorting (Message ρ)) (M : Set (Message ρ)) :
    Prop where
  once : ∀ pages, Pages M pages → ((mergeMessages collation sorting pages).map (·.id)).Nodup ∧
    ∀ id, id ∈ (mergeMessages collation sorting pages).map (·.id) ↔
      ∃ m ∈ pages.flatten, m.id = id
  order : ∀ pages pages', Pages M pages → pages.flatten.Perm pages'.flatten →
    (mergeMessages collation sorting pages).map (·.id) =
      (mergeMessages collation sorting pages').map (·.id)
  grouping : ∀ groups : List (List (List (Message ρ))), Pages M groups.flatten →
    mergeMessages collation sorting (groups.map (mergeMessages collation sorting)) =
      mergeMessages collation sorting groups.flatten
  sequences : ∀ pages, Pages M pages → (mergeMessages collation sorting pages).Pairwise fun a b =>
    ∀ s t, a.sequence = some s → b.sequence = some t → s < t
  removed : ∀ pages, Pages M pages → ∀ m ∈ pages.flatten, isRemovedMessage m = true →
    ∀ r ∈ mergeMessages collation sorting pages, r.id = m.id → isRemovedMessage r = true

/-- No two messages compare as equal, and no message without a sequence stands between two that are
in the other order by their times. -/
structure Ordered (collation : Collation) (M : Set (Message ρ)) : Prop where
  untied : ∀ a ∈ M, ∀ b ∈ M, compareMessages collation a b = 0 → a.id = b.id
  uncrossed : ∀ a ∈ M, ∀ b ∈ M, ∀ c ∈ M, ∀ s t, a.sequence = some s → b.sequence = none →
    c.sequence = some t → s < t → ¬(compareTimes collation c.key b.key < 0 ∧
      compareTimes collation b.key a.key < 0)

section Order

variable {collation : Collation} {sorting : Sorting (Message ρ)} {M : Set (Message ρ)}

theorem zero_of_sign {x y : ℤ} (signs : x.sign = -y.sign) : x = 0 ↔ y = 0 := by
  constructor
  · rintro rfl
    exact Int.sign_eq_zero_iff_zero.mp (Int.neg_eq_zero.mp signs.symm)
  · rintro rfl
    exact Int.sign_eq_zero_iff_zero.mp signs

theorem neg_of_sign {x y : ℤ} (signs : x.sign = -y.sign) : x < 0 ↔ 0 < y := by
  rw [← Int.sign_eq_neg_one_iff_neg, ← Int.sign_eq_one_iff_pos]
  omega

theorem compareTimes_antisymm (collation : Collation) (a b : Key) :
    (compareTimes collation a b).sign = -(compareTimes collation b a).sign := by
  have times := collation.antisymm a.createdAt b.createdAt
  unfold compareTimes
  by_cases is : collation.compare a.createdAt b.createdAt = 0
  · rw [if_neg (not_not_intro is), if_neg (not_not_intro ((zero_of_sign times).mp is))]
    exact collation.antisymm a.id b.id
  · rw [if_pos is, if_pos (fun off => is ((zero_of_sign times).mpr off))]
    exact times

theorem compareKeys_antisymm (collation : Collation) (a b : Key) :
    (compareKeys collation a b).sign = -(compareKeys collation b a).sign := by
  have times := compareTimes_antisymm collation a b
  unfold compareKeys
  cases a.sequence with
  | none => cases b.sequence <;> exact times
  | some s =>
    cases b.sequence with
    | none => exact times
    | some t =>
      dsimp only
      rw [← Int.neg_sub, Int.sign_neg]

theorem compareTimes_trans {a b c : Key} (ab : compareTimes collation a b ≤ 0)
    (bc : compareTimes collation b c ≤ 0) : compareTimes collation a c ≤ 0 := by
  have antisymm := collation.antisymm
  have trans := collation.trans
  unfold compareTimes at ab bc ⊢
  have first : collation.compare a.createdAt b.createdAt ≤ 0 := by
    split_ifs at ab with is
    · exact ab
    · omega
  have second : collation.compare b.createdAt c.createdAt ≤ 0 := by
    split_ifs at bc with is
    · exact bc
    · omega
  split_ifs with is
  · exact trans _ _ _ first second
  have equal : collation.compare a.createdAt c.createdAt = 0 := not_not.mp is
  have back := (zero_of_sign (antisymm a.createdAt c.createdAt)).mp equal
  have first' := trans b.createdAt c.createdAt a.createdAt second (Int.le_of_eq back)
  have second' := trans c.createdAt a.createdAt b.createdAt (Int.le_of_eq back) first
  have low := neg_of_sign (antisymm a.createdAt b.createdAt)
  have low' := neg_of_sign (antisymm b.createdAt c.createdAt)
  rw [if_neg (by omega)] at ab bc
  exact trans _ _ _ ab bc

theorem compare_sequences {x y : Message ρ} {s t : ℕ} (hx : x.sequence = some s)
    (hy : y.sequence = some t) : compareKeys collation x.key y.key = (s : ℤ) - t := by
  unfold compareKeys Message.key
  dsimp only
  rw [hx, hy]

theorem compare_times {x y : Message ρ} (off : x.sequence = none ∨ y.sequence = none) :
    compareKeys collation x.key y.key = compareTimes collation x.key y.key := by
  unfold compareKeys
  change (match x.sequence, y.sequence with
    | some s, some t => (s : ℤ) - t
    | _, _ => compareTimes collation x.key y.key) = _
  rcases off with off | off
  · rw [off]
  · rw [off]
    cases x.sequence <;> rfl

theorem key_of_sequence (coherent : Coherent M) {x y : Message ρ} {s : ℕ} (hx : x ∈ M) (hy : y ∈ M) (first : x.sequence = some s)
    (second : y.sequence = some s) : x.key = y.key :=
  coherent.same x hx y hy (coherent.distinct x hx y hy s first second)

section Ordered

variable (coherent : Coherent M) (ordered : Ordered collation M) {x y z : Message ρ}
include coherent ordered

/-- With and without a sequence, two messages are different. -/
theorem times_ne {s : ℕ} (hx : x ∈ M) (hy : y ∈ M) (some_ : x.sequence = some s)
    (none_ : y.sequence = none) : compareTimes collation x.key y.key ≠ 0 := by
  intro zero
  have same := ordered.untied x hx y hy ((compare_times (.inr none_)).trans zero)
  have sequences := congrArg Key.sequence (coherent.same x hx y hy same)
  exact Option.some_ne_none s (some_.symm.trans (sequences.trans none_))

theorem times_lt {s : ℕ} (hx : x ∈ M) (hy : y ∈ M) (some_ : x.sequence = some s)
    (none_ : y.sequence = none) (le : compareTimes collation x.key y.key ≤ 0) :
    compareTimes collation x.key y.key < 0 := by
  have ne := times_ne coherent ordered hx hy some_ none_
  omega

theorem times_lt' {s : ℕ} (hx : x ∈ M) (hy : y ∈ M) (none_ : x.sequence = none)
    (some_ : y.sequence = some s) (le : compareTimes collation x.key y.key ≤ 0) :
    compareTimes collation x.key y.key < 0 := by
  have ne := times_ne coherent ordered hy hx some_ none_
  have zero := zero_of_sign (compareTimes_antisymm collation x.key y.key)
  omega

theorem compare_trans (hx : x ∈ M) (hy : y ∈ M) (hz : z ∈ M)
    (xy : compareKeys collation x.key y.key ≤ 0) (yz : compareKeys collation y.key z.key ≤ 0) :
    compareKeys collation x.key z.key ≤ 0 := by
  have back := neg_of_sign (compareTimes_antisymm collation z.key x.key)
  cases isX : x.sequence with
  | none =>
    rw [compare_times (.inl isX)] at xy ⊢
    cases isY : y.sequence with
    | none =>
      rw [compare_times (.inl isY)] at yz
      exact compareTimes_trans xy yz
    | some t =>
      cases isZ : z.sequence with
      | none =>
        rw [compare_times (.inr isZ)] at yz
        exact compareTimes_trans xy yz
      | some u =>
        -- `y` and `z` by their sequences, `x` beside them by the times
        rw [compare_sequences isY isZ] at yz
        by_contra off
        have lt := times_lt' coherent ordered hx hy isX isY xy
        rcases Nat.lt_or_ge t u with less | ge
        · exact ordered.uncrossed y hy x hx z hz t u isY isX isZ less ⟨by omega, lt⟩
        · have is : t = u := by omega
          subst is
          rw [key_of_sequence coherent hy hz isY isZ] at xy
          exact off xy
  | some s =>
    cases isY : y.sequence with
    | none =>
      rw [compare_times (.inr isY)] at xy
      rw [compare_times (.inl isY)] at yz
      cases isZ : z.sequence with
      | none =>
        rw [compare_times (.inr isZ)]
        exact compareTimes_trans xy yz
      | some u =>
        rw [compare_sequences isX isZ]
        by_contra off
        exact ordered.uncrossed z hz y hy x hx u s isZ isY isX (by omega)
          ⟨times_lt coherent ordered hx hy isX isY xy,
            times_lt' coherent ordered hy hz isY isZ yz⟩
    | some t =>
      rw [compare_sequences isX isY] at xy
      cases isZ : z.sequence with
      | none =>
        rw [compare_times (.inr isZ)] at yz ⊢
        by_contra off
        have lt := times_lt coherent ordered hy hz isY isZ yz
        rcases Nat.lt_or_ge s t with less | ge
        · exact ordered.uncrossed x hx z hz y hy s t isX isZ isY less ⟨lt, by omega⟩
        · have is : s = t := by omega
          subst is
          rw [← key_of_sequence coherent hx hy isX isY] at yz
          exact off yz
      | some u =>
        rw [compare_sequences isY isZ] at yz
        rw [compare_sequences isX isZ]
        omega

theorem consistent_messages {l : List (Message ρ)} (keys : ∀ m ∈ l, ∃ m' ∈ M, m'.key = m.key) :
    Consistent (compareMessages collation) l := by
  refine ⟨fun a _ b _ => compareKeys_antisymm collation a.key b.key, ?_⟩
  intro a ha b hb c hc ab bc
  obtain ⟨x, hx, isX⟩ := keys a ha
  obtain ⟨y, hy, isY⟩ := keys b hb
  obtain ⟨z, hz, isZ⟩ := keys c hc
  unfold compareMessages at ab bc ⊢
  rw [← isX, ← isY] at ab
  rw [← isY, ← isZ] at bc
  rw [← isX, ← isZ]
  exact compare_trans coherent ordered hx hy hz ab bc

end Ordered

section Merged

variable {pages pages' : List (List (Message ρ))}

theorem perm_merge (pages : List (List (Message ρ))) :
    (mergeMessages collation sorting pages).Perm (collected pages.flatten) :=
  sorting.perm _ _

theorem merge_single (collation : Collation) (sorting : Sorting (Message ρ)) (pages : List (List (Message ρ))) :
    ((mergeMessages collation sorting pages).map (·.id)).Nodup :=
  ((perm_merge pages).map _).nodup_iff.mpr (collected_single _)

theorem mem_merge_id (collation : Collation) (sorting : Sorting (Message ρ)) (id : String) :
    id ∈ (mergeMessages collation sorting pages).map (·.id) ↔ ∃ m ∈ pages.flatten, m.id = id :=
  ((perm_merge pages).map _).mem_iff.trans (mem_collected_id _)

theorem key_of_merge {m : Message ρ} (among : m ∈ mergeMessages collation sorting pages) :
    ∃ m' ∈ pages.flatten, m'.key = m.key :=
  key_of_collected ((perm_merge pages).subset among)

theorem find_merge (pages : List (List (Message ρ))) (id : String) :
    find id (mergeMessages collation sorting pages) = pages.flatten.foldl (note id) none := by
  rw [find_of_perm (merge_single collation sorting pages) (perm_merge pages) id, find_collected]

theorem merge_removed {m r : Message ρ} (there : m ∈ pages.flatten)
    (removed : isRemovedMessage m = true) (among : r ∈ mergeMessages collation sorting pages)
    (same : r.id = m.id) : isRemovedMessage r = true := by
  have found := (find_eq_some _ (merge_single collation sorting pages)).mpr among
  rw [find_merge] at found
  have noted := note_foldl_removed pages.flatten none
    (.inr ⟨m, there, same.symm, removed⟩)
  rw [found] at noted
  exact noted

/-- A merged page stands for what was merged. -/
theorem note_merged (groups : List (List (List (Message ρ)))) (previous : Option (Message ρ))
    (id : String) :
    (groups.map (mergeMessages collation sorting)).flatten.foldl (note id) previous =
      groups.flatten.flatten.foldl (note id) previous := by
  induction groups generalizing previous with
  | nil => rfl
  | cons pages groups ih =>
    rw [List.map_cons, List.flatten_cons, List.flatten_cons, List.flatten_append,
      List.foldl_append, List.foldl_append, ih,
      note_foldl_single _ (merge_single collation sorting pages), find_merge,
      note_foldl_absorb pages.flatten previous]

theorem mem_merge_key (coherent : Coherent M) (drawn : Pages M pages) (k : Key) :
    k ∈ (mergeMessages collation sorting pages).map (·.key) ↔
      ∃ m ∈ pages.flatten, m.key = k := by
  constructor
  · intro among
    obtain ⟨m, there, rfl⟩ := List.mem_map.mp among
    exact key_of_merge there
  · rintro ⟨m, there, rfl⟩
    obtain ⟨v, among, is⟩ := List.mem_map.mp
      ((mem_merge_id collation sorting m.id).mpr ⟨m, there, rfl⟩)
    obtain ⟨m', there', same⟩ := key_of_merge among
    have ids : m'.id = m.id := (congrArg Key.id same).trans is
    have keys := coherent.same m' (drawn m' there') m (drawn m there) ids
    exact List.mem_map.mpr ⟨v, among, same.symm.trans keys⟩

theorem keys_single (pages : List (List (Message ρ))) :
    ((mergeMessages collation sorting pages).map (·.key)).Nodup := by
  apply List.Nodup.of_map Key.id
  rw [List.map_map]
  exact merge_single collation sorting pages

end Merged

section Sound

variable (coherent : Coherent M) (ordered : Ordered collation M)
  {pages pages' : List (List (Message ρ))}
include coherent ordered

theorem consistent_collected {messages : List (Message ρ)} (all : ∀ m ∈ messages, m ∈ M) :
    Consistent (compareMessages collation) (collected messages) := by
  apply consistent_messages coherent ordered
  intro m among
  obtain ⟨m', there, is⟩ := key_of_collected among
  exact ⟨m', all m' there, is⟩

theorem merge_sorted (sorting : Sorting (Message ρ)) (drawn : Pages M pages) :
    (mergeMessages collation sorting pages).Pairwise
      fun a b => compareMessages collation a b ≤ 0 :=
  sorting.sorted _ _ (consistent_collected coherent ordered drawn)

theorem keys_of_compare {x y : Message ρ} (hx : x ∈ M) (hy : y ∈ M)
    (le : compareKeys collation x.key y.key ≤ 0) (ge : compareKeys collation y.key x.key ≤ 0) :
    x.key = y.key := by
  have low := neg_of_sign (compareKeys_antisymm collation x.key y.key)
  exact coherent.same x hx y hy (ordered.untied x hx y hy (by unfold compareMessages; omega))

theorem merge_order (drawn : Pages M pages) (perm : pages.flatten.Perm pages'.flatten) :
    (mergeMessages collation sorting pages).map (·.id) =
      (mergeMessages collation sorting pages').map (·.id) := by
  have drawn' : Pages M pages' := fun m there => drawn m (perm.symm.subset there)
  have sorted := merge_sorted coherent ordered sorting drawn
  have sorted' := merge_sorted coherent ordered sorting drawn'
  have keys : (mergeMessages collation sorting pages).map (·.key) =
      (mergeMessages collation sorting pages').map (·.key) := by
    have pairs : ((mergeMessages collation sorting pages).map (·.key)).Pairwise
        fun a b => compareKeys collation a b ≤ 0 := List.pairwise_map.mpr sorted
    have pairs' : ((mergeMessages collation sorting pages').map (·.key)).Pairwise
        fun a b => compareKeys collation a b ≤ 0 := List.pairwise_map.mpr sorted'
    refine List.Perm.eq_of_pairwise ?_ pairs pairs' ?_
    · intro k k' there there' le ge
      obtain ⟨x, hx, rfl⟩ := (mem_merge_key coherent drawn k).mp there
      obtain ⟨y, hy, rfl⟩ := (mem_merge_key coherent drawn' k').mp there'
      exact keys_of_compare coherent ordered (drawn x hx) (drawn' y hy) le ge
    · rw [List.perm_ext_iff_of_nodup (keys_single pages) (keys_single pages')]
      intro k
      rw [mem_merge_key coherent drawn, mem_merge_key coherent drawn']
      simp only [perm.mem_iff]
  have ids := congrArg (List.map Key.id) keys
  rw [List.map_map, List.map_map] at ids
  exact ids

theorem merge_sequences (drawn : Pages M pages) :
    (mergeMessages collation sorting pages).Pairwise fun a b =>
      ∀ s t, a.sequence = some s → b.sequence = some t → s < t := by
  have sorted := merge_sorted coherent ordered sorting drawn
  have single := List.pairwise_map.mp (merge_single collation sorting pages)
  refine List.Pairwise.imp_of_mem ?_ (sorted.and single)
  rintro a b ha hb ⟨le, ne⟩ s t isS isT
  unfold compareMessages at le
  rw [compare_sequences isS isT] at le
  obtain ⟨x, hx, sameX⟩ := key_of_merge ha
  obtain ⟨y, hy, sameY⟩ := key_of_merge hb
  have sX : x.sequence = some s := (congrArg Key.sequence sameX).trans isS
  have tY : y.sequence = some t := (congrArg Key.sequence sameY).trans isT
  by_contra off
  have equal : s = t := by omega
  subst equal
  have keys := key_of_sequence coherent (drawn x hx) (drawn y hy) sX tY
  exact ne (congrArg Key.id (sameX.symm.trans (keys.trans sameY)))

theorem merge_grouping {groups : List (List (List (Message ρ)))}
    (drawn : Pages M groups.flatten) :
    mergeMessages collation sorting (groups.map (mergeMessages collation sorting)) =
      mergeMessages collation sorting groups.flatten := by
  have consistent := consistent_collected coherent ordered drawn
  have perm : (collected groups.flatten.flatten).Perm
      (collected (groups.map (mergeMessages collation sorting)).flatten) := by
    apply perm_of_find (collected_single _) (collected_single _)
    intro id
    rw [find_collected, find_collected, note_merged]
  refine (sorting.eq_of_perm consistent ?_ perm).symm
  intro a ha b hb zero
  obtain ⟨x, hx, isX⟩ := key_of_collected ha
  obtain ⟨y, hy, isY⟩ := key_of_collected hb
  unfold compareMessages at zero
  rw [← isX, ← isY] at zero
  have ids := ordered.untied x (drawn x hx) y (drawn y hy) zero
  have same : a.id = b.id :=
    (congrArg Key.id isX).symm.trans (ids.trans (congrArg Key.id isY))
  exact List.inj_on_of_nodup_map (collected_single _) ha hb same

theorem lawful_of_ordered (sorting : Sorting (Message ρ)) : Lawful collation sorting M where
  once _ _ := ⟨merge_single collation sorting _, mem_merge_id collation sorting⟩
  order _ _ drawn perm := merge_order coherent ordered drawn perm
  grouping _ drawn := merge_grouping coherent ordered drawn
  sequences _ drawn := merge_sequences coherent ordered drawn
  removed _ _ _ there removed _ among same := merge_removed there removed among same

end Sound

/-! ## Where the promise fails -/

theorem collected_append {messages : List (Message ρ)} {message : Message ρ}
    (new : ∀ m ∈ messages, m.id ≠ message.id) :
    collected (messages ++ [message]) = collected messages ++ [absorb none message] := by
  have none_ : find message.id (collected messages) = none := by
    cases found : find message.id (collected messages) with
    | none => rfl
    | some m =>
      have is := List.find?_some (p := fun m : Message ρ => m.id == message.id) found
      obtain ⟨m', there, same⟩ := key_of_collected (List.mem_of_find?_eq_some found)
      exact absurd ((congrArg Key.id same).trans (beq_iff_eq.mp is)) (new m' there)
  have off : (collected messages).any (·.id == message.id) = false := by
    rw [List.any_eq_false]
    exact List.find?_eq_none.mp none_
  unfold collected at none_ off ⊢
  rw [List.foldl_append, List.foldl_cons, List.foldl_nil, put, none_, off]
  rfl

theorem compare_self (collation : Collation) (k : Key) : compareKeys collation k k = 0 := by
  have signs := compareKeys_antisymm collation k k
  exact Int.sign_eq_zero_iff_zero.mp (by omega)

theorem compare_absorb (collation : Collation) (a b : Message ρ) :
    compareMessages collation (absorb none a) (absorb none b) =
      compareKeys collation a.key b.key := by
  unfold compareMessages
  rw [absorb_key, absorb_key]

theorem collected_distinct {messages : List (Message ρ)} (single : (messages.map (·.id)).Nodup) :
    collected messages = messages.map (absorb none) := by
  induction messages using List.reverseRecOn with
  | nil => rfl
  | append_singleton l message ih =>
    rw [List.map_append] at single
    obtain ⟨rest, -, apart⟩ := List.nodup_append.mp single
    have new : ∀ m ∈ l, m.id ≠ message.id := by
      intro m among
      exact apart m.id (List.mem_map.mpr ⟨m, among, rfl⟩) message.id
        (List.mem_singleton.mpr rfl)
    rw [collected_append new, ih rest, List.map_append]
    rfl

theorem merge_distinct {pages : List (List (Message ρ))}
    (single : (pages.flatten.map (·.id)).Nodup) :
    mergeMessages collation sorting pages =
      sorting.sort (compareMessages collation) (pages.flatten.map (absorb none)) :=
  congrArg (sorting.sort (compareMessages collation)) (collected_distinct single)

theorem untied_of_lawful (lawful : Lawful collation sorting M) {a b : Message ρ} (ha : a ∈ M)
    (hb : b ∈ M) (zero : compareMessages collation a b = 0) : a.id = b.id := by
  by_contra ne
  have drawn : Pages M [[b], [a]] := by
    intro m there
    rcases List.mem_pair.mp there with rfl | rfl
    · exact hb
    · exact ha
  have order := lawful.order [[b], [a]] [[a], [b]] drawn (List.Perm.swap a b [])
  have single : ([[b], [a]].flatten.map (·.id)).Nodup := by
    simpa using fun is => ne is.symm
  have single' : ([[a], [b]].flatten.map (·.id)).Nodup := by
    simpa using ne
  rw [merge_distinct single, merge_distinct single'] at order
  have back := (zero_of_sign (compareKeys_antisymm collation a.key b.key)).mp zero
  refine sorting.ne_of_tie (a := absorb none a) (b := absorb none b) (·.id) ?_ ?_ ?_ ?_ order
  · intro x _
    exact compare_self collation x.key
  · exact (compare_absorb collation a b).trans zero
  · exact (compare_absorb collation b a).trans back
  · rw [absorb_id, absorb_id]
    exact ne

theorem uncrossed_of_lawful (coherent : Coherent M) (lawful : Lawful collation sorting M)
    {a b c : Message ρ} (ha : a ∈ M) (hb : b ∈ M) (hc : c ∈ M) {s t : ℕ} (isA : a.sequence = some s)
    (isB : b.sequence = none) (isC : c.sequence = some t) (less : s < t) :
    ¬(compareTimes collation c.key b.key < 0 ∧ compareTimes collation b.key a.key < 0) := by
  rintro ⟨cb, ba⟩
  rw [← compare_times (.inr isB)] at cb
  rw [← compare_times (.inl isB)] at ba
  have ac : compareKeys collation a.key c.key < 0 := by
    rw [compare_sequences isA isC]
    omega
  have apart : ∀ {x y : Message ρ}, x ∈ M → y ∈ M → compareKeys collation x.key y.key < 0 →
      x.id ≠ y.id := by
    intro x y hx hy lt same
    rw [coherent.same x hx y hy same, compare_self] at lt
    omega
  have idAC := apart ha hc ac
  have idCB := apart hc hb cb
  have idBA := apart hb ha ba
  have drawn : Pages M [[c], [b], [a]] := by
    intro m there
    have three : m = c ∨ m = b ∨ m = a := by simpa using there
    rcases three with rfl | rfl | rfl
    · exact hc
    · exact hb
    · exact ha
  have perm : ([[c], [b], [a]] : List (List (Message ρ))).flatten.Perm [[a], [c], [b]].flatten :=
    (List.perm_append_comm : ([c, b] ++ [a]).Perm ([a] ++ [c, b]))
  have order := lawful.order _ _ drawn perm
  have single : ([[c], [b], [a]].flatten.map (·.id)).Nodup := by
    simpa using ⟨⟨idCB, idAC.symm⟩, idBA⟩
  have single' : ([[a], [c], [b]].flatten.map (·.id)).Nodup := by
    simpa using ⟨⟨idAC, idBA.symm⟩, idCB⟩
  rw [merge_distinct single, merge_distinct single'] at order
  refine sorting.ne_of_cycle (a := absorb none a) (b := absorb none c) (c := absorb none b) (·.id)
    ?_ ?_ ?_ ?_ ?_ ?_ ?_ ?_ order
  · intro x _
    exact compare_self collation x.key
  · rw [compare_absorb]
    exact ac
  · rw [compare_absorb]
    exact cb
  · rw [compare_absorb]
    exact ba
  · rw [compare_absorb]
    exact (neg_of_sign (compareKeys_antisymm collation a.key c.key)).mp ac
  · rw [compare_absorb]
    exact (neg_of_sign (compareKeys_antisymm collation c.key b.key)).mp cb
  · rw [compare_absorb]
    exact (neg_of_sign (compareKeys_antisymm collation b.key a.key)).mp ba
  · rw [absorb_id, absorb_id, absorb_id]
    exact ⟨idAC, idCB, idBA⟩

end Order

/-- Merging keeps its promise on the messages that the comparator puts in one order. -/
theorem mergeMessages_lawful_iff (collation : Collation) (sorting : Sorting (Message ρ))
    (M : Set (Message ρ)) (coherent : Coherent M) :
    Lawful collation sorting M ↔ Ordered collation M := by
  constructor
  · intro lawful
    refine ⟨?_, ?_⟩
    · intro a ha b hb zero
      exact untied_of_lawful lawful ha hb zero
    · intro a ha b hb c hc s t isA isB isC less
      exact uncrossed_of_lawful coherent lawful ha hb hc isA isB isC less
  · intro ordered
    exact lawful_of_ordered coherent ordered sorting

end Merge
/-! ## A message without a sequence between two with one -/

/-- The order of the code units, that of a locale on digits and lower-case letters. -/
def codeUnits : Collation where
  compare a b := if a < b then -1 else if b < a then 1 else 0
  antisymm a b := by
    rcases lt_trichotomy a b with less | rfl | more
    · rw [if_pos less, if_neg less.not_gt, if_pos less]
      rfl
    · rw [if_neg (lt_irrefl a), if_neg (lt_irrefl a)]
      rfl
    · rw [if_neg more.not_gt, if_pos more, if_pos more]
      rfl
  trans a b c ab bc := by
    have le : ∀ {x y : String}, (if x < y then (-1 : ℤ) else if y < x then 1 else 0) ≤ 0 ↔
        x ≤ y := by
      intro x y
      rcases lt_trichotomy x y with less | rfl | more
      · rw [if_pos less]
        exact ⟨fun _ => less.le, fun _ => by decide⟩
      · rw [if_neg (lt_irrefl x), if_neg (lt_irrefl x)]
        exact ⟨fun _ => le_refl x, fun _ => le_refl 0⟩
      · rw [if_neg more.not_gt, if_pos more]
        exact ⟨fun off => absurd off (by decide), fun off => absurd off (not_le.mpr more)⟩
    exact le.mpr ((le.mp ab).trans (le.mp bc))

def first : Message Unit := ⟨"m1", some 1, "2026-01-03", "", [], ()⟩
def between : Message Unit := ⟨"m2", none, "2026-01-02", "", [], ()⟩
def second : Message Unit := ⟨"m3", some 2, "2026-01-01", "", [], ()⟩

def crossed : Set (Message Unit) := fun m => m = first ∨ m = between ∨ m = second

theorem coherent_crossed : Coherent crossed := by
  refine ⟨?_, ?_⟩
  · rintro a (rfl | rfl | rfl) b (rfl | rfl | rfl) same
    all_goals first | rfl | exact absurd same (by decide)
  · rintro a (rfl | rfl | rfl) b (rfl | rfl | rfl) s isA isB
    all_goals first | rfl | cases isA
    all_goals cases isB

theorem crossed_times : compareTimes codeUnits second.key between.key < 0 ∧
    compareTimes codeUnits between.key first.key < 0 := by decide

theorem mergeMessages_not_lawful_crossed : ¬Lawful codeUnits Lib.mergeSorting crossed := by
  intro lawful
  have ordered := (mergeMessages_lawful_iff codeUnits Lib.mergeSorting crossed
    coherent_crossed).mp lawful
  exact ordered.uncrossed first (.inl rfl) between (.inr (.inl rfl)) second (.inr (.inr rfl)) 1 2
    rfl rfl rfl (by decide) crossed_times

/-- Whatever sort it is. -/
theorem not_mergeMessages_lawful :
    ¬∀ (collation : Collation) (sorting : Sorting (Message Unit)) (M : Set (Message Unit)),
      Coherent M → Lawful collation sorting M := by
  intro all
  have lawful := all codeUnits Lib.mergeSorting crossed coherent_crossed
  have ha : first ∈ crossed := .inl rfl
  have hb : between ∈ crossed := .inr (.inl rfl)
  have hc : second ∈ crossed := .inr (.inr rfl)
  exact uncrossed_of_lawful coherent_crossed lawful ha hb hc rfl rfl rfl (by decide) crossed_times

end Artoo.Client.RoomMessages
