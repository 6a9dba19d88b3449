import Artoo.Node.WorktreeReservation

/-! The runs of the calls on an owned worktree: what is made, what is materialized, and what a failure
ends. -/
namespace Artoo.Node.WorktreeReservation
open Artoo.Lib Artoo.Lib.Routine Artoo.Node.Porcelain

abbrev Notes := List (Note Query Answer)

abbrev Now := Shared State Query Answer

variable {a : Attempt} {st s : Now} {α : Type} {may : Query → Prop}

/-! ## Routines that change nothing -/

theorem quiet_reading (q : Query) : (reading q : Task (Answer q)).Quiet may := fun _ => trivial

theorem quiet_throwIf (condition : Bool) (code message : String) :
    (throwIf condition code message).Quiet may := by
  unfold throwIf
  cases condition <;> trivial

theorem quiet_ofExcept (x : Except String α) : (ofExcept x).Quiet may := by
  cases x <;> trivial

theorem quiet_assertNotAborted : assertNotAborted.Quiet may := by
  intro reason
  cases reason <;> trivial

theorem quiet_realpath (path : Text) : (realpath path).Quiet may := by
  intro answer
  exact quiet_ofExcept answer

theorem quiet_observe (path : Text) : (observe path).Quiet may := by
  unfold observe
  apply quiet_bind (quiet_reading _)
  intro answer
  apply quiet_bind (quiet_ofExcept answer)
  intro info
  apply quiet_bind (quiet_throwIf _ _ _)
  intro _
  apply quiet_bind (quiet_realpath path)
  intro real
  apply quiet_bind (quiet_throwIf _ _ _)
  intro _
  trivial

theorem quiet_anyMoved (roots : List (Text × Text)) : (anyMoved roots).Quiet may := by
  induction roots with
  | nil => trivial
  | cons root roots ih =>
    apply quiet_bind (quiet_realpath root.1)
    intro real
    split_ifs
    · trivial
    · exact ih

theorem quiet_assertIdentity (expected : DirectoryIdentity) :
    (assertIdentity expected).Quiet may := by
  apply quiet_bind (quiet_observe expected.path)
  intro found
  exact quiet_throwIf _ _ _

theorem quiet_assertTarget (target : Option DirectoryIdentity) :
    (assertTarget a target).Quiet may := by
  cases target with
  | none => trivial
  | some target =>
    apply quiet_bind (quiet_realpath a.root)
    intro real
    exact quiet_throwIf _ _ _

theorem quiet_assertEmpty : (assertEmpty a).Quiet may := by
  apply quiet_bind (quiet_reading _)
  intro answer
  apply quiet_bind (quiet_ofExcept answer)
  intro entries
  exact quiet_throwIf _ _ _

theorem quiet_assertConfigured : (assertConfigured a).Quiet may := by
  unfold assertConfigured
  apply quiet_bind (quiet_realpath _)
  intro parent
  apply quiet_bind (quiet_throwIf _ _ _)
  intro _
  apply quiet_bind (quiet_realpath _)
  intro source
  apply quiet_bind (quiet_throwIf _ _ _)
  intro _
  apply quiet_bind (quiet_anyMoved _)
  intro moved
  exact quiet_throwIf _ _ _

theorem quiet_assertBoundaries (requireEmpty : Bool) :
    (assertBoundaries a requireEmpty).Quiet may := by
  unfold assertBoundaries
  apply quiet_bind quiet_assertConfigured
  intro _ state
  apply quiet_bind (quiet_forM fun expected _ => quiet_assertIdentity expected)
  intro _
  apply quiet_bind (quiet_forM fun expected _ => quiet_assertIdentity expected)
  intro _
  apply quiet_bind (quiet_assertTarget _)
  intro _
  cases requireEmpty with
  | false => trivial
  | true => exact quiet_assertEmpty

/-- `git worktree add` -/
def isAdd (args : List Text) : Bool := ["worktree".toList, "add".toList].isPrefixOf args

/-- An await that adds no worktree. -/
def Harmless : Query → Prop
  | .git _ args _ => isAdd args = false
  | _ => True

theorem quiet_git {args : List Text} (harmless : isAdd args = false) (cwd : Text) (allowed : List ℤ)
    (kind : Kind) : (git a cwd args allowed kind).Quiet Harmless := by
  intro state
  apply quiet_bind (quiet_throwIf _ _ _)
  intro _
  apply quiet_bind quiet_assertNotAborted
  intro _
  apply quiet_bind (quiet_assertBoundaries false)
  intro _
  refine ⟨harmless, fun answer => ?_⟩
  apply quiet_bind (quiet_ofExcept answer)
  intro result later
  apply quiet_bind (quiet_throwIf _ _ _)
  intro _
  apply quiet_bind quiet_assertNotAborted
  intro _
  apply quiet_bind (quiet_assertBoundaries false)
  intro _
  apply quiet_bind (quiet_throwIf _ _ _)
  intro _
  trivial

theorem quiet_line (output : Option Text) : (line output).Quiet Harmless := by
  cases output with
  | none => trivial
  | some output =>
    apply quiet_bind (quiet_throwIf _ _ _)
    intro _
    trivial

theorem quiet_canonicalGitPath (cwd : Text) (arg : String) :
    (canonicalGitPath a cwd arg).Quiet Harmless := by
  apply quiet_bind (quiet_git rfl _ _ _)
  intro result
  apply quiet_bind (quiet_line _)
  intro value
  exact quiet_realpath _

theorem quiet_records (output : Option Text) : (records output).Quiet Harmless := by
  cases output with
  | none => trivial
  | some output =>
    unfold records
    dsimp only
    cases parseWorktreePorcelain .posix output <;> trivial

theorem quiet_assertRecords (materialized : Bool) (listed : List WorktreeRecord) :
    ∀ identities own, (assertRecords a materialized listed identities own).Quiet Harmless := by
  induction listed with
  | nil =>
    intro identities own
    trivial
  | cons record listed ih =>
    intro identities own
    unfold assertRecords
    apply quiet_bind (quiet_realpath _)
    intro path
    apply quiet_bind (quiet_observe _)
    intro directory
    apply quiet_bind (quiet_throwIf _ _ _)
    intro _ state
    dsimp only [Routine.bind]
    split_ifs
    · apply quiet_bind (quiet_throwIf _ _ _)
      intro _
      exact ih _ _
    · apply quiet_bind (quiet_throwIf _ _ _)
      intro _
      exact ih _ _

theorem quiet_assertCheckout (own : ℕ) : (assertCheckout a own).Quiet Harmless := by
  unfold assertCheckout
  apply quiet_bind (quiet_throwIf _ _ _)
  intro _
  apply quiet_bind (quiet_canonicalGitPath _ _)
  intro top
  apply quiet_bind (quiet_throwIf _ _ _)
  intro _
  apply quiet_bind (quiet_canonicalGitPath _ _)
  intro common
  apply quiet_bind (quiet_throwIf _ _ _)
  intro _
  apply quiet_bind (quiet_git rfl _ _ _)
  intro branch
  apply quiet_bind (quiet_line _)
  intro name
  apply quiet_bind (quiet_throwIf _ _ _)
  intro _
  apply quiet_bind (quiet_git rfl _ _ _)
  intro head
  apply quiet_bind (quiet_line _)
  intro commit
  apply quiet_bind (quiet_throwIf _ _ _)
  intro _
  apply quiet_bind (quiet_canonicalGitPath _ _)
  intro metadata
  exact quiet_throwIf _ _ _

theorem quiet_assertRepository (materialized : Bool) :
    (assertRepository a materialized).Quiet Harmless := by
  unfold assertRepository
  apply quiet_bind (quiet_canonicalGitPath _ _)
  intro top
  apply quiet_bind (quiet_throwIf _ _ _)
  intro _
  apply quiet_bind (quiet_canonicalGitPath _ _)
  intro directory
  apply quiet_bind (quiet_throwIf _ _ _)
  intro _
  apply quiet_bind (quiet_canonicalGitPath _ _)
  intro common
  apply quiet_bind (quiet_throwIf _ _ _)
  intro _
  apply quiet_bind (quiet_git rfl _ _ _)
  intro _
  apply quiet_bind (quiet_git rfl _ _ _)
  intro listing
  apply quiet_bind (quiet_records _)
  intro listed
  apply quiet_bind (quiet_assertRecords _ _ _ _)
  intro own
  cases materialized with
  | false => trivial
  | true => exact quiet_assertCheckout own

end Artoo.Node.WorktreeReservation
