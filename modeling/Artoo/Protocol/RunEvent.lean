import Mathlib.Data.Rat.Defs
import Mathlib.Logic.Basic

/-! The run event body a node stores in its journal and sends to the server.
JSON text is represented by the value it encodes; key order is kept. -/
namespace Artoo.Protocol

inductive Json where
  | null
  | bool (b : Bool)
  | num (q : Rat)
  | str (s : String)
  | arr (xs : List Json)
  | obj (fields : List (String × Json))

namespace Json

mutual

def decEq : (a b : Json) → Decidable (a = b)
  | .null, .null => isTrue rfl
  | .bool a, .bool b => decidable_of_iff (a = b) (by simp)
  | .num a, .num b => decidable_of_iff (a = b) (by simp)
  | .str a, .str b => decidable_of_iff (a = b) (by simp)
  | .arr a, .arr b => @decidable_of_iff _ (a = b) (by simp) (decEqList a b)
  | .obj a, .obj b => @decidable_of_iff _ (a = b) (by simp) (decEqFields a b)
  | .null, .bool _ | .null, .num _ | .null, .str _ | .null, .arr _ | .null, .obj _
  | .bool _, .null | .bool _, .num _ | .bool _, .str _ | .bool _, .arr _ | .bool _, .obj _
  | .num _, .null | .num _, .bool _ | .num _, .str _ | .num _, .arr _ | .num _, .obj _
  | .str _, .null | .str _, .bool _ | .str _, .num _ | .str _, .arr _ | .str _, .obj _
  | .arr _, .null | .arr _, .bool _ | .arr _, .num _ | .arr _, .str _ | .arr _, .obj _
  | .obj _, .null | .obj _, .bool _ | .obj _, .num _ | .obj _, .str _ | .obj _, .arr _ =>
    isFalse (by simp)

def decEqList : (a b : List Json) → Decidable (a = b)
  | [], [] => isTrue rfl
  | [], _ :: _ | _ :: _, [] => isFalse (by simp)
  | x :: xs, y :: ys =>
    @decidable_of_iff _ (x = y ∧ xs = ys) (by simp)
      (@instDecidableAnd _ _ (decEq x y) (decEqList xs ys))

def decEqFields : (a b : List (String × Json)) → Decidable (a = b)
  | [], [] => isTrue rfl
  | [], _ :: _ | _ :: _, [] => isFalse (by simp)
  | (k, x) :: xs, (l, y) :: ys =>
    @decidable_of_iff _ ((k = l ∧ x = y) ∧ xs = ys) (by simp)
      (@instDecidableAnd _ _ (@instDecidableAnd _ _ inferInstance (decEq x y)) (decEqFields xs ys))

end

instance : DecidableEq Json := decEq

end Json

/-- A `nullish` field: absent, `null` and a value are three different texts. -/
inductive Nullish (α : Type) where
  | absent
  | null
  | value (a : α)
  deriving DecidableEq, Repr

/-- `value ?? undefined`. -/
def Nullish.toOption {α : Type} : Nullish α → Option α
  | .value a => some a
  | _ => none

inductive ArtifactType where
  | patch | pullRequest | file | screenshot | report | logBundle | url | testResult | contract
  deriving DecidableEq, Repr

inductive OutputStream where
  | stdout | stderr
  deriving DecidableEq, Repr

structure RunUsagePayload where
  inputTokens : Option Nat
  outputTokens : Option Nat
  cachedInputTokens : Option Nat
  costUsd : Option Rat
  currency : Option String
  providerSessionId : Option String
  deriving DecidableEq, Repr

inductive LifecyclePhase where
  | started | completed | failed | cancelled | paused | resumed
  deriving DecidableEq, Repr

structure RunLifecyclePayload where
  phase : LifecyclePhase
  reason : Nullish String
  deriving DecidableEq, Repr

inductive WorkspaceRetentionOutcome where
  | completed | failed | cancelled | incompleteDelivery | unconfirmed
  deriving DecidableEq, Repr

/-- The version field is the literal 1 and is not stored. -/
structure RunWorkspaceRetainedPayload where
  workspaceRoot : String
  workspaceBranch : String
  outcome : WorkspaceRetentionOutcome
  deriving DecidableEq, Repr

structure ArtifactPayload where
  type : ArtifactType
  uri : String
  metadata : List (String × Json)
  checksum : Nullish String
  deriving DecidableEq

/-- The values `runEventBodySchema` admits, one constructor for each `type`. -/
inductive NodeRunEvent where
  | output (stream : OutputStream) (text : String)
  | answer (text : String)
  | usage (payload : RunUsagePayload)
  | lifecycle (payload : RunLifecyclePayload)
  | artifact (payload : ArtifactPayload)
  | workspaceRetained (payload : RunWorkspaceRetainedPayload)
  deriving DecidableEq

/-- `["completed", "failed", "cancelled"].includes(phase)`. -/
def LifecyclePhase.terminal : LifecyclePhase → Bool
  | .completed | .failed | .cancelled => true
  | _ => false

end Artoo.Protocol
