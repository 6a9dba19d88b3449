import Artoo.Domain.Goal

/-! The search of `wouldCreateCycle` as the loop runs it: the adjacency map first, then round after
round over a stack, until a round returns. -/
namespace Artoo.Domain
open Artoo.Lib Relation

/-- A map from a task to the tasks that depend on it, in the order of the edges. -/
abbrev Adjacency := String → Option (List String)

def addEdge (adjacency : Adjacency) (edge : String × String) : Adjacency := fun node =>
  if node = edge.1 then some ((adjacency node).getD [] ++ [edge.2]) else adjacency node

def adjacencyOf (edges : List (String × String)) : Adjacency := edges.foldl addEdge fun _ => none

theorem foldl_addEdge {edges : List (String × String)} {adjacency : Adjacency} {node : String} :
    ((edges.foldl addEdge adjacency) node).getD [] =
      (adjacency node).getD [] ++ successors edges node := by
  induction edges generalizing adjacency with
  | nil => simp [successors]
  | cons edge edges ih =>
    rw [List.foldl_cons, ih]
    unfold addEdge successors
    by_cases same : node = edge.1
    · simp [same]
    · simp [same, Ne.symm same]

theorem adjacencyOf_getD {edges : List (String × String)} {node : String} :
    (adjacencyOf edges node).getD [] = successors edges node := by
  unfold adjacencyOf
  rw [foldl_addEdge]
  rfl

/-- The end of a round: the loop returns, or goes on with a stack, its top first, and the nodes it
has seen. -/
inductive Round where
  | returns (cycle : Bool)
  | goesOn (stack seen : List String)

def round (adjacency : Adjacency) (fromTaskId : String) : List String → List String → Round
  | [], _ => .returns false
  | node :: stack, seen =>
    if node = fromTaskId then .returns true
    else if seen.contains node then .goesOn stack seen
    else .goesOn (((adjacency node).getD []).foldl (fun stack next => next :: stack) stack)
      (node :: seen)

/-- What the loop returns, if it does within a number of rounds. -/
def rounds (adjacency : Adjacency) (fromTaskId : String) : Nat → List String → List String →
    Option Bool
  | 0, _, _ => none
  | n + 1, stack, seen =>
    match round adjacency fromTaskId stack seen with
    | .returns cycle => some cycle
    | .goesOn stack seen => rounds adjacency fromTaskId n stack seen

def wouldCreateCycleWithin (n : Nat) (edges : List (String × String)) (fromTaskId toTaskId : String) :
    Option Bool :=
  if fromTaskId = toTaskId then some true
  else rounds (adjacencyOf edges) fromTaskId n [toTaskId] []

/-- The pops that are left bound the rounds. -/
theorem rounds_search {edges : List (String × String)} {fromTaskId : String} {n m : Nat}
    {stack seen : List String} (enough : pops edges stack seen < n)
    (fuel : pops edges stack seen ≤ m) :
    rounds (adjacencyOf edges) fromTaskId n stack seen =
      some (search edges fromTaskId m stack seen) := by
  induction n generalizing m stack seen with
  | zero => omega
  | succ n ih =>
    cases stack with
    | nil => cases m <;> rfl
    | cons node stack =>
      cases m with
      | zero =>
        unfold pops at fuel
        rw [List.length_cons] at fuel
        omega
      | succ m =>
        unfold pops at enough fuel
        rw [List.length_cons] at enough fuel
        unfold rounds round search
        by_cases hit : node = fromTaskId
        · simp [hit]
        · by_cases old : seen.contains node = true
          · simp only [if_neg hit, if_pos old]
            apply ih
            · unfold pops
              omega
            · unfold pops
              omega
          · simp only [if_neg hit, if_neg old, adjacencyOf_getD, List.foldl_flip_cons_eq_append']
            rw [List.contains_iff_mem] at old
            have count := @countP_expand _ edges _ _ _ old
            apply ih
            · unfold pops
              rw [List.length_append, List.length_reverse]
              omega
            · unfold pops
              rw [List.length_append, List.length_reverse]
              omega

/-- The loop returns within two rounds more than there are edges, with the answer of the search. -/
theorem rounds_enough {edges : List (String × String)} {fromTaskId toTaskId : String} {n : Nat}
    (enough : edges.length + 2 ≤ n) :
    wouldCreateCycleWithin n edges fromTaskId toTaskId =
      some (wouldCreateCycle edges fromTaskId toTaskId) := by
  unfold wouldCreateCycleWithin wouldCreateCycle
  split
  · rfl
  · have le : pops edges [toTaskId] [] ≤ edges.length + 1 := by
      unfold pops
      have le := @List.countP_le_length _ (fun e : String × String => !([] : List String).contains e.1)
        edges
      rw [List.length_singleton]
      omega
    exact rounds_search (by omega) le

/-- The loop ends, finds exactly the cycles, and an edge that it lets pass closes none. -/
theorem cycle_test (edges : List (String × String)) (fromTaskId toTaskId : String) :
    ∃ cycle, (∀ n, edges.length + 2 ≤ n →
        wouldCreateCycleWithin n edges fromTaskId toTaskId = some cycle) ∧
      (cycle = true ↔ fromTaskId = toTaskId ∨ TransGen (Edge edges) toTaskId fromTaskId) ∧
      (cycle = false → Acyclic (Edge edges) → Acyclic (Edge (edges ++ [(fromTaskId, toTaskId)]))) := by
  refine ⟨wouldCreateCycle edges fromTaskId toTaskId, fun _ => rounds_enough, ?_, ?_⟩
  · rw [wouldCreateCycle_iff]
    exact reflTransGen_iff_eq_or_transGen
  · exact fun passes acyclic => acyclic_append acyclic (wouldCreateCycle_eq_false.mp passes)

end Artoo.Domain
