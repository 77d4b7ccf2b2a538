import Mailroom.Vocabulary

/-!
The strategies by which one of several servers is chosen, as they are named in settings and on jobs.
-/

namespace Mailroom

inductive StrategyKind where
  | roundRobin
  | weighted
  | firstHealthy
deriving DecidableEq, Repr, Inhabited

instance : Vocabulary StrategyKind where
  all := [.roundRobin, .weighted, .firstHealthy]
  word
    | .roundRobin => "round_robin"
    | .weighted => "weighted"
    | .firstHealthy => "first_healthy"
  find_word s := by cases s <;> decide

namespace StrategyKind

/-- The strategy of a name; no name at all means taking turns. -/
def parse? (text : String) : Option StrategyKind :=
  if text = "" then some .roundRobin else Vocabulary.ofWord? text

end StrategyKind

/-- A strategy with the weights it needs, one for each server of a list. -/
inductive Strategy where
  | roundRobin
  | weighted (weights : List Nat)
  | firstHealthy
deriving DecidableEq, Repr

def Strategy.forServers (kind : StrategyKind) (servers : List String) (weight : String → Nat) :
    Strategy :=
  match kind with
  | .roundRobin => .roundRobin
  | .firstHealthy => .firstHealthy
  | .weighted => .weighted (servers.map weight)

end Mailroom
