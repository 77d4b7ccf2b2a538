import Mailroom.Bindings
import Mailroom.Buckets
import Mailroom.Routing.Strategy

/-!
Choosing one server of a list.  Taking turns counts for each key apart; choosing by weight counts
for all keys together and walks through buckets as wide as the weights.
-/

namespace Mailroom

/-- The counters behind the strategies. -/
structure Selection where
  turns : Bindings UInt64
  point : UInt64
deriving DecidableEq, Repr, Inhabited

namespace Selection

def initial : Selection := ⟨[], 0⟩

def turnsOf (s : Selection) (key : String) : UInt64 := (s.turns.lookup key).getD 0

/-- One weight for each of `count` servers: weights that are missing count one. -/
def weightsFor (weights : List Nat) (count : Nat) : List Nat :=
  (List.range count).map fun i => weights[i]?.getD 1

/-- Choose one of `count` servers by the weights. -/
def byWeight (s : Selection) (weights : List Nat) (count : Nat) : Nat × Selection :=
  let widths := weightsFor weights count
  let total := totalWidth widths
  if total = 0 then (0, s)
  else
    let point := s.point.toNat % total
    ((bucketOf widths point).getD (count - 1),
      { s with point := UInt64.ofNat ((s.point.toNat + 1) % total) })

/-- Choose a server for a key and move the counter on; none only if there is no server. -/
def select (s : Selection) (strategy : Strategy) (key : String) (servers : List String) :
    Option Nat × Selection :=
  match servers with
  | [] => (none, s)
  | [_] => (some 0, s)
  | _ =>
      match strategy with
      | .firstHealthy => (some 0, s)
      | .roundRobin =>
          let count := s.turnsOf key
          (some (count.toNat % servers.length),
            { s with turns := Bindings.put key (count + 1) s.turns })
      | .weighted weights =>
          let (place, s) := s.byWeight weights servers.length
          (some place, s)

end Selection

end Mailroom
