import Gateway.Balance.Target

/-! Choosing a target for each request: in turn, at random, or at random by weight. -/

namespace Gateway

inductive BalancerKind where
  | random
  | roundRobin
  | weighted
deriving DecidableEq, Repr

namespace BalancerKind

def text : BalancerKind → String
  | random => "random"
  | roundRobin => "round_robin"
  | weighted => "weighted"

def ofText? : String → Option BalancerKind
  | "random" => some random
  | "round_robin" => some roundRobin
  | "weighted" => some weighted
  | _ => none

end BalancerKind

namespace Weighted

variable {τ α : Type}

def total [OfNat α 0] [Add α] (weight : τ → α) (targets : List τ) : α :=
  targets.foldl (fun sum t => sum + weight t) 0

/-- The first target at which the running sum of the weights passes the threshold. -/
def crossing [Add α] [LT α] [DecidableLT α] (weight : τ → α) (threshold : α) :
    (running : α) → List τ → Option τ
  | _, [] => none
  | running, t :: ts =>
    if threshold < running + weight t then some t
    else crossing weight threshold (running + weight t) ts

/-- When rounding keeps every sum below the threshold, the last target with a weight is taken. -/
def atThreshold [OfNat α 0] [Add α] [LT α] [DecidableLT α] (weight : τ → α) (threshold : α)
    (targets : List τ) : Option τ :=
  match crossing weight threshold 0 targets with
  | some t => some t
  | none => targets.reverse.find? fun t => (0 : α) < weight t

/-- The target for a draw from the unit interval; there is none when all weights are zero. -/
def choose [OfNat α 0] [Add α] [Mul α] [LT α] [LE α] [DecidableLT α] [DecidableLE α]
    (weight : τ → α) (draw : α) (targets : List τ) : Option τ :=
  if total weight targets ≤ 0 then none
  else atThreshold weight (draw * total weight targets) targets

end Weighted

/-- The state of a balancer; `turn` counts the choices made in turn, in 64 bits. -/
structure Balancer where
  kind : BalancerKind
  set : TargetSet := {}
  turn : Nat := 0
deriving DecidableEq, Repr

namespace Balancer

/-- A balancer by weight takes only finite weights that are not negative. -/
def accepts (kind : BalancerKind) (t : Target) : Bool :=
  match kind, t.weight with
  | .weighted, some w => w.isFinite && decide ((0 : Binary64) ≤ w)
  | .weighted, none => false
  | _, _ => true

def targets (b : Balancer) : List Target := b.set.targets

def add (b : Balancer) (t : Target) : Balancer × Bool :=
  if accepts b.kind t then
    let (set, added) := b.set.add t
    ({ b with set }, added)
  else (b, false)

def remove (b : Balancer) (name : String) : Balancer × Bool :=
  let (set, removed) := b.set.remove name
  ({ b with set }, removed)

/-- The choice for a draw, which is a fraction of the unit interval in units of `2⁻⁵³`. -/
def next (b : Balancer) (draw : Nat) : Balancer × Option Target :=
  match b.kind with
  | .roundRobin =>
    if b.targets.isEmpty then (b, none)
    else ({ b with turn := (b.turn + 1) % UInt64.size }, b.targets[b.turn % b.targets.length]?)
  | .random => (b, b.targets[draw * b.targets.length / 0x20000000000000]?)
  | .weighted =>
    (b, Weighted.choose (fun t => t.weight.getD 0) (Binary64.ofScaled false draw (-53)) b.targets)

/-- A balancer and the targets that it refused, after one more target. -/
def offer (s : Balancer × List Target) (t : Target) : Balancer × List Target :=
  let (b, added) := s.1.add t
  (b, if added then s.2 else s.2 ++ [t])

/-- A balancer with the given targets, and those it refused. -/
def build (kind : BalancerKind) (targets : List Target) : Balancer × List Target :=
  targets.foldl offer ({ kind }, [])

end Balancer

/-- Draws spread evenly over the unit interval. -/
structure Draws where
  count : Nat := 0
deriving Repr, Inhabited

/-- The next draw in units of `2⁻⁵³`: a multiple of the golden ratio modulo one. -/
def Draws.next (d : Draws) : Draws × Nat :=
  ({ count := d.count + 1 }, (d.count + 1) * 11400714819323198485 % 0x10000000000000000 / 2048)

end Gateway
