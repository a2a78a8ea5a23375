/-! Reusable objects: handed out one holder at a time, made clean when they are handed out, and
kept for reuse up to a bound. -/

namespace Gateway

/-- The idle objects, the one returned last in front, and the number of objects ever made. -/
structure Pool (α : Type) where
  maxIdle : Nat
  idle : List α := []
  made : Nat := 0
deriving Repr

namespace Pool

variable {α : Type}

/-- The idle object returned last, or a new one; `make` is given the number of those made. -/
def take (make : Nat → α) (p : Pool α) : α × Pool α :=
  match p.idle with
  | a :: rest => (a, { p with idle := rest })
  | [] => (make p.made, { p with made := p.made + 1 })

def acquire (make : Nat → α) (clean : α → α) (p : Pool α) : α × Pool α :=
  let (a, p) := p.take make
  (clean a, p)

/-- An object that comes back is kept unless enough are idle. -/
def release (p : Pool α) (a : α) : Pool α :=
  if p.idle.length < p.maxIdle then { p with idle := a :: p.idle } else p

end Pool

end Gateway
