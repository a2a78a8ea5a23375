import Gateway.Values.Store

/-! Stores that several holders share. A holder is a handle, or a context with a store of its own;
what one of them writes all holders of the same store see. -/

namespace Gateway

/-- The stores ever made, and which of them each holder uses; a dropped handle has none. -/
structure Shelf where
  stores : List Values := []
  handles : List (Option Nat) := []
  contexts : List Nat := []
deriving Repr, Inhabited

namespace Shelf

inductive Holder where
  | handle (i : Nat)
  | context (i : Nat)
deriving DecidableEq, Repr

def storeOf? (s : Shelf) : Holder → Option Nat
  | .handle i => (s.handles[i]?).join
  | .context i => s.contexts[i]?

/-- What a holder sees; a dropped handle sees nothing. -/
def view (s : Shelf) (h : Holder) : Values :=
  ((s.storeOf? h).bind (s.stores[·]?)).getD {}

def holders (s : Shelf) (store : Nat) : Nat :=
  (s.handles.filter (· == some store)).length + (s.contexts.filter (· == store)).length

def modify (s : Shelf) (h : Holder) (f : Values → Values) : Shelf :=
  match s.storeOf? h with
  | some i => { s with stores := s.stores.modify i f }
  | none => s

def set (s : Shelf) (h : Holder) (name : String) (value : Stored) : Shelf :=
  s.modify h (·.set name value)

def getOf? (s : Shelf) (h : Holder) (kind : Stored.Kind) (name : String) : Option Stored :=
  (s.view h).getOf? kind name

def contains (s : Shelf) (h : Holder) (name : String) : Bool := (s.view h).contains name

def erase (s : Shelf) (h : Holder) (name : String) : Shelf := s.modify h (·.remove name)

def remove (s : Shelf) (h : Holder) (name : String) : Shelf × Bool :=
  (s.erase h name, s.contains h name)

def newHandle (s : Shelf) : Shelf :=
  { s with stores := s.stores ++ [{}], handles := s.handles ++ [some s.stores.length] }

def newContext (s : Shelf) : Shelf :=
  { s with stores := s.stores ++ [{}], contexts := s.contexts ++ [s.stores.length] }

def share (s : Shelf) (h : Holder) : Shelf := { s with handles := s.handles ++ [s.storeOf? h] }

def drop (s : Shelf) (i : Nat) : Shelf := { s with handles := s.handles.set i none }

/-- The store of a context is emptied in place when nothing else holds it, and left to the other
holders otherwise. -/
def reset (s : Shelf) (i : Nat) : Shelf :=
  match s.contexts[i]? with
  | none => s
  | some store =>
    if 1 < s.holders store then
      { s with stores := s.stores ++ [{}], contexts := s.contexts.set i s.stores.length }
    else { s with stores := s.stores.set store {} }

end Shelf

end Gateway
