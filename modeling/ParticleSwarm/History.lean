/-!
# Cost histories

The fitness of the leader after the start of a run and after each step, in order.  A history is
accepted as non-increasing when no cost is above the one before it; since NaN compares with
nothing, a NaN with a neighbour is never accepted.
-/

namespace ParticleSwarm

/-- Recorded costs, oldest first. -/
structure History where
  costs : Array Float
deriving DecidableEq, Repr

namespace History

def empty : History := ⟨#[]⟩

def toList (h : History) : List Float := h.costs.toList

def observe (h : History) (cost : Float) : History := ⟨h.costs.push cost⟩

def size (h : History) : Nat := h.costs.size

def isEmpty (h : History) : Bool := h.costs.isEmpty

def last? (h : History) : Option Float := h.costs.back?

def nonIncreasing : List Float → Bool
  | a :: b :: rest => decide (b ≤ a) && nonIncreasing (b :: rest)
  | _ => true

def isNonIncreasing (h : History) : Bool := nonIncreasing h.toList

@[simp] theorem toList_empty : empty.toList = [] := rfl

@[simp] theorem toList_observe (h : History) (cost : Float) :
    (h.observe cost).toList = h.toList ++ [cost] := Array.toList_push

@[simp] theorem length_toList (h : History) : h.toList.length = h.size := rfl

@[simp] theorem getLast?_toList (h : History) : h.toList.getLast? = h.last? :=
  Array.getLast?_toList h.costs

@[simp] theorem isEmpty_toList (h : History) : h.toList.isEmpty = h.isEmpty :=
  Array.isEmpty_toList

end History

end ParticleSwarm
