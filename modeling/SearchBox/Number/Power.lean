/-!
  SearchBox.Number.Power — powers of two and of ten as natural numbers.
-/

namespace SearchBox.Number

def twoTo (n : Nat) : Nat :=
  Nat.pow 2 n

def tenTo (n : Nat) : Nat :=
  Nat.pow 10 n

end SearchBox.Number
