import SearchBox.Text.LowerCase

/-!
  SearchBox.Text.Caseless — when two characters are the same letter whatever their case. They
  are if their lower forms are equal, or belong to one class of lower letters that share a
  capital (such as `s` and the long s) or look alike (such as the two small sigmas).
-/

namespace SearchBox.Text

/-- Lower letters beside the first of their class. -/
def letterTwins : List (Nat × Nat) :=
  [(305, 105), (383, 115), (953, 837), (956, 181), (963, 962), (976, 946), (977, 952), (981, 966),
   (982, 960), (1008, 954), (1009, 961), (1013, 949), (7296, 1074), (7297, 1076), (7298, 1086),
   (7299, 1089), (7300, 1090), (7301, 1090), (7302, 1098), (7303, 1123), (7835, 7777),
   (8126, 837), (8147, 912), (8163, 944), (42571, 7304), (64262, 64261)]

/-- The representative of all characters that are the same letter. -/
def caselessKey (c : Char) : Nat :=
  let n := (lowerChar c).toNat
  (letterTwins.lookup n).getD n

def sameLetter (a b : Char) : Bool :=
  caselessKey a = caselessKey b

/-- The text after `key`, compared letter by letter whatever the case. -/
def dropCaseless? : List Char → List Char → Option (List Char)
  | [], s => some s
  | _ :: _, [] => none
  | k :: key, c :: s => if sameLetter k c then dropCaseless? key s else none

def sameLetters (a b : List Char) : Bool :=
  dropCaseless? a b = some []

end SearchBox.Text
