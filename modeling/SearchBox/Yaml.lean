import SearchBox.Text.Ranges
import SearchBox.Yaml.NodeValue

/-!
  SearchBox.Yaml — YAML 1.1 texts as values. A text holds one document; one without any is
  null. Characters that are not printable have no place in a text, escapes apart.
-/

namespace SearchBox.Yaml

open SearchBox.Text

/-- The code points that may stand in a text. -/
def allowedRanges : List (Nat × Nat) :=
  [(9, 10), (13, 13), (32, 126), (133, 133), (160, 55295), (57344, 65533), (65536, 1114111)]

def read (s : List Char) : Except YamlError Value := do
  if !s.all fun c => covers allowedRanges c.toNat then throw .malformed
  match ← Node.ofText s with
  | some n => n.value
  | none => return .null

end SearchBox.Yaml
