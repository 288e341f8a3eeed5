import SearchBox.Value

/-!
  SearchBox.Settings.Merge — settings laid over others. Where both have a mapping under a key,
  the mappings are merged in turn; else the overlay's value takes the place of the other one.
-/

namespace SearchBox.Settings

mutual

/-- A value laid over the one that is there, if any. -/
def overlayValue (old : Option Value) : Value → Value
  | .dict changes =>
    match old with
    | some (.dict base) => .dict (merge base changes)
    | _ => .dict changes
  | v => v

def merge (base : Entries) : List (Scalar × Value) → Entries
  | [] => base
  | (k, v) :: later => merge (Entries.put k (overlayValue (Entries.find? k base) v) base) later

end
end SearchBox.Settings
