import SearchBox.Yaml.Node
import SearchBox.Yaml.ScalarValue

/-!
  SearchBox.Yaml.NodeValue — the values of nodes. Sequences are lists, mappings keep the order
  of their keys, a repeated key counts with its last value, and a merge key brings in the
  entries of other mappings, which the mapping's own ones override.

  Where several nodes have no value, the fault that is reported is the first one from the root
  outward, level by level: the parts of a collection are looked at when all collections that
  start nearer to the root have been. So faults are searched for first, and the value is put
  together afterwards.
-/

namespace SearchBox.Yaml

/-- The entries of a mapping; a merged one has its merge keys resolved. -/
abbrev NodeEntries := List (Node × Node)

def Node.tagName : Node → String
  | .scalar tag _ => tag
  | .sequence tag _ => tag
  | .mapping tag _ => tag

def isMergeKey (k : Node) : Bool :=
  k.tagName = ownTag "merge"

/-- A key that is a lone equals sign is a text. -/
def asKey : Node → Node
  | .scalar tag text => .scalar (if tag = ownTag "value" then ownTag "str" else tag) text
  | .sequence tag items => .sequence (if tag = ownTag "value" then ownTag "str" else tag) items
  | .mapping tag entries => .mapping (if tag = ownTag "value" then ownTag "str" else tag) entries

/-! ## Merge keys -/

/-- Entries in two parts: those that merge keys bring in, and the other ones. -/
structure Merged where
  brought : NodeEntries
  own : NodeEntries

def Merged.all (m : Merged) : NodeEntries :=
  m.brought ++ m.own

mutual

def mappingEntries : Node → Except YamlError NodeEntries
  | .mapping _ entries => do return (← mergeEntries entries).all
  | _ => .error .malformed

/-- The entries of several mappings, those of the first one last. -/
def sequenceEntries : List Node → Except YamlError NodeEntries
  | [] => .ok []
  | n :: later => do
    let entries ← mappingEntries n
    return (← sequenceEntries later) ++ entries

/-- Resolves the merge keys among entries. -/
def mergeEntries : NodeEntries → Except YamlError Merged
  | [] => .ok ⟨[], []⟩
  | (k, v) :: later => do
    if isMergeKey k then
      let entries ← match v with
        | .mapping _ inner => do pure (← mergeEntries inner).all
        | .sequence _ items => sequenceEntries items
        | .scalar _ _ => throw .malformed
      let rest ← mergeEntries later
      return ⟨entries ++ rest.brought, rest.own⟩
    else
      let rest ← mergeEntries later
      return ⟨rest.brought, (asKey k, v) :: rest.own⟩

end

/-! ## Faults -/

/-- Tags of collections. Which kind of collection has them is looked at with its parts. -/
def isCollectionTag (tag : String) : Bool :=
  ["seq", "map", "set", "omap", "pairs"].any fun name => tag = ownTag name

mutual

/-- The text of a node in the place of a scalar. A mapping has the text under its equals sign. -/
def textOf : Node → Except YamlError (List Char)
  | .scalar _ text => .ok text
  | .sequence _ _ => .error .malformed
  | .mapping _ entries => textUnderSign entries

def textUnderSign : NodeEntries → Except YamlError (List Char)
  | [] => .error .malformed
  | (k, v) :: later => if k.tagName = ownTag "value" then textOf v else textUnderSign later

end

def ownScalar (n : Node) : Except YamlError Scalar := do
  let text ← textOf n
  match n with
  | .mapping _ _ => if n.tagName = ownTag "timestamp" then throw .timeInMapping else scalarValue n.tagName text
  | _ => scalarValue n.tagName text

def isPairTag (tag : String) : Bool :=
  tag = ownTag "omap" || tag = ownTag "pairs"

def Node.refused : Node :=
  .scalar "" []

/-- The two parts of a mapping with one entry, which stands for a pair. -/
def pairOf : Node → List Node
  | .mapping _ [(k, v)] => [k, v]
  | _ => [.refused]

/-- The parts of a collection in order, keys before their values. -/
def partsOf (n : Node) : Except YamlError (List Node) :=
  let tag := n.tagName
  match n with
  | .sequence _ items =>
    if tag = ownTag "seq" then .ok items
    else if isPairTag tag then .ok (items.flatMap pairOf)
    else .error .malformed
  | .mapping _ entries =>
    if tag = ownTag "map" ∨ tag = ownTag "set" then do
      return (← mergeEntries entries).all.flatMap fun (k, v) => [k, v]
    else .error .malformed
  | .scalar _ _ => .error .malformed

/-- Whether the parts of a node are keys and values by turns, the keys being scalars. -/
def hasKeys (n : Node) : Bool :=
  n.tagName = ownTag "map" || n.tagName = ownTag "set"

/-- Looks at parts in order. Answers the collections among them, whose own parts come later. -/
def checkParts (isKeyed : Bool) : Bool → List Node → Except YamlError (List Node)
  | _, [] => .ok []
  | isKey, n :: later =>
    if isCollectionTag n.tagName then
      if isKeyed && isKey then .error .malformed
      else do return n :: (← checkParts isKeyed (!isKey) later)
    else do
      let _ ← ownScalar n
      checkParts isKeyed (!isKey) later

def Node.size : Node → Nat
  | .scalar _ _ => 1
  | .sequence _ items => sizes items + 1
  | .mapping _ entries => entrySizes entries + 1
where
  sizes : List Node → Nat
    | [] => 0
    | n :: later => n.size + sizes later
  entrySizes : NodeEntries → Nat
    | [] => 0
    | (k, v) :: later => k.size + v.size + entrySizes later

/-- Looks at the parts of collections, level by level. -/
def checkLevels : Nat → List Node → Except YamlError Unit
  | 0, _ => .ok ()
  | _, [] => .ok ()
  | fuel + 1, n :: later => do
    let inner ← checkParts (hasKeys n) true (← partsOf n)
    checkLevels fuel (later ++ inner)

def Node.check (n : Node) : Except YamlError Unit := do
  checkLevels n.size (← checkParts false false [n])

/-! ## Values -/

/-- The value of a tree; `fuel` bounds its depth. -/
def treeValue : Nat → Node → Except YamlError Value
  | 0, _ => .error .malformed
  | fuel + 1, n =>
    let tag := n.tagName
    if isCollectionTag tag then
      match n with
      | .sequence _ items =>
        if isPairTag tag then do
          return .list (← items.mapM fun item => do return .tuple (← (pairOf item).mapM (treeValue fuel)))
        else do return .list (← items.mapM (treeValue fuel))
      | .mapping _ entries => do
        let entries ← mergeEntries entries
        let writes ← entries.all.mapM fun (k, v) => do return (← ownScalar k, ← treeValue fuel v)
        let written := Entries.ofWrites writes
        return if tag = ownTag "set" then .set (written.map (·.1)) else .dict written
      | .scalar _ _ => .error .malformed
    else Value.scalar <$> ownScalar n

def Node.value (n : Node) : Except YamlError Value := do
  n.check
  treeValue n.size n

end SearchBox.Yaml
