import SearchBox.Yaml.ImpliedTag
import SearchBox.Yaml.Token

/-!
  SearchBox.Yaml.Node — a document as a tree of tagged nodes, read from tokens. An alias is a
  copy of the node with its anchor; an alias of a collection inside that collection is empty.
  An anchor names one node of a document only.

  Every function that reads takes `fuel`, which bounds the number of calls and is never used
  up when it exceeds the number of tokens by far.
-/

namespace SearchBox.Yaml

inductive Node where
  | scalar (tag : String) (text : List Char)
  | sequence (tag : String) (items : List Node)
  | mapping (tag : String) (entries : List (Node × Node))
  deriving Inhabited

/-- An empty scalar in the place of a node that is not written. -/
def Node.absent : Node :=
  .scalar (impliedTag []) []

structure Reader where
  tokens : TokenStream
  /-- What handles of tags stand for. -/
  handles : List (String × String) := []
  anchors : List (String × Node) := []

abbrev NodeReading (α : Type) := StateT Reader (Except YamlError) α

def malformed {α : Type} : NodeReading α :=
  throw .malformed

def peek : NodeReading Token := do
  let r ← get
  let (t, tokens) ← peekToken.run r.tokens
  set { r with tokens := tokens }
  return t

def take : NodeReading Token := do
  let r ← get
  let (t, tokens) ← takeToken.run r.tokens
  set { r with tokens := tokens }
  return t

def takeIf (t : Token) : NodeReading Bool := do
  if (← peek) = t then
    let _ ← take
    return true
  else return false

/-! ## Properties of a node -/

/-- What may stand in front of a node. -/
structure Properties where
  anchor : Option String := none
  tag : Option WrittenTag := none

/-- An anchor and a tag in any order, each at most once. -/
def readProperties : NodeReading Properties := do
  match ← peek with
  | .anchor name =>
    let _ ← take
    match ← peek with
    | .tag t =>
      let _ ← take
      return ⟨some name, some t⟩
    | _ => return ⟨some name, none⟩
  | .tag t =>
    let _ ← take
    match ← peek with
    | .anchor name =>
      let _ ← take
      return ⟨some name, some t⟩
    | _ => return ⟨none, some t⟩
  | _ => return {}

/-- The full name of a tag, nothing for the lone exclamation mark. -/
def fullTag (t : Option WrittenTag) : NodeReading (Option String) := do
  let full ← match t with
    | none => pure none
    | some ⟨none, suffix⟩ => pure (some suffix)
    | some ⟨some handle, suffix⟩ =>
      match (← get).handles.lookup handle with
      | some expansion => pure (some (expansion ++ suffix))
      | none => malformed
  return full.filter (· ≠ "!")

/-- Refuses an anchor that names a node already. -/
def checkAnchor (anchor : Option String) : NodeReading Unit := do
  match anchor with
  | some name => if ((← get).anchors.lookup name).isSome then malformed
  | none => return

def remember (anchor : Option String) (n : Node) : NodeReading Unit :=
  match anchor with
  | some name => modify fun r => { r with anchors := (name, n) :: r.anchors }
  | none => return

/-- The tag of a scalar. Without one of its own, or with a lone exclamation mark, a plain one has
    the tag of its form. -/
def scalarTag (tag : Option String) (isImplied : Bool) (text : List Char) : String :=
  tag.getD (if isImplied then impliedTag text else ownTag "str")

def readSequence (p : Properties) (tag : Option String) (items : NodeReading (List Node)) :
    NodeReading Node := do
  let tag := tag.getD (ownTag "seq")
  checkAnchor p.anchor
  remember p.anchor (.sequence tag [])
  let n := .sequence tag (← items)
  remember p.anchor n
  return n

def readMapping (p : Properties) (tag : Option String) (entries : NodeReading (List (Node × Node))) :
    NodeReading Node := do
  let tag := tag.getD (ownTag "map")
  checkAnchor p.anchor
  remember p.anchor (.mapping tag [])
  let n := .mapping tag (← entries)
  remember p.anchor n
  return n

/-! ## Nodes -/

mutual

/-- A node. Collections by indent are allowed where `inBlock` says so, and items without an
    indent of their own where `inMapping` does. -/
def readNode (inBlock inMapping : Bool) : Nat → NodeReading Node
  | 0 => malformed
  | fuel + 1 => do
    match ← peek with
    | .alias name =>
      let _ ← take
      match (← get).anchors.lookup name with
      | some n => return n
      | none => malformed
    | _ =>
      let p ← readProperties
      let tag ← fullTag p.tag
      match ← peek with
      | .scalar text isPlain =>
        let _ ← take
        checkAnchor p.anchor
        let n := .scalar (scalarTag tag (isPlain || p.tag.isSome) text) text
        remember p.anchor n
        return n
      | start =>
        if inMapping && start = .blockEntry then
          readSequence p tag (readBareItems fuel)
        else if start = .flowSequence then
          readSequence p tag (do let _ ← take; readFlowItems true fuel)
        else if start = .flowMapping then
          readMapping p tag (do let _ ← take; readFlowEntries true fuel)
        else if inBlock && start = .blockSequence then
          readSequence p tag (do let _ ← take; readBlockItems fuel)
        else if inBlock && start = .blockMapping then
          readMapping p tag (do let _ ← take; readBlockEntries fuel)
        else if p.anchor.isSome || p.tag.isSome then
          checkAnchor p.anchor
          let n := .scalar (scalarTag tag true []) []
          remember p.anchor n
          return n
        else malformed

def readBlockItems : Nat → NodeReading (List Node)
  | 0 => malformed
  | fuel + 1 => do
    if ← takeIf .blockEntry then
      let n ← match ← peek with
        | .blockEntry => pure Node.absent
        | .blockEnd => pure Node.absent
        | _ => readNode true false fuel
      return n :: (← readBlockItems fuel)
    else if ← takeIf .blockEnd then return []
    else malformed

/-- Items at the indent of the mapping around them. -/
def readBareItems : Nat → NodeReading (List Node)
  | 0 => malformed
  | fuel + 1 => do
    if ← takeIf .blockEntry then
      let n ← match ← peek with
        | .blockEntry => pure Node.absent
        | .key => pure Node.absent
        | .value => pure Node.absent
        | .blockEnd => pure Node.absent
        | _ => readNode true false fuel
      return n :: (← readBareItems fuel)
    else return []

/-- A key or value of a mapping by indent, after its sign. -/
def readBlockPart : Nat → NodeReading Node
  | 0 => malformed
  | fuel + 1 => do
    match ← peek with
    | .key => return Node.absent
    | .value => return Node.absent
    | .blockEnd => return Node.absent
    | _ => readNode true true fuel

def readBlockEntries : Nat → NodeReading (List (Node × Node))
  | 0 => malformed
  | fuel + 1 => do
    if ← takeIf .key then
      let k ← readBlockPart fuel
      let v ← if ← takeIf .value then readBlockPart fuel else pure Node.absent
      return (k, v) :: (← readBlockEntries fuel)
    else if ← takeIf .blockEnd then return []
    else malformed

/-- A key or value in brackets, after its sign; `stop` is the closing bracket. -/
def readFlowPart (stop : Token) (isKey : Bool) : Nat → NodeReading Node
  | 0 => malformed
  | fuel + 1 => do
    let t ← peek
    if t = .flowEntry || t = stop || isKey && t = .value then return Node.absent
    else readNode false false fuel

def readFlowEntry (stop : Token) : Nat → NodeReading (Node × Node)
  | 0 => malformed
  | fuel + 1 => do
    let k ← readFlowPart stop true fuel
    let v ← if ← takeIf .value then readFlowPart stop false fuel else pure Node.absent
    return (k, v)

/-- Items in brackets up to the closing one. An entry among them is a mapping of its own. -/
def readFlowItems (isFirst : Bool) : Nat → NodeReading (List Node)
  | 0 => malformed
  | fuel + 1 => do
    if ← takeIf .flowSequenceEnd then return []
    else
      if !isFirst then
        if !(← takeIf .flowEntry) then malformed
      if ← takeIf .key then
        let e ← readFlowEntry .flowSequenceEnd fuel
        return .mapping (ownTag "map") [e] :: (← readFlowItems false fuel)
      else if ← takeIf .flowSequenceEnd then return []
      else
        let n ← readNode false false fuel
        return n :: (← readFlowItems false fuel)

/-- Entries in brackets up to the closing one. A key may lack its value. -/
def readFlowEntries (isFirst : Bool) : Nat → NodeReading (List (Node × Node))
  | 0 => malformed
  | fuel + 1 => do
    if ← takeIf .flowMappingEnd then return []
    else
      if !isFirst then
        if !(← takeIf .flowEntry) then malformed
      if ← takeIf .key then
        let e ← readFlowEntry .flowMappingEnd fuel
        return e :: (← readFlowEntries false fuel)
      else if ← takeIf .flowMappingEnd then return []
      else
        let n ← readNode false false fuel
        return (n, Node.absent) :: (← readFlowEntries false fuel)

end

/-! ## Documents -/

def knownHandles : List (String × String) :=
  [("!", "!"), ("!!", ownTag "")]

/-- Reads directives: one version at most, which has to be YAML 1, and each handle once. -/
def readDirectives : Nat → Bool → List (String × String) → NodeReading (List (String × String))
  | 0, _, _ => malformed
  | fuel + 1, hasVersion, handles => do
    match ← peek with
    | .directive d =>
      let _ ← take
      match d with
      | .version major _ => if hasVersion || major ≠ 1 then malformed else readDirectives fuel true handles
      | .tagHandle handle expansion =>
        if (handles.lookup handle).isSome then malformed
        else readDirectives fuel hasVersion ((handle, expansion) :: handles)
      | .other _ => readDirectives fuel hasVersion handles
    | _ => return handles

def skipEnds : Nat → NodeReading Unit
  | 0 => return
  | fuel + 1 => do if ← takeIf .documentEnd then skipEnds fuel

def readContent (fuel : Nat) : NodeReading Node := do
  match ← peek with
  | .directive _ => return Node.absent
  | .documentStart => return Node.absent
  | .documentEnd => return Node.absent
  | .textEnd => return Node.absent
  | _ => readNode true false fuel

/-- The node of the one document of a text, nothing if there is none. Only a document that
    starts with the text may do so without a sign. -/
def readDocument (fuel : Nat) : NodeReading (Option Node) := do
  let isMarked ← match ← peek with
    | .directive _ => pure true
    | .documentStart => pure true
    | .textEnd => pure true
    | _ => pure false
  let n ←
    if isMarked then
      if (← peek) = .textEnd then pure none
      else
        let handles ← readDirectives fuel false []
        modify fun r => { r with handles := handles ++ knownHandles }
        if ← takeIf .documentStart then some <$> readContent fuel else malformed
    else
      modify fun r => { r with handles := knownHandles }
      some <$> readNode true false fuel
  skipEnds fuel
  if (← peek) = .textEnd then return n else malformed

def Node.ofText (s : List Char) : Except YamlError (Option Node) := do
  let (n, _) ← (readDocument (8 * s.length + 16)).run { tokens := .ofText s }
  return n

end SearchBox.Yaml
