import LexicalPath.Yaml.Node
import LexicalPath.Yaml.Token.Lexer

/-!
Putting the nodes of a document together from its tokens. Tokens are read one by one, so that of a
fault among the tokens and one in their order the first in the text counts.
-/

namespace LexicalPath.Yaml

inductive CompositionError where
  | token (e : TokenError)
  | unexpected (t : Token)
  | repeatedVersion
  | laterVersion
  | repeatedHandle (handle : String)
  | unknownHandle (handle : String)
  | unknownAlias (name : String)
  | repeatedAnchor (name : String)
  | secondDocument
  | tooDeep
  deriving DecidableEq

/-- The collections that may stand within each other. -/
def deepest : Nat :=
  490

/-- The tokens that are left, with the names that are known. -/
structure Source where
  tokens : List Token
  fault : Option TokenError
  /-- The nodes that are there. -/
  graph : Graph := {}
  anchors : List (String × NodeId) := []
  /-- What the handles of tags stand for. -/
  handles : List (String × String) := []
  /-- The collections around the next token. -/
  depth : Nat := 0

/-- What may stand in front of a node: its name, and its tag as it is written, with a handle or
without. -/
structure Properties where
  anchor : Option String
  tag : Option (Option String × String)

/-- What is put together, or why it is not. -/
abbrev Composed :=
  Except CompositionError

namespace Source

def standardHandles : List (String × String) :=
  [("!", "!"), ("!!", Tag.commonStart)]

def peek (s : Source) : Composed Token :=
  match s.tokens, s.fault with
  | t :: _, _ => .ok t
  | [], some e => .error (.token e)
  | [], none => .ok .streamEnd

def skip (s : Source) : Source :=
  { s with tokens := s.tokens.tail }

def add (s : Source) (anchor : Option String) (node : Node) : NodeId × Source :=
  let id := s.graph.nodes.size
  (id,
    { s with
      graph := s.graph.add node
      anchors := anchor.elim s.anchors fun name => (name, id) :: s.anchors })

/-- Adds the node for which nothing is written. -/
def addEmpty (s : Source) : NodeId × Source :=
  s.add none Node.empty

def addPair (s : Source) (key value : NodeId) : NodeId × Source :=
  s.add none ⟨.mapping, .mapping [(key, value)]⟩

/-- Enters a collection, for which a node is added. -/
def enter (s : Source) (anchor : Option String) (node : Node) : Composed (NodeId × Source) :=
  if s.depth < deepest then .ok ({ s with depth := s.depth + 1 }.add anchor node)
  else .error .tooDeep

/-- Leaves the collection of a node, which gets what it holds. -/
def leave (s : Source) (id : NodeId) (content : Content) : Source :=
  { s with graph := s.graph.setContent id content, depth := s.depth - 1 }

def checkAnchor (s : Source) (anchor : Option String) : Composed Unit :=
  match anchor with
  | none => .ok ()
  | some name => if (s.anchors.lookup name).isSome then .error (.repeatedAnchor name) else .ok ()

def tagName? (s : Source) (written : Option (Option String × String)) :
    Composed (Option String) :=
  match written with
  | none => .ok none
  | some (none, suffix) => .ok (some suffix)
  | some (some handle, suffix) =>
      match s.handles.lookup handle with
      | none => .error (.unknownHandle handle)
      | some start => .ok (some (start ++ suffix))

def properties (s : Source) : Composed (Properties × Source) := do
  match ← s.peek with
  | .anchor name =>
      match ← s.skip.peek with
      | .tag handle suffix => return (⟨some name, some (handle, suffix)⟩, s.skip.skip)
      | _ => return (⟨some name, none⟩, s.skip)
  | .tag handle suffix =>
      match ← s.skip.peek with
      | .anchor name => return (⟨some name, some (handle, suffix)⟩, s.skip.skip)
      | _ => return (⟨none, some (handle, suffix)⟩, s.skip)
  | _ => return (⟨none, none⟩, s)

/-- Passes over the comma in front of an item within brackets, unless the item is the first. -/
def behindComma (s : Source) (first : Bool) : Composed Source := do
  if first then return s
  match ← s.peek with
  | .flowEntry => return s.skip
  | t => .error (.unexpected t)

end Source

/-- The tag of a scalar. The tag of one exclamation mark is that of a plain scalar. -/
def scalarTag (name : Option String) (plain : Bool) (text : String) : Tag :=
  match name with
  | none => if plain then Tag.ofPlain text.toList else .text
  | some name => if name = "!" then Tag.ofPlain text.toList else Tag.ofName name

def collectionTag (name : Option String) (standard : Tag) : Tag :=
  match name with
  | none => standard
  | some name => if name = "!" then standard else Tag.ofName name

/-- The places at which a node stands: within brackets, in a block, or in a block where the items of
a sequence may stand as far to the left as the key in front of them. -/
inductive NodePlace where
  | flow
  | block
  | blockValue
  deriving DecidableEq

mutual

def composeNode (fuel : Nat) (place : NodePlace) (s : Source) : Composed (NodeId × Source) :=
  match fuel with
  | 0 => .error (.unexpected .streamEnd)
  | fuel + 1 => do
      match ← s.peek with
      | .alias name =>
          match s.anchors.lookup name with
          | some id => return (id, s.skip)
          | none => .error (.unknownAlias name)
      | _ =>
          let (properties, s) ← s.properties
          let tag ← s.tagName? properties.tag
          composeContent fuel place properties.anchor tag s

def composeContent (fuel : Nat) (place : NodePlace) (anchor tag : Option String) (s : Source) :
    Composed (NodeId × Source) :=
  match fuel with
  | 0 => .error (.unexpected .streamEnd)
  | fuel + 1 => do
      let scalar (plain : Bool) (text : String) (s : Source) : Composed (NodeId × Source) := do
        s.checkAnchor anchor
        return s.add anchor ⟨scalarTag tag plain text, .scalar text⟩
      let sequence (items : Source → Composed (List NodeId × Source)) :
          Composed (NodeId × Source) := do
        s.checkAnchor anchor
        let (id, s) ← s.enter anchor ⟨collectionTag tag .list, .sequence []⟩
        let (items, s) ← items s
        return (id, s.leave id (.sequence items))
      let mapping (entries : Source → Composed (Entries × Source)) :
          Composed (NodeId × Source) := do
        s.checkAnchor anchor
        let (id, s) ← s.enter anchor ⟨collectionTag tag .mapping, .mapping []⟩
        let (entries, s) ← entries s
        return (id, s.leave id (.mapping entries))
      match ← s.peek with
      | .scalar text plain => scalar plain text s.skip
      | .flowSequenceStart => sequence fun s => composeFlowItems fuel true s.skip
      | .flowMappingStart => mapping fun s => composeFlowEntries fuel true s.skip
      | t =>
          if t = .blockEntry ∧ place = .blockValue then sequence fun s => composeIndentless fuel s
          else if t = .blockSequenceStart ∧ place ≠ .flow then
            sequence fun s => composeItems fuel s.skip
          else if t = .blockMappingStart ∧ place ≠ .flow then
            mapping fun s => composeEntries fuel s.skip
          else if anchor.isSome ∨ tag.isSome then scalar true "" s
          else .error (.unexpected t)

/-- A node, or the empty one in front of a token that satisfies `ends`. -/
def composeUnless (fuel : Nat) (ends : Token → Bool) (place : NodePlace) (s : Source) :
    Composed (NodeId × Source) :=
  match fuel with
  | 0 => .error (.unexpected .streamEnd)
  | fuel + 1 => do
      if ends (← s.peek) then return s.addEmpty else composeNode fuel place s

/-- The value of an entry, or the empty node if there is no colon. -/
def composeValue (fuel : Nat) (ends : Token → Bool) (place : NodePlace) (s : Source) :
    Composed (NodeId × Source) :=
  match fuel with
  | 0 => .error (.unexpected .streamEnd)
  | fuel + 1 => do
      if (← s.peek) = .value then composeUnless fuel ends place s.skip
      else return s.addEmpty

def composeItems (fuel : Nat) (s : Source) : Composed (List NodeId × Source) :=
  match fuel with
  | 0 => .error (.unexpected .streamEnd)
  | fuel + 1 => do
      match ← s.peek with
      | .blockEntry =>
          let ends (t : Token) : Bool := t = .blockEntry || t = .blockEnd
          let (item, s) ← composeUnless fuel ends .block s.skip
          let (items, s) ← composeItems fuel s
          return (item :: items, s)
      | .blockEnd => return ([], s.skip)
      | t => .error (.unexpected t)

/-- The items of a block sequence that stands as far to the left as the key in front of it. -/
def composeIndentless (fuel : Nat) (s : Source) : Composed (List NodeId × Source) :=
  match fuel with
  | 0 => .error (.unexpected .streamEnd)
  | fuel + 1 => do
      if (← s.peek) = .blockEntry then
        let ends (t : Token) : Bool :=
          t = .blockEntry || t = .key || t = .value || t = .blockEnd
        let (item, s) ← composeUnless fuel ends .block s.skip
        let (items, s) ← composeIndentless fuel s
        return (item :: items, s)
      else return ([], s)

def composeEntries (fuel : Nat) (s : Source) : Composed (Entries × Source) :=
  match fuel with
  | 0 => .error (.unexpected .streamEnd)
  | fuel + 1 => do
      match ← s.peek with
      | .key =>
          let ends (t : Token) : Bool := t = .key || t = .value || t = .blockEnd
          let (key, s) ← composeUnless fuel ends .blockValue s.skip
          let (value, s) ← composeValue fuel ends .blockValue s
          let (entries, s) ← composeEntries fuel s
          return ((key, value) :: entries, s)
      | .blockEnd => return ([], s.skip)
      | t => .error (.unexpected t)

/-- The items of a sequence in brackets, up to its end. An item may be a single entry of a
mapping. -/
def composeFlowItems (fuel : Nat) (first : Bool) (s : Source) : Composed (List NodeId × Source) :=
  match fuel with
  | 0 => .error (.unexpected .streamEnd)
  | fuel + 1 => do
      if (← s.peek) = .flowSequenceEnd then return ([], s.skip)
      let s ← s.behindComma first
      let ends (t : Token) : Bool := t = .flowEntry || t = .flowSequenceEnd
      match ← s.peek with
      | .flowSequenceEnd => return ([], s.skip)
      | .key =>
          let (key, s) ← composeUnless fuel (fun t => t = .value || ends t) .flow s.skip
          let (value, s) ← composeValue fuel ends .flow s
          let (item, s) := s.addPair key value
          let (items, s) ← composeFlowItems fuel false s
          return (item :: items, s)
      | _ =>
          let (item, s) ← composeNode fuel .flow s
          let (items, s) ← composeFlowItems fuel false s
          return (item :: items, s)

def composeFlowEntries (fuel : Nat) (first : Bool) (s : Source) : Composed (Entries × Source) :=
  match fuel with
  | 0 => .error (.unexpected .streamEnd)
  | fuel + 1 => do
      if (← s.peek) = .flowMappingEnd then return ([], s.skip)
      let s ← s.behindComma first
      let ends (t : Token) : Bool := t = .flowEntry || t = .flowMappingEnd
      match ← s.peek with
      | .flowMappingEnd => return ([], s.skip)
      | .key =>
          let (key, s) ← composeUnless fuel (fun t => t = .value || ends t) .flow s.skip
          let (value, s) ← composeValue fuel ends .flow s
          let (entries, s) ← composeFlowEntries fuel false s
          return ((key, value) :: entries, s)
      | _ =>
          let (key, s) ← composeNode fuel .flow s
          let (value, s) := s.addEmpty
          let (entries, s) ← composeFlowEntries fuel false s
          return ((key, value) :: entries, s)

end

namespace Source

def skipEnds : Nat → Source → Composed Source
  | 0, s => .ok s
  | fuel + 1, s => do
      match ← s.peek with
      | .documentEnd => skipEnds fuel s.skip
      | _ => return s

/-- Takes in the directives in front of a document. The version is given once at most and is one,
and a handle is given once. -/
def directives (versioned : Bool) : Nat → Source → Composed Source
  | 0, s => .ok s
  | fuel + 1, s => do
      match ← s.peek with
      | .directive (.version major _) =>
          if versioned then .error .repeatedVersion
          else if major ≠ 1 then .error .laterVersion
          else directives true fuel s.skip
      | .directive (.handle name start) =>
          if (s.handles.lookup name).isSome then .error (.repeatedHandle name)
          else directives versioned fuel { s.skip with handles := (name, start) :: s.handles }
      | .directive .other => directives versioned fuel s.skip
      | _ => return { s with handles := s.handles ++ standardHandles }

/-- Passes over the start of a document that is marked. There is none if the text ends. -/
def markedStart (s : Source) : Composed (Option Source) := do
  let s ← s.skipEnds s.tokens.length
  if (← s.peek) = .streamEnd then return none
  let s ← { s with handles := [] }.directives false s.tokens.length
  match ← s.peek with
  | .documentStart => return some s.skip
  | t => .error (.unexpected t)

/-- Enough steps to put a node together. Every token is passed over within four. -/
def fuel (s : Source) : Nat :=
  4 * s.tokens.length + 8

/-- Whether a token stands in front of a document or behind it. -/
def endsDocument : Token → Bool
  | .directive _ | .documentStart | .documentEnd | .streamEnd => true
  | _ => false

/-- The first document. It needs no mark in front of it. -/
def firstDocument (s : Source) : Composed (Option (NodeId × Source)) := do
  match ← s.peek with
  | .directive _ | .documentStart | .streamEnd =>
      match ← s.markedStart with
      | none => return none
      | some s => (composeUnless s.fuel endsDocument .block s).map some
  | _ => (composeNode s.fuel .block { s with handles := standardHandles }).map some

end Source

/-- The nodes of the only document in a text, with the one that stands for it all; nothing if there
is no document. -/
def Graph.ofTokens? (t : Tokens) : Composed (Option (Graph × NodeId)) := do
  match ← Source.firstDocument { tokens := t.tokens, fault := t.fault } with
  | none => return none
  | some (root, s) =>
      match ← s.markedStart with
      | none => return some (s.graph, root)
      | some _ => .error .secondDocument

end LexicalPath.Yaml
