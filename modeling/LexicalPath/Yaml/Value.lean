import LexicalPath.Yaml.Base64
import LexicalPath.Yaml.Merge
import LexicalPath.Yaml.Moment
import LexicalPath.Yaml.Number

namespace LexicalPath.Yaml

inductive ValueError where
  | unknownTag
  /-- A scalar where a collection should be, or the other way round. -/
  | wrongShape
  /-- A collection as a key. -/
  | notKey
  | notMergeable
  | notBase64
  /-- A mapping with a default value where a moment should be. -/
  | notMomentText
  /-- A mapping that is its own default value. -/
  | endlessDefault
  | unknownWord (word : List Char)
  | number (e : NumberError)
  | moment (e : MomentError)
  deriving DecidableEq

/-- The value of a node. Values in collections are given by their nodes. -/
inductive Value where
  | scalar (value : Datum)
  /-- The value of the scalar `.nan`, which is one wherever it is written. -/
  | notANumber
  | list (items : List NodeId)
  | pairs (items : Entries)
  | set (elements : List NodeId)
  | mapping (entries : Entries)
  deriving Inhabited

namespace Graph

/-- The text of a scalar, or of the default value in a mapping. A chain of default values that is
longer than there are nodes has no end. -/
def text (g : Graph) (fuel : Nat) (id : NodeId) : Except ValueError String :=
  match g.content id with
  | .scalar text => .ok text
  | .sequence _ => .error .wrongShape
  | .mapping entries =>
      match fuel, entries.find? fun entry => g.tag entry.1 = .value with
      | _, none => .error .wrongShape
      | 0, some _ => .error .endlessDefault
      | fuel + 1, some (_, value) => g.text fuel value

def isScalar (g : Graph) (id : NodeId) : Bool :=
  match g.content id with
  | .scalar _ => true
  | _ => false

end Graph

def textValue (tag : Tag) (text : String) : Except ValueError Value :=
  let s := text.toList
  match tag with
  | .null => .ok (.scalar .null)
  | .bool =>
      let word := Text.lower s
      match boolWords.lookup (String.ofList word) with
      | some b => .ok (.scalar (.bool b))
      | none => .error (.unknownWord word)
  | .int =>
      match wholeOfScalar s with
      | .ok n => .ok (.scalar (.int n))
      | .error e => .error (.number e)
  | .float =>
      match floatOfScalar s with
      | .ok (some x) => .ok (.scalar (.float x))
      | .ok none => .ok .notANumber
      | .error e => .error (.number e)
  | .timestamp =>
      match momentOfScalar s with
      | .ok d => .ok (.scalar d)
      | .error e => .error (.moment e)
  | .binary =>
      match Base64.decode? s with
      | some bytes => .ok (.scalar (.bytes bytes))
      | none => .error .notBase64
  | .text => .ok (.scalar (.text text))
  | _ => .error .unknownTag

/-- Whether nodes with a tag stand for texts or what is written as a text. -/
def Tag.isOfText : Tag → Bool
  | .null | .bool | .int | .float | .timestamp | .binary | .text => true
  | _ => false

def Graph.plainValue (g : Graph) (id : NodeId) : Except ValueError Value :=
  let tag := g.tag id
  if tag.isOfText then
    match g.text g.nodes.size id with
    | .error e => .error e
    | .ok text =>
        if tag = .timestamp ∧ !g.isScalar id then .error .notMomentText else textValue tag text
  else .error .unknownTag

/-- The empty collection of a tag, if it is the tag of a collection. -/
def Value.emptyOf? : Tag → Option Value
  | .list => some (.list [])
  | .omap | .pairs => some (.pairs [])
  | .set => some (.set [])
  | .mapping => some (.mapping [])
  | _ => none

def Value.isKey : Value → Bool
  | .scalar _ | .notANumber => true
  | _ => false

def Value.sameKey : Value → Value → Bool
  | .notANumber, .notANumber => true
  | .scalar a, .scalar b => a.sameKey b
  | _, _ => false

/-- The values that are known while those of a document are found. -/
structure Construction where
  graph : Graph
  /-- The number of entries by which mappings take in others, at the start. -/
  merges : Nat
  values : Array (Option Value)
  /-- The collections that are filled in this round. -/
  current : List NodeId := []
  /-- Those that are filled in the next one, the last first. -/
  coming : List NodeId := []

namespace Construction

def start (g : Graph) : Construction :=
  { graph := g, merges := g.mergeCount, values := Array.replicate g.nodes.size none }

def value? (c : Construction) (id : NodeId) : Option Value :=
  c.values.getD id none

def setValue (c : Construction) (id : NodeId) (value : Value) : Construction :=
  { c with values := c.values.setIfInBounds id (some value) }

/-- Comes upon a node. The value of a collection is filled later. -/
def visit (c : Construction) (id : NodeId) : Except ValueError Construction :=
  match c.value? id, Value.emptyOf? (c.graph.tag id) with
  | some _, _ => .ok c
  | none, some empty => .ok { c.setValue id empty with coming := id :: c.coming }
  | none, none => (c.graph.plainValue id).map (c.setValue id)

def visitAll (c : Construction) : List NodeId → Except ValueError Construction
  | [] => .ok c
  | id :: rest =>
      match c.visit id with
      | .error e => .error e
      | .ok c => c.visitAll rest

def visitKey (c : Construction) (id : NodeId) : Except ValueError Construction :=
  match c.visit id with
  | .error e => .error e
  | .ok c => if (c.value? id).any Value.isKey then .ok c else .error .notKey

def visitEntries (c : Construction) : Entries → Except ValueError Construction
  | [] => .ok c
  | (key, value) :: rest =>
      match c.visitKey key with
      | .error e => .error e
      | .ok c =>
          match c.visit value with
          | .error e => .error e
          | .ok c => c.visitEntries rest

/-- The only entry of an item of a sequence of pairs. -/
def pairOf (g : Graph) (id : NodeId) : Except ValueError (NodeId × NodeId) :=
  match g.content id with
  | .mapping [entry] => .ok entry
  | _ => .error .wrongShape

def visitPairs (c : Construction) (done : Entries) :
    List NodeId → Except ValueError (Construction × Entries)
  | [] => .ok (c, done.reverse)
  | id :: rest =>
      match pairOf c.graph id with
      | .error e => .error e
      | .ok entry =>
          match c.visitAll [entry.1, entry.2] with
          | .error e => .error e
          | .ok c => c.visitPairs (entry :: done) rest

def sameKey (c : Construction) (a b : NodeId) : Bool :=
  a = b ||
    match c.value? a, c.value? b with
    | some v, some w => v.sameKey w
    | _, _ => false

/-- The entries with one more. A key that is there already keeps its place and gets the new
value. -/
def insertEntry (c : Construction) (key value : NodeId) : Entries → Entries
  | [] => [(key, value)]
  | (k, v) :: rest =>
      if c.sameKey k key then (k, value) :: rest else (k, v) :: c.insertEntry key value rest

def distinctEntries (c : Construction) (entries : Entries) : Entries :=
  entries.foldl (fun done (key, value) => c.insertEntry key value done) []

/-- The entries of a mapping that has taken in others and whose keys and values were come upon. -/
def fillEntries (c : Construction) (id : NodeId) :
    Except ValueError (Construction × Entries) :=
  match c.graph.content id with
  | .mapping _ =>
      match c.graph.flatten c.merges id [] with
      | .error _ => .error .notMergeable
      | .ok g =>
          match { c with graph := g : Construction }.visitEntries (g.entries id) with
          | .error e => .error e
          | .ok c => .ok (c, c.distinctEntries (g.entries id))
  | _ => .error .wrongShape

def fill (c : Construction) (id : NodeId) : Except ValueError Construction :=
  match c.value? id, c.graph.content id with
  | some (.list _), .sequence items =>
      (c.visitAll items).map fun c => c.setValue id (.list items)
  | some (.pairs _), .sequence items =>
      (c.visitPairs [] items).map fun (c, pairs) => c.setValue id (.pairs pairs)
  | some (.set _), _ =>
      (c.fillEntries id).map fun (c, entries) => c.setValue id (.set (entries.map (·.1)))
  | some (.mapping _), _ =>
      (c.fillEntries id).map fun (c, entries) => c.setValue id (.mapping entries)
  | _, _ => .error .wrongShape

/-- Fills collections round by round. The number of nodes is fuel enough, since every node is filled
once at most. -/
def run : Nat → Construction → Except ValueError Construction
  | 0, c => .ok c
  | fuel + 1, c =>
      match c.current, c.coming.reverse with
      | id :: rest, _ =>
          match { c with current := rest : Construction }.fill id with
          | .error e => .error e
          | .ok c => c.run fuel
      | [], id :: rest =>
          match { c with current := rest, coming := [] : Construction }.fill id with
          | .error e => .error e
          | .ok c => c.run fuel
      | [], [] => .ok c

end Construction

/-- The value of a document: those of its nodes, and the node that stands for it all. -/
structure Document where
  values : Array (Option Value)
  root : NodeId

namespace Document

def ofGraph (g : Graph) (root : NodeId) : Except ValueError Document :=
  match (Construction.start g).visit root with
  | .error e => .error e
  | .ok c => (c.run g.nodes.size).map fun c => ⟨c.values, root⟩

/-- A document without nodes. It stands for null. -/
def empty : Document :=
  ⟨#[some (.scalar .null)], 0⟩

def value (d : Document) (id : NodeId) : Value :=
  (d.values.getD id none).getD (.scalar .null)

/-- The value of a node with those in it, within the collections of nodes. Collections that hold
themselves end where they do. The number of nodes and one more is fuel enough. -/
def datumWithin (d : Document) (within : List NodeId) : Nat → NodeId → Datum
  | 0, _ => .null
  | fuel + 1, id =>
      let inner := d.datumWithin (id :: within) fuel
      let entry (e : NodeId × NodeId) : Datum × Datum := (inner e.1, inner e.2)
      let isWithin := within.contains id
      match d.value id with
      | .scalar value => value
      | .notANumber => .float (0.0 / 0.0)
      | .list items => if isWithin then .withinList else .list (items.map inner)
      | .pairs items =>
          if isWithin then .withinList
          else .list (items.map fun e => .pair (inner e.1) (inner e.2))
      | .set elements => .set (Datum.setOrder (elements.map inner))
      | .mapping entries => if isWithin then .withinMapping else .mapping (entries.map entry)

def datum (d : Document) (id : NodeId) : Datum :=
  d.datumWithin [] (d.values.size + 1) id

def kindName (d : Document) : String :=
  match d.value d.root with
  | .scalar value => value.kindName
  | .notANumber => (Datum.float 0.0).kindName
  | .list _ | .pairs _ => (Datum.list []).kindName
  | .set _ => (Datum.set []).kindName
  | .mapping _ => (Datum.mapping []).kindName

def isText (d : Document) (id : NodeId) (text : String) : Bool :=
  match d.value id with
  | .scalar (.text t) => t = text
  | _ => false

/-- The values of a document that is a mapping, by keys that are texts. -/
def fields? (d : Document) : Option (String → Option Datum) :=
  match d.value d.root with
  | .mapping entries =>
      some fun key => (entries.find? fun e => d.isText e.1 key).map fun e => d.datum e.2
  | _ => none

end Document

end LexicalPath.Yaml
