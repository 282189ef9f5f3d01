import LexicalPath.Yaml.Tag

namespace LexicalPath.Yaml

abbrev NodeId :=
  Nat

abbrev Entries :=
  List (NodeId × NodeId)

inductive Content where
  | scalar (text : String)
  | sequence (items : List NodeId)
  | mapping (entries : Entries)
  deriving DecidableEq

structure Node where
  tag : Tag
  content : Content
  deriving DecidableEq

def Node.empty : Node :=
  ⟨.null, .scalar ""⟩

/-- The nodes of a document by their numbers. -/
structure Graph where
  nodes : Array Node := #[]
  deriving DecidableEq

namespace Graph

/-- The graph with one node more, whose number is the number of nodes before. -/
def add (g : Graph) (node : Node) : Graph :=
  ⟨g.nodes.push node⟩

def node (g : Graph) (id : NodeId) : Node :=
  g.nodes.getD id Node.empty

def tag (g : Graph) (id : NodeId) : Tag :=
  (g.node id).tag

def content (g : Graph) (id : NodeId) : Content :=
  (g.node id).content

/-- The entries of a mapping. Other nodes have none. -/
def entries (g : Graph) (id : NodeId) : Entries :=
  match g.content id with
  | .mapping entries => entries
  | _ => []

def setContent (g : Graph) (id : NodeId) (content : Content) : Graph :=
  ⟨g.nodes.modify id fun node => { node with content }⟩

def setTag (g : Graph) (id : NodeId) (tag : Tag) : Graph :=
  ⟨g.nodes.modify id fun node => { node with tag }⟩

end Graph

end LexicalPath.Yaml
