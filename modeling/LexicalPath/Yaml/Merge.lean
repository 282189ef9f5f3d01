import LexicalPath.Yaml.Node

namespace LexicalPath.Yaml

structure MergeFault where
  node : NodeId
  deriving DecidableEq

namespace Graph

/-- Whether an entry is one by which a mapping takes in another. -/
def isMerge (g : Graph) (entry : NodeId × NodeId) : Bool :=
  g.tag entry.1 = .merge

def mergeCount (g : Graph) : Nat :=
  g.nodes.foldl (fun n node =>
    match node.content with
    | .mapping entries => n + entries.countP g.isMerge
    | _ => n) 0

/-- The graph in which the keys of default values among entries are ordinary texts. -/
def plainKeys (g : Graph) (entries : Entries) : Graph :=
  entries.foldl (fun g entry => if g.tag entry.1 = .value then g.setTag entry.1 .text else g) g

/-- The graph in which a mapping has taken in what it should; `taken` is what it has taken in so
far. Each time one of the entries for that goes, so that the number of all such entries is fuel
enough. Of several mappings in a sequence the last one comes first. -/
def flatten (fuel : Nat) (g : Graph) (id : NodeId) (taken : Entries) : Except MergeFault Graph :=
  let entries := g.entries id
  match fuel, entries.find? g.isMerge with
  | _, none =>
      let g := g.plainKeys entries
      .ok (if taken.isEmpty then g else g.setContent id (.mapping (taken ++ entries)))
  | 0, some (_, value) => .error ⟨value⟩
  | fuel + 1, some (_, value) => do
      let g := g.setContent id (.mapping (entries.eraseP g.isMerge))
      match g.content value with
      | .mapping _ =>
          let g ← g.flatten fuel value []
          g.flatten fuel id (taken ++ g.entries value)
      | .sequence items =>
          let takeIn (done : Graph × Entries) (item : NodeId) :
              Except MergeFault (Graph × Entries) :=
            match done.1.content item with
            | .mapping _ => do
                let g ← done.1.flatten fuel item []
                return (g, g.entries item ++ done.2)
            | _ => .error ⟨item⟩
          let (g, more) ← items.foldlM takeIn (g, [])
          g.flatten fuel id (taken ++ more)
      | .scalar _ => .error ⟨value⟩

end Graph

end LexicalPath.Yaml
