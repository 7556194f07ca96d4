import Dashboards.Yaml.Token.Scan

/-!
# YAML documents

A document is a tree of nodes.  An alias stands for the node that its anchor marks, which may come
later in the tree or be one around the alias, so that the nodes of anchors are kept beside the tree.
-/

namespace Dashboards.Yaml

/-- A scalar: its text, how it is written, and its tag. -/
structure Scalar where
  text : String
  style : Style
  tag : Option String := none
deriving DecidableEq, Repr

/-- A node of a document. -/
inductive Node where
  | scalar (s : Scalar)
  | sequence (items : List Node)
  | mapping (entries : List (Node × Node))
  | aliasOf (id : Nat)
deriving Inhabited

/-- The node of a place where nothing is written. -/
def Node.empty : Node := .scalar { text := "", style := .plain }

/-! ## Weight -/

mutual

/-- The weight of a node: one for a scalar or an alias, two for a collection besides its parts. -/
def Node.weight : Node → Nat
  | .scalar _ => 1
  | .sequence items => itemsWeight items + 2
  | .mapping entries => entriesWeight entries + 2
  | .aliasOf _ => 1

/-- The weight of the items of a sequence. -/
def itemsWeight : List Node → Nat
  | [] => 0
  | n :: ns => n.weight + itemsWeight ns

/-- The weight of the entries of a mapping. -/
def entriesWeight : List (Node × Node) → Nat
  | [] => 0
  | (k, v) :: es => k.weight + v.weight + entriesWeight es

end

/-! ## Documents -/

/-- A document: its root, if there is anything in it, and the nodes of anchors, each with its number
in the order of the text and its id. -/
structure Document where
  root : Option Node
  anchored : List (Nat × Nat × Node)

/-- The node that an id stands for: the last one in the text with that id. -/
def latest (anchored : List (Nat × Nat × Node)) (id : Nat) : Option Node :=
  let marked := anchored.filter fun (_, i, _) => i == id
  let last := marked.foldl (fun n (k, _, _) => max n k) 0
  (marked.find? fun (k, _, _) => k == last).map fun (_, _, node) => node

end Dashboards.Yaml
