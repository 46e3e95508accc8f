/-!
# YAML nodes

A document is a tree of scalars, sequences and mappings. A scalar keeps its text and whether it was
written without quotes; what the text means is up to the reader of the tree.
-/

namespace Serving

inductive Yaml
  | scalar (text : String) (plain : Bool)
  | seq (items : List Yaml)
  | map (entries : List (String × Yaml))

namespace Yaml

/-- What stands for a node that is left out. -/
def missing : Yaml := .scalar "" true

instance : Inhabited Yaml := ⟨missing⟩

end Yaml

end Serving
