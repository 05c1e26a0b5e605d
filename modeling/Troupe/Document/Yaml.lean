import Troupe.Document.Yaml.Reading

/-!
# YAML

Reading the one document of a YAML text.

* `read?_empty` — a text without any document is an empty table.
-/

namespace Troupe.Yaml

/-- The document that stands for the documents of a text: there may be one at most. -/
def single? : List Node → Option Document
  | [] => some (.table [])
  | [n] => n.document?
  | _ => none

/-- Reads a text. -/
def read? (text : String) : Option Document := (nodesOf? text).bind single?

theorem read?_empty : read? "" = some (.table []) := rfl

end Troupe.Yaml
