/-!
# `AuditTables.Xml.Node`: the property tree of a document

A document is kept as its elements. An element has the local part of its name
(what follows the first colon), its attributes under local names in document
order, the character data found directly inside it, and its child elements.
Look-ups take the first match.
-/

set_option autoImplicit false

namespace AuditTables.Xml

/-- An element of a document. -/
inductive Node where
  | mk (name : String) (attributes : List (String × String)) (text : String)
    (children : List Node)
  deriving Repr, Inhabited

namespace Node

def name : Node → String
  | mk n _ _ _ => n

def attributes : Node → List (String × String)
  | mk _ a _ _ => a

/-- The character data directly inside an element, its pieces joined. -/
def text : Node → String
  | mk _ _ t _ => t

def children : Node → List Node
  | mk _ _ _ c => c

/-- The value of the first attribute of a name. -/
def attribute? (node : Node) (key : String) : Option String :=
  node.attributes.lookup key

/-- The first child of a name. -/
def child? (node : Node) (name : String) : Option Node :=
  node.children.find? fun c => c.name == name

/-- The element that a path of child names leads to. -/
def find? (node : Node) (path : List String) : Option Node :=
  path.foldlM child? node

/-- The character data of the element that a path leads to. -/
def textAt? (node : Node) (path : List String) : Option String :=
  (node.find? path).map text

/-- An attribute of the element that a path leads to. -/
def attributeAt? (node : Node) (path : List String) (key : String) : Option String :=
  (node.find? path).bind (attribute? · key)

@[simp] theorem find?_nil (node : Node) : node.find? [] = some node := rfl

theorem find?_cons (node : Node) (name : String) (path : List String) :
    node.find? (name :: path) = (node.child? name).bind (find? · path) := rfl

end Node

end AuditTables.Xml
