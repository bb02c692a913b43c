import LuauWorkspace.Json.Basic
import LuauWorkspace.Path.Script

/-! # Source trees

A source tree describes the instances of a game and the files that they are built from. -/

namespace LuauWorkspace

/-- One instance with its children, in order. -/
inductive SourceTree where
  | mk (name className : String) (files : List String) (children : List SourceTree)
      (metadata : Option Json)
deriving Inhabited

namespace SourceTree

/-- The name of the instance. -/
def name : SourceTree → String
  | mk name _ _ _ _ => name

/-- The class of the instance. -/
def className : SourceTree → String
  | mk _ className _ _ _ => className

/-- The files of the instance, relative to the root of the project. -/
def files : SourceTree → List String
  | mk _ _ files _ _ => files

/-- The children of the instance. -/
def children : SourceTree → List SourceTree
  | mk _ _ _ children _ => children

/-- What the tool that wrote the tree attached to the instance. -/
def metadata : SourceTree → Option Json
  | mk _ _ _ _ metadata => metadata

/-- The file with the code of the instance. A JSON file counts for a module script, where it is
data. -/
def scriptFile? (node : SourceTree) : Option String :=
  node.files.find? fun file =>
    let path := Path.ofString file
    path.isScript || (node.className == "ModuleScript" && path.extension? == some "json")

/-- The file that the instance claims: the one with its code, or else the first one. -/
def backingFile? (node : SourceTree) : Option String :=
  node.scriptFile? <|> node.files.head?

/-- The kind of code that the instance carries. -/
def kind? (node : SourceTree) : Option CodeKind := CodeKind.ofClass? node.className

mutual

/-- The number of instances in the tree. -/
def count : SourceTree → Nat
  | mk _ _ _ children _ => countAll children + 1

/-- The number of instances in a list of trees. -/
def countAll : List SourceTree → Nat
  | [] => 0
  | node :: nodes => count node + countAll nodes

end

mutual

/-- All instances of the tree, parents before their children. -/
def preorder : SourceTree → List SourceTree
  | node@(mk _ _ _ children _) => node :: preorderAll children

/-- All instances of a list of trees. -/
def preorderAll : List SourceTree → List SourceTree
  | [] => []
  | node :: nodes => preorder node ++ preorderAll nodes

end

end SourceTree

/-! ## Virtual names -/

namespace VirtualName

/-- The name of the tree when its topmost instance is the game itself. -/
def game : String := "game"

/-- The name of any other tree. -/
def project : String := "ProjectRoot"

/-- The name of a tree. -/
def root (tree : SourceTree) : String := if tree.className = "DataModel" then game else project

/-- The name of a child of the instance called `parent`. -/
def child (parent name : String) : String := parent ++ "/" ++ name

/-- Whether a name points into the tree rather than at a file. -/
def isVirtual (name : String) : Bool :=
  [game, project].any fun root =>
    match Text.dropStart? root.toList name.toList with
    | some rest => rest.head?.all (· == '/')
    | none => false

/-- The name of the parent: all before the last separator. -/
def parent? (name : String) : Option String :=
  (Text.splitLast '/' name.toList).map fun (before, _) => String.ofList before

end VirtualName

end LuauWorkspace
