import LuauWorkspace.Path.Normal
import LuauWorkspace.Register
import LuauWorkspace.SourceTree.Basic

/-! # The index of a source tree

The index lists all instances of a tree, parents before their children, and gives each its name in
the tree and its file. It is built by putting one instance after another at its end. Two registers
lead back from names and files; what they say of a name or a file is replaced when a later instance
has it as well. -/

namespace LuauWorkspace

/-- An instance with its place in the tree. Instances are named by their position in the index, a
number without an upper bound. -/
structure TreeEntry where
  id : Nat
  name : String
  className : String
  place : String
  file : Option Path
  directoryLike : Bool
  parent : Option Nat
  children : List Nat
  metadata : Option Json
deriving Inhabited

namespace TreeEntry

/-- The kind of code that the instance carries. -/
def kind? (node : TreeEntry) : Option CodeKind := CodeKind.ofClass? node.className

/-- The entry for an instance at position `id`, with no children yet. Relative requires start at the
instance itself when it has no script or when its script is an `init` file. -/
def ofTree (base : Path) (node : SourceTree) (id : Nat) (place : String) (parent : Option Nat) :
    TreeEntry where
  id
  name := node.name
  className := node.className
  place
  file := node.backingFile?.map fun file => Path.absoluteIn base (Path.ofString file)
  directoryLike := node.scriptFile?.all fun file => (Path.ofString file).isInit
  parent
  children := []
  metadata := node.metadata

end TreeEntry

/-- The instances of a tree whose files are relative to `directory`, with the positions that places
and files lead to. -/
structure TreeIndex where
  directory : String
  nodes : Array TreeEntry
  byPlace : Register String Nat
  byFile : Register Path Nat
deriving Inhabited

namespace TreeIndex

/-- The number of instances. -/
def size (index : TreeIndex) : Nat := index.nodes.size

/-- The index without instances. -/
def empty : TreeIndex := ⟨"", #[], [], []⟩

/-! ## Building -/

/-- The index with an instance at its end. Its place and its file lead to it from now on. -/
def push (index : TreeIndex) (node : SourceTree) (parent : Option Nat) (place : String) :
    TreeIndex :=
  let id := index.size
  let entry := TreeEntry.ofTree (Path.ofString index.directory) node id place parent
  { index with
    nodes := index.nodes.push entry
    byPlace := index.byPlace.put place id
    byFile := entry.file.elim index.byFile (index.byFile.put · id) }

/-- The index with one more child of the instance at position `parent`. -/
def addChild (index : TreeIndex) (parent child : Nat) : TreeIndex :=
  { index with
    nodes := index.nodes.modify parent fun entry =>
      { entry with children := entry.children ++ [child] } }

mutual

/-- Put an instance and all below it at the end of an index. The result begins with the position of
the instance. -/
def insert (index : TreeIndex) (parent : Option Nat) (place : String) :
    SourceTree → Nat × TreeIndex
  | node@(.mk _ _ _ children _) =>
    (index.size, insertAll (index.push node parent place) index.size place children)

/-- Put the children of the instance at position `parent`, each with all below it, at the end of an
index. Every child is listed by its parent once all below it is there. -/
def insertAll (index : TreeIndex) (parent : Nat) (place : String) : List SourceTree → TreeIndex
  | [] => index
  | node :: nodes =>
    let (child, index) := insert index (some parent) (VirtualName.child place node.name) node
    insertAll (index.addChild parent child) parent place nodes

end

/-- The index of a tree. -/
def ofTree (directory : String) (tree : SourceTree) : TreeIndex :=
  (insert { empty with directory } none (VirtualName.root tree) tree).2

/-! ## Looking up -/

/-- The topmost instance. -/
def root? (index : TreeIndex) : Option TreeEntry := index.nodes[0]?

/-- The instance that a name in the tree leads to. -/
def ofPlace? (index : TreeIndex) (place : String) : Option TreeEntry := do
  let id ← index.byPlace.find? place
  index.nodes[id]?

/-- The instance that a file leads to, as it is spelled or else in normal form. -/
def ofFile? (index : TreeIndex) (path : Path) : Option TreeEntry := do
  let id ← index.byFile.find? path <|> index.byFile.find? path.normalize
  index.nodes[id]?

/-- The parent of an instance. -/
def parent? (index : TreeIndex) (node : TreeEntry) : Option TreeEntry :=
  node.parent.bind fun id => index.nodes[id]?

/-- The children of an instance, in order. -/
def children (index : TreeIndex) (node : TreeEntry) : List TreeEntry :=
  node.children.filterMap fun id => index.nodes[id]?

/-- The first child with a given name. -/
def child? (index : TreeIndex) (node : TreeEntry) (name : String) : Option TreeEntry :=
  (index.children node).find? (·.name == name)

/-- At most `bound` ancestors of an instance, the nearest first. -/
def ancestorsWithin (index : TreeIndex) (node : TreeEntry) : Nat → List TreeEntry
  | 0 => []
  | bound + 1 =>
    match index.parent? node with
    | some parent => parent :: ancestorsWithin index parent bound
    | none => []

/-- The ancestors of an instance, the nearest first. -/
def ancestors (index : TreeIndex) (node : TreeEntry) : List TreeEntry :=
  index.ancestorsWithin node index.size

/-- The nearest of an instance and its ancestors that has a file. -/
def nearestWithFile? (index : TreeIndex) (node : TreeEntry) : Option TreeEntry :=
  (node :: index.ancestors node).find? (·.file.isSome)

/-- The nearest ancestor with a given name. -/
def nearestNamed? (index : TreeIndex) (node : TreeEntry) (name : String) :
    Option TreeEntry :=
  (index.ancestors node).find? (·.name == name)

end TreeIndex

end LuauWorkspace
