import LuauWorkspace.Require.Argument
import LuauWorkspace.SourceTree.Index

/-! # Walks through the tree

A walk through the instances ends at a name in the tree. Steps extend the name without looking at
the tree, except for the search of an ancestor; whether the name belongs to an instance is asked at
the end. -/

namespace LuauWorkspace

/-- A module that a require names. It may be missing when the game runs if it is `optional`. -/
structure ResolvedModule where
  name : String
  optional : Bool := false
deriving DecidableEq, Inhabited

namespace RequireArgument

/-- The child called `name` of where a walk has got to. -/
def enter (place : ResolvedModule) (name : String) : ResolvedModule :=
  { place with name := VirtualName.child place.name name }

/-- Where a method call on the place `base` leads. A call has one string and at most one further
argument. -/
def evaluateCall (index : TreeIndex) (base : ResolvedModule) (method : String) :
    List RequireArgument → Option ResolvedModule
  | [.literal name] => step name
  | [.literal name, _] => step name
  | _ => none
where
  /-- Where a method called with a name leads. -/
  step (name : String) : Option ResolvedModule :=
    match method with
    | "GetService" => if base.name = VirtualName.game then some (enter base name) else none
    | "WaitForChild" => some (enter base name)
    | "FindFirstChild" => some { enter base name with optional := true }
    | "FindFirstAncestor" => do
      let ancestor ← index.nearestNamed? (← index.ofPlace? base.name) name
      return { base with name := ancestor.place }
    | _ => none

/-- Where a walk leads when `script` is the instance called `self`. -/
def evaluate (index : TreeIndex) (self : Option String) : RequireArgument → Option ResolvedModule
  | .global "game" => some { name := VirtualName.game }
  | .global "script" => self.map fun name => { name }
  | .global _ => none
  | .field base name => do
    let place ← evaluate index self base
    if name = "Parent" then
      return { place with name := ← VirtualName.parent? place.name }
    else return enter place name
  | .key base name => do return enter (← evaluate index self base) name
  | .call base method args => do evaluateCall index (← evaluate index self base) method args
  | .literal _ => none
  | .dynamic => none

/-- The instance that a walk leads to. -/
def resolveWalk? (index : TreeIndex) (self : Option String) (expr : RequireArgument) :
    Option ResolvedModule := do
  let place ← evaluate index self expr
  let node ← index.ofPlace? place.name
  return { place with name := node.place }

end RequireArgument

end LuauWorkspace
