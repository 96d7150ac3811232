import Recast.Assoc
import Recast.Error
import Recast.Text.Case
import Recast.Text.Search

/-!
# Markup

The markup of a component, independent of the framework it came from and of the one it goes to.
There are five kinds of node. A sixth case stands for a value that an extension put where a node
belongs; nothing can be done with it but to report it.
-/

set_option autoImplicit false

namespace Recast.Markup

inductive BindingKind where
  | expression
  | event
  | spread
  deriving DecidableEq, Repr

/-- A dynamic attribute: source code and how it is used. -/
structure Binding where
  code : String
  kind : BindingKind := .expression
  deriving DecidableEq, Repr

def spreadKey : String := "..."

def refKey : String := "ref"

/-- The key under which the class is kept, static or dynamic. -/
def classKey : String := "class"

def voidTags : List String := [
  "area", "base", "br", "col", "embed", "hr", "img", "input", "link", "meta", "param", "source",
  "track", "wbr"]

/-- Elements whose content comes from attributes, never from callers. -/
def slotlessTags : List String := ["textarea", "select"]

/-- Whether a tag names a void element, in any mix of small and capital letters. -/
def isVoidTag (tag : String) : Bool := voidTags.contains (Text.lower tag)

/-- Everything about an element but its children. -/
structure Head where
  tag : String
  /-- The dotted name of the primitive that `tag` replaced. -/
  sourceTag : Option String := none
  attributes : Assoc String := []
  bindings : Assoc Binding := []
  deriving DecidableEq, Repr

namespace Head

def isVoid (h : Head) : Bool := isVoidTag h.tag

/-- A dotted tag names a part of a wrapped primitive. -/
def isWrappedPrimitive (h : Head) : Bool := h.tag.toList.contains '.'

/-- A capitalized or dotted tag refers to a component. -/
def isComponentReference (h : Head) : Bool :=
  h.isWrappedPrimitive || h.tag.toList.head?.any Text.isUpper

def hasSpread (h : Head) : Bool := h.bindings.any fun entry => entry.2.kind = .spread

def has (h : Head) (name : String) : Bool := h.attributes.has name || h.bindings.has name

/-- The class as it stands in the source: the dynamic one, else the static one. -/
def classSource (h : Head) : String :=
  match h.bindings.get? classKey with
  | some b => b.code
  | none => (h.attributes.get? classKey).getD ""

end Head

inductive Node where
  | element (head : Head) (children : List Node)
  /-- Literal text, or an expression whose value is shown. -/
  | text (content : String) (isExpression : Bool)
  | fragment (children : List Node)
  /-- A child shown only when the guard holds. -/
  | guarded (guard : String) (child : Node)
  /-- The place for the content that callers provide. -/
  | slot (name : String)
  /-- A value that is no node, known only by the name of its type. -/
  | foreign (typeName : String)
  deriving Repr

namespace Node

def children : Node → List Node
  | element _ cs => cs
  | fragment cs => cs
  | guarded _ c => [c]
  | text _ _ => []
  | slot _ => []
  | foreign _ => []

def isForeign : Node → Bool
  | foreign _ => true
  | _ => false

def isSlot : Node → Bool
  | slot _ => true
  | _ => false

/-- The failure of a consumer that met a value that is no node. -/
def unhandled (typeName : String) : Report :=
  { kind := .unhandledNode, message := "Unhandled IR node kind: " ++ typeName }

def voidWithChildren (tag : String) (hint : Option String) : Report :=
  { kind := .invalidNode, message := "Void element <" ++ tag ++ "> cannot have children", hint }

/-- An element, refused if it is void and has children. -/
def make (head : Head) (children : List Node) : Except Report Node :=
  if head.isVoid && !children.isEmpty then
    .error (voidWithChildren head.tag (some "Drop the children before constructing the element."))
  else .ok (element head children)

/-- Adds a child at the end of an element. Other nodes stay as they are. -/
def addChild (parent child : Node) : Except Report Node :=
  match parent with
  | element head cs =>
    if head.isVoid then .error (voidWithChildren head.tag none)
    else .ok (element head (cs ++ [child]))
  | other => .ok other

mutual
/-- The node and everything below it, parents first. -/
def preorder : Node → List Node
  | element h cs => element h cs :: preorderList cs
  | fragment cs => fragment cs :: preorderList cs
  | guarded g c => guarded g c :: preorder c
  | text s e => [text s e]
  | slot n => [slot n]
  | foreign t => [foreign t]
def preorderList : List Node → List Node
  | [] => []
  | n :: ns => preorder n ++ preorderList ns
end

end Node

/-- The nodes a traversal delivers, and the failure that ends it early, if any. The value that ends
it is the last one delivered. -/
structure Traversal where
  visited : List Node
  failure : Option Report

namespace Traversal

/-- One traversal goes on with another one, unless it failed. -/
def andThen (t u : Traversal) : Traversal :=
  match t.failure with
  | some r => ⟨t.visited, some r⟩
  | none => ⟨t.visited ++ u.visited, u.failure⟩

/-- Delivers a node before anything else is done with it. -/
def deliver (n : Node) : Traversal := ⟨[n], none⟩

end Traversal

mutual
/-- Delivers a node and goes on with its children. A value that is no node has been delivered when its
children are asked for. -/
def walkNode : Node → Traversal
  | .element h cs => (Traversal.deliver (.element h cs)).andThen (walk cs)
  | .fragment cs => (Traversal.deliver (.fragment cs)).andThen (walk cs)
  | .guarded g c => (Traversal.deliver (.guarded g c)).andThen (walkNode c)
  | .text s e => Traversal.deliver (.text s e)
  | .slot n => Traversal.deliver (.slot n)
  | .foreign t => (Traversal.deliver (.foreign t)).andThen ⟨[], some (Node.unhandled t)⟩
/-- Visits a forest parents first, up to the first value that is no node. -/
def walk : List Node → Traversal
  | [] => ⟨[], none⟩
  | n :: ns => (walkNode n).andThen (walk ns)
end

mutual
/-- The first element reached through fragments and guards alone. -/
def findRootIn : Node → Except Report (Option (Head × List Node))
  | .element h cs => .ok (some (h, cs))
  | .fragment cs => findRoot cs
  | .guarded _ c => findRootIn c
  | .text _ _ => .ok none
  | .slot _ => .ok none
  | .foreign t => .error (Node.unhandled t)
def findRoot : List Node → Except Report (Option (Head × List Node))
  | [] => .ok none
  | n :: ns =>
    match findRootIn n with
    | .ok none => findRoot ns
    | found => found
end

/-- Whether a slot is reached before the traversal ends. -/
def containsSlot (nodes : List Node) : Except Report Bool :=
  let w := walk nodes
  if w.visited.any Node.isSlot then .ok true
  else match w.failure with
    | some r => .error r
    | none => .ok false

end Recast.Markup
