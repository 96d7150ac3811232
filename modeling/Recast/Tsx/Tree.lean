/-!
# Source trees

A component source is read into one uniform tree. Every node knows its kind, the part it plays in
its parent, and the exact source text it covers, so that an analysis can carry code over verbatim.
Constructs that no analysis looks into share the kind `other`; their parts are still children, so
a traversal reaches every call in the source.
-/

set_option autoImplicit false

namespace Recast.Tsx

inductive Kind where
  | program
  | importStatement | importClause | namespaceImport | namedImports | importSpecifier
  | exportStatement
  | constOrLet | varStatement | declarator
  | functionDeclaration | functionExpression | arrowFunction | parameters | parameter
  | objectPattern | arrayPattern | restPattern | shorthandPattern | defaultedShorthand
  | pairPattern | defaultedPattern
  | identifier | propertyName | computedName | stringLiteral | templateLiteral | number
  | objectLiteral | pair | shorthand | arrayLiteral | spread
  | call | arguments | typeArguments | member | parenthesized | asExpression
  | binary | ternary
  | element | openingTag | closingTag | selfClosingTag | attribute | container | text
  | characterReference
  | block | returnStatement | expressionStatement
  | interface | typeAlias | intersectionType | objectType | propertySignature | ascription
  | extendsClause
  | comment | token | other
  deriving DecidableEq, Repr

/-- The part a node plays in its parent. -/
inductive Role where
  | none
  | name | value | source | alias | declaration
  | parameters | parameter | body | pattern | type
  | key | left | right | operator
  | callee | arguments | typeArguments | object
  | condition | consequence | alternative
  | openTag
  deriving DecidableEq, Repr

inductive Tree where
  | mk (kind : Kind) (role : Role) (text : String) (children : List Tree)
  deriving Repr

namespace Tree

def kind : Tree → Kind
  | mk k _ _ _ => k

def role : Tree → Role
  | mk _ r _ _ => r

def text : Tree → String
  | mk _ _ t _ => t

def children : Tree → List Tree
  | mk _ _ _ cs => cs

/-- The same node in another part. -/
def withRole (r : Role) : Tree → Tree
  | mk k _ t cs => mk k r t cs

/-- The children that are constructs rather than punctuation or comments. -/
def parts (t : Tree) : List Tree :=
  t.children.filter fun c => c.kind ≠ .comment && c.kind ≠ .token

def field? (r : Role) (t : Tree) : Option Tree :=
  t.children.find? fun c => c.role = r

/-- The text of the child that plays the given part, empty when there is none. -/
def fieldText (r : Role) (t : Tree) : String :=
  match t.field? r with
  | some c => c.text
  | none => ""

mutual
def depth : Tree → Nat
  | mk _ _ _ cs => depthList cs + 1
def depthList : List Tree → Nat
  | [] => 0
  | c :: cs => max (depth c) (depthList cs)
end

theorem depth_le_depthList {c : Tree} {cs : List Tree} (h : c ∈ cs) : depth c ≤ depthList cs := by
  induction cs with
  | nil => cases h
  | cons d ds ih =>
    simp only [depthList]
    rcases List.mem_cons.1 h with rfl | h
    · exact Nat.le_max_left _ _
    · exact Nat.le_trans (ih h) (Nat.le_max_right _ _)

theorem depth_lt_of_mem_children {c t : Tree} (h : c ∈ t.children) : c.depth < t.depth := by
  cases t with
  | mk k r s cs => exact Nat.lt_succ_of_le (depth_le_depthList h)

theorem depth_lt_of_mem_parts {c t : Tree} (h : c ∈ t.parts) : c.depth < t.depth :=
  depth_lt_of_mem_children (List.mem_filter.1 h).1

theorem depth_lt_of_field? {c t : Tree} {r : Role} (h : t.field? r = some c) :
    c.depth < t.depth :=
  depth_lt_of_mem_children (List.mem_of_find?_eq_some h)

mutual
/-- The node and everything below it, parents first. -/
def walk : Tree → List Tree
  | mk k r t cs => mk k r t cs :: walkList cs
def walkList : List Tree → List Tree
  | [] => []
  | c :: cs => walk c ++ walkList cs
end

/-- The expression inside any number of parentheses. -/
def unwrap (t : Tree) : Option Tree :=
  if t.kind = .parenthesized then
    match _h : t.parts with
    -- Empty parentheses hold nothing.
    | [] => none
    | c :: _ => unwrap c
  else some t
termination_by t.depth
decreasing_by exact depth_lt_of_mem_parts (by simp_all)

/-- The text between the quotes of a string or template literal. -/
def stringValue? (t : Tree) : Option String :=
  if t.kind = .stringLiteral ∨ t.kind = .templateLiteral then
    some (String.ofList (t.text.toList.drop 1).dropLast)
  else none

/-- The name a property key denotes: an identifier, a quoted text or a number, also in brackets. -/
def propertyKey? (t : Tree) : Option String :=
  match t.kind with
  | .stringLiteral | .templateLiteral => t.stringValue?
  | .propertyName | .identifier | .number | .shorthand => some t.text
  | .computedName =>
    match _h : t.parts with
    | [] => none
    | c :: _ => propertyKey? c
  | _ => none
termination_by t.depth
decreasing_by exact depth_lt_of_mem_parts (by simp_all)

end Tree

end Recast.Tsx
