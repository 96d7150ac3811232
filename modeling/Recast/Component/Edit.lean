import Recast.Component.Basic

/-!
# Editing a parsed source

Changes that plugins make to the components of a source. The primary component follows its entry in
the list; when that entry is taken off the list, it stays primary on its own.
-/

set_option autoImplicit false

namespace Recast.ParsedSource

def indexOf? (p : ParsedSource) (name : String) : Option Nat :=
  p.components.findIdx? (·.name == name)

/-- Changes the first component of a name. -/
def update (p : ParsedSource) (name : String) (f : Component → Component) : ParsedSource :=
  match p.indexOf? name with
  | some i => { p with components := p.components.modify i f }
  | none => p

def updateConvertible (p : ParsedSource) (f : Component → Component) : ParsedSource :=
  { p with components := p.components.map fun c => if c.isReExport then c else f c }

/-- The primary component after the one at a place is taken off the list. -/
def primaryWithout (p : ParsedSource) (index : Nat) : Primary :=
  match p.primary with
  | .listed i =>
    if i = index then (p.components[i]?.map Primary.apart).getD .none
    else if index < i then .listed (i - 1)
    else .listed i
  | other => other

def remove (p : ParsedSource) (name : String) : ParsedSource :=
  match p.indexOf? name with
  | some i => { p with components := p.components.eraseIdx i, primary := p.primaryWithout i }
  | none => p

def clear (p : ParsedSource) : ParsedSource :=
  { p with
    components := []
    primary := (p.primary?.map Primary.apart).getD .none }

def makePrimary (p : ParsedSource) (name : String) : ParsedSource :=
  match p.indexOf? name with
  | some i => { p with primary := .listed i }
  | none => { p with primary := .none }

end Recast.ParsedSource
