import Recast.Generate.Declaration
import Recast.Markup.Node

/-!
# Layout

How rendered markup is put on lines. Content stands on lines of its own, one step further in than
its element, but text and expressions next to each other share a line, since a line break between
them would be shown.
-/

set_option autoImplicit false

namespace Recast.Generate

open Recast.Markup Recast.Text

/-- The rendering of a child: a piece of text, or whole lines. -/
inductive Piece where
  | inline (text : String)
  | block (lines : List String)
  deriving DecidableEq, Repr

/-- The line of a run of inline pieces, if anything is left of it. -/
def runLine (depth : Nat) (run : List String) : List String :=
  let text := strip (String.join run)
  if text = "" then [] else [pad depth ++ text]

/-- Puts pieces on lines. `run` holds the inline pieces since the last block. -/
def layoutFrom (depth : Nat) (run : List String) : List Piece → List String
  | [] => runLine depth run
  | .inline t :: rest => layoutFrom depth (run ++ [t]) rest
  | .block ls :: rest => runLine depth run ++ ls ++ layoutFrom depth [] rest

def layout (depth : Nat) (pieces : List Piece) : List String := layoutFrom depth [] pieces

theorem layout_nil (depth : Nat) : layout depth [] = [] := by
  rw [layout, layoutFrom, runLine]
  exact if_pos rfl

/-- Content that may stand on the line of its element: no elements and no guards. -/
def isInlineContent (children : List Node) : Bool :=
  children.all fun
    | .element _ _ => false
    | .guarded _ _ => false
    | _ => true

/-- An element around the lines of its content. `opening` is the opening tag without its final
bracket. -/
def elementLines (depth : Nat) (opening tag : String) (closesItself isInline : Bool)
    (content : List String) : List String :=
  let closing := "</" ++ tag ++ ">"
  match content with
  | [] => [pad depth ++ opening ++ (if closesItself then " />" else ">" ++ closing)]
  | [line] =>
    if isInline then [pad depth ++ opening ++ ">" ++ strip line ++ closing]
    else [pad depth ++ opening ++ ">", line, pad depth ++ closing]
  | lines => [pad depth ++ opening ++ ">"] ++ lines ++ [pad depth ++ closing]

def openingTag (tag : String) (attributes : List String) : String :=
  "<" ++ tag ++ String.join (attributes.map (" " ++ ·))

mutual
def hasElement : Node → Bool
  | .element _ _ => true
  | .fragment cs => anyElement cs
  | .guarded _ c => hasElement c
  | .text _ _ => false
  | .slot _ => false
  | .foreign _ => false
def anyElement : List Node → Bool
  | [] => false
  | n :: ns => hasElement n || anyElement ns
end

end Recast.Generate
