import Recast.Text.Digit
import Recast.Text.Quoted
import Recast.Text.Search

/-!
# Command line arguments

Reads the arguments of a program that has options and one positional argument. Long options may be
cut short as long as they stay unambiguous, short ones may be written together, and the argument of
an option stands after it, behind an equals sign, or right behind a short option. Everything after
two dashes is an argument.
-/

set_option autoImplicit false

namespace Recast.Command

open Recast.Text

/-- Why reading arguments ends early. -/
inductive Stop where
  | help (program : String)
  | version
  | misuse (program message : String)
  deriving DecidableEq, Repr

/-- An option of a program, and what it does to the settings. The text is its argument, and empty if
it takes none. -/
structure Switch (σ : Type) where
  names : List String
  takesArgument : Bool := true
  /-- Gives new settings, or what is wrong with the argument. -/
  apply : String → σ → Except String σ := fun _ settings => .ok settings
  stop : Option Stop := none

/-- What a program takes as its positional argument. -/
structure Positional (σ : Type) where
  name : String
  /-- Whether everything that follows belongs to it. -/
  takesRest : Bool := false
  isRequired : Bool := true
  apply : List String → σ → Except Stop σ

structure Grammar (σ : Type) where
  program : String
  switches : List (Switch σ)
  positional : Positional σ

/-- An argument of a switch that stands in the same word. -/
structure Attached where
  text : List Char
  /-- Whether it stands behind an equals sign. -/
  behindEquals : Bool
  deriving DecidableEq, Repr

inductive Word (σ : Type) where
  | switch (s : Switch σ) (name : String) (attached : Option Attached)
  | unknownSwitch
  | argument
  | divider

structure Item (σ : Type) where
  text : String
  word : Word σ

namespace Word

variable {σ : Type}

def isSwitch : Word σ → Bool
  | switch .. | unknownSwitch => true
  | argument | divider => false

end Word

/-- Digits behind a dash, perhaps with a point among or before them. -/
def isNegativeNumber (cs : List Char) : Bool :=
  -- One line end may follow.
  let cs := if cs.getLast? = some '\n' then cs.dropLast else cs
  match cs with
  | '-' :: rest =>
    match rest.dropWhile isDigit with
    | [] => !rest.isEmpty
    | '.' :: fraction => !fraction.isEmpty && fraction.all isDigit
    | _ => false
  | _ => false

namespace Grammar

variable {σ : Type}

def misuse {α : Type} (g : Grammar σ) (message : String) : Except Stop α :=
  .error (.misuse g.program message)

def refuse {α : Type} (g : Grammar σ) (names : List String) (message : String) : Except Stop α :=
  g.misuse ("argument " ++ join "/" names ++ ": " ++ message)

def names (g : Grammar σ) : List (String × Switch σ) :=
  g.switches.flatMap fun s => s.names.map (·, s)

def find? (g : Grammar σ) (name : String) : Option (Switch σ) := List.lookup name g.names

/-! ## Words -/

def splitEquals (s : String) : String × Option Attached :=
  match cut? ['='] s.toList with
  | some (name, rest) => (String.ofList name, some ⟨rest, true⟩)
  | none => (s, none)

/-- The switches that a word that starts with a dash can mean: those that a long word abbreviates,
or the one at the start of a short word. -/
def meanings (g : Grammar σ) (s : String) : List (String × Word σ) :=
  if startsWith "--" s then
    let (short, attached) := splitEquals s
    (g.names.filter fun entry => startsWith short entry.1).map fun (name, switch) =>
      (name, .switch switch name attached)
  else
    let short := String.ofList (s.toList.take 2)
    (g.names.filter fun entry => entry.1 = short).map fun (name, switch) =>
      (name, .switch switch name (some ⟨s.toList.drop 2, false⟩))

/-- What a word is, unless it is ambiguous. -/
def word (g : Grammar σ) (s : String) : Except Stop (Word σ) :=
  if !startsWith "-" s then .ok .argument
  else
    match g.find? s with
    | some switch => .ok (.switch switch s none)
    | none =>
      if s = "-" then .ok .argument
      else
        match splitEquals s with
        | (name, some attached) =>
          match g.find? name with
          | some switch => .ok (.switch switch name (some attached))
          | none => abbreviated
        | _ => abbreviated
where
  /-- What a word is that does not spell out a switch. -/
  abbreviated : Except Stop (Word σ) :=
    match g.meanings s with
    | [(_, w)] => .ok w
    | [] =>
      if isNegativeNumber s.toList || contains " " s then .ok .argument else .ok .unknownSwitch
    | several =>
      g.misuse ("ambiguous option: " ++ s ++ " could match " ++ join ", " (several.map (·.1)))

def items (g : Grammar σ) : List String → Except Stop (List (Item σ))
  | [] => .ok []
  | "--" :: rest => .ok (⟨"--", .divider⟩ :: rest.map (⟨·, .argument⟩))
  | s :: rest => do
    let w ← g.word s
    return ⟨s, w⟩ :: (← g.items rest)

/-! ## Switches -/

/-- What a word with switches asks for. -/
structure Bundle (σ : Type) where
  ready : List (Switch σ × String) := []
  /-- The switch at the end, whose argument is not in the word. -/
  waiting : Option (Switch σ) := none
  /-- What follows a switch without argument and is no switch. -/
  leftover : List String := []

def ignored {α : Type} (g : Grammar σ) (s : Switch σ) (text : List Char) : Except Stop α :=
  g.refuse s.names ("ignored explicit argument " ++ quoted (String.ofList text))

/-- Takes a word apart that has a switch and more behind it. `isShort` tells whether other switches
can follow. -/
def unbundle (g : Grammar σ) (s : Switch σ) (isShort behindEquals : Bool) :
    List Char → Except Stop (Bundle σ)
  | [] => if s.takesArgument then .ok { ready := [(s, "")] } else g.ignored s []
  | c :: rest =>
    if s.takesArgument then .ok { ready := [(s, String.ofList (c :: rest))] }
    else if !isShort || behindEquals || c = '-' then g.ignored s (c :: rest)
    else
      match g.find? (String.ofList ['-', c]) with
      | none => .ok { ready := [(s, "")], leftover := [String.ofList ('-' :: c :: rest)] }
      | some next => do
        let bundle ← match rest with
          | [] => .ok { waiting := some next }
          | '=' :: tail => g.unbundle next true true tail
          | rest => g.unbundle next true false rest
        return { bundle with ready := (s, "") :: bundle.ready }

def bundle (g : Grammar σ) (s : Switch σ) (name : String) (attached : Option Attached) :
    Except Stop (Bundle σ) :=
  match attached with
  | none => .ok { waiting := some s }
  | some a => g.unbundle s (!startsWith "--" name) a.behindEquals a.text

def carryOut (g : Grammar σ) (settings : σ) (s : Switch σ) (argument : String) : Except Stop σ :=
  match s.stop with
  | some stop => .error stop
  | none =>
    match s.apply argument settings with
    | .ok settings => .ok settings
    | .error message => g.refuse s.names message

/-! ## Command lines -/

structure Progress (σ : Type) where
  settings : σ
  hasPositional : Bool := false
  /-- The words that mean nothing. -/
  extras : List String := []

/-- The words of the positional argument at the front, and the rest. -/
def positional? (g : Grammar σ) (items : List (Item σ)) : Option (List String × List (Item σ)) :=
  let isDivider (i : Item σ) : Bool := match i.word with
    | .divider => true
    | _ => false
  -- A divider on either side belongs to the argument.
  let (before, rest) := (items.takeWhile isDivider, items.dropWhile isDivider)
  match rest with
  | ⟨text, .argument⟩ :: tail =>
    if g.positional.takesRest then some ((before ++ rest).map (·.text), [])
    else some ([text], tail.dropWhile isDivider)
  | _ => none

def readItems (g : Grammar σ) : Nat → Progress σ → List (Item σ) → Except Stop (Progress σ)
  | 0, p, _ | _, p, [] => .ok p
  | n + 1, p, ⟨text, .unknownSwitch⟩ :: rest =>
    g.readItems n { p with extras := p.extras ++ [text] } rest
  | n + 1, p, ⟨_, .switch s name attached⟩ :: rest => do
    let bundle ← g.bundle s name attached
    let (ready, rest) ← match bundle.waiting, rest with
      | none, rest => pure (bundle.ready, rest)
      | some s, rest =>
        if !s.takesArgument then pure (bundle.ready ++ [(s, "")], rest)
        else match rest with
          | ⟨text, .argument⟩ :: rest => pure (bundle.ready ++ [(s, text)], rest)
          | _ => g.refuse s.names "expected one argument"
    let settings ← ready.foldlM (fun settings entry => g.carryOut settings entry.1 entry.2)
      p.settings
    g.readItems n { p with settings, extras := p.extras ++ bundle.leftover } rest
  | n + 1, p, items =>
    match if p.hasPositional then none else g.positional? items with
    | some (words, rest) => do
      let settings ← g.positional.apply words p.settings
      g.readItems n { p with settings, hasPositional := true } rest
    | none =>
      let (extras, rest) := (items.takeWhile (!·.word.isSwitch), items.dropWhile (!·.word.isSwitch))
      g.readItems n { p with extras := p.extras ++ extras.map (·.text) } rest

/-- Reads a command line. Gives the settings and the words that mean nothing. -/
def read (g : Grammar σ) (settings : σ) (args : List String) :
    Except Stop (σ × List String) := do
  let items ← g.items args
  -- Each step takes off a word.
  let p ← g.readItems items.length { settings } items
  if g.positional.isRequired && !p.hasPositional then
    g.misuse ("the following arguments are required: " ++ g.positional.name)
  else return (p.settings, p.extras)

end Grammar

end Recast.Command
