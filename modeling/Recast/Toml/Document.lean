import Recast.Assoc
import Recast.Toml.Scalar

/-!
# Documents of tables

Reads a document line by line into a table. Tables are opened by headers and by names with several
parts; what was opened by one cannot be changed by the other, and nothing is written twice.
-/

set_option autoImplicit false

namespace Recast.Toml

open Recast.Text

abbrev Table := Assoc Value

/-! ## Tables within tables -/

/-- Changes the table at a place, and makes the tables on the way to it. -/
def changeAt (entersLists : Bool) (change : Table → Except Cause Table) :
    Key → Table → Except Cause Table
  | [], table => change table
  | part :: rest, table => do
    match table.get? part with
    | none => return table.put part (.table (← changeAt entersLists change rest []))
    | some (.table below) =>
      return table.put part (.table (← changeAt entersLists change rest below))
    -- The way leads through the last table of a list if lists may be entered.
    | some (.list items) =>
      match entersLists, items.getLast? with
      | true, some (.table below) =>
        let below ← changeAt entersLists change rest below
        return table.put part (.list (items.dropLast ++ [.table below]))
      | _, _ => throw .overwritten
    | some _ => throw .overwritten

def addNew (cause : Cause) (part : String) (v : Value) (table : Table) : Except Cause Table :=
  if table.has part then throw cause else return table.put part v

def addToList (part : String) (table : Table) : Except Cause Table :=
  match table.get? part with
  | none => return table.put part (.list [.table []])
  | some (.list items) => return table.put part (.list (items ++ [.table []]))
  | some _ => throw .overwritten

/-- Carries out a change, or fails where the reader stands. -/
def carryOut {α : Type} (result : Except Cause α) : Reader α :=
  match result with
  | .ok a => return a
  | .error cause => Reader.fail cause

/-! ## Values -/

/-- Whether a name lies at or below one of the given names. -/
def within (names : List Key) (key : Key) : Bool := names.any (·.isPrefixOf key)

def hasParts : Value → Bool
  | .table _ | .list _ => true
  | _ => false

/-- Adds an entry to a table that is written on one line. `closed` are the names of the tables and
lists in it. -/
def addInline (closed : List Key) (key : Key) (v : Value) (table : Table) : Except Cause Table :=
  if within closed key then throw (.immutable key)
  else
    let part := key.getLastD ""
    changeAt false (addNew (.duplicateKey part) part v) key.dropLast table

mutual
/-- Reads a value. The first argument bounds how deep values are nested and how many there are. -/
def readValueFrom : Nat → Reader Value
  | 0 => Reader.fail .invalidValue
  | n + 1 => do
    if let some s ← readText? then return .text s
    if ← Reader.accept "true" then return .bool true
    if ← Reader.accept "false" then return .bool false
    if ← Reader.accept "[" then return .list (← readItems n)
    if ← Reader.accept "\x7b" then
      Reader.skipWhile isSpace
      if ← Reader.accept "\x7d" then return .table []
      return .table (← readEntries n [] [])
    match ← readScalar? with
    | some v => return v
    | none => Reader.fail .invalidValue
def readItems : Nat → Reader (List Value)
  | 0 => Reader.fail .invalidValue
  | n + 1 => do
    skipFiller
    if ← Reader.accept "]" then return []
    let v ← readValueFrom n
    skipFiller
    if ← Reader.accept "]" then return [v]
    if ← Reader.accept "," then return v :: (← readItems n)
    Reader.fail .arrayNotClosed
def readEntries : Nat → List Key → Table → Reader Table
  | 0, _, _ => Reader.fail .invalidValue
  | n + 1, closed, table => do
    let key ← readKey
    if !(← Reader.accept "=") then Reader.fail .noEquals
    Reader.skipWhile isSpace
    let v ← readValueFrom n
    let table ← carryOut (addInline closed key v table)
    Reader.skipWhile isSpace
    if ← Reader.accept "\x7d" then return table
    if !(← Reader.accept ",") then Reader.fail .inlineTableNotClosed
    Reader.skipWhile isSpace
    readEntries n (if hasParts v then key :: closed else closed) table
end

def readValue : Reader Value := Reader.bounded fun n => readValueFrom (2 * n)

/-! ## Statements -/

/-- A document as far as it was read. -/
structure Document where
  table : Table := []
  /-- The name that the last header opened. -/
  header : Key := []
  /-- The names that no header and no name with several parts may open again. -/
  opened : List Key := []
  /-- The names that join `opened` at the next header. -/
  pending : List Key := []
  /-- The names whose values were written in one go. Nothing is added to them. -/
  closed : List Key := []

namespace Document

def openTable (d : Document) (key : Key) : Except Cause Document := do
  if d.opened.contains key || within d.closed key then throw (.declaredTwice key)
  return { d with
    table := ← changeAt true pure key d.table, header := key, opened := key :: d.opened }

/-- Opens a new table at the end of a list by its header. -/
def openListTable (d : Document) (key : Key) : Except Cause Document := do
  if within d.closed key then throw (.immutable key)
  -- What was opened in the table before it may be opened again.
  return { d with
    table := ← changeAt true (addToList (key.getLastD "")) key.dropLast d.table
    header := key
    opened := key :: d.opened.filter (!key.isPrefixOf ·)
    closed := d.closed.filter (!key.isPrefixOf ·) }

/-- The names on the way to a name below the header, without the name itself. -/
def way (d : Document) (key : Key) : List Key :=
  (List.range (key.length - 1)).map fun i => d.header ++ key.take (i + 1)

def addEntry (d : Document) (key : Key) (v : Value) : Except Cause Document := do
  let way := d.way key
  if let some name := way.find? d.opened.contains then throw (.redefined name)
  let parent := d.header ++ key.dropLast
  if within d.closed parent then throw (.immutable parent)
  return { d with
    table := ← changeAt true (addNew .overwritten (key.getLastD "") v) parent d.table
    pending := way ++ d.pending
    closed := if hasParts v then (d.header ++ key) :: d.closed else d.closed }

/-- The document at a header, where names that were opened by entries count. -/
def settle (d : Document) : Document := { d with opened := d.pending ++ d.opened, pending := [] }

end Document

def readHeader (d : Document) : Reader Document := do
  let isList ← Reader.accept "[["
  if !isList then
    let _ ← Reader.accept "["
  Reader.skipWhile isSpace
  let key ← readKey
  let d ← carryOut (if isList then d.settle.openListTable key else d.settle.openTable key)
  if ← Reader.accept (if isList then "]]" else "]") then return d
  Reader.fail (if isList then .tableListNotClosed else .tableNotClosed)

def readEntry (d : Document) : Reader Document := do
  let key ← readKey
  if !(← Reader.accept "=") then Reader.fail .noEquals
  Reader.skipWhile isSpace
  let v ← readValue
  carryOut (d.addEntry key v)

def readLines : Nat → Document → Reader Document
  | 0, d => return d
  | n + 1, d => do
    Reader.skipWhile isSpace
    let d ← match ← Reader.peek? with
      | none | some '\n' | some '#' => pure d
      | some '[' => readHeader d
      | some c =>
        if isBare c || c = '"' || c = '\'' then readEntry d else Reader.fail .invalidStatement
    Reader.skipWhile isSpace
    skipComment
    match ← Reader.take 1 with
    | [] => return d
    | ['\n'] => readLines n d
    | cs => set (cs ++ (← get)); Reader.fail .lineGoesOn

/-- Reads a document. A fault is given in words. -/
def read (text : String) : Except String Table :=
  -- Line ends of two characters are read as one.
  let cs := replaceChars ['\r', '\n'] ['\n'] text.toList
  match (Reader.bounded fun n => readLines n {}) cs with
  | .ok (d, _) => .ok d.table
  | .error fault => .error (fault.describe cs)

end Recast.Toml
