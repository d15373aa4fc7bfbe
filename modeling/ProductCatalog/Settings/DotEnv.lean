import ProductCatalog.Text.Blank

/-!
# Files of environment variables

A file of environment variables has one assignment a line: an optional
`export`, a name, an equals sign and a value. Quotes may carry a value over
several lines. Single quotes keep everything as it is; elsewhere a backslash
escapes a character, and a dollar sign in front of a name stands for the
value of another variable, which comes from the environment, or else from an
earlier line. A number sign after white space begins a comment.

A file is read up to its first malformed line. Variables that are already set
keep their values.

## Main definitions

* `DotEnv.logicalLines` — the lines of a file, with quotes kept together.
* `DotEnv.readLine` — the assignment of a line.
* `DotEnv.load` — an environment with the assignments of a file.
-/

namespace ProductCatalog.Settings.DotEnv

open Text

/-- Environment variables and their values. -/
abbrev Environment := List (String × String)

/-- The value of a variable. -/
def valueOf? (env : Environment) (name : String) : Option String :=
  (env.find? (·.1 = name)).map (·.2)

/-! ## Lines -/

/-- The lines of a text, each with its line feed. -/
def physicalLines : List Char → List (List Char)
  | [] => []
  | '\n' :: rest => ['\n'] :: physicalLines rest
  | c :: rest =>
    match physicalLines rest with
    | [] => [[c]]
    | line :: lines => (c :: line) :: lines

/-- Where in quotes or white space a place in a line is. -/
inductive LineState
  | plain
  | escape
  | single
  | singleEscape
  | double
  | doubleEscape
  | blank
  | comment
deriving Repr, DecidableEq

/-- What a character outside of quotes leads to. -/
def LineState.outside (c : Char) : LineState :=
  if c = '\\' then .escape
  else if c = '"' then .double
  else if c = '\'' then .single
  else .plain

/-- What a character leads to. -/
def LineState.next (s : LineState) (c : Char) : LineState :=
  match s with
  | .plain => if isBlank c && c ≠ '\n' && c ≠ '\r' then .blank else outside c
  | .blank => if c = '#' then .comment else outside c
  | .escape => .plain
  | .double => if c = '\\' then .doubleEscape else if c = '"' then .plain else .double
  | .doubleEscape => .double
  | .single => if c = '\\' then .singleEscape else if c = '\'' then .plain else .single
  | .singleEscape => .single
  | .comment => .comment

/-- The part of a line before a comment, and what the line leads to. -/
def beforeComment : LineState → List Char → List Char × LineState
  | s, [] => ([], s)
  | s, c :: rest =>
    if s.next c = .comment then ([], .comment)
    else
      let (before, final) := beforeComment (s.next c) rest
      (c :: before, final)

/-- A line without its line feed, and a carriage return before that. -/
def withoutLineEnd (line : List Char) : List Char :=
  match line.reverse with
  | '\n' :: '\r' :: rest => rest.reverse
  | '\n' :: rest => rest.reverse
  | _ => line

/-- The logical lines of a file, when the part of a logical line that has been carried over has led
to a state. A line is malformed if the file ends before its quotes do, or with white space. -/
def logicalLinesFrom (carried : List Char) (s : LineState) :
    List (List Char) → List (Option (List Char))
  | [] => if s = .plain then [] else [none]
  | line :: rest =>
    let whole := carried ++ line
    if (trimStart whole).head? = some '#' then some [] :: logicalLinesFrom [] .plain rest
    else
      let (before, final) := beforeComment s line
      if final = .comment then some (carried ++ before) :: logicalLinesFrom [] .plain rest
      else if final = .plain then some (withoutLineEnd whole) :: logicalLinesFrom [] .plain rest
      else logicalLinesFrom whole final rest

/-- The logical lines of a file; nothing for one that is malformed. -/
def logicalLines (text : List Char) : List (Option (List Char)) :=
  logicalLinesFrom [] .plain (physicalLines text)

/-! ## Values -/

/-- How far a reference to a variable has come. -/
inductive Reference
  | absent
  /-- After a dollar sign. -/
  | bare
  /-- Between braces. -/
  | braced
deriving Repr, DecidableEq

/-- A value as it is being read. -/
structure ValueState where
  single : Bool := false
  double : Bool := false
  escaped : Bool := false
  /-- The value is over. -/
  ended : Bool := false
  reference : Reference := .absent
  name : List Char := []
  text : List Char := []

/-- Where the values of variables come from: the environment, then earlier lines. -/
structure Scope where
  env : Environment
  earlier : Environment := []

/-- The value of a variable; an unknown one is empty. -/
def Scope.valueOf (s : Scope) (name : List Char) : List Char :=
  let name := String.ofList name
  ((valueOf? s.env name).getD ((valueOf? s.earlier name).getD "")).toList

/-- Puts the value of the variable in the place of the reference to it. -/
def ValueState.refer (v : ValueState) (s : Scope) : ValueState :=
  { v with text := v.text ++ s.valueOf v.name, name := [], reference := .absent }

/-- Adds a character. -/
def ValueState.add (v : ValueState) (c : Char) : ValueState := { v with text := v.text ++ [c] }

/-- A character of a reference. After a bare name every character stands for itself, quotes
included. -/
def ValueState.inReference (v : ValueState) (s : Scope) (c : Char) : ValueState :=
  if c.isAlphanum then { v with name := v.name ++ [c] }
  else if v.reference = .braced then
    if c = '\x7d' then v.refer s else { v with name := v.name ++ [c] }
  else if c = '\x7b' && v.name.isEmpty then { v with reference := .braced }
  else if c = '$' then { v.refer s with reference := .bare }
  else (v.refer s).add c

/-- The value that has been read, unless quotes or braces are still open. -/
def ValueState.finish (v : ValueState) (s : Scope) : Option String :=
  if v.reference = .braced || v.single || v.double then none
  else some (String.ofList (v.refer s).text)

/-- Reads a value from where it begins. -/
def readValue (s : Scope) (v : ValueState) : List Char → Option String
  | [] => v.finish s
  | c :: rest =>
    if v.ended then
      if c = ' ' || c = '\t' then readValue s v rest
      else if c = '#' then v.finish s
      else none
    else if v.escaped then
      let v := { v with escaped := false }
      if ['\\', '\'', '"', '$', ' '].contains c then readValue s (v.add c) rest
      else if c = 'n' then readValue s (v.add '\n') rest
      else none
    else if v.single then
      if c = '\'' then readValue s { v with single := false } rest else readValue s (v.add c) rest
    else if v.reference ≠ .absent then readValue s (v.inReference s c) rest
    else if c = '$' then readValue s { v with reference := .bare } rest
    else if c = '\\' then readValue s { v with escaped := true } rest
    else if v.double then
      if c = '"' then readValue s { v with double := false } rest else readValue s (v.add c) rest
    else if c = '\'' then readValue s { v with single := true } rest
    else if c = '"' then readValue s { v with double := true } rest
    else if c = ' ' || c = '\t' then readValue s { v with ended := true } rest
    else readValue s (v.add c) rest

/-! ## Assignments -/

/-- Reads a name: letters, digits, underscores and points, with no digit or point first. -/
def readName (cs : List Char) : Option (String × List Char) :=
  match cs with
  | c :: _ =>
    if c.isAlpha || c = '_' then
      let name := cs.takeWhile fun c => c.isAlphanum || c = '_' || c = '.'
      some (String.ofList name, cs.drop name.length)
    else none
  | [] => none

/-- Reads white space and an equals sign. -/
def readEquals (cs : List Char) : Option (List Char) :=
  match trimStart cs with
  | '=' :: rest => some rest
  | _ => none

/-- Reads a name with its equals sign. The word `export` in front of a name is no name. -/
def readTarget (cs : List Char) : Option (String × List Char) := do
  let (name, rest) ← readName cs
  match readEquals rest with
  | some rest => return (name, rest)
  | none =>
    if name = "export" then
      let (name, rest) ← readName (trimStart rest)
      return (name, ← readEquals rest)
    else none

/-- Whether nothing but a comment is left. -/
def isOver (cs : List Char) : Bool := cs.isEmpty || cs.head? = some '#'

/-- Reads the assignment of a line. A line may have none; a malformed line has no reading. -/
def readLine (s : Scope) (line : List Char) : Option (Option (String × String)) :=
  let line := trim line
  if isOver line then some none
  else do
    let (name, rest) ← readTarget line
    let rest := trimStart rest
    if isOver rest then return some (name, "")
    else return some (name, ← readValue s {} rest)

/-! ## Files -/

/-- Adds the assignments of lines to an environment, up to the first malformed line. -/
def loadLines (s : Scope) : List (Option (List Char)) → Environment
  | [] => s.env
  | none :: _ => s.env
  | some line :: rest =>
    match readLine s line with
    | none => s.env
    | some none => loadLines s rest
    | some (some (name, value)) =>
      let env := if (valueOf? s.env name).isSome then s.env else s.env ++ [(name, value)]
      loadLines ⟨env, (name, value) :: s.earlier⟩ rest

/-- The mark of byte order that a file may begin with. -/
def byteOrderMark : Char := '\ufeff'

/-- An environment with the assignments of a file. -/
def load (env : Environment) (text : String) : Environment :=
  let cs := match text.toList with
    | c :: rest => if c = byteOrderMark then rest else c :: rest
    | [] => []
  loadLines ⟨env, []⟩ (logicalLines cs)

end ProductCatalog.Settings.DotEnv
