import ProductCatalog.Text.Hexadecimal
import ProductCatalog.Yaml.Cursor

/-!
# Scalars of a YAML text

A scalar is written plainly, between quotes, or as an indented block. Plain
and quoted scalars may go on over several lines, which are folded; a block
keeps its lines (`|`) or folds them (`>`).

Each reader takes the place where the scalar begins and yields its text
and the place after it, or nothing if the scalar is malformed.

## Main definitions

* `readPlain`, `readQuoted`, `readBlock` — the three forms.
-/

namespace ProductCatalog.Yaml

/-! ## Plain scalars -/

/-- Whether a plain scalar goes on with a character, before another one. -/
def goesOnPlain (flow : Bool) (c next : Char) : Bool :=
  if endsWord c then false
  else if c = ':' then !(endsWord next || (flow && isFlow next))
  else !(flow && isFlow c)

/-- The longest piece of a plain scalar without white space. -/
def plainWord (flow : Bool) : List Char → List Char
  | [] => []
  | c :: rest => if goesOnPlain flow c (rest.headD endMark) then c :: plainWord flow rest else []

/-- Skips white space in a plain scalar, in at most `fuel` characters. A tab may stand where a
line is indented only if the line is blank. -/
def plainGap (indent : Int) : (fuel : Nat) → Cursor → Gap → Option (Cursor × Gap)
  | 0, c, g => some (c, g)
  | fuel + 1, c, g =>
    if isBreak c.head then plainGap indent fuel c.nextLine g.lineBreak
    else if isSpace c.head then
      if g.broken && c.column < indent && c.head = '\t' then
        match c.skipToLineEnd true with
        | some (after, _) => if endsLine after.head then plainGap indent fuel after g else none
        | none => none
      else plainGap indent fuel c.next (g.blank c.head)
    else some (c, g)

/-- A scalar that has been read. -/
structure ScalarRead where
  text : List Char
  after : Cursor
  /-- The scalar ended after a line break. -/
  broken : Bool := false

/-- Goes on with a plain scalar, in at most `fuel` pieces. -/
def plainFrom (flow : Bool) (indent : Int) :
    (fuel : Nat) → Cursor → Gap → List Char → Option ScalarRead
  | 0, c, g, text => some ⟨text, c, g.broken⟩
  | fuel + 1, c, g, text =>
    if c.isAtDocumentMark || c.head = '#' then some ⟨text, c, g.broken⟩
    else if flow && c.head = '-' && isFlow c.second then none
    else
      let word := plainWord flow c.rest
      let text := if word.isEmpty then text else text ++ g.text ++ word
      let g := if word.isEmpty then g else {}
      let c := c.skip word.length
      if !(isSpace c.head || isBreak c.head) then some ⟨text, c, g.broken⟩
      else
        match plainGap indent (c.rest.length + 1) c g with
        | none => none
        | some (c, g) =>
          if !flow && c.column < indent then some ⟨text, c, g.broken⟩
          else plainFrom flow indent fuel c g text

/-- Reads a plain scalar that must stay right of the column `parent`. -/
def readPlain (flow : Bool) (parent : Int) (c : Cursor) : Option ScalarRead :=
  if flow && c.column < parent + 1 then none
  else plainFrom flow (parent + 1) (c.rest.length + 1) c {} []

/-! ## Quoted scalars -/

/-- The character with a code point. -/
def charOf? (n : Nat) : Option Char :=
  if n.isValidChar then some (Char.ofNat n) else none

/-- The character that an escape of one letter denotes. -/
def escaped? : Char → Option Char
  | '0' => some '\x00'
  | 'a' => some '\x07'
  | 'b' => some '\x08'
  | 't' | '\t' => some '\t'
  | 'n' => some '\n'
  | 'v' => some '\x0b'
  | 'f' => some '\x0c'
  | 'r' => some '\r'
  | 'e' => some '\x1b'
  | ' ' => some ' '
  | '"' => some '"'
  | '/' => some '/'
  | '\\' => some '\\'
  | 'N' => some '\u0085'
  | '_' => some '\u00a0'
  | 'L' => some '\u2028'
  | 'P' => some '\u2029'
  | _ => none

/-- The number of hexadecimal digits after the letter of an escape. -/
def escapeDigits? : Char → Option Nat
  | 'x' => some 2
  | 'u' => some 4
  | 'U' => some 8
  | _ => none

/-- Reads an escape after its backslash. -/
def readEscape (c : Cursor) : Option (Char × Cursor) :=
  match escapeDigits? c.head with
  | some n => do
    let digits := (c.rest.drop 1).take n
    if digits.length ≠ n then none
    else
      let value ← Text.hexFrom? 0 digits
      return (← charOf? value, c.skip (n + 1))
  | none => (escaped? c.head).map (·, c.next)

/-- Reads the characters of a quoted scalar up to white space or the closing quote, in at most
`fuel` characters. An escaped line break begins a gap that is not folded. -/
def quotedWord (single : Bool) :
    (fuel : Nat) → Cursor → List Char → Option (Cursor × List Char × Gap)
  | 0, c, text => some (c, text, {})
  | fuel + 1, c, text =>
    if endsWord c.head then some (c, text, {})
    else if single then
      if c.head = '\'' then
        if c.second = '\'' then quotedWord single fuel (c.skip 2) (text ++ ['\''])
        else some (c, text, {})
      else quotedWord single fuel c.next (text ++ [c.head])
    else if c.head = '"' then some (c, text, {})
    else if c.head = '\\' then
      if isBreak c.second then some (c.next.nextLine, text, { broken := true })
      else
        match readEscape c.next with
        | some (ch, after) => quotedWord single fuel after (text ++ [ch])
        | none => none
    else quotedWord single fuel c.next (text ++ [c.head])

/-- Skips white space in a quoted scalar, in at most `fuel` characters. -/
def quotedGap (indent : Int) : (fuel : Nat) → Cursor → Gap → Option (Cursor × Gap)
  | 0, c, g => some (c, g)
  | fuel + 1, c, g =>
    if isBreak c.head then quotedGap indent fuel c.nextLine g.lineBreak
    else if isSpace c.head then
      if g.broken && c.head = '\t' && c.column < indent then none
      else quotedGap indent fuel c.next (g.blank c.head)
    else some (c, g)

/-- Goes on with a quoted scalar, in at most `fuel` pieces, up to and including its closing
quote. -/
def quotedFrom (single : Bool) (indent : Int) :
    (fuel : Nat) → Cursor → List Char → Option ScalarRead
  | 0, _, _ => none
  | fuel + 1, c, text =>
    if c.isAtDocumentMark || c.head = endMark || c.column < indent then none
    else
      match quotedWord single (c.rest.length + 1) c text with
      | none => none
      | some (c, text, g) =>
        if c.head = (if single then '\'' else '"') then some ⟨text, c.next, false⟩
        else
          match quotedGap indent (c.rest.length + 1) c g with
          | none => none
          | some (c, g) => quotedFrom single indent fuel c (text ++ g.text)

/-- Reads a quoted scalar from its opening quote. What follows it on its line must be able to
follow a scalar. -/
def readQuoted (single flow : Bool) (indent : Int) (c : Cursor) : Option ScalarRead := do
  let read ← quotedFrom single indent (c.rest.length + 1) c.next []
  let (after, _) ← read.after.skipToLineEnd true
  let ch := after.head
  if endsLine ch || (flow && (ch = ',' || ch = '\x7d' || ch = ']' || ch = ':'))
      || (!flow && ch = ':' && c.line = after.line)
  then return { read with after }
  else none

/-! ## Block scalars -/

/-- What becomes of the line breaks at the end of a block. -/
inductive Chomp
  | strip
  | clip
  | keep
deriving Repr, DecidableEq

/-- The sign for a way to chomp. -/
def Chomp.ofSign? : Char → Option Chomp
  | '+' => some .keep
  | '-' => some .strip
  | _ => none

/-- A digit that gives the indentation of a block. -/
def indentDigit? (c : Char) : Option Nat :=
  if '0' ≤ c && c ≤ '9' then some (c.toNat - 48) else none

/-- Reads the signs after `|` or `>`: a way to chomp and an indentation, in either order, each
at most once. The indentation is not zero. -/
def readHeader (c : Cursor) : Option (Chomp × Option Nat × Cursor) :=
  match Chomp.ofSign? c.head with
  | some chomp =>
    match indentDigit? c.next.head with
    | some 0 => none
    | some n => some (chomp, some n, c.skip 2)
    | none => some (chomp, none, c.next)
  | none =>
    match indentDigit? c.head with
    | some 0 => none
    | some n =>
      match Chomp.ofSign? c.next.head with
      | some chomp => some (chomp, some n, c.skip 2)
      | none => some (.clip, some n, c.next)
    | none => some (.clip, none, c)

/-- Skips blank lines and the indentation of the next line, at most `indent` columns of it.
Counts the line breaks. -/
def blockIndent (indent : Nat) : (fuel : Nat) → Cursor → (breaks : Nat) → Cursor × Nat
  | 0, c, breaks => (c, breaks)
  | fuel + 1, c, breaks =>
    let spaces := (c.rest.takeWhile (· = ' ')).length
    let c := c.skip (min spaces (indent - c.column))
    if isBreak c.head then blockIndent indent fuel c.nextLine (breaks + 1) else (c, breaks)

/-- Skips blank lines and all indentation of the next line. Counts the line breaks and finds the
widest indentation. -/
def firstIndent : (fuel : Nat) → Cursor → (widest breaks : Nat) → Cursor × Nat × Nat
  | 0, c, widest, breaks => (c, widest, breaks)
  | fuel + 1, c, widest, breaks =>
    let c := c.skipWhile (· = ' ')
    let widest := max widest c.column
    if isBreak c.head then firstIndent fuel c.nextLine widest (breaks + 1)
    else (c, widest, breaks)

/-- The lines of a block as they are being read. -/
structure BlockLines where
  text : List Char := []
  /-- The break of the latest line is not yet in the text. -/
  pending : Bool := false
  /-- The number of blank lines after the latest line. -/
  breaks : Nat
  /-- The latest line began with white space. -/
  indented : Bool := false

/-- Reads the lines of a block, at most `fuel`. Between two lines of a folded block neither of
which begins with white space, a single break is a space. -/
def blockLines (literal : Bool) (indent : Nat) :
    (fuel : Nat) → Cursor → BlockLines → Cursor × BlockLines
  | 0, c, b => (c, b)
  | fuel + 1, c, b =>
    if c.column ≠ indent || c.head = endMark || (indent = 0 && c.isAtDocumentMark) then (c, b)
    else
      let indented := isSpace c.head
      let joined :=
        if !literal && b.pending && !b.indented && !indented then
          if b.breaks = 0 then [' '] else List.replicate b.breaks '\n'
        else (if b.pending then ['\n'] else []) ++ List.replicate b.breaks '\n'
      let line := c.rest.takeWhile fun ch => !endsLine ch
      let c := c.skip line.length
      let text := b.text ++ joined ++ line
      if c.head = endMark then (c, ⟨text, false, 0, indented⟩)
      else
        let (c, breaks) := blockIndent indent (c.rest.length + 1) c.nextLine 0
        blockLines literal indent fuel c ⟨text, true, breaks, indented⟩

/-- Reads a block from its sign on, inside the indentation `parent`. -/
def readBlock (literal : Bool) (parent : Int) (start : Cursor) : Option ScalarRead := do
  let (chomp, width, c) ← readHeader start.next
  let (c, _) ← c.skipToLineEnd true
  if !endsLine c.head then none
  else
    let headed := isBreak c.head
    let c := if headed then c.nextLine else c
    if c.head = '\t' then none
    else
      let (c, indent, breaks) := match width with
        | some n =>
          let indent := (max parent 0).toNat + n
          let (c, breaks) := blockIndent indent (c.rest.length + 1) c 0
          (c, indent, breaks)
        | none =>
          let (c, widest, breaks) := firstIndent (c.rest.length + 1) c 0 0
          (c, max widest (parent + 1).toNat, breaks)
      if c.head = endMark then
        let text := match chomp with
          | .strip => []
          | .clip => if headed then ['\n'] else []
          | .keep => if headed then List.replicate (max breaks 1) '\n' else []
        return ⟨text, c, false⟩
      else if c.column < indent && parent < c.column then none
      else
        let (c, b) := blockLines literal indent (c.rest.length + 1) c ⟨[], false, breaks, false⟩
        let last := if b.pending then ['\n'] else []
        let final := if c.head = endMark && max indent 1 ≤ c.column then ['\n'] else []
        let tail := match chomp with
          | .strip => []
          | .clip => last ++ final
          | .keep => last ++ final ++ List.replicate b.breaks '\n'
        return ⟨b.text ++ tail, c, false⟩

end ProductCatalog.Yaml
