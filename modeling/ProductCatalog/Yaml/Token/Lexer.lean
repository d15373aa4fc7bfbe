import ProductCatalog.Yaml.Scalar
import ProductCatalog.Yaml.Token

/-!
# From characters to tokens

The lexer keeps the columns of the open block collections and the kinds of
the open flow collections. A token that may be a *simple key* is remembered
until a colon shows that it is one, or the end of its line shows that it is
none; the tokens that announce a key are then put before the remembered
token, which is why they are kept apart until the end.

## Main definitions

* `Lexer` — the state; `Lexer.step` — reads one token.
* `Token.scan` — the tokens of a text, or nothing if it is malformed.
-/

namespace ProductCatalog.Yaml

/-- A token that may turn out to be a simple key. -/
structure Candidate where
  /-- The number of tokens before it. -/
  number : Nat
  /-- Where it begins. -/
  place : Cursor
  /-- Its column is that of an open block mapping, where only a key can stand. -/
  required : Bool
deriving Repr

/-- A column that block content is measured against. -/
structure Indent where
  /-- The column before this one was opened. -/
  outer : Int
  /-- A block collection ends with it. -/
  isBlock : Bool
deriving Repr, DecidableEq

/-- A flow collection that is open. -/
inductive FlowKind
  | sequence
  | mapping
deriving Repr, DecidableEq

/-- The state of the lexer. -/
structure Lexer where
  cursor : Cursor
  /-- The column of the innermost open block collection, or one less than any. -/
  column : Int := -1
  indents : List Indent := []
  /-- Open flow collections, the innermost first. -/
  flows : List FlowKind := []
  /-- For each flow level, the innermost first, the token that may be a simple key. -/
  candidates : List (Option Candidate) := [none]
  /-- A simple key may begin here. -/
  keyAllowed : Bool := true
  /-- Only white space has been seen on this line. -/
  atLineStart : Bool := true
  /-- A colon here needs no white space after it. -/
  adjacentAt : Option Nat := none
  /-- The tokens read, the latest first. -/
  tokens : List Token := []
  /-- The number of tokens read. -/
  count : Nat := 0
  /-- Tokens to be put before the token with a number. -/
  insertions : List (Nat × List Token) := []

namespace Lexer

/-- Whether a flow collection is open. -/
def inFlow (s : Lexer) : Bool := !s.flows.isEmpty

/-- Adds a token. -/
def push (s : Lexer) (t : Token) : Lexer := { s with tokens := t :: s.tokens, count := s.count + 1 }

/-- Goes to a place. -/
def goTo (s : Lexer) (c : Cursor) : Lexer := { s with cursor := c }

/-! ## Columns -/

/-- Closes all block collections to the right of a column. -/
def closeTo (s : Lexer) (column : Int) : Lexer :=
  if s.inFlow then s
  else
    s.indents.foldl (fun s indent =>
      if s.column > column then
        let s := { s with column := indent.outer, indents := s.indents.drop 1 }
        if indent.isBlock then s.push .blockEnd else s
      else s) s

/-- Opens a block collection at a column, unless one is open there. Its first token is put before
the token with the number `at?`, or comes now. -/
def openBlock (s : Lexer) (column : Int) (at? : Option Nat) (t : Token) : Lexer :=
  if s.inFlow then s
  else
    let s := match s.indents with
      | indent :: rest =>
        if s.column ≤ column && !indent.isBlock then
          { s with column := indent.outer, indents := rest }
        else s
      | [] => s
    if s.column < column then
      let s := { s with column := column, indents := ⟨s.column, true⟩ :: s.indents }
      match at? with
      | some n => { s with insertions := (n, [t]) :: s.insertions }
      | none => s.push t
    else s

/-- Asks for one more column of indentation inside the innermost block collection. -/
def openColumn (s : Lexer) : Lexer :=
  match s.indents with
  | indent :: _ =>
    if !s.inFlow && indent.isBlock then
      { s with column := s.column + 1, indents := ⟨s.column, false⟩ :: s.indents }
    else s
  | [] => s

/-- Takes back what `openColumn` has asked for. -/
def closeColumns (s : Lexer) : Lexer :=
  s.indents.foldl (fun s indent =>
    match s.indents with
    | top :: rest =>
      if top.isBlock then s else { s with column := indent.outer, indents := rest }
    | [] => s) s

/-! ## Simple keys -/

/-- Forgets the token that may be a simple key. A required key cannot be forgotten. -/
def dropCandidate (s : Lexer) : Option Lexer :=
  match s.candidates with
  | some k :: rest => if k.required then none else some { s with candidates := none :: rest }
  | _ => some s

/-- Remembers that the token that comes next may be a simple key, if one is allowed here. -/
def saveCandidate (s : Lexer) : Option Lexer :=
  if !s.keyAllowed then some s
  else do
    let s ← s.dropCandidate
    let inBlock := match s.indents with
      | indent :: _ => indent.isBlock
      | [] => false
    let required := !s.inFlow && s.column = s.cursor.column && inBlock
    return { s with candidates := some ⟨s.count, s.cursor, required⟩ :: s.candidates.drop 1 }

/-- The longest simple key. -/
def longestKey : Nat := 1024

/-- Forgets a remembered token when it is too far back. -/
def dropStale (s : Lexer) : Option Lexer :=
  match s.candidates with
  | some k :: _ =>
    if !s.inFlow &&
        (k.place.line < s.cursor.line || k.place.index + longestKey < s.cursor.index) then
      s.dropCandidate
    else some s
  | _ => some s

/-! ## White space between tokens -/

/-- Skips white space and comments up to the next token, in at most `fuel` pieces. -/
def toNextToken : (fuel : Nat) → Lexer → Option Lexer
  | 0, s => some s
  | fuel + 1, s =>
    let c := s.cursor
    if c.head = '\t' && !s.indents.isEmpty && s.atLineStart && c.column < s.column then
      match c.skipToLineEnd true with
      | some (after, _) => if endsLine after.head then toNextToken fuel (s.goTo after) else none
      | none => none
    else if isSpace c.head then toNextToken fuel (s.goTo c.next)
    else if isBreak c.head then
      toNextToken fuel { s with
        cursor := c.nextLine, keyAllowed := s.keyAllowed || !s.inFlow, atLineStart := true }
    else if c.head = '#' then
      toNextToken fuel (s.goTo (c.skipWhile fun ch => !endsLine ch))
    else some s

/-- Skips the rest of a line's white space and a comment. -/
def toLineEnd (s : Lexer) : Option Lexer :=
  (s.cursor.skipToLineEnd true).map fun (c, _) => s.goTo c

/-! ## Tokens -/

/-- The end of the text. -/
def readStreamEnd (s : Lexer) : Option Lexer :=
  if s.candidates.any fun k => (k.map (·.required)).getD false then none
  else some (({ s with candidates := [none] }.closeTo (-1)).push .streamEnd)

/-- A mark of a document. -/
def readDocumentMark (s : Lexer) (t : Token) : Option Lexer := do
  let s ← (s.closeTo (-1)).dropCandidate
  return { s with cursor := s.cursor.skip 3, keyAllowed := false }.push t

/-- Whether a text is a version: two numbers with a point between them. -/
def isVersion (cs : List Char) : Bool :=
  let major := cs.takeWhile Char.isDigit
  match cs.drop major.length with
  | '.' :: minor => !major.isEmpty && !minor.isEmpty && minor.all Char.isDigit
  | _ => false

/-- The directive of a line. A version and a tag handle have their forms; others are free. -/
def directive? (line : List Char) : Option Token :=
  let words := (((String.ofList line).splitOn " ").filter fun w => w ≠ "").map String.toList
  match words.takeWhile fun w => w.head? ≠ some '#' with
  | ['%', 'Y', 'A', 'M', 'L'] :: rest =>
    match rest with
    | [version] => if isVersion version then some .directive else none
    | _ => none
  | ['%', 'T', 'A', 'G'] :: rest =>
    match rest with
    | [handle, meaning] => some (.tagDirective handle meaning)
    | _ => none
  | _ => some .directive

/-- A directive, up to the end of its line. -/
def readDirective (s : Lexer) : Option Lexer := do
  let s ← (s.closeTo (-1)).dropCandidate
  let line := s.cursor.rest.takeWhile fun ch => !endsLine ch
  return { s with cursor := s.cursor.skip line.length, keyAllowed := false }.push
    (← directive? line)

/-- The opening of a flow collection. -/
def readFlowStart (s : Lexer) (kind : FlowKind) (t : Token) : Option Lexer := do
  let s := (← s.saveCandidate).openColumn
  let s := { s with
    flows := kind :: s.flows, candidates := none :: s.candidates, keyAllowed := true
    cursor := s.cursor.next }
  return (← s.toLineEnd).push t

/-- The end of a flow collection. -/
def readFlowEnd (s : Lexer) (t : Token) : Option Lexer := do
  let s ← s.dropCandidate
  let s := if s.inFlow then { s with flows := s.flows.drop 1, candidates := s.candidates.drop 1 }
    else s
  let s ← { s with keyAllowed := false, cursor := s.cursor.next }.toLineEnd
  let s := if s.inFlow then { s with adjacentAt := some s.cursor.index } else s
  return s.push t

/-- The comma between two entries of a flow collection. -/
def readFlowEntry (s : Lexer) : Option Lexer := do
  let s ← s.dropCandidate
  let s ← { s with keyAllowed := true, cursor := s.cursor.next }.toLineEnd
  return s.push .flowEntry

/-- The dash of an entry of a block sequence. -/
def readBlockEntry (s : Lexer) : Option Lexer := do
  if s.inFlow || !s.keyAllowed then none
  else
    let column := s.cursor.column
    let s := (s.goTo s.cursor.next).openBlock column none .blockSequenceStart
    let (c, tabs) ← s.cursor.skipToLineEnd true
    if tabs && c.head = '-' && endsWord c.second then none
    else
      let s := s.goTo c
      let s := if isBreak c.head || isFlow c.head then s.openColumn else s
      let s ← s.dropCandidate
      return { s with keyAllowed := true }.push .blockEntry

/-- The question mark before a key. -/
def readKey (s : Lexer) : Option Lexer := do
  if !s.inFlow && !s.keyAllowed then none
  else
    let s := s.openBlock s.cursor.column none .blockMappingStart
    let s ← s.dropCandidate
    let c := s.cursor.next.skipWhile (· = ' ')
    if c.head = '\t' then none
    else return { s with cursor := c, keyAllowed := !s.inFlow }.push .key

/-- The colon after a key: the remembered token is one. -/
def readSimpleValue (s : Lexer) (k : Candidate) (line : Nat) : Option Lexer :=
  if s.flows.head? = some .sequence && k.place.line < line then none
  else
    let s := { s with insertions := (k.number, [.key]) :: s.insertions }
    let s := (s.openBlock k.place.column (some k.number) .blockMappingStart).openColumn
    some { s with candidates := none :: s.candidates.drop 1, keyAllowed := false }

/-- The colon where no simple key is remembered. -/
def readComplexValue (s : Lexer) (column : Nat) : Option Lexer :=
  if s.inFlow then some { s with keyAllowed := false }
  else if !s.keyAllowed then none
  else some { (s.openBlock column none .blockMappingStart).openColumn with keyAllowed := true }

/-- A colon. A tab after it may not be all that separates it from a further sign. -/
def readValue (s : Lexer) : Option Lexer := do
  let start := s.cursor
  let c := start.next
  let c ← if c.head = '\t' then
      match c.skipToLineEnd true with
      | some (after, _) =>
        let spaced := ((c.rest.take (after.index - c.index)).takeWhile isSpace).contains ' '
        if !spaced && (after.head = '-' || after.head.isAlphanum || after.head = '_') then none
        else some after
      | none => none
    else some c
  let s := s.goTo c
  let s ← match s.candidates with
    | some k :: _ => s.readSimpleValue k start.line
    | _ => s.readComplexValue start.column
  return s.push .value

/-- Whether a character can stand in the name of an anchor. -/
def isNameChar (c : Char) : Bool := !(endsWord c || isFlow c)

/-- An anchor or an alias. -/
def readName (s : Lexer) (t : List Char → Token) : Option Lexer := do
  let s ← s.saveCandidate
  let name := s.cursor.next.rest.takeWhile isNameChar
  if name.isEmpty then none
  else
    let s := { s with cursor := s.cursor.skip (name.length + 1), keyAllowed := false }
    return s.push (t name)

/-- A letter, a digit, an underscore or a hyphen. -/
def isHandleChar (c : Char) : Bool := c.isAlphanum || c = '_' || c = '-'

/-- Whether a character can stand in a tag. -/
def isTagChar (c : Char) : Bool :=
  isHandleChar c || ['#', ';', '/', '?', ':', '@', '&', '=', '+', '$', '.', '~', '*', '\'', '(',
    ')', '%'].contains c

/-- A tag: `!<…>`, `!suffix` or `!handle!suffix`. -/
def readTag (s : Lexer) : Option Lexer := do
  let s ← s.saveCandidate
  let rest := s.cursor.rest.drop 1
  let (handle, suffix, n) ← match rest with
    | '<' :: more =>
      let uri := more.takeWhile fun ch => isTagChar ch || ch = '!' || ch = ',' || ch = '['
        || ch = ']'
      if uri.isEmpty || (more.drop uri.length).head? ≠ some '>' then none
      else some ([], uri, uri.length + 3)
    | _ =>
      let word := rest.takeWhile isHandleChar
      if (rest.drop word.length).head? = some '!' then
        let suffix := (rest.drop (word.length + 1)).takeWhile isTagChar
        if suffix.isEmpty then none
        else some ('!' :: (word ++ ['!']), suffix, word.length + 2 + suffix.length)
      else
        let suffix := rest.takeWhile isTagChar
        if suffix.isEmpty then some ([], ['!'], 1) else some (['!'], suffix, suffix.length + 1)
  let c := s.cursor.skip n
  if endsWord c.head || (s.inFlow && isFlow c.head) then
    return { s with cursor := c, keyAllowed := false }.push (.tag handle suffix)
  else none

/-- A plain scalar. -/
def readPlainToken (s : Lexer) : Option Lexer := do
  let s := (← s.saveCandidate).closeColumns
  let read ← readPlain s.inFlow s.column s.cursor
  return { s with cursor := read.after, keyAllowed := read.broken }.push (.scalar true read.text)

/-- A quoted scalar. -/
def readQuotedToken (s : Lexer) (single : Bool) : Option Lexer := do
  let s ← s.saveCandidate
  let read ← readQuoted single s.inFlow s.column s.cursor
  return { s with
    cursor := read.after, keyAllowed := false
    adjacentAt := some read.after.index }.push (.scalar false read.text)

/-- A block scalar. -/
def readBlockToken (s : Lexer) (literal : Bool) : Option Lexer := do
  let s := (← s.saveCandidate).closeColumns
  let read ← readBlock literal s.column s.cursor
  return { s with cursor := read.after, keyAllowed := true }.push (.scalar false read.text)

/-- Reads the token that begins here. -/
def readToken (s : Lexer) : Option Lexer :=
  let c := s.cursor
  if c.head = endMark then s.readStreamEnd
  else if c.column = 0 && c.head = '%' then s.readDirective
  else if c.isAtMark ['-', '-', '-'] then s.readDocumentMark .documentStart
  else if c.isAtMark ['.', '.', '.'] then do
    let s ← (← s.readDocumentMark .documentEnd).toLineEnd
    if endsLine s.cursor.head then some s else none
  else if c.column < s.column then none
  else
    match c.head with
    | '[' => s.readFlowStart .sequence .flowSequenceStart
    | '\x7b' => s.readFlowStart .mapping .flowMappingStart
    | ']' => s.readFlowEnd .flowSequenceEnd
    | '\x7d' => s.readFlowEnd .flowMappingEnd
    | ',' => s.readFlowEntry
    | '*' => s.readName .alias
    | '&' => s.readName .anchor
    | '!' => s.readTag
    | '\'' => s.readQuotedToken true
    | '"' => s.readQuotedToken false
    | '%' | '@' | '\x60' => none
    | '-' => if endsWord c.second then s.readBlockEntry else s.readPlainToken
    | '?' => if endsWord c.second then s.readKey else s.readPlainToken
    | ':' =>
      if endsWord c.second || (s.inFlow && (isFlow c.second || s.adjacentAt = some c.index)) then
        s.readValue
      else s.readPlainToken
    | '|' => if s.inFlow then s.readPlainToken else s.readBlockToken true
    | '>' => if s.inFlow then s.readPlainToken else s.readBlockToken false
    | _ => s.readPlainToken

/-- Skips white space and reads one token. -/
def step (s : Lexer) : Option Lexer := do
  let s ← s.toNextToken (2 * s.cursor.rest.length + 1)
  let s ← s.dropStale
  let s ← (s.closeTo s.cursor.column).readToken
  return { s with atLineStart := false }

/-- Reads at most `fuel` tokens, up to the end of the text. -/
def run : (fuel : Nat) → Lexer → Option Lexer
  | 0, _ => none
  | fuel + 1, s => do
    let s ← s.step
    if s.tokens.head? = some .streamEnd then some s else run fuel s

/-- All tokens in order, with those that announce keys in their places. -/
def result (s : Lexer) : List Token :=
  let inserted (n : Nat) : List Token :=
    ((s.insertions.filter (·.1 = n)).map (·.2)).flatten
  (s.tokens.reverse.zipIdx.map fun (t, n) => inserted n ++ [t]).flatten

end Lexer

/-- The tokens of a text, or nothing if it is malformed. -/
def Token.scan (text : List Char) : Option (List Token) :=
  (Lexer.run (text.length + 2) { cursor := { rest := text } }).map Lexer.result

end ProductCatalog.Yaml
