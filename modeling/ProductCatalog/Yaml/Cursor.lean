/-!
# A place in a YAML text

YAML gives meaning to columns and to line breaks, so a reader has to know
where it is. A *cursor* is the text that is left together with the number of
characters, lines and columns before it. Beyond the end of a text, and from
a NUL character on, a cursor sees the end mark.

## Main definitions

* `Cursor` — the text that is left, and where it begins.
* `Cursor.skipToLineEnd` — skips blanks and a comment.
* `Gap` — white space inside a scalar, which is folded in one of three ways.
-/

namespace ProductCatalog.Yaml

/-- What a cursor sees at the end of its text. -/
def endMark : Char := '\x00'

/-- A line feed or a carriage return. -/
def isBreak (c : Char) : Bool := c = '\n' || c = '\r'

/-- A space or a tab. -/
def isSpace (c : Char) : Bool := c = ' ' || c = '\t'

/-- A line break or the end of the text. -/
def endsLine (c : Char) : Bool := isBreak c || c = endMark

/-- White space or the end of the text. -/
def endsWord (c : Char) : Bool := isSpace c || endsLine c

/-- A character with a meaning of its own inside flow collections. -/
def isFlow (c : Char) : Bool := c = ',' || c = '[' || c = ']' || c = '\x7b' || c = '\x7d'

/-- A place in a text. -/
structure Cursor where
  rest : List Char
  index : Nat := 0
  line : Nat := 0
  column : Nat := 0
deriving Repr, DecidableEq

namespace Cursor

/-- The next character. -/
def head (c : Cursor) : Char := c.rest.headD endMark

/-- The character after the next one. -/
def second (c : Cursor) : Char := c.rest.tail.headD endMark

/-- The place after `n` more characters on this line. -/
def skip (c : Cursor) (n : Nat) : Cursor :=
  { c with rest := c.rest.drop n, index := c.index + n, column := c.column + n }

/-- The place after the next character, which is no line break. -/
def next (c : Cursor) : Cursor := c.skip 1

/-- The place after a line break. A carriage return and a line feed are one break. -/
def nextLine (c : Cursor) : Cursor :=
  let n := if c.head = '\r' && c.second = '\n' then 2 else 1
  { rest := c.rest.drop n, index := c.index + n, line := c.line + 1, column := 0 }

/-- The place after all next characters of a kind, which has no line breaks. -/
def skipWhile (c : Cursor) (p : Char → Bool) : Cursor := c.skip (c.rest.takeWhile p).length

/-- Whether a mark of three characters stands here, at the beginning of a line. -/
def isAtMark (c : Cursor) (mark : List Char) : Bool :=
  c.column = 0 && c.rest.take 3 = mark && endsWord ((c.rest.drop 3).headD endMark)

/-- Whether the mark of the beginning or of the end of a document stands here. -/
def isAtDocumentMark (c : Cursor) : Bool :=
  c.isAtMark ['-', '-', '-'] || c.isAtMark ['.', '.', '.']

/-- Skips spaces, tabs if `tabs` says so, and a comment, which has to stand after white space.
Tells also whether there was a tab. -/
def skipToLineEnd (c : Cursor) (tabs : Bool) : Option (Cursor × Bool) :=
  let blanks := c.rest.takeWhile fun ch => ch = ' ' || (tabs && ch = '\t')
  let after := c.skip blanks.length
  if after.head = '#' then
    if blanks.isEmpty then none
    else some (after.skipWhile fun ch => !endsLine ch, blanks.contains '\t')
  else some (after, blanks.contains '\t')

end Cursor

/-! ## White space inside scalars -/

/-- White space met inside a scalar that may go on after it. -/
structure Gap where
  /-- Spaces and tabs before any line break. -/
  blanks : List Char := []
  /-- There was a line break. -/
  broken : Bool := false
  /-- The first line break counts as a space if no further one follows. -/
  folds : Bool := false
  /-- The number of line breaks after the first. -/
  lines : Nat := 0
deriving Repr, DecidableEq

namespace Gap

/-- One more space or tab. Those after a line break are indentation. -/
def blank (g : Gap) (c : Char) : Gap := if g.broken then g else { g with blanks := g.blanks ++ [c] }

/-- One more line break. -/
def lineBreak (g : Gap) : Gap :=
  if g.broken then { g with lines := g.lines + 1 }
  else { blanks := [], broken := true, folds := true, lines := 0 }

/-- What a gap contributes to a scalar that goes on. -/
def text (g : Gap) : List Char :=
  if !g.broken then g.blanks
  else if g.folds && g.lines = 0 then [' ']
  else List.replicate g.lines '\n'

end Gap

end ProductCatalog.Yaml
