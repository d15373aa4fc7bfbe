import ProductCatalog.Number.Shortest
import ProductCatalog.Text.Quoted
import ProductCatalog.Text.Utf8

/-!
# Why a JSON text is refused

A refusal has a cause and a place. The place is kept as the bytes that were
still unread when the cause was noticed, and becomes a line and a column
only when the message is written: the line counts from 1, and the column
is the number of bytes read on that line.

Causes of form (the text is no JSON, or ends too early) know their place
at once. Causes of content (a member of the wrong type, missing or given
twice) are noticed by whoever interprets the value, and are placed where
reading stands once the enclosing brackets have been closed; until then
they are *floating*.

## Main definitions

* `Cause`, `Cause.message`, `Cause.category` — the causes and their texts.
* `Fault` — a cause with the unread bytes.
* `Fault.settle` — gives a floating fault its place.
* `Fault.message` — the text of a fault in a given source.
-/

namespace ProductCatalog.Json

open Text

/-- What was found in the place of something else. -/
inductive Found
  | null
  | boolean (value : Bool)
  | integer (value : Int)
  | float (value : Binary64)
  | text (value : String)
  | sequence
  | map
deriving Repr, DecidableEq

/-- How a message names what was found. -/
def Found.message : Found → String
  | null => "null"
  | boolean b => "boolean \x60" ++ (if b then "true" else "false") ++ "\x60"
  | integer n => "integer \x60" ++ String.ofList (Digits.ofInt n) ++ "\x60"
  | float x => "floating point \x60" ++ Binary64.Shortest.json x ++ "\x60"
  | text s => "string " ++ quoted s
  | sequence => "sequence"
  | map => "map"

/-- Why a JSON text is refused. -/
inductive Cause
  | endInList
  | endInObject
  | endInString
  | endInValue
  | expectedColon
  | expectedListCommaOrEnd
  | expectedObjectCommaOrEnd
  | expectedIdent
  | expectedValue
  | invalidEscape
  | invalidNumber
  | numberOutOfRange
  | invalidCodePoint
  | controlCharacter
  | keyNotString
  | loneSurrogate
  | trailingComma
  | trailingCharacters
  | unfinishedEscape
  /-- A value of another type than expected. -/
  | wrongType (found : Found) (expected : String)
  /-- A value of the right type that is not acceptable. -/
  | wrongValue (found : Found) (expected : String)
  /-- An array that stands for a record and ends before its members do. -/
  | wrongLength (found : Nat) (expected : String)
  | missingField (name : String)
  | duplicateField (name : String)
  /-- A string that its reader refuses. -/
  | refused (reason : String)
deriving Repr, DecidableEq

/-- The three kinds of refusal: the text ends too early, is no JSON, or has the wrong content. -/
inductive Category
  | unfinished
  | malformed
  | content
deriving Repr, DecidableEq

/-- The kind of a cause. -/
def Cause.category : Cause → Category
  | endInList | endInObject | endInString | endInValue => .unfinished
  | wrongType .. | wrongValue .. | wrongLength .. | missingField _ | duplicateField _
  | refused _ => .content
  | _ => .malformed

/-- The text of a cause. -/
def Cause.message : Cause → String
  | endInList => "EOF while parsing a list"
  | endInObject => "EOF while parsing an object"
  | endInString => "EOF while parsing a string"
  | endInValue => "EOF while parsing a value"
  | expectedColon => "expected \x60:\x60"
  | expectedListCommaOrEnd => "expected \x60,\x60 or \x60]\x60"
  | expectedObjectCommaOrEnd => "expected \x60,\x60 or \x60\x7d\x60"
  | expectedIdent => "expected ident"
  | expectedValue => "expected value"
  | invalidEscape => "invalid escape"
  | invalidNumber => "invalid number"
  | numberOutOfRange => "number out of range"
  | invalidCodePoint => "invalid unicode code point"
  | controlCharacter => "control character (\\u0000-\\u001F) found while parsing a string"
  | keyNotString => "key must be a string"
  | loneSurrogate => "lone leading surrogate in hex escape"
  | trailingComma => "trailing comma"
  | trailingCharacters => "trailing characters"
  | unfinishedEscape => "unexpected end of hex escape"
  | wrongType found expected => "invalid type: " ++ found.message ++ ", expected " ++ expected
  | wrongValue found expected => "invalid value: " ++ found.message ++ ", expected " ++ expected
  | wrongLength n expected => s!"invalid length {n}, expected " ++ expected
  | missingField name => "missing field \x60" ++ name ++ "\x60"
  | duplicateField name => "duplicate field \x60" ++ name ++ "\x60"
  | refused reason => reason

/-- A cause together with the bytes unread when it was noticed. -/
structure Fault where
  cause : Cause
  rest : Bytes
  /-- The place is not yet final. -/
  floating : Bool := false
deriving Repr, DecidableEq

/-- A fault at the place reading has reached. -/
def failAt {α : Type} (cause : Cause) (rest : Bytes) : Except Fault α :=
  .error ⟨cause, rest, false⟩

/-- A fault at the next byte, which counts as read; at the end, the fault is at the end. -/
def failNext {α : Type} (cause : Cause) (rest : Bytes) : Except Fault α :=
  .error ⟨cause, rest.drop 1, false⟩

/-- A fault of content, to be placed later. -/
def failFloating {α : Type} (cause : Cause) (rest : Bytes) : Except Fault α :=
  .error ⟨cause, rest, true⟩

/-- Places a floating fault where reading stands after `move`; others stay where they are. -/
def Fault.settle (move : Bytes → Bytes) (fault : Fault) : Fault :=
  if fault.floating then ⟨fault.cause, move fault.rest, false⟩ else fault

/-- The line that reading has reached after some bytes, and the bytes read of that line. -/
def lineAndColumn (read : Bytes) : Nat × Nat :=
  read.foldl
    (fun (p : Nat × Nat) (b : UInt8) => if b = 0x0A then (p.1 + 1, 0) else (p.1, p.2 + 1)) (1, 0)

/-- The text of a fault met in `source`. -/
def Fault.message (source : Bytes) (fault : Fault) : String :=
  let (line, column) := lineAndColumn (source.take (source.length - fault.rest.length))
  fault.cause.message ++ s!" at line {line} column {column}"

end ProductCatalog.Json
