/-!
# Media types

A request says by its media type what its body is. A media type is a type,
a slash, a subtype and any parameters; the last `+` of the subtype, unless
it stands first, splits off a suffix. Parameters must be well formed but
have no influence. Letters are compared without regard to case.

Main statement: `MediaType.isJson` holds of `application/json` and of
`application` types with the suffix `json`.
-/

namespace ProductCatalog.Http

/-- A media type without its parameters, in lower case. -/
structure MediaType where
  type : List Char
  subtype : List Char
  suffix : Option (List Char) := none
deriving Repr, DecidableEq

namespace MediaType

/-- The characters of which names and unquoted values are made. -/
def isToken (c : Char) : Bool :=
  c.isAlphanum ||
    ['!', '#', '$', '%', '&', '\'', '*', '+', '-', '.', '^', '_', '\x60', '|', '~'].contains c

/-- The characters that may stand in a quoted value. -/
def isQuotable (c : Char) : Bool := 31 < c.toNat && c.toNat != 127

/-- What is expected next among the parameters. -/
inductive Expect
  /-- A name; whether it may still be preceded by a space, and whether it has a character. -/
  | name (fresh : Bool) (seen : Bool)
  /-- A value; whether it has a character. -/
  | value (seen : Bool)
  /-- The rest of a quoted value; whether it has a character. -/
  | quotedValue (seen : Bool)
  /-- A semicolon, spaces or the end. -/
  | separator
deriving Repr, DecidableEq

/-- Whether parameters are well formed. -/
def wellFormed : Expect → List Char → Bool
  | .name _ _, [] => false
  | .name fresh seen, c :: rest =>
    if c = ' ' && fresh then wellFormed (.name true false) rest
    else if c = '=' && seen then wellFormed (.value false) rest
    else if isToken c then wellFormed (.name false true) rest
    else false
  | .value _, [] => true
  | .value seen, c :: rest =>
    if c = '"' && !seen then wellFormed (.quotedValue false) rest
    else if c = ';' && seen then rest.isEmpty || wellFormed (.name true false) rest
    else if isToken c then wellFormed (.value true) rest
    else false
  | .quotedValue _, [] => false
  | .quotedValue seen, c :: rest =>
    if c = '"' && seen then wellFormed .separator rest
    else if isQuotable c then wellFormed (.quotedValue true) rest
    else false
  | .separator, [] => true
  | .separator, c :: rest =>
    if c = ';' then rest.isEmpty || wellFormed (.name true false) rest
    else if c = ' ' then wellFormed .separator rest
    else false

/-- Splits a subtype at its last `+`, unless that stands first. -/
def splitSuffix (cs : List Char) : List Char × Option (List Char) :=
  let tail := (cs.reverse.takeWhile (· != '+')).reverse
  let head := cs.take (cs.length - tail.length - 1)
  if cs.contains '+' && !head.isEmpty then (head, some tail) else (cs, none)

/-- Reads a media type. -/
def parse? (text : String) : Option MediaType :=
  let cs := text.toList.map Char.toLower
  let type := cs.takeWhile isToken
  match cs.drop type.length with
  | '/' :: rest =>
    let sub := rest.takeWhile isToken
    let (subtype, suffix) := splitSuffix sub
    let result : MediaType := ⟨type, subtype, suffix⟩
    match rest.drop sub.length with
    | [] => if type.isEmpty then none else some result
    | ';' :: params =>
      if !type.isEmpty && !sub.isEmpty && wellFormed (.name true false) params then some result
      else none
    | _ => none
  | _ => none

/-- Whether a body of this type is JSON. -/
def isJson (m : MediaType) : Bool :=
  m.type = "application".toList &&
    (m.subtype = "json".toList || m.suffix = some "json".toList)

end MediaType

end ProductCatalog.Http
