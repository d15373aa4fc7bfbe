import ProductCatalog.Yaml.Token.Lexer
import ProductCatalog.Yaml.Value

/-!
# Documents of a YAML text

A YAML text holds any number of documents, each of which is one value. A
value may be named by an anchor and repeated by an alias; a mapping must not
have a key twice.

The readers below follow the structure of values. Each takes the tokens that
are left and yields a value and the tokens after it; their fuel is bounded
by the number of tokens, because every reader but the outermost of a
chain of three takes one.

## Main definitions

* `readNode` — reads a value.
* `documents?` — the documents of a text, or nothing if it is malformed.
-/

namespace ProductCatalog.Yaml

/-- What is left to read of a document, and the names met so far. -/
structure Reading where
  tokens : List Token
  /-- The number that each anchor name has, the latest first. -/
  names : List (List Char × Nat) := []
  /-- The values of the anchors whose values are complete. -/
  values : List (Nat × Value) := []
  /-- The meanings of tag handles. -/
  handles : List (List Char × List Char) := []

namespace Reading

/-- The next token. -/
def head (r : Reading) : Token := r.tokens.headD .streamEnd

/-- The tokens after the next one. -/
def next (r : Reading) : Reading := { r with tokens := r.tokens.drop 1 }

/-- Gives a name a number of its own. -/
def register (r : Reading) (name : List Char) : Nat × Reading :=
  let n := r.names.length + 1
  (n, { r with names := (name, n) :: r.names })

/-- Completes the value of an anchor, if there is one. -/
def complete (r : Reading) (anchor : Option Nat) (v : Value) : Reading :=
  match anchor with
  | some n => { r with values := (n, v) :: r.values }
  | none => r

/-- The value that an alias repeats. One that stands inside its own value repeats nothing. -/
def aliased? (r : Reading) (name : List Char) : Option Value :=
  (r.names.find? (·.1 = name)).map fun (_, n) =>
    ((r.values.find? (·.1 = n)).map (·.2)).getD .null

/-- The meaning of a tag handle. A handle with a name must have been declared. -/
def handleMeaning? (r : Reading) (handle : List Char) : Option (List Char) :=
  match r.handles.find? (·.1 = handle) with
  | some (_, meaning) => some meaning
  | none =>
    if handle = ['!', '!'] then some Value.standardTag
    else if 2 ≤ handle.length then none
    else some handle

/-- The anchor and the tag in front of a value, in either order, each at most once. -/
def properties? (r : Reading) :
    Option (Option Nat × Option (List Char × List Char) × Reading) :=
  match r.head with
  | .anchor name =>
    let (n, r) := r.next.register name
    match r.head with
    | .tag handle suffix =>
      (r.handleMeaning? handle).map fun meaning => (some n, some (meaning, suffix), r.next)
    | _ => some (some n, none, r)
  | .tag handle suffix =>
    match r.handleMeaning? handle with
    | none => none
    | some meaning =>
      let r := r.next
      match r.head with
      | .anchor name =>
        let (n, r) := r.next.register name
        some (some n, some (meaning, suffix), r)
      | _ => some (none, some (meaning, suffix), r)
  | _ => some (none, none, r)

end Reading

/-- The value of a scalar under a tag, if it has one. -/
def scalarValue (plain : Bool) (tag : Option (List Char × List Char)) (text : List Char) : Value :=
  if !plain then .text text
  else
    match tag with
    | some (meaning, suffix) => .ofTagged meaning suffix text
    | none => .ofPlain text

/-- A mapping with one more entry, whose key must be new. -/
def addEntry? (entries : List (Value × Value)) (key value : Value) :
    Option (List (Value × Value)) :=
  if entries.any (·.1 == key) then none else some (entries ++ [(key, value)])

mutual

/-- Reads a value. Block collections may begin only where `block` says so, and a sequence whose
dashes stand in the column of their key only where `level` does. -/
def readNode : (fuel : Nat) → (block level : Bool) → Reading → Option (Value × Reading)
  | 0, _, _, _ => none
  | fuel + 1, block, level, r =>
    match r.head with
    | .alias name => (r.aliased? name).map fun v => (v, r.next)
    | _ =>
      match r.properties? with
      | none => none
      | some (anchor, tag, r) =>
        let done (result : Option (Value × Reading)) : Option (Value × Reading) :=
          result.map fun (v, r) => (v, r.complete anchor v)
        match r.head with
        | .scalar plain text => done (some (scalarValue plain tag text, r.next))
        | .flowSequenceStart => done (readFlowSequence fuel true [] r.next)
        | .flowMappingStart => done (readFlowMapping fuel true [] r.next)
        | t =>
          if t = .blockEntry && level then done (readLevelSequence fuel [] r)
          else if t = .blockSequenceStart && block then done (readBlockSequence fuel [] r.next)
          else if t = .blockMappingStart && block then done (readBlockMapping fuel [] r.next)
          else if anchor.isSome || tag.isSome then done (some (scalarValue true tag [], r))
          else none

/-- Reads the entries of a block sequence up to its end. -/
def readBlockSequence : (fuel : Nat) → List Value → Reading → Option (Value × Reading)
  | 0, _, _ => none
  | fuel + 1, items, r =>
    match r.head with
    | .blockEnd => some (.list items, r.next)
    | .blockEntry =>
      let r := r.next
      if r.head = .blockEntry || r.head = .blockEnd then
        readBlockSequence fuel (items ++ [.null]) r
      else
        match readNode fuel true false r with
        | some (v, r) => readBlockSequence fuel (items ++ [v]) r
        | none => none
    | _ => none

/-- Reads the entries of a sequence whose dashes stand in the column of their key. -/
def readLevelSequence : (fuel : Nat) → List Value → Reading → Option (Value × Reading)
  | 0, _, _ => none
  | fuel + 1, items, r =>
    if r.head = .blockEntry then
      let r := r.next
      if [Token.blockEntry, .key, .value, .blockEnd].contains r.head then
        readLevelSequence fuel (items ++ [.null]) r
      else
        match readNode fuel true false r with
        | some (v, r) => readLevelSequence fuel (items ++ [v]) r
        | none => none
    else some (.list items, r)

/-- Reads the entries of a block mapping up to its end. -/
def readBlockMapping :
    (fuel : Nat) → List (Value × Value) → Reading → Option (Value × Reading)
  | 0, _, _ => none
  | fuel + 1, entries, r =>
    if r.head = .blockEnd then some (.mapping entries, r.next)
    else
      match readBlockPart fuel .key r with
      | none => none
      | some (key, r) =>
        match readBlockPart fuel .value r with
        | none => none
        | some (value, r) =>
          match addEntry? entries key value with
          | none => none
          | some entries => readBlockMapping fuel entries r

/-- Reads a key or a value of a block mapping behind its sign. A missing one is nothing, but a
missing key only in front of a value. -/
def readBlockPart : (fuel : Nat) → (sign : Token) → Reading → Option (Value × Reading)
  | 0, _, _ => none
  | fuel + 1, sign, r =>
    if r.head = sign then
      let r := r.next
      if [Token.key, .value, .blockEnd].contains r.head then some (.null, r)
      else readNode fuel true true r
    else if sign = .value || r.head = .value then some (.null, r)
    else none

/-- Reads the entries of a flow sequence up to its end. An entry with a key is a mapping of its
own. -/
def readFlowSequence :
    (fuel : Nat) → (first : Bool) → List Value → Reading → Option (Value × Reading)
  | 0, _, _, _ => none
  | fuel + 1, first, items, r =>
    if r.head = .flowSequenceEnd then some (.list items, r.next)
    else if !first && r.head ≠ .flowEntry then none
    else
      let r := if first then r else r.next
      if r.head = .flowSequenceEnd then some (.list items, r.next)
      else if r.head = .key || r.head = .value then
        match readFlowPart fuel .key r with
        | none => none
        | some (key, r) =>
          match readFlowPart fuel .value r with
          | none => none
          | some (value, r) =>
            readFlowSequence fuel false (items ++ [.mapping [(key, value)]]) r
      else
        match readNode fuel false false r with
        | some (v, r) => readFlowSequence fuel false (items ++ [v]) r
        | none => none

/-- Reads the entries of a flow mapping up to its end. An entry without a sign is a key. -/
def readFlowMapping :
    (fuel : Nat) → (first : Bool) → List (Value × Value) → Reading → Option (Value × Reading)
  | 0, _, _, _ => none
  | fuel + 1, first, entries, r =>
    if r.head = .flowMappingEnd then some (.mapping entries, r.next)
    else if !first && r.head ≠ .flowEntry then none
    else
      let r := if first then r else r.next
      if r.head = .flowMappingEnd then some (.mapping entries, r.next)
      else
        let part :=
          if r.head = .key || r.head = .value then
            match readFlowPart fuel .key r with
            | none => none
            | some (key, r) => (readFlowPart fuel .value r).map fun (value, r) => (key, value, r)
          else (readNode fuel false false r).map fun (key, r) => (key, .null, r)
        match part with
        | none => none
        | some (key, value, r) =>
          match addEntry? entries key value with
          | none => none
          | some entries => readFlowMapping fuel false entries r

/-- Reads a key or a value inside a flow collection behind its sign. A missing one is nothing. -/
def readFlowPart : (fuel : Nat) → (sign : Token) → Reading → Option (Value × Reading)
  | 0, _, _ => none
  | fuel + 1, sign, r =>
    if r.head = sign then
      let r := r.next
      if [Token.value, .flowEntry, .flowMappingEnd, .flowSequenceEnd].contains r.head then
        some (.null, r)
      else readNode fuel false false r
    else some (.null, r)

end

/-- Takes the directives in front of a document. -/
def takeDirectives : List Token → List (List Char × List Char) →
    List Token × List (List Char × List Char)
  | .directive :: rest, handles => takeDirectives rest handles
  | .tagDirective handle meaning :: rest, handles =>
    takeDirectives rest ((handle, meaning) :: handles)
  | tokens, handles => (tokens, handles)

/-- Whether a token stands outside of all documents. -/
def isBetweenDocuments : Token → Bool
  | .directive | .tagDirective .. | .documentStart | .documentEnd | .streamEnd => true
  | _ => false

/-- The value of the document that begins here. Without its mark a document may begin only where
`bare` says so, and without directives. -/
def readDocument (bare : Bool) (tokens : List Token) : Option (Value × Reading) :=
  let fuel := 4 * tokens.length + 4
  if bare && !isBetweenDocuments (tokens.headD .streamEnd) then
    readNode fuel true false { tokens }
  else
    match takeDirectives tokens [] with
    | (.documentStart :: rest, handles) =>
      let r : Reading := { tokens := rest, handles }
      if isBetweenDocuments r.head then some (.null, r) else readNode fuel true false r
    | _ => none

/-- Reads at most `fuel` documents. -/
def readDocuments : (fuel : Nat) → (bare : Bool) → List Token → Option (List Value)
  | 0, _, _ => none
  | fuel + 1, bare, tokens =>
    let tokens := tokens.dropWhile (· = .documentEnd)
    if tokens.headD .streamEnd = .streamEnd then some []
    else
      match readDocument bare tokens with
      | none => none
      | some (v, r) =>
        match r.head with
        | .documentEnd => (readDocuments fuel true r.next.tokens).map (v :: ·)
        | .directive | .tagDirective .. => none
        | _ => (readDocuments fuel false r.tokens).map (v :: ·)

/-- The documents of a text, or nothing if it is malformed. -/
def documents? (text : String) : Option (List Value) :=
  (Token.scan text.toList).bind fun tokens => readDocuments (tokens.length + 1) true tokens

end ProductCatalog.Yaml
