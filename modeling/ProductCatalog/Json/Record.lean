import ProductCatalog.Json.Reader

/-!
# Records in JSON

A record is read from an object, whose members may come in any order, or
from an array, whose elements are the members in their declared order.
Unknown members of an object are passed over. A member given twice, or a
required one not given, is refused; an array may leave out members at its
end only if they are not required.

What is read is collected in a draft, a value of a type `σ` chosen by the
caller. Each `Member` says how it is named, whether a draft already has
it, and how it is read into a draft.

## Main definitions

* `readTextAs`, `readNatural`, `readListOf` — single values and lists.
* `Member`, `readRecord` — records.
-/

namespace ProductCatalog.Json

open Text

/-- Reads a string and interprets it. -/
def readTextAs {α : Type} (expected : String) (interpret : String → Except Cause α) :
    Reader α := fun bytes =>
  match skipBlanks bytes with
  | [] => failNext .endInValue []
  | b :: rest =>
    if b = 0x22 then do
      let (text, rest) ← readString rest
      match interpret text with
      | .ok value => pure (value, rest)
      | .error cause => failAt cause rest
    else wrongTypeHere expected (b :: rest)

/-- Reads a string. -/
def readText : Reader String := readTextAs "a string" .ok

/-- Reads a natural number below `2 ^ 64`. -/
def readNatural : Reader Nat := fun bytes =>
  let accept (n : Number) (rest : Bytes) : Except Fault (Nat × Bytes) :=
    match n with
    | .natural k => .ok (k, rest)
    | .negative k => failAt (.wrongValue (.integer k) "u64") rest
    | .float x => failAt (.wrongType (.float x) "u64") rest
  match skipBlanks bytes with
  | [] => failNext .endInValue []
  | b :: rest =>
    if b = 0x2D then do
      let (n, rest) ← readNumber false rest
      accept n rest
    else if isDigit b then do
      let (n, rest) ← readNumber true (b :: rest)
      accept n rest
    else wrongTypeHere "u64" (b :: rest)

/-! ## Brackets -/

/-- Where reading stands after an attempt to close a list. -/
def afterList (bytes : Bytes) : Bytes :=
  match skipBlanks bytes with
  | b :: rest => if b = 0x5D then rest else if b = 0x2C then skipBlanks rest else b :: rest
  | [] => []

/-- Closes a list. -/
def closeList (bytes : Bytes) : Except Fault Bytes :=
  match skipBlanks bytes with
  | [] => failNext .endInList []
  | b :: rest =>
    if b = 0x5D then .ok rest
    else if b = 0x2C then
      match skipBlanks rest with
      | c :: rest =>
        failNext (if c = 0x5D then .trailingComma else .trailingCharacters) (c :: rest)
      | [] => failNext .trailingCharacters []
    else failNext .trailingCharacters (b :: rest)

/-- Where reading stands after an attempt to close an object. -/
def afterObject (bytes : Bytes) : Bytes :=
  match skipBlanks bytes with
  | b :: rest => if b = 0x7D then rest else b :: rest
  | [] => []

/-- Closes an object. -/
def closeObject (bytes : Bytes) : Except Fault Bytes :=
  match skipBlanks bytes with
  | [] => failNext .endInObject []
  | b :: rest =>
    if b = 0x7D then .ok rest
    else if b = 0x2C then failNext .trailingComma (b :: rest)
    else failNext .trailingCharacters (b :: rest)

/-- Runs the closing of a bracket after its contents, placing floating faults behind it. -/
def enclosed {α : Type} (contents : Except Fault (α × Bytes)) (after : Bytes → Bytes)
    (close : Bytes → Except Fault Bytes) : Except Fault (α × Bytes) :=
  match contents with
  | .error fault => .error (fault.settle after)
  | .ok (value, rest) => (close rest).map fun rest => (value, rest)

/--
Goes to the next element of a list: `some` bytes where it begins, or `none`
at the end of the list, which stays unread.
-/
def nextElement (first : Bool) (bytes : Bytes) : Except Fault (Option Bytes × Bytes) :=
  match skipBlanks bytes with
  | [] => failNext .endInList []
  | b :: rest =>
    if b = 0x5D then .ok (none, b :: rest)
    else if first then .ok (some (b :: rest), b :: rest)
    else if b = 0x2C then
      match skipBlanks rest with
      | [] => failNext .endInValue []
      | c :: rest =>
        if c = 0x5D then failNext .trailingComma (c :: rest)
        else .ok (some (c :: rest), c :: rest)
    else failNext .expectedListCommaOrEnd (b :: rest)

/--
Goes to the next member of an object: `some` bytes after the opening quote
of its name, or `none` at the end of the object, which stays unread.
-/
def nextMember (first : Bool) (bytes : Bytes) : Except Fault (Option Bytes × Bytes) :=
  match skipBlanks bytes with
  | [] => failNext .endInObject []
  | b :: rest =>
    if b = 0x7D then .ok (none, b :: rest)
    else if first then
      if b = 0x22 then .ok (some rest, rest) else failNext .keyNotString (b :: rest)
    else if b = 0x2C then
      match skipBlanks rest with
      | [] => failNext .endInValue []
      | c :: rest =>
        if c = 0x22 then .ok (some rest, rest)
        else if c = 0x7D then failNext .trailingComma (c :: rest)
        else failNext .keyNotString (c :: rest)
    else failNext .expectedObjectCommaOrEnd (b :: rest)

/-- Passes over the colon between a name and its value. -/
def skipColon (bytes : Bytes) : Except Fault Bytes :=
  match skipBlanks bytes with
  | [] => failNext .endInObject []
  | b :: rest => if b = 0x3A then .ok rest else failNext .expectedColon (b :: rest)

/-! ## Lists -/

/-- Reads the elements of a list on top of those already read (last one first). -/
def readElements {α : Type} (element : Reader α) :
    (fuel : Nat) → (first : Bool) → (done : List α) → Reader (List α)
  | 0, _, _, bytes => failAt .endInList bytes
  | fuel + 1, first, done, bytes =>
    match nextElement first bytes with
    | .error fault => .error fault
    | .ok (none, rest) => .ok (done.reverse, rest)
    | .ok (some rest, _) =>
      match element rest with
      | .error fault => .error fault
      | .ok (value, rest) => readElements element fuel false (value :: done) rest

/-- Reads a list of any length. -/
def readListOf {α : Type} (element : Reader α) : Reader (List α) := fun bytes =>
  match skipBlanks bytes with
  | [] => failNext .endInValue []
  | b :: rest =>
    if b = 0x5B then
      enclosed (readElements element (rest.length + 1) true [] rest) afterList closeList
    else wrongTypeHere "a sequence" (b :: rest)

/-! ## Records -/

/-- One member of a record that is read into drafts of type `σ`. -/
structure Member (σ : Type) where
  name : String
  /-- Whether a record without this member is refused. -/
  required : Bool := true
  /-- Whether a draft already has the member. -/
  isSet : σ → Bool
  /-- Reads the member's value into a draft. -/
  read : σ → Reader σ

/-- Reads the members of an object into a draft, up to its end. -/
def readMembers {σ : Type} (members : List (Member σ)) :
    (fuel : Nat) → (first : Bool) → σ → Reader σ
  | 0, _, _, bytes => failAt .endInObject bytes
  | fuel + 1, first, draft, bytes =>
    match nextMember first bytes with
    | .error fault => .error fault
    | .ok (none, rest) => .ok (draft, rest)
    | .ok (some rest, _) =>
      match readString rest with
      | .error fault => .error fault
      | .ok (name, rest) =>
        match members.find? (·.name = name) with
        | none =>
          match skipColon rest >>= skipValue with
          | .error fault => .error fault
          | .ok rest => readMembers members fuel false draft rest
        | some member =>
          if member.isSet draft then failFloating (.duplicateField name) rest
          else
            match skipColon rest >>= member.read draft with
            | .error fault => .error fault
            | .ok (draft, rest) => readMembers members fuel false draft rest

/-- Refuses a draft that lacks a required member. -/
def checkComplete {σ : Type} (members : List (Member σ)) : Reader σ → Reader σ :=
  fun reader bytes => do
    let (draft, rest) ← reader bytes
    match members.find? fun m => m.required && !m.isSet draft with
    | some member => failFloating (.missingField member.name) rest
    | none => pure (draft, rest)

/-- Reads the members of a record from the elements of an array, up to the last member. -/
def readPositional {σ : Type} (expected : String) :
    (members : List (Member σ)) → (index : Nat) → (first : Bool) → σ → Reader σ
  | [], _, _, draft, bytes => .ok (draft, bytes)
  | member :: members, index, first, draft, bytes =>
    match nextElement first bytes with
    | .error fault => .error fault
    | .ok (none, rest) =>
      if member.required then failFloating (.wrongLength index expected) rest
      else readPositional expected members (index + 1) first draft rest
    | .ok (some rest, _) =>
      match member.read draft rest with
      | .error fault => .error fault
      | .ok (draft, rest) => readPositional expected members (index + 1) false draft rest

/-- Reads a record into a draft that is empty at first. -/
def readRecord {σ : Type} (expected : String) (members : List (Member σ)) (empty : σ) :
    Reader σ := fun bytes =>
  match skipBlanks bytes with
  | [] => failNext .endInValue []
  | b :: rest =>
    if b = 0x5B then
      let phrase := expected ++ s!" with {members.length} elements"
      enclosed (readPositional phrase members 0 true empty rest) afterList closeList
    else if b = 0x7B then
      enclosed (checkComplete members (readMembers members (rest.length + 1) true empty) rest)
        afterObject closeObject
    else wrongTypeHere expected (b :: rest)

end ProductCatalog.Json
