import ProductCatalog.Json.Fault

/-!
# Reading JSON values from bytes

A reader takes the unread bytes and returns a value with what is left, or
a fault. The readers here cover strings, numbers, literals, and the passing
over of values that nobody asked for. The latter keeps its open brackets
in a list, so that nesting may be as deep as the text is long.

Two differences between reading and passing over are deliberate. A string
that is read must be UTF-8 once its escapes are resolved, and its surrogate
escapes must come in pairs; a string that is passed over needs neither. A
number that is read must be within range, and one that is passed over only
well formed.

## Main definitions

* `Reader` — a function from unread bytes.
* `readString`, `readNumber`, `skipValue` — the readers.
* `wrongTypeHere` — the fault for a value of an unexpected type.
* `wholeText` — nothing but blanks may follow a value.
-/

namespace ProductCatalog.Json

open Text

/-- A function that reads a value from the front of the unread bytes. -/
abbrev Reader (α : Type) := Bytes → Except Fault (α × Bytes)

/-- The four blanks of JSON. -/
def isBlank (b : UInt8) : Bool := b = 0x20 || b = 0x0A || b = 0x09 || b = 0x0D

/-- Passes over blanks. -/
def skipBlanks (bytes : Bytes) : Bytes := bytes.dropWhile isBlank

/-- An ASCII digit. -/
def isDigit (b : UInt8) : Bool := 0x30 ≤ b && b ≤ 0x39

/-- The value of an ASCII digit. -/
def digitValue (b : UInt8) : Nat := b.toNat - 48

/-! ## Literals -/

/-- Passes over the rest of a literal. -/
def readIdent : (expected : Bytes) → Reader Unit
  | [], rest => .ok ((), rest)
  | _ :: _, [] => failAt .endInValue []
  | e :: expected, b :: rest =>
    if b = e then readIdent expected rest else failAt .expectedIdent rest

/-- `null` without its first letter. -/
def nullTail : Bytes := [0x75, 0x6C, 0x6C]

/-- `true` without its first letter. -/
def trueTail : Bytes := [0x72, 0x75, 0x65]

/-- `false` without its first letter. -/
def falseTail : Bytes := [0x61, 0x6C, 0x73, 0x65]

/-! ## Strings -/

/-- The value of a byte that is a hexadecimal digit. -/
def hexByte? (b : UInt8) : Option Nat := hexValue? (Char.ofNat b.toNat)

/-- Four hexadecimal digits. All four bytes are taken before any is looked at. -/
def readHex4 : Reader Nat
  | a :: b :: c :: d :: rest =>
    match hexByte? a, hexByte? b, hexByte? c, hexByte? d with
    | some w, some x, some y, some z => .ok (((w * 16 + x) * 16 + y) * 16 + z, rest)
    | _, _, _, _ => failAt .invalidEscape rest
  | _ => failAt .endInString []

/-- The character of a one-letter escape. -/
def simpleEscape? (b : UInt8) : Option Char :=
  if b = 0x22 then some '"'
  else if b = 0x5C then some '\\'
  else if b = 0x2F then some '/'
  else if b = 0x62 then some '\x08'
  else if b = 0x66 then some '\x0C'
  else if b = 0x6E then some '\n'
  else if b = 0x72 then some '\r'
  else if b = 0x74 then some '\t'
  else none

/-- Passes over an expected byte between the two halves of a surrogate pair. -/
def expectInPair (expected : UInt8) : Reader Unit
  | [] => failAt .endInString []
  | b :: rest => if b = expected then .ok ((), rest) else failAt .unfinishedEscape rest

/-- The character of a numeric escape whose mark has been read. -/
def readUnicodeEscape : Reader Char := fun bytes => do
  let (n, rest) ← readHex4 bytes
  if 0xDC00 ≤ n && n ≤ 0xDFFF then failAt .loneSurrogate rest
  else if n < 0xD800 || 0xDBFF < n then pure (Char.ofNat n, rest)
  else
    let ((), rest) ← expectInPair 0x5C rest
    let ((), rest) ← expectInPair 0x75 rest
    let (m, rest) ← readHex4 rest
    if m < 0xDC00 || 0xDFFF < m then failAt .loneSurrogate rest
    else pure (Char.ofNat (0x10000 + (n - 0xD800) * 1024 + (m - 0xDC00)), rest)

/-- The character of an escape whose backslash has been read. -/
def readEscape : Reader Char
  | [] => failAt .endInString []
  | b :: rest =>
    if b = 0x75 then readUnicodeEscape rest
    else match simpleEscape? b with
      | some c => .ok (c, rest)
      | none => failAt .invalidEscape rest

/--
The bytes of a string up to its closing quote, escapes resolved, on top of
those already read (last one first). Each round takes at least one byte.
-/
def readStringBody : (fuel : Nat) → (done : Bytes) → Reader Bytes
  | 0, _, rest => failAt .endInString rest
  | _ + 1, _, [] => failAt .endInString []
  | fuel + 1, done, b :: rest =>
    if b = 0x22 then .ok (done.reverse, rest)
    else if b = 0x5C then
      match readEscape rest with
      | .ok (c, rest) => readStringBody fuel ((String.utf8EncodeChar c).reverse ++ done) rest
      | .error e => .error e
    else if b < 0x20 then failAt .controlCharacter rest
    else readStringBody fuel (b :: done) rest

/-- What is unread of a string body once `count` bytes of its resolved form have been read. -/
def unreadAfter : (fuel : Nat) → (count : Nat) → Bytes → Bytes
  | 0, _, rest => rest
  | _ + 1, 0, rest => rest
  | _ + 1, _ + 1, [] => []
  | fuel + 1, count + 1, b :: rest =>
    if b = 0x5C then
      match readEscape rest with
      | .ok (c, rest) => unreadAfter fuel (count + 1 - c.utf8Size) rest
      | .error _ => rest
    else unreadAfter fuel count rest

/-- A string whose opening quote has been read. An ill-formed part is reported where it begins. -/
def readString : Reader String := fun bytes =>
  match readStringBody (bytes.length + 1) [] bytes with
  | .ok (body, rest) =>
    match decode body with
    | .ok text => .ok (text, rest)
    | .error fault =>
      failNext .invalidCodePoint (unreadAfter (bytes.length + 1) fault.validUpTo bytes)
  | .error e => .error e

/-- Passes over an escape whose backslash has been read. -/
def skipEscape : Reader Unit
  | [] => failAt .endInString []
  | b :: rest =>
    if b = 0x75 then (readHex4 rest).map fun (_, rest) => ((), rest)
    else match simpleEscape? b with
      | some _ => .ok ((), rest)
      | none => failAt .invalidEscape rest

/-- Passes over a string whose opening quote has been read. -/
def skipStringBody : (fuel : Nat) → Reader Unit
  | 0, rest => failAt .endInString rest
  | _ + 1, [] => failAt .endInString []
  | fuel + 1, b :: rest =>
    if b = 0x22 then .ok ((), rest)
    else if b = 0x5C then
      match skipEscape rest with
      | .ok ((), rest) => skipStringBody fuel rest
      | .error e => .error e
    else if b < 0x20 then failAt .controlCharacter (b :: rest)
    else skipStringBody fuel rest

/-- Passes over a string whose opening quote has been read. -/
def skipString : Reader Unit := fun bytes => skipStringBody (bytes.length + 1) bytes

/-! ## Numbers -/

/-- A number as it is held: exactly if it is whole and has 64 bits, else in floating point. -/
inductive Number
  | natural (value : Nat)
  | negative (value : Int)
  | float (value : Binary64)
deriving Repr, DecidableEq

/-- How a message names a number. -/
def Number.found : Number → Found
  | natural n => .integer n
  | negative n => .integer n
  | float x => .float x

/-- The least exponent a running count is held at. -/
def minPower : Int := -2147483648

/-- The greatest exponent a running count is held at. -/
def maxPower : Int := 2147483647

/-- The float `± significand · 10 ^ power`. -/
def finishFloat (positive : Bool) (significand : Nat) (power : Int) : Reader Number := fun rest =>
  match Binary64.scaleByPowerOfTen (Binary64.ofNat significand) power with
  | some x => .ok (.float (if positive then x else x.neg), rest)
  | none => failAt .numberOutOfRange rest

/-- Reads the digits of an exponent on top of those already read. -/
def readPowerDigits (positive : Bool) (significand : Nat) (start : Int) (up : Bool) :
    (power : Nat) → Reader Number
  | power, b :: rest =>
    if isDigit b then
      let next := power * 10 + digitValue b
      if maxPower < next then
        let rest := rest.dropWhile isDigit
        if significand != 0 && up then failAt .numberOutOfRange (rest)
        else .ok (.float (Binary64.zero (!positive)), rest)
      else readPowerDigits positive significand start up next rest
    else finish power (b :: rest)
  | power, [] => finish power []
where
  finish (power : Nat) : Reader Number :=
    let total := if up then start + power else start - power
    finishFloat positive significand (max minPower (min maxPower total))

/-- Reads an exponent whose letter has been read. -/
def readPower (positive : Bool) (significand : Nat) (start : Int) : Reader Number := fun bytes =>
  let (up, bytes) := match bytes with
    | 0x2B :: rest => (true, rest)
    | 0x2D :: rest => (false, rest)
    | rest => (true, rest)
  match bytes with
  | [] => failAt .endInValue []
  | b :: rest =>
    if isDigit b then readPowerDigits positive significand start up (digitValue b) rest
    else failAt .invalidNumber rest

/-- Reads what follows the digits of a float: an exponent or nothing. -/
def readPowerOrEnd (positive : Bool) (significand : Nat) (power : Int) : Reader Number
  | b :: rest =>
    if b = 0x65 || b = 0x45 then readPower positive significand power rest
    else finishFloat positive significand power (b :: rest)
  | [] => finishFloat positive significand power []

/--
Reads the places after a point that has been read. Places that no longer
fit 64 bits together with the digits before them are dropped.
-/
def readPlaces (positive : Bool) (start : Int) :
    (significand places : Nat) → Reader Number
  | significand, places, b :: rest =>
    if isDigit b then
      let next := significand * 10 + digitValue b
      if 2 ^ 64 ≤ next then
        readPowerOrEnd positive significand (start - places) (rest.dropWhile isDigit)
      else readPlaces positive start next (places + 1) rest
    else if places = 0 then failNext .invalidNumber (b :: rest)
    else readPowerOrEnd positive significand (start - places) (b :: rest)
  | significand, places, [] =>
    if places = 0 then failNext .endInValue [] else
      readPowerOrEnd positive significand (start - places) []

/-- Reads on in a number whose digits no longer fit 64 bits; further digits only count. -/
def readLong (positive : Bool) (significand : Nat) : (dropped : Nat) → Reader Number
  | dropped, b :: rest =>
    if isDigit b then readLong positive significand (dropped + 1) rest
    else if b = 0x2E then readPlaces positive dropped significand 0 rest
    else readPowerOrEnd positive significand dropped (b :: rest)
  | dropped, [] => finishFloat positive significand dropped []

/-- Reads what follows the digits of a number that fits 64 bits. -/
def readAfterDigits (positive : Bool) (significand : Nat) : Reader Number := fun bytes =>
  match bytes with
  | 0x2E :: rest => readPlaces positive 0 significand 0 rest
  | 0x65 :: rest => readPower positive significand 0 rest
  | 0x45 :: rest => readPower positive significand 0 rest
  | rest =>
    if positive then .ok (.natural significand, rest)
    else if significand = 0 || 2 ^ 63 < significand then
      .ok (.float (Binary64.ofNat significand).neg, rest)
    else .ok (.negative (-(significand : Int)), rest)

/-- Reads the digits of a number on top of those already read. -/
def readDigits (positive : Bool) : (significand : Nat) → Reader Number
  | significand, b :: rest =>
    if isDigit b then
      let next := significand * 10 + digitValue b
      if 2 ^ 64 ≤ next then readLong positive significand 1 rest
      else readDigits positive next rest
    else readAfterDigits positive significand (b :: rest)
  | significand, [] => readAfterDigits positive significand []

/-- Reads a number after its sign. A leading zero stands alone. -/
def readNumber (positive : Bool) : Reader Number
  | [] => failAt .endInValue []
  | b :: rest =>
    if b = 0x30 then
      match rest with
      | c :: _ =>
        if isDigit c then failNext .invalidNumber rest else readAfterDigits positive 0 rest
      | [] => readAfterDigits positive 0 []
    else if isDigit b then readDigits positive (digitValue b) rest
    else failAt .invalidNumber rest

/-- Passes over at least one digit. -/
def skipPlaces (bytes : Bytes) : Except Fault Bytes :=
  match bytes with
  | b :: rest =>
    if isDigit b then .ok (rest.dropWhile isDigit) else failNext .invalidNumber (b :: rest)
  | [] => failNext .invalidNumber []

/-- Passes over an exponent whose letter has been read. -/
def skipPower (bytes : Bytes) : Except Fault Bytes :=
  let bytes := match bytes with
    | 0x2B :: rest => rest
    | 0x2D :: rest => rest
    | rest => rest
  match bytes with
  | b :: rest => if isDigit b then .ok (rest.dropWhile isDigit) else failAt .invalidNumber rest
  | [] => failAt .invalidNumber []

/-- Passes over an exponent, if there is one. -/
def skipPowerOrEnd : Bytes → Except Fault Bytes
  | 0x65 :: rest => skipPower rest
  | 0x45 :: rest => skipPower rest
  | rest => .ok rest

/-- Passes over what follows the whole digits of a number. -/
def skipAfterDigits : Bytes → Except Fault Bytes
  | 0x2E :: rest => do skipPowerOrEnd (← skipPlaces rest)
  | rest => skipPowerOrEnd rest

/-- Passes over a number after its sign. -/
def skipNumber : Bytes → Except Fault Bytes
  | [] => failAt .invalidNumber []
  | b :: rest =>
    if b = 0x30 then
      match rest with
      | c :: _ => if isDigit c then failNext .invalidNumber rest else skipAfterDigits rest
      | [] => .ok []
    else if isDigit b then skipAfterDigits (rest.dropWhile isDigit)
    else failAt .invalidNumber rest

/-! ## Values that nobody asked for -/

/-- An open bracket. -/
inductive Bracket
  | list
  | object
deriving Repr, DecidableEq

/-- The byte that closes a bracket. -/
def Bracket.close : Bracket → UInt8
  | list => 0x5D
  | object => 0x7D

/-- The cause when the text ends inside a bracket. -/
def Bracket.unfinished : Bracket → Cause
  | list => .endInList
  | object => .endInObject

/-- The cause when neither a comma nor the closing byte follows a value. -/
def Bracket.unseparated : Bracket → Cause
  | list => .expectedListCommaOrEnd
  | object => .expectedObjectCommaOrEnd

/-- Passes over a value without brackets. -/
def skipScalar : Bytes → Except Fault Bytes
  | [] => failNext .endInValue []
  | b :: rest =>
    if b = 0x6E then (readIdent nullTail rest).map Prod.snd
    else if b = 0x74 then (readIdent trueTail rest).map Prod.snd
    else if b = 0x66 then (readIdent falseTail rest).map Prod.snd
    else if b = 0x2D then skipNumber rest
    else if isDigit b then skipNumber (b :: rest)
    else if b = 0x22 then (skipString rest).map Prod.snd
    else failNext .expectedValue (b :: rest)

/-- Passes over a member name and its colon; nothing is to be done for an element of a list. -/
def skipName : Bracket → Bytes → Except Fault Bytes
  | .list, bytes => .ok bytes
  | .object, bytes => do
    let rest ← match skipBlanks bytes with
      | [] => failNext .endInObject []
      | b :: rest => if b = 0x22 then pure rest else failNext .keyNotString (b :: rest)
    let ((), rest) ← skipString rest
    match skipBlanks rest with
    | [] => failNext .endInObject []
    | b :: rest => if b = 0x3A then pure rest else failNext .expectedColon (b :: rest)

/-- What may come next while a value is passed over. -/
inductive Next
  /-- A value. -/
  | value
  /-- The first entry of a bracket, or its end. -/
  | firstEntry
  /-- A comma with another entry, or the end of the bracket. -/
  | separator
deriving Repr, DecidableEq

/-- Passes over the rest of a value inside the open brackets, innermost first. -/
def skipFrom : (fuel : Nat) → Next → List Bracket → Bytes → Except Fault Bytes
  | 0, _, _, bytes => failAt .endInValue bytes
  | fuel + 1, .value, open_, bytes =>
    match skipBlanks bytes with
    | [] => failNext .endInValue []
    | b :: rest =>
      if b = 0x5B then skipFrom fuel .firstEntry (.list :: open_) rest
      else if b = 0x7B then skipFrom fuel .firstEntry (.object :: open_) rest
      else
        match skipScalar (b :: rest) with
        | .error e => .error e
        | .ok rest => skipFrom fuel .separator open_ rest
  | _ + 1, _, [], bytes => .ok bytes
  | fuel + 1, next, bracket :: outer, bytes =>
    match skipBlanks bytes with
    | [] => failNext bracket.unfinished []
    | b :: rest =>
      if b = bracket.close then skipFrom fuel .separator outer rest
      else if next = .separator then
        if b = 0x2C then
          match skipName bracket rest with
          | .error e => .error e
          | .ok rest => skipFrom fuel .value (bracket :: outer) rest
        else failNext bracket.unseparated (b :: rest)
      else
        match skipName bracket (b :: rest) with
        | .error e => .error e
        | .ok rest => skipFrom fuel .value (bracket :: outer) rest

/-- Passes over one value of any type. -/
def skipValue (bytes : Bytes) : Except Fault Bytes :=
  skipFrom (2 * bytes.length + 2) .value [] bytes

/-! ## Unexpected values and the end of the text -/

/--
The fault for a value of an unexpected type that begins at the next byte.
Literals, numbers and strings are read to say what was found, and a
mistake inside them is reported instead; brackets are only looked at.
-/
def wrongTypeHere {α : Type} (expected : String) (bytes : Bytes) : Except Fault α :=
  let mismatch (found : Found) (rest : Bytes) : Except Fault α :=
    failAt (.wrongType found expected) rest
  match bytes with
  | [] => failNext .expectedValue []
  | b :: rest =>
    if b = 0x6E then do
      let ((), rest) ← readIdent nullTail rest
      mismatch .null rest
    else if b = 0x74 then do
      let ((), rest) ← readIdent trueTail rest
      mismatch (.boolean true) rest
    else if b = 0x66 then do
      let ((), rest) ← readIdent falseTail rest
      mismatch (.boolean false) rest
    else if b = 0x2D then do
      let (n, rest) ← readNumber false rest
      mismatch n.found rest
    else if isDigit b then do
      let (n, rest) ← readNumber true (b :: rest)
      mismatch n.found rest
    else if b = 0x22 then do
      let (s, rest) ← readString rest
      mismatch (.text s) rest
    else if b = 0x5B then mismatch .sequence (b :: rest)
    else if b = 0x7B then mismatch .map (b :: rest)
    else failNext .expectedValue (b :: rest)

/-- Nothing but blanks may be left. -/
def wholeText {α : Type} (reader : Reader α) (bytes : Bytes) : Except Fault α := do
  let (value, rest) ← reader bytes
  match skipBlanks rest with
  | [] => pure value
  | b :: rest => failNext .trailingCharacters (b :: rest)

end ProductCatalog.Json
