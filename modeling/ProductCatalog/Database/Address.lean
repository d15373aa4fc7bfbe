import ProductCatalog.Text.Form
import ProductCatalog.Text.Quoted
import ProductCatalog.Text.SocketAddress
import ProductCatalog.Text.Split

/-!
# Addresses of databases

The address of a database is a URL: a scheme, which may be any, the user
and the password before an `@`, a host, a port, the name of the database as
the path, and parameters in the query. All but the scheme may be missing,
and parameters count more than the parts that say the same.

A text that is no URL is refused, and so is a parameter that has no
meaning; unknown parameters are passed over. Faults are looked for from
left to right, in the parts of the URL first and then in the parameters.

## Main definitions

* `Address.ofText` — the address that a text spells.
* `AddressFault` — why a text is refused.
-/

namespace ProductCatalog.Database

open Text

/-- Whether a connection is encrypted, and what is checked of the server. -/
inductive TlsMode
  | disable
  | allow
  | prefer
  | require
  | verifyAuthority
  | verifyHost
deriving Repr, DecidableEq

/-- The mode that a word names, in any case. -/
def TlsMode.ofText? (word : String) : Option TlsMode :=
  match String.ofList (word.toList.map Char.toLower) with
  | "disable" => some disable
  | "allow" => some allow
  | "prefer" => some prefer
  | "require" => some require
  | "verify-ca" => some verifyAuthority
  | "verify-full" => some verifyHost
  | _ => none

/-- Where a database is found and how. -/
structure Address where
  host : Option String := none
  port : Option Nat := none
  user : Option String := none
  password : Option String := none
  database : Option String := none
  tls : TlsMode := .prefer
deriving Repr, DecidableEq

/-- Why a text is no number of the width that is needed. -/
inductive NumberFault
  | empty
  | badDigit
  | tooLarge
deriving Repr, DecidableEq

/-- The sentence that reports why a text is no number. -/
def NumberFault.message : NumberFault → String
  | empty => "cannot parse integer from empty string"
  | badDigit => "invalid digit found in string"
  | tooLarge => "number too large to fit in target type"

/-- Reads a number of at most `bits` bits after an optional `+`. -/
def readNumber (bits : Nat) (text : String) : Except NumberFault Nat :=
  match text.toList with
  | [] => .error .empty
  | '+' :: [] => .error .badDigit
  | cs =>
    match Digits.unsigned? bits cs with
    | some n => .ok n
    | none =>
      let digits := match cs with
        | '+' :: ds => ds
        | ds => ds
      if digits.all Digits.isDigit then .error .tooLarge else .error .badDigit

/-- Why a text is no address. -/
inductive AddressFault
  /-- There is no scheme. -/
  | noScheme
  /-- There is a user or a port, but no host. -/
  | noHost
  | badHost
  | badIpv6
  | badPort
  /-- An encoded part is no text. -/
  | badText (fault : Utf8Fault)
  | unknownTlsMode (word : String)
  | badNumber (fault : NumberFault)
  /-- A host that must be given by number is not. -/
  | notIpAddress
deriving Repr, DecidableEq

/-- The sentences that report why a text is no address, each the cause of the one before it. -/
def AddressFault.causes : AddressFault → List String
  | noScheme => ["relative URL without a base"]
  | noHost => ["empty host"]
  | badHost => ["invalid domain character"]
  | badIpv6 => ["invalid IPv6 address"]
  | badPort => ["invalid port number"]
  | badText fault => [fault.message]
  | unknownTlsMode word =>
    let reason := "unknown value " ++ quoted word ++ " for \x60ssl_mode\x60"
    ["error with configuration: " ++ reason, reason]
  | badNumber fault => [fault.message]
  | notIpAddress => ["invalid IP address syntax"]

/-- The sentence that reports why a text is no address. -/
def AddressFault.message (fault : AddressFault) : String := fault.causes.headD ""

/-! ## Parts of a URL -/

/-- Characters that are left out of a URL wherever they stand. -/
def isSkipped (c : Char) : Bool := c = '\t' || c = '\n' || c = '\r'

/-- Characters that are left out at both ends of a URL. -/
def isPadding (c : Char) : Bool := c ≤ ' '

/-- The characters of a URL that count. -/
def significant (cs : List Char) : List Char :=
  let ended := ((cs.dropWhile isPadding).reverse.dropWhile isPadding).reverse
  ended.filter (!isSkipped ·)

/-- Characters of a scheme after its first one, which is a letter. -/
def isSchemeChar (c : Char) : Bool := c.isAlphanum || c = '+' || c = '-' || c = '.'

/-- The scheme of a URL in lower case and what follows it. -/
def scheme? (cs : List Char) : Option (List Char × List Char) :=
  match cs with
  | c :: _ =>
    if c.isAlpha then
      match cs.dropWhile isSchemeChar with
      | ':' :: rest => some ((cs.takeWhile isSchemeChar).map Char.toLower, rest)
      | _ => none
    else none
  | [] => none

/-- The schemes whose URLs always have a host. -/
def needsHost (scheme : List Char) : Bool :=
  ["http", "https", "ws", "wss", "ftp"].contains (String.ofList scheme)

/-- The part of a URL that may name user, password, host and port, if there is one, and what
follows it. -/
def authority? (scheme rest : List Char) : Option (List Char) × List Char :=
  let slashes (c : Char) : Bool := c = '/' || c = '\\'
  let ends (c : Char) : Bool :=
    c = '/' || c = '?' || c = '#' || (needsHost scheme && c = '\\')
  if needsHost scheme then
    let rest := rest.dropWhile slashes
    (some (rest.takeWhile (!ends ·)), rest.dropWhile (!ends ·))
  else
    match rest with
    | '/' :: '/' :: rest => (some (rest.takeWhile (!ends ·)), rest.dropWhile (!ends ·))
    | _ => (none, rest)

/-- Characters that no host has. -/
def isForbiddenInHost (c : Char) : Bool :=
  ['\x00', '\t', '\n', '\r', ' ', '#', '/', ':', '<', '>', '?', '@', '[', '\\', ']', '^',
    '|'].contains c

/-- Splits a host from the port behind it. -/
def hostAndPort (cs : List Char) : List Char × List Char :=
  match cs with
  | '[' :: _ =>
    let host := cs.takeWhile (· != ']')
    (host ++ (cs.drop host.length).take 1, cs.drop (host.length + 1))
  | _ => (cs.takeWhile (· != ':'), cs.dropWhile (· != ':'))

/-- Checks a host. -/
def checkHost (host : List Char) : Except AddressFault Unit :=
  match host with
  | '[' :: inner =>
    if inner.getLast? = some ']' && ipv6Address inner.dropLast = some [] then .ok ()
    else .error .badIpv6
  | _ => if host.any isForbiddenInHost then .error .badHost else .ok ()

/-- Reads a port behind a host. -/
def readPort (cs : List Char) : Except AddressFault (Option Nat) :=
  match cs with
  | [] | [':'] => .ok none
  | ':' :: digits =>
    match Digits.nat? digits with
    | some n => if n < 2 ^ 16 then .ok (some n) else .error .badPort
    | none => .error .badPort
  | _ => .error .badPort

/-- A text unless it is empty. -/
def nonEmpty (cs : List Char) : Option (List Char) := if cs.isEmpty then none else some cs

/-- The text that an encoded part stands for. -/
def readText (cs : List Char) : Except AddressFault String :=
  (percentText cs).mapError .badText

/-- The text that a part stands for, if it is not empty. -/
def readPart (cs : List Char) : Except AddressFault (Option String) :=
  (nonEmpty cs).mapM readText

/-- The parts of a URL, none of them decoded. -/
structure Parts where
  user : List Char := []
  password : Option (List Char) := none
  host : List Char := []
  port : Option Nat := none
  path : List Char := []
  query : List Char := []
deriving Repr, DecidableEq

/-- Takes a URL apart. -/
def Parts.ofText (text : String) : Except AddressFault Parts :=
  match scheme? (significant text.toList) with
  | none => .error .noScheme
  | some (scheme, rest) => do
    let (authority, rest) := authority? scheme rest
    let authority := authority.getD []
    let userInfo := authority.take (authority.length - (lastPart '@' authority).length)
    let (host, behind) := hostAndPort (lastPart '@' authority)
    if host.isEmpty && (needsHost scheme || !behind.isEmpty || !userInfo.dropLast.isEmpty) then
      throw .noHost
    checkHost host
    let port ← readPort behind
    let user := userInfo.dropLast.takeWhile (· != ':')
    let password := nonEmpty ((userInfo.dropLast.dropWhile (· != ':')).drop 1)
    let reference := rest.takeWhile (· != '#')
    return {
      user, password, host, port
      path := reference.takeWhile (· != '?')
      query := (reference.dropWhile (· != '?')).drop 1 }

/-! ## Parameters -/

/-- What a parameter says about an address. -/
def Address.withParameter (a : Address) (parameter : String × String) :
    Except AddressFault Address :=
  let (name, value) := parameter
  match name with
  | "sslmode" | "ssl-mode" =>
    match TlsMode.ofText? value with
    | some tls => .ok { a with tls }
    | none => .error (.unknownTlsMode value)
  | "statement-cache-capacity" => do
    let _ ← (readNumber 64 value).mapError AddressFault.badNumber
    return a
  | "host" => .ok { a with host := some value }
  | "hostaddr" =>
    if ipv4Address value.toList = some [] || ipv6Address value.toList = some [] then
      .ok { a with host := some value }
    else .error .notIpAddress
  | "port" => do
    let port ← (readNumber 16 value).mapError AddressFault.badNumber
    return { a with port := some port }
  | "dbname" => .ok { a with database := some value }
  | "user" => .ok { a with user := some value }
  | "password" => .ok { a with password := some value }
  | _ => .ok a

/-- The address that a text spells. -/
def Address.ofText (text : String) : Except AddressFault Address := do
  let parts ← Parts.ofText text
  let user ← readPart parts.user
  let password ← parts.password.mapM readText
  let database ← readPart (parts.path.dropWhile (· = '/'))
  let host := (nonEmpty parts.host).map String.ofList
  let plain : Address := { host, port := parts.port, user, password, database }
  (formPairs parts.query).foldlM Address.withParameter plain

end ProductCatalog.Database
