import ProductCatalog.Number.Binary64
import ProductCatalog.Text.Digits
import ProductCatalog.Yaml.Document

/-!
# Trees of settings

Settings come from several sources, each of which is a tree of tables, lists
and scalars. The trees are laid over one another: tables are merged entry by
entry, at all depths, and everything else takes the place of what was there
before. The names of entries do not depend on case.

A scalar or a list remembers the source that it came from. A table that has
been merged belongs to none.

## Main definitions

* `Value` — a tree.
* `Value.put` — lays a tree over the entry of a table.
* `Path`, `Value.set` — an entry at any depth, and how it is set.
* `Value.ofYaml?` — the tree of a YAML document.
-/

namespace ProductCatalog.Settings

/-- A scalar. -/
inductive Scalar
  | nothing
  | boolean (b : Bool)
  | integer (n : Int)
  | number (x : Binary64)
  | text (s : String)
deriving Repr, DecidableEq, Inhabited

/-- A tree of settings. -/
inductive Value
  | scalar (s : Scalar) (origin : Option String)
  | list (items : List Value) (origin : Option String)
  | table (entries : List (String × Value)) (origin : Option String)
deriving Repr, Inhabited

/-- The lower-case form of a name, as far as its letters can stand in the name of a setting: the
upper-case letters of ASCII, and the sign for kelvin, whose lower-case form is a `k`. -/
def lowerName (name : String) : String :=
  String.ofList (name.toList.map fun c => if c = '\u212a' then 'k' else c.toLower)

/-! ## Entries of a table -/

/-- The entry with a name. -/
def lookup (name : String) (entries : List (String × Value)) : Option Value :=
  (entries.find? (·.1 = name)).map (·.2)

/-- Entries in which the one with a name has a new value. -/
def replace (name : String) (v : Value) : List (String × Value) → List (String × Value)
  | [] => [(name, v)]
  | (other, old) :: rest =>
    if other = name then (name, v) :: rest else (other, old) :: replace name v rest

theorem lookup_replace_self (name : String) (v : Value) (entries : List (String × Value)) :
    lookup name (replace name v entries) = some v := by
  induction entries with
  | nil => simp [replace, lookup]
  | cons entry rest ih =>
    obtain ⟨other, old⟩ := entry
    by_cases h : other = name
    · simp [replace, lookup, h]
    · simpa [replace, lookup, h] using ih

theorem lookup_replace_of_ne {name other : String} (v : Value) (entries : List (String × Value))
    (h : other ≠ name) : lookup other (replace name v entries) = lookup other entries := by
  induction entries with
  | nil => simp [replace, lookup, Ne.symm h]
  | cons entry rest ih =>
    obtain ⟨key, old⟩ := entry
    by_cases hk : key = name
    · simp [replace, lookup, hk, Ne.symm h]
    · by_cases ho : key = other
      · simp [replace, lookup, ho, h]
      · simpa [replace, lookup, hk, ho] using ih

namespace Value

/-- A table without entries. -/
def empty : Value := .table [] none

/-- The entries of a table. Nothing else has any. -/
def entries : Value → List (String × Value)
  | .table entries _ => entries
  | _ => []

/-- The source that a table came from. Nothing else stays what it is when it gets an entry. -/
def tableOrigin : Value → Option String
  | .table _ origin => origin
  | _ => none

/-- The value under a name. -/
def get? (v : Value) (name : String) : Option Value := lookup name v.entries

/-- Gives an entry a value. -/
def withEntry (v : Value) (name : String) (new : Value) : Value :=
  .table (replace name new v.entries) v.tableOrigin

mutual

/-- Lays a tree over an entry. A table is merged into what is there; all else replaces it. -/
def put (name : String) (new : Value) (v : Value) : Value :=
  match new with
  | .table entries _ =>
    v.withEntry (lowerName name) (putAll entries ((v.get? (lowerName name)).getD empty))
  | new => v.withEntry (lowerName name) new

/-- Lays trees over entries, one after the other. -/
def putAll (entries : List (String × Value)) (v : Value) : Value :=
  match entries with
  | [] => v
  | (name, new) :: rest => putAll rest (put name new v)

end

end Value

/-! ## Paths -/

/-- A step from a value into one of its parts. -/
inductive Step
  | entry (name : String)
  /-- An item of a list. A negative number counts from the end. -/
  | item (index : Int)
deriving Repr, DecidableEq

/-- A place in a tree: an entry of the outermost table, and steps from there. -/
structure Path where
  head : String
  steps : List Step := []
deriving Repr, DecidableEq

namespace Path

/-- Whether a character can stand in a name inside a path. -/
def isNameChar (c : Char) : Bool := c.isAlphanum || c = '_' || c = '-' || c = ' '

/-- Reads steps, at most `fuel`: a point and a name, or an index in brackets. -/
def readSteps : (fuel : Nat) → List Char → Option (List Step)
  | _, [] => some []
  | 0, _ => none
  | fuel + 1, '.' :: rest =>
    let name := rest.takeWhile isNameChar
    if name.isEmpty then none
    else (readSteps fuel (rest.drop name.length)).map (.entry (String.ofList name) :: ·)
  | fuel + 1, '[' :: rest =>
    let digits := rest.takeWhile fun c => c.isDigit || c = '-'
    match rest.drop digits.length, Text.Digits.int64? digits with
    | ']' :: rest, some n => (readSteps fuel rest).map (.item n :: ·)
    | _, _ => none
  | _ + 1, _ => none

/-- The path that a name denotes. A name that is no path denotes the entry of that name. -/
def ofName (name : String) : Path :=
  let cs := name.toList
  let head := cs.takeWhile isNameChar
  match readSteps cs.length (cs.drop head.length) with
  | some steps => if head.isEmpty then ⟨name, []⟩ else ⟨String.ofList head, steps⟩
  | none => ⟨name, []⟩

end Path

namespace Value

/-- What stands where nothing has been set. -/
def nothing : Value := .scalar .nothing none

/-- The items of a list. Nothing else has any. -/
def items : Value → List Value
  | .list items _ => items
  | _ => []

/-- The source that a list came from. -/
def listOrigin : Value → Option String
  | .list _ origin => origin
  | _ => none

/-- Changes an item of a list, which grows if it is too short. -/
def alterItem (index : Int) (f : Value → Value) (v : Value) : Value :=
  let old := v.items
  let i := if 0 ≤ index then index.toNat else old.length - index.natAbs
  let grown := old ++ List.replicate (i + 1 - old.length) nothing
  .list (grown.modify i f) v.listOrigin

/-- Sets what the steps lead to. On the way tables and lists come into being where they are
missing. -/
def setAt (new : Value) : List Step → Value → Value
  | [], _ => new
  | [.entry name], v => put name new v
  | .entry name :: rest, v =>
    v.withEntry name (setAt new rest ((v.get? name).getD nothing))
  | .item index :: rest, v => v.alterItem index (setAt new rest)

/-- Sets the value at a path. -/
def set (v : Value) (path : Path) (new : Value) : Value :=
  setAt new (.entry path.head :: path.steps) v

/-! ## From YAML -/

/-- The name of an entry for a key of a YAML mapping: a text or a whole number. -/
def nameOfKey? : Yaml.Value → Option String
  | .text cs => some (String.ofList cs)
  | .integer n => some (String.ofList (Text.Digits.ofInt n))
  | _ => none

mutual

/-- The tree of a YAML value, unless it holds a number that is not finite, or a key that can be
no name. -/
def ofYaml? (origin : Option String) (v : Yaml.Value) : Option Value :=
  match v with
  | .null => some (.scalar .nothing origin)
  | .boolean b => some (.scalar (.boolean b) origin)
  | .integer n => some (.scalar (.integer n) origin)
  | .number cs => (Binary64.parse? cs).map fun x => .scalar (.number x) origin
  | .text cs => some (.scalar (.text (String.ofList cs)) origin)
  | .list items => (ofYamlItems? origin items).map (.list · origin)
  | .mapping entries => (ofYamlEntries? origin entries).map (.table · origin)

/-- The trees of the items of a list. -/
def ofYamlItems? (origin : Option String) (vs : List Yaml.Value) : Option (List Value) :=
  match vs with
  | [] => some []
  | v :: rest =>
    match ofYaml? origin v, ofYamlItems? origin rest with
    | some v, some rest => some (v :: rest)
    | _, _ => none

/-- The trees of the entries of a mapping. Of two keys with one name the later counts. -/
def ofYamlEntries? (origin : Option String) (es : List (Yaml.Value × Yaml.Value)) :
    Option (List (String × Value)) :=
  match es with
  | [] => some []
  | (key, v) :: rest =>
    match nameOfKey? key, ofYaml? origin v, ofYamlEntries? origin rest with
    | some name, some v, some rest =>
      some (if rest.any (·.1 = name) then rest else (name, v) :: rest)
    | _, _, _ => none

end

/-- The table of settings that a YAML text is: its only document, which has to be a mapping, or an
empty table if it has none. -/
def ofYamlText? (origin : Option String) (text : String) : Option (List (String × Value)) :=
  match Yaml.documents? text with
  | some [] => some []
  | some [.mapping entries] => ofYamlEntries? origin entries
  | _ => none

end Value

end ProductCatalog.Settings
