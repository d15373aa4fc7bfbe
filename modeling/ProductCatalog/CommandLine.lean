/-!
# The command line

Both services take one option, the path of a file with settings, in a short
and a long form, and the two flags for help and for the version. The value
of the option may be its own argument or follow in the same one, with or
without an equals sign. An argument that begins with a hyphen, other than a
hyphen alone, is never a value.

Arguments are read from left to right, and the first flag or unknown
argument ends the reading. Only then is the option looked at: a value that
never came is missing unless the environment supplies one, and the option
must not be given twice.

## Main definitions

* `CommandLine.read` — the path that a command line names.
* `CommandLine.Refusal` — why there is none.
-/

namespace ProductCatalog.CommandLine

/-- Why a command line is not followed. -/
inductive Refusal
  /-- An argument that has no meaning; the option may have been given before it. -/
  | unknownArgument (argument : String) (optionGiven : Bool)
  | emptyValue
  | repeated
  /-- Help is asked for. -/
  | help
  /-- The version is asked for. -/
  | version
deriving Repr, DecidableEq

/-- What has been read of a command line. -/
structure State where
  /-- Values of the option, in order. -/
  values : List String := []
  /-- Number of times that the option has been given. -/
  uses : Nat := 0
  /-- The latest argument is the option without its value. -/
  awaiting : Bool := false
deriving Repr, DecidableEq

/-- Whether an argument cannot be a value. -/
def isSwitch : List Char → Bool
  | '-' :: _ :: _ => true
  | _ => false

/-- Refuses an argument. -/
def State.refuse (s : State) (argument : String) : Refusal :=
  .unknownArgument argument (0 < s.uses)

/-- Gives the option a value. -/
def State.use (s : State) (value : List Char) : State :=
  { values := s.values ++ [String.ofList value], uses := s.uses + 1, awaiting := false }

/-- A value in the same argument as its option, without the equals signs in front of it. -/
def attached (value : List Char) : List Char := value.dropWhile (· = '=')

/-- Reads an argument that begins with two hyphens. -/
def readLong (s : State) (argument : String) : Except Refusal State :=
  let body := argument.toList.dropWhile (· = '-')
  let name := body.takeWhile (· ≠ '=')
  let rest := body.drop name.length
  match String.ofList name with
  | "config" =>
    if rest.isEmpty then .ok { s with uses := s.uses + 1, awaiting := true }
    else .ok (s.use (attached rest))
  | "help" => .error .help
  | "version" => .error .version
  | _ => .error (s.refuse (String.ofList ('-' :: '-' :: name)))

/-- Reads an argument that begins with one hyphen. -/
def readShort (s : State) : List Char → Except Refusal State
  | 'c' :: value =>
    if value.isEmpty then .ok { s with uses := s.uses + 1, awaiting := true }
    else .ok (s.use (attached value))
  | 'h' :: _ => .error .help
  | 'V' :: _ => .error .version
  | c :: _ => .error (s.refuse (String.ofList ['-', c]))
  | [] => .ok s

/-- Reads arguments. -/
def readAll (s : State) : List String → Except Refusal State
  | [] => .ok s
  | argument :: rest =>
    let cs := argument.toList
    if cs = ['-', '-'] then
      match rest with
      | [] => .ok s
      | first :: _ => .error (s.refuse first)
    else if isSwitch cs then do
      let s := { s with awaiting := false }
      let s ← if cs.take 2 = ['-', '-'] then readLong s argument else readShort s (cs.drop 1)
      readAll s rest
    else if s.awaiting then
      readAll { s with values := s.values ++ [argument], awaiting := false } rest
    else .error (s.refuse argument)

/-- The path that a command line names, when the environment supplies `env`. -/
def read (arguments : List String) (env : Option String) : Except Refusal (Option String) := do
  let s ← readAll {} arguments
  let values := if s.values.isEmpty then env.toList else s.values
  if s.awaiting && values.isEmpty then .error .emptyValue
  else if 1 < s.uses then .error .repeated
  else return values.head?

end ProductCatalog.CommandLine
