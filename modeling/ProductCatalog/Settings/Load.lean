import ProductCatalog.Settings.Basic
import ProductCatalog.Settings.DotEnv

/-!
# Where settings come from

The settings of a service come from five sources, each of which may set any
of them; the last one that does counts.

1. The defaults.
2. The file `config` in the working directory, if there is one.
3. A file that is named on the command line, or else by the environment.
4. Environment variables whose names begin with `CATALOG__`: two
   underscores stand between a section and a setting.
5. Four environment variables with short names.

A file is meant by its name as it stands or with the ending `.yaml` or
`.yml` added, whichever exists first. Before all this the environment is
completed from the file `.env`.

## Main definitions

* `Surroundings` — the files and the environment that a service finds.
* `sources` — the sources, in order; `Source` — what one of them sets.
* `ServiceSettings.load` — the settings of a service.
-/

namespace ProductCatalog.Settings

open DotEnv (Environment valueOf?)

/-- What a service finds when it starts. -/
structure Surroundings where
  /-- Files by their paths from the working directory. -/
  files : List (String × String) := []
  env : Environment := []
deriving Repr, DecidableEq

/-- A setting made by a source: a place in the tree and what is put there. -/
abbrev Assignment := Path × Value

/-- What a source sets, in order. -/
abbrev Source := List Assignment

/-- Lays a source over a tree. -/
def applySource (root : Value) (s : Source) : Value :=
  s.foldl (fun root (path, v) => root.set path v) root

/-! ## Files -/

/-- A path without the parts that stay where they are. -/
def normalPath (path : String) : String :=
  let parts := (path.toList.splitOn '/').filter fun part => part ≠ ['.'] && part ≠ []
  String.ofList (['/'].intercalate parts)

/-- The file that a path means, and its own path. A path that begins at the root leads out of the
working directory. -/
def findFile? (s : Surroundings) (path : String) : Option (String × String) :=
  if path.toList.head? = some '/' then none
  else
    let path := normalPath path
    if path = "" then none
    else [path, path ++ ".yaml", path ++ ".yml"].firstM fun path => s.files.find? (·.1 = path)

/-- The source that the text of a file is. -/
def fileSource (origin : Option String) (text : String) : Except LoadFault Source :=
  match Value.ofYamlText? origin text with
  | some entries => .ok (entries.map fun (name, v) => (Path.ofName name, v))
  | none => .error .unreadable

/-- The path of the file that need not exist. -/
def defaultFile : String := "config"

/-- The source that the default file is. -/
def defaultSource (s : Surroundings) : Except LoadFault Source :=
  match findFile? s defaultFile with
  | some (origin, text) => fileSource (some origin) text
  | none => .ok []

/-- The source that a file with a given name is. -/
def namedSource (s : Surroundings) (path : String) : Except LoadFault Source :=
  match findFile? s path with
  | some (origin, text) => fileSource (some origin) text
  | none => .error (.missingFile path)

/-! ## The environment -/

/-- What begins the names of environment variables that set something. -/
def variableStart : String := "catalog__"

/-- The key that such a name denotes: a point stands for each two underscores. -/
def keyOfName : List Char → List Char
  | [] => []
  | '_' :: '_' :: rest => '.' :: keyOfName rest
  | c :: rest => c :: keyOfName rest

/-- The source that such variables are. -/
def environmentOrigin : String := "the environment"

/-- The scalar that the value of a variable looks like. -/
def guessScalar (text : String) : Scalar :=
  if lowerName text = "true" then .boolean true
  else if lowerName text = "false" then .boolean false
  else
    match Text.Digits.int64? text.toList with
    | some n => .integer n
    | none =>
      match Binary64.parse? text.toList with
      | some x => .number x
      | none => .text text

/-- The assignment that an environment variable makes. -/
def variableAssignment? (binding : String × String) : Option Assignment :=
  let name := (lowerName binding.1).toList
  if variableStart.toList.isPrefixOf name then
    let key := keyOfName (name.drop variableStart.length)
    some (Path.ofName (String.ofList key), .scalar (guessScalar binding.2) (some environmentOrigin))
  else none

/-- The source that an environment is. -/
def environmentSource (env : Environment) : Source := env.filterMap variableAssignment?

/-- The variables with short names and the settings that they make. -/
def shortNames : List (String × Path) := [
  ("HTTP_ADDRESS", ⟨"http", [.entry "listen_address"]⟩),
  ("SQS_URL", ⟨"broker", [.entry "queue_url"]⟩),
  ("SQS_REGION", ⟨"broker", [.entry "region"]⟩),
  ("DATABASE_URL", ⟨"postgres", [.entry "dsn"]⟩)]

/-- The source that the variables with short names are. An empty one sets nothing. -/
def shortSource (env : Environment) : Source :=
  shortNames.filterMap fun (name, path) =>
    match valueOf? env name with
    | some text => if text = "" then none else some (path, .scalar (.text text) none)
    | none => none

/-! ## All sources -/

/-- The variable that names a file. -/
def fileVariable : String := "CATALOG_CONFIG"

/-- The file that is read for environment variables. -/
def environmentFile : String := ".env"

/-- The environment, completed from its file. -/
def fullEnvironment (s : Surroundings) : Environment :=
  match s.files.find? (·.1 = environmentFile) with
  | some (_, text) => DotEnv.load s.env text
  | none => s.env

/-- All sources but the defaults, in order. A name for a file on the command line goes before one
in the environment. -/
def sources (s : Surroundings) (path : Option String) : Except LoadFault (List Source) := do
  let env := fullEnvironment s
  let first ← defaultSource s
  let second ← match path <|> valueOf? env fileVariable with
    | some path => namedSource s path
    | none => .ok []
  return [first, second, environmentSource env, shortSource env]

/-- The settings of a service. -/
def ServiceSettings.load (service : Service) (s : Surroundings) (path : Option String) :
    Except SettingsError ServiceSettings :=
  match sources s path with
  | .error fault => .error (.load fault)
  | .ok sources => ServiceSettings.check service (sources.foldl applySource Value.empty)

/-- The settings of a service in a YAML text that is the only source. -/
def ServiceSettings.ofYamlText (service : Service) (text : String) :
    Except SettingsError ServiceSettings :=
  match fileSource none text with
  | .error fault => .error (.load fault)
  | .ok source => ServiceSettings.check service (applySource Value.empty source)

end ProductCatalog.Settings
