import ProductCatalog.Log.Line
import ProductCatalog.Service.Start

/-!
# The program

Both services are one program, and the name under which it is called tells
which of them it is. It takes its environment and the files that its
settings may come from as they are, and starts the service. It brings no
network along, so that what a service would do on a machine without one is
what it does: it says on the output what is asked for, in log lines what has
happened, and on the error output why it cannot go on.
-/

namespace ProductCatalog.Program

open Settings (Service Surroundings)

/-- The service that a program's name means. -/
def serviceOf (name : String) : Service :=
  if name = Start.program .notifications then .notifications else .products

/-- The bindings in the text in which a process finds its environment: names and values between
NUL characters. -/
def bindings (text : String) : List (String × String) :=
  (text.toList.splitOn '\x00').filterMap fun entry =>
    (Text.cutFirst? ['='] entry).map fun (name, value) =>
      (String.ofList name, String.ofList value)

/-- Paths of the files that a path may mean. -/
def candidates (path : String) : List String :=
  let path := Settings.normalPath path
  [path, path ++ ".yaml", path ++ ".yml"]

/-- A file with its text, if it can be read. -/
def readFile? (path : String) : IO (Option (String × String)) := do
  try
    return some (path, ← IO.FS.readFile path)
  catch _ =>
    return none

/-- The files among some paths. -/
def readFiles (paths : List String) : IO (List (String × String)) := do
  return (← paths.mapM readFile?).filterMap id

/-- What a service finds when it is called with given arguments. -/
def surroundings (arguments : List String) : IO Surroundings := do
  let text ← readFile? "/proc/self/environ"
  let env := bindings ((text.map (·.2)).getD "")
  let dotEnv ← readFiles [Settings.environmentFile]
  let full := Settings.fullEnvironment ⟨dotEnv, env⟩
  let given := [env, full].filterMap (Settings.DotEnv.valueOf? · Settings.fileVariable)
  let named := match CommandLine.read arguments none with
    | .ok path => path.toList
    | .error _ => []
  let paths := (Settings.defaultFile :: named ++ given).flatMap candidates
  return ⟨dotEnv ++ (← readFiles paths), env⟩

/-- Starts the service that the program is called as, and ends with its status. -/
def run (arguments : List String) : IO UInt32 := do
  let name := (← IO.appPath).fileName.getD ""
  let around ← surroundings arguments
  let s := start (serviceOf name) .offline around arguments
  for signal in s.log.filterMap (Start.filterOf around.env).shown? do
    IO.println signal.line
  match s.outcome with
  | .answered text => IO.println text
  | .misused report => IO.eprintln report
  | .failed failure => IO.eprintln failure.report
  | .ready _ => pure ()
  return UInt32.ofNat (s.outcome.status?.getD 0)

end ProductCatalog.Program

/-- The program. -/
def main (arguments : List String) : IO UInt32 := ProductCatalog.Program.run arguments
