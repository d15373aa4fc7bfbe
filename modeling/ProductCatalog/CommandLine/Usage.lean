import ProductCatalog.CommandLine

/-!
# What the command line says about itself

Whoever asks for help or for the version is told on the output. Whoever
gives a command line that is not followed is told why, and how the program
is used: with its option if that has been given already, and otherwise with
all there is.

## Main definitions

* `helpText`, `versionText` — what is told on request.
* `Refusal.report` — what is told about a refusal.
-/

namespace ProductCatalog.CommandLine

/-- The name and the version of the programs. -/
def versionText : String := "catalog-infra 0.1.0"

/-- The option as it is written. -/
def optionText : String := "--config <config>"

/-- How a program is used. -/
def usageText (program : String) (optionGiven : Bool) : String :=
  "USAGE:\n    " ++ program ++ " " ++ if optionGiven then optionText else "[OPTIONS]"

/-- The help for a program. -/
def helpText (program : String) : String :=
  "\n".intercalate [
    versionText,
    "Command line shared by both services",
    "",
    usageText program false,
    "",
    "FLAGS:",
    "    -h, --help       Prints help information",
    "    -V, --version    Prints version information",
    "",
    "OPTIONS:",
    "    -c, " ++ optionText ++ "    YAML configuration file layered over " ++
      "\x60config.yaml\x60 [env: CATALOG_CONFIG=]"]

/-- What is wrong with a command line that is refused. -/
def Refusal.reason : Refusal → String
  | unknownArgument argument _ =>
    "Found argument '" ++ argument ++
      "' which wasn't expected, or isn't valid in this context"
  | emptyValue =>
    "The argument '" ++ optionText ++ "' requires a value but none was supplied"
  | repeated =>
    "The argument '" ++ optionText ++
      "' was provided more than once, but cannot be used multiple times"
  | help => "help is asked for"
  | version => "the version is asked for"

/-- Whether the option has been given on a command line that is refused. -/
def Refusal.optionGiven : Refusal → Bool
  | unknownArgument _ given => given
  | emptyValue | repeated => true
  | help | version => false

/-- What is told about a command line that is refused. -/
def Refusal.report (program : String) (refusal : Refusal) : String :=
  "error: " ++ refusal.reason ++ "\n\n" ++ usageText program refusal.optionGiven ++
    "\n\nFor more information try --help"

end ProductCatalog.CommandLine
