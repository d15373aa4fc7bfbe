/-!
# Reports of failures

A service that cannot go on says what it failed to do and why. The causes
are listed, each the cause of the one before it; they are numbered if there
are several, and a cause of several lines keeps to its column.
-/

namespace ProductCatalog

/-- What a service failed to do, and why: each cause is the cause of the one before it. -/
structure Failure where
  what : String
  causes : List String
deriving Repr, DecidableEq

namespace Failure

/-- Lines with something in front of the first one and something in front of the others. -/
def hanging (first other text : String) : String :=
  first ++ ("\n" ++ other).intercalate (text.splitOn "\n")

/-- A number at the end of five columns. -/
def numberColumn (n : Nat) : String := "".pushn ' ' (5 - (toString n).length) ++ toString n

/-- One of several causes. -/
def numberedCause (n : Nat) (cause : String) : String :=
  hanging (numberColumn n ++ ": ") "       " cause

/-- The list of the causes. -/
def causesText : List String → List String
  | [] => []
  | [cause] => ["", "Caused by:", hanging "    " "    " cause]
  | causes => "" :: "Caused by:" :: causes.mapIdx numberedCause

/-- The report of a failure. -/
def report (f : Failure) : String := "\n".intercalate (("Error: " ++ f.what) :: causesText f.causes)

end Failure

end ProductCatalog
