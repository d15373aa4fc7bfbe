import ProductCatalog.Log.Signal
import ProductCatalog.Number.Binary64.Parser
import ProductCatalog.Text.Blank
import ProductCatalog.Text.Split

/-!
# Log filters

A filter decides which signals are shown. It is a list of directives between
commas, each of which is a level, a target, or both with an equals sign
between them; a span in brackets may follow the target or take its place,
and after the name of the span there may be a field in braces, with a value
or without.

* `warn` — all signals from warnings on.
* `catalog::store=debug` — signals whose targets begin so, from `DEBUG` on.
* `[publish]=debug` — signals in spans of this name.
* `[{kind=Created}]` — signals in spans with this field.

A directive without a level lets everything through. Directives about spans
are *scoped*: inside the spans that they mean, the most permissive of them
holds. Of the others the most specific one that fits a signal decides: first
the longest target counts, then the number of fields. Of two directives
about the same the last one holds.

A text with anything that is no directive means nothing, and the filter
`info` takes its place.

## Main definitions

* `Directive.parse?` — the directive that a text spells.
* `LogFilter.ofText` — the filter that a text spells.
* `LogFilter.shown?` — a signal as the filter lets it through.
-/

namespace ProductCatalog

open Text

/-- The least important level that is let through; with none, nothing is. -/
abbrev Threshold := Option LogLevel

namespace Threshold

/-- The importance of a level. -/
def importance : LogLevel → Nat
  | .trace => 0
  | .debug => 1
  | .info => 2
  | .warn => 3
  | .error => 4

/-- How much is let through. -/
def permissiveness : Threshold → Nat
  | none => 0
  | some level => 5 - importance level

/-- Whether a level is let through. -/
def admits (t : Threshold) (level : LogLevel) : Bool :=
  5 - importance level ≤ permissiveness t

/-- The more permissive of two thresholds. -/
def max (a b : Threshold) : Threshold := if permissiveness a < permissiveness b then b else a

/-- The threshold that a word or a digit names. -/
def ofText? (word : List Char) : Option Threshold :=
  match Digits.unsigned? 64 word with
  | some 0 => some none
  | some 1 => some (some .error)
  | some 2 => some (some .warn)
  | some 3 => some (some .info)
  | some 4 => some (some .debug)
  | some 5 => some (some .trace)
  | _ =>
    match String.ofList (word.map Char.toLower) with
    | "off" => some none
    | "error" => some (some .error)
    | "warn" => some (some .warn)
    | "info" => some (some .info)
    | "debug" => some (some .debug)
    | "trace" => some (some .trace)
    | _ => none

end Threshold

/-! ## Directives -/

/-- A field that a span must have. -/
structure FieldTest where
  name : String
  /-- What its value must end with, if that matters. -/
  value : Option String := none
deriving Repr, DecidableEq

/-- One directive of a filter. -/
structure Directive where
  target : Option String := none
  /-- The name of the spans that are meant. -/
  span : Option String := none
  fields : List FieldTest := []
  threshold : Threshold := some .trace
deriving Repr, DecidableEq

namespace Directive

/-- The threshold after an equals sign; without a text everything is let through. -/
def thresholdOf? (text : List Char) : Option Threshold :=
  if text.isEmpty then some (some .trace) else Threshold.ofText? text

/-- Reads what follows a target or a span: nothing, or an equals sign and a level. -/
def readLevel (d : Directive) : List Char → Option Directive
  | [] => some d
  | '=' :: text => (thresholdOf? text).map fun threshold => { d with threshold }
  | _ => none

/-- The test for a field that a text spells. -/
def fieldTest (text : List Char) : FieldTest :=
  match text.splitOn '=' with
  | name :: value :: _ => ⟨String.ofList name, some (String.ofList value)⟩
  | _ => ⟨String.ofList text, none⟩

/-- Reads a span from behind its opening bracket. -/
def readSpan (d : Directive) (cs : List Char) : Option Directive :=
  let name := cs.takeWhile fun c => c != ']' && c != '\x7b'
  match cs.drop name.length with
  | ']' :: rest => readLevel { d with span := some (String.ofList name) } rest
  | '\x7b' :: rest =>
    let field := rest.takeWhile (· != '\x7d')
    match rest.drop field.length with
    | '\x7d' :: ']' :: rest =>
      if field.isEmpty then none
      else
        let span := if name.isEmpty then none else some (String.ofList name)
        readLevel { d with span, fields := [fieldTest field] } rest
    | _ => none
  | _ => none

/-- Whether a target may begin with a character. -/
def beginsTarget (c : Char) : Bool := c.isAlphanum || c = '-' || c = ':' || c = '_'

/-- The directive that a text spells. -/
def parse? (text : List Char) : Option Directive :=
  match text with
  | '[' :: rest => readSpan {} rest
  | c :: _ =>
    if !beginsTarget c || text.any isBlank then none
    else
      let word := text.takeWhile fun c => c != '=' && c != '['
      let target := some (String.ofList word)
      match text.drop word.length with
      | [] =>
        match Threshold.ofText? word with
        | some threshold => some { threshold }
        | none => some { target }
      | '[' :: rest => readSpan { target } rest
      | rest => readLevel { target } rest
  | [] => none

/-- Whether a directive is about spans. -/
def isScoped (d : Directive) : Bool := d.span.isSome || !d.fields.isEmpty

/-- Whether a directive is also about signals outside of spans, namely those with its fields. -/
def isGeneral (d : Directive) : Bool := d.span.isNone && d.fields.all (·.value.isNone)

/-- Whether two directives are about the same. -/
def sameScope (a b : Directive) : Bool :=
  a.target = b.target && a.span = b.span && a.fields = b.fields

/-- Whether a target begins as a directive says. -/
def fitsTarget (d : Directive) (target : String) : Bool :=
  match d.target with
  | some start => start.toList.isPrefixOf target.toList
  | none => true

/-- Whether a directive is about spans like this one, values apart. -/
def meansSpan (d : Directive) (s : Span) : Bool :=
  d.fitsTarget s.target && d.span.all (· = s.name) &&
    d.fields.all fun f => s.fields.any (·.1 = f.name)

/-- Whether the values of a span's fields are as a directive says. A value that reads as a number
or a truth value is never that of a text. -/
def fitsValues (d : Directive) (s : Span) : Bool :=
  d.fields.all fun f =>
    match f.value with
    | none => true
    | some value =>
      value ≠ "true" && value ≠ "false" && (Binary64.parse? value.toList).isNone &&
        s.fields.any fun (name, text) => name = f.name && value.toList.isSuffixOf text.toList

/-- The order of directives by how specific they are. -/
def compareSpecificity (a b : Directive) : Ordering :=
  (compare (a.target.map String.utf8ByteSize) (b.target.map String.utf8ByteSize)).then <|
    (compare a.fields.length b.fields.length).then <|
      (compare a.target b.target).then (compare (a.fields.map (·.name)) (b.fields.map (·.name)))

/-- The more specific of two directives. -/
def moreSpecific (a b : Directive) : Directive :=
  if (compareSpecificity a b).isLT then b else a

end Directive

/-! ## Filters -/

/-- A list of directives. -/
structure LogFilter where
  directives : List Directive
deriving Repr, DecidableEq

namespace LogFilter

/-- The filter that takes the place of a text that means nothing. -/
def standard : LogFilter := ⟨[{ threshold := some .info }]⟩

/-- The filter that a text spells. Without any directive, errors are let through. -/
def ofText (text : String) : LogFilter :=
  let parts := (text.toList.splitOn ',').filter (!·.isEmpty)
  match parts.mapM Directive.parse? with
  | some [] => ⟨[{ threshold := some .error }]⟩
  | some directives => ⟨directives⟩
  | none => standard

/-- Directives of which those that say what a later one says are left out. -/
def lastOfEach : List Directive → List Directive
  | [] => []
  | d :: rest => if rest.any d.sameScope then lastOfEach rest else d :: lastOfEach rest

/-- The directives about spans. -/
def onSpans (f : LogFilter) : List Directive := lastOfEach (f.directives.filter (·.isScoped))

/-- The directives about signals outside of spans. -/
def onSignals (f : LogFilter) : List Directive :=
  lastOfEach (f.directives.filter (!·.isScoped) ++
    f.directives.filter fun d => d.isScoped && d.isGeneral)

/-- The threshold that the most specific of some directives sets. -/
def mostSpecific (ds : List Directive) : Threshold :=
  match ds with
  | [] => none
  | d :: rest => (rest.foldl Directive.moreSpecific d).threshold

/-- The threshold for spans that are not meant by a scoped directive. -/
def spanThreshold (f : LogFilter) (s : Span) : Threshold :=
  mostSpecific (f.onSignals.filter (·.fitsTarget s.target))

/-- The threshold for signals outside of spans that are meant by a scoped directive. -/
def signalThreshold (f : LogFilter) (s : Signal) : Threshold :=
  mostSpecific (f.onSignals.filter fun d =>
    d.fitsTarget s.target && d.fields.all fun test => s.fields.any (·.1 = test.name))

/-- The most permissive of some thresholds. -/
def mostPermissive (ts : List Threshold) : Threshold := ts.foldl Threshold.max none

/-- The most that any directive lets through. Values are not known when a span begins, so a
directive about a value lets every span begin. -/
def ceiling (f : LogFilter) : Threshold :=
  if f.onSpans.any fun d => d.fields.any (·.value.isSome) then some .trace
  else mostPermissive (f.directives.map (·.threshold))

/-- Whether a span is noticed. -/
def noticesSpan (f : LogFilter) (s : Span) : Bool :=
  f.ceiling.admits s.level &&
    (f.onSpans.any (·.meansSpan s) || (f.spanThreshold s).admits s.level)

/-- The threshold that scoped directives set inside a span. -/
def insideThreshold (f : LogFilter) (s : Span) : Threshold :=
  mostPermissive ((f.onSpans.filter fun d => d.meansSpan s && d.fitsValues s).map (·.threshold))

/-- A signal as the filter lets it through, without a span that is not noticed; `none` if it does
not let it through at all. -/
def shown? (f : LogFilter) (s : Signal) : Option Signal :=
  let span := s.span.filter f.noticesSpan
  let inside := (span.map f.insideThreshold).getD none
  if inside.admits s.level || (f.signalThreshold s).admits s.level then some { s with span }
  else none

end LogFilter

end ProductCatalog
