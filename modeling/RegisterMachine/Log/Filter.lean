import RegisterMachine.Log

/-!
Contract: which records are shown.

A filter is a list of directives separated by commas. A directive is a level,
which holds for every source, or the start of a source name with a level. Of
the directives that match a source the one with the longest name decides, of
several with the same name the last one.

Owns: `Directive`, `Filter`, reading a filter, and the decision.
Does not own: the records (`Log`).
-/

namespace RegisterMachine.Log

/-- A threshold for the sources whose names begin with `scope`. -/
structure Directive where
  scope : List Char
  /-- The least urgent level that is shown, or none at all. -/
  threshold : Option Level
deriving DecidableEq, Repr

namespace Directive

def covers (directive : Directive) (source : Source) : Bool :=
  directive.scope.isPrefixOf source.name.toList

/-- The more specific of two directives, the second one on equal terms. -/
def moreSpecific (first second : Directive) : Directive :=
  if second.scope.length < first.scope.length then first else second

def shows (directive : Directive) (level : Level) : Bool :=
  match directive.threshold with
  | some threshold => decide (level.rank ≤ threshold.rank)
  | none => false

end Directive

structure Filter where
  directives : List Directive
deriving DecidableEq, Repr

namespace Filter

/-- The directive that decides about a source. -/
def deciding? (filter : Filter) (source : Source) : Option Directive :=
  match filter.directives.filter fun directive => directive.covers source with
  | [] => none
  | first :: rest => some (rest.foldl Directive.moreSpecific first)

def shows (filter : Filter) (event : Event) : Bool :=
  match filter.deciding? event.source with
  | some directive => directive.shows event.level
  | none => false

/-- The same threshold for every source. -/
def uniform (threshold : Level) : Filter := ⟨[⟨[], some threshold⟩]⟩

/-! ## Reading -/

/-- The pieces of a text between the occurrences of a separator. -/
def pieces (separator : Char) : List Char → List (List Char)
  | [] => [[]]
  | character :: rest =>
      if character = separator then
        [] :: pieces separator rest
      else
        match pieces separator rest with
        | [] => [[character]]
        | piece :: others => (character :: piece) :: others

/-- The text without blanks at its ends. -/
def trim (characters : List Char) : List Char :=
  ((characters.dropWhile Char.isWhitespace).reverse.dropWhile Char.isWhitespace).reverse

/-- The threshold of this name, in letters of either case. -/
def threshold? (name : List Char) : Option (Option Level) :=
  if name.map Char.toUpper = "OFF".toList then
    some none
  else
    (Level.all.find? fun level => decide (level.name.toList = name.map Char.toUpper)).map some

/-- The directive that a text writes. A scope without a level shows everything. -/
def readDirective? (text : List Char) : Option Directive :=
  match pieces '=' text with
  | [word] =>
      match threshold? word with
      | some threshold => some ⟨[], threshold⟩
      | none => some ⟨word, some .trace⟩
  | [scope, name] =>
      if trim name = [] then some ⟨scope, some .trace⟩
      else (threshold? (trim name)).map fun threshold => ⟨scope, threshold⟩
  | _ => none

/-- The filter that a text writes. Without any directive only errors are shown. -/
def read (text : String) : Filter :=
  let words := ((pieces ',' text.toList).map trim).filter fun word => !word.isEmpty
  match words.filterMap readDirective? with
  | [] => uniform .error
  | directives => ⟨directives⟩

/-- The filter that a user has asked for; without any wish, errors and warnings are shown. -/
def ofWish : Option String → Filter
  | some text => read text
  | none => uniform .warn

end Filter

end RegisterMachine.Log
