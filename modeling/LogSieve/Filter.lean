import LogSieve.Event
import LogSieve.Text.Blank
import LogSieve.Text.Segments
/-!
# Filters of events

A filter lets some events through. How a filter is written is no business of the library's:
a session is given a reader of it (`Session.startWith`). The reader here (`Filter.ofText?`) knows
directives with commas between them, each of them a level, the beginning of the origins that
it is about, or both with an equals sign between them; it knows none about spans, which this
program does not have. About an event decides the directive that says most of its origin.
-/
namespace LogSieve

/-- A choice of events. -/
structure Filter where
  passes : Event → Bool

/-- What a filter says about the events of which the origin begins in one way. -/
structure Directive where
  origin : List Char
  /-- The least grave level that is let through; none if nothing is. -/
  level : Option Level
deriving DecidableEq, Repr

namespace Directive

/-- The words for a level. No event is less grave than one of `debug`, so to trace is no more. -/
def levelWords : List (String × Option Level) :=
  [("off", none), ("0", none), ("error", some .error), ("1", some .error), ("warn", some .warn), ("2", some .warn),
    ("info", some .info), ("3", some .info), ("debug", some .debug), ("4", some .debug), ("trace", some .debug),
    ("5", some .debug)]

def levelOf? (word : List Char) : Option (Option Level) :=
  levelWords.lookup (String.ofList (word.map Char.toLower))

/-- The word can be the beginning of an origin. A bracket would begin a span. -/
def isOrigin : List Char → Bool
  | [] => false
  | c :: rest => (c.isAlphanum || c = '_' || c = ':' || c = '-') && rest.all (· ≠ '[')

/-- Reads a directive. Without a level it lets through all that it is about. -/
def ofText? (text : List Char) : Option Directive :=
  match Text.segments '=' text with
  | [word] =>
    match levelOf? word with
    | some level => some ⟨[], level⟩
    | none => if isOrigin word then some ⟨word, some .debug⟩ else none
  | [origin, word] =>
    if isOrigin origin then
      if word = [] then some ⟨origin, some .debug⟩ else (levelOf? word).map (⟨origin, ·⟩)
    else none
  | _ => none

/-- The directive is about the event. -/
def Concerns (directive : Directive) (event : Event) : Prop :=
  directive.origin.isPrefixOf event.origin.toList = true

instance (directive : Directive) (event : Event) : Decidable (directive.Concerns event) :=
  inferInstanceAs (Decidable (_ = _))

def admits (directive : Directive) (event : Event) : Bool :=
  match directive.level with
  | none => false
  | some level => event.level.rank ≤ level.rank

/-- The directive that decides about an event: of those that are about it the one that says most of its origin,
    and of several that say the same of it the last. -/
def decisive? (event : Event) : List Directive → Option Directive
  | [] => none
  | directive :: rest =>
    match decisive? event rest with
    | none => if directive.Concerns event then some directive else none
    | some other =>
      if directive.Concerns event ∧ other.origin.length < directive.origin.length then some directive else some other

end Directive

namespace Filter

/-- The events of a level and the graver ones. -/
def ofLevel (level : Level) : Filter := ⟨fun event => event.level.rank ≤ level.rank⟩

/-- An event that no directive is about is held back. -/
def ofDirectives (directives : List Directive) : Filter :=
  ⟨fun event => (Directive.decisive? event directives).any (·.admits event)⟩

/-- The filter of the directives in a text, if all of them can be read. -/
def ofText? (text : String) : Option Filter :=
  let words := ((Text.segments ',' text.toList).filter (· ≠ [])).map Text.trim
  (words.mapM Directive.ofText?).map ofDirectives

end Filter
end LogSieve
