import LogSieve.Delivery
import LogSieve.Text.Quotation
/-!
# Events

What the library tells about its work. Every event has a level and is about one part of
the program, and it is written as one line.
-/
namespace LogSieve

inductive Level where
  | error
  | warn
  | info
  | debug
deriving DecidableEq, Repr

namespace Level

/-- The number of a level in the order of gravity. -/
def rank : Level → Nat
  | error => 1
  | warn => 2
  | info => 3
  | debug => 4

/-- The name of a level, as wide as the widest. -/
def label : Level → String
  | error => "ERROR"
  | warn => " WARN"
  | info => " INFO"
  | debug => "DEBUG"

end Level

inductive Event where
  /-- A configuration file is about to be read. -/
  | loading (path : String)
  /-- The configuration file made a policy. -/
  | loaded (policy : Policy)
  | delivered (delivery : Delivery)
  /-- Every line of a file of records was delivered. -/
  | fileDone (path : String) (records asText : Nat)
  /-- The configuration file that the environment names made no policy. -/
  | notLoaded (error : Error)

namespace Event

def level : Event → Level
  | loading _ | fileDone _ _ _ => .info
  | loaded _ | delivered _ => .debug
  | notLoaded _ => .warn

/-- The part of the program that an event is about. -/
def origin : Event → String
  | loading _ | loaded _ => "recnorm_core::config"
  | delivered _ => "recnorm_core::stage"
  | fileDone _ _ _ | notLoaded _ => "recnorm_rs"

def describeMax : Option Nat → String
  | none => "None"
  | some most => "Some(" ++ toString most ++ ")"

def message : Event → String
  | loading path => "loading normalizer config path=" ++ path
  | loaded policy =>
    "normalizer config resolved use_undefined=" ++ toString policy.gathers ++
      " keep_fields=" ++ toString policy.keep.length ++ " max_num_fields=" ++ describeMax policy.maxFields
  | delivered delivery =>
    "record normalized changed=" ++ toString delivery.changed ++
      " had_undefined=" ++ toString delivery.hasGathered ++
      " undefined_fields=" ++ toString delivery.gatheredFields ++ " encoded=" ++ toString delivery.becameText
  | fileDone path records asText =>
    "ndjson file normalized input=" ++ Text.quotation path ++
      " records=" ++ toString records ++ " encoded=" ++ toString asText
  | notLoaded error => "config preload failed error=" ++ error.message

def line (event : Event) : String := event.level.label ++ " " ++ event.origin ++ ": " ++ event.message

end Event

end LogSieve
