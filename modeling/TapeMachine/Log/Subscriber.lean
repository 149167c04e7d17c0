import TapeMachine.Machine.Run

/-!
# Showing a log

What is shown of the records of a run is decided outside the machine. A `Filter` says which records
are shown and whether the run is introduced with them. A `Subscriber` reads settings as filters and
writes each record as a line, with a time at its head. The command takes its filter from a setting
if there is one that can be read, and from the setting `warn` otherwise. Nothing here is known of
how settings are read and what lines look like.
-/

namespace TapeMachine

/-- What decides on the records of a run. -/
structure Filter where
  introduces : Span → Bool
  admits : Span → Event → Bool

/-- A filter that looks at levels only. -/
structure Filter.ByLevel (f : Filter) (v : Verbosity) : Prop where
  admits_eq : ∀ span event, f.admits span event = v.admits event.level
  introduces_eq : ∀ span, f.introduces span = v.admits Span.level

/-- What reads settings and writes lines. The type is that of the times at the heads of lines. -/
structure Subscriber (τ : Type) where
  /-- The filter that a setting spells, if it can be read. -/
  filter? : String → Option Filter
  /-- The filter that a setting spells when what cannot be read of it is passed over. -/
  filter : String → Filter
  /-- The line of a record, with the introduction of a run or without. -/
  line : τ → Option Span → Event → String

variable {τ : Type}

/-- The filter under a setting of the environment, which may be absent. -/
def Subscriber.filterUnder (s : Subscriber τ) (setting : Option String) : Filter :=
  (setting.bind s.filter?).getD (s.filter "warn")

namespace Report

/-- The lines of the records that are shown, in order. The clock has the time of each record by its
number in the run. -/
def lines (s : Subscriber τ) (setting : Option String) (clock : Nat → τ) (r : Report) :
    List String :=
  let filter := s.filterUnder setting
  let introduction := if filter.introduces r.span then some r.span else none
  (r.events.zipIdx.filter fun record => filter.admits r.span record.1).map fun record =>
    s.line (clock record.2) introduction record.1

def log (s : Subscriber τ) (setting : Option String) (clock : Nat → τ) (r : Report) : String :=
  String.join (r.lines s setting clock)

end Report

end TapeMachine
