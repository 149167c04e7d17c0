import TapeMachine.Log.Subscriber

/-!
# Directives

A filter may be spelled by directives. A directive may be restricted to a part of the machine, to a
run of some name, and to a field, perhaps with a value.

A directive that names no run and no value is *direct*: it speaks of single records. Of the direct
directives that a record concerns, the most specific one decides. A directive that names a run or
a field is *scoped*: it speaks of all records that belong to a run which it describes. A directive
with a field alone is both. A record is shown if either kind admits its level.
-/

namespace TapeMachine

/-- The value that a directive asks a field to have. -/
inductive WantedValue where
  | number (n : UInt64)
  /-- A value that no number is equal to. -/
  | other
  deriving DecidableEq

structure WantedField where
  name : String
  /-- The value, if any will not do. -/
  value : Option WantedValue
  deriving DecidableEq

/-- A rule about records. -/
structure Directive where
  verbosity : Verbosity
  /-- What the name of the part of the machine begins with. -/
  target : Option String := none
  /-- The name of the run that a record belongs to. -/
  span : Option String := none
  field : Option WantedField := none
  deriving DecidableEq

namespace Directive

def hasValue (d : Directive) : Bool := d.field.any (·.value.isSome)

/-- Whether the directive speaks of single records. -/
def isDirect (d : Directive) : Bool := d.span.isNone && !d.hasValue

/-- Whether the directive speaks of runs. -/
def isScoped (d : Directive) : Bool := d.span.isSome || d.field.isSome

/-- Whether the directive speaks of a part of the machine. -/
def concerns (d : Directive) (target : String) : Bool :=
  d.target.all fun start => start.toList.isPrefixOf target.toList

def concernsEvent (d : Directive) (event : Event) : Bool :=
  d.isDirect && d.concerns event.target && d.field.all fun f => event.fieldNames.contains f.name

/-- Whether the directive speaks of the introduction of a run directly. Its field is not asked
for. -/
def concernsSpan (d : Directive) : Bool := d.isDirect && d.concerns Span.target

/-- Whether the directive may speak of the records in a run, by the names that the run has. -/
def describes (d : Directive) (span : Span) : Bool :=
  d.isScoped && d.concerns Span.target && d.span.all (· == Span.name) &&
    d.field.all fun f => (span.fields.map Prod.fst).contains f.name

/-- Whether the run has the value that the directive asks for. -/
def holds (d : Directive) (span : Span) : Bool :=
  d.field.all fun f =>
    match f.value with
    | none => true
    | some (.number n) => span.fields.contains (f.name, .number n.toNat)
    | some .other => false

/-- Whether two directives speak of the same. -/
def sameSubject (d e : Directive) : Bool :=
  d.target == e.target && d.span == e.span && d.field == e.field

/-- How specific the target is: the longer, the more. -/
def targetRank (d : Directive) : Nat := d.target.elim 0 (·.length + 1)

/-- Whether the first of two directives decides where both are concerned. A longer target comes
first, then a field, then the field whose name is the greater. -/
def overrules (d e : Directive) : Bool :=
  if d.targetRank = e.targetRank then
    match d.field, e.field with
    | some f, some g => g.name < f.name
    | some _, none => true
    | none, _ => false
  else e.targetRank < d.targetRank

/-- The directives that no later one replaces: a later one does that speaks of the same. -/
def latest : List Directive → List Directive
  | [] => []
  | d :: ds => if ds.any d.sameSubject then latest ds else d :: latest ds

/-- The verbosity beyond which nothing is looked at. Where a value is asked for, everything is. -/
def ceiling (ds : List Directive) : Verbosity :=
  if ds.any hasValue then some .trace else ds.foldl (fun v d => v.join d.verbosity) none

end Directive

/-- What directives come to when they are taken together. -/
structure DirectiveSet where
  /-- The directives, no two of which speak of the same. -/
  directives : List Directive
  /-- The verbosity beyond which nothing is looked at. -/
  ceiling : Verbosity
  deriving DecidableEq

namespace DirectiveSet

/-- The set of some directives. Those that are replaced still count for the ceiling. -/
def ofList (ds : List Directive) : DirectiveSet := ⟨Directive.latest ds, Directive.ceiling ds⟩

def ofVerbosity (verbosity : Verbosity) : DirectiveSet := ofList [{ verbosity }]

/-- The directive that overrules the others. -/
def deciding? : List Directive → Option Directive
  | [] => none
  | d :: ds =>
    match deciding? ds with
    | some e => some (if d.overrules e then d else e)
    | none => some d

/-- The verbosity that the deciding one of some directives asks for. -/
def direct (ds : List Directive) : Verbosity := (deciding? ds).bind Directive.verbosity

def introduces (s : DirectiveSet) (span : Span) : Bool :=
  s.ceiling.admits Span.level &&
    (s.directives.any (·.describes span) ||
      (direct (s.directives.filter (·.concernsSpan))).admits Span.level)

/-- The verbosity for all records of a run, if it is introduced. -/
def scope (s : DirectiveSet) (span : Span) : Verbosity :=
  if s.introduces span then
    (s.directives.filter fun d => d.describes span && d.holds span).foldl
      (fun v d => v.join d.verbosity) none
  else none

def admits (s : DirectiveSet) (span : Span) (event : Event) : Bool :=
  (direct (s.directives.filter (·.concernsEvent event))).admits event.level ||
    (s.scope span).admits event.level

/-- The filter that the directives spell. -/
def toFilter (s : DirectiveSet) : Filter := ⟨s.introduces, s.admits⟩

variable {d : Directive} {span : Span}

/-- A single directive that speaks of a part of the machine, and of no run and no field, looks at
the level of what that part says. -/
theorem admits_singleton {event : Event} (hspan : d.span = none) (hfield : d.field = none)
    (htarget : d.concerns event.target = true) :
    (ofList [d]).admits span event = d.verbosity.admits event.level := by
  have hscope : (ofList [d]).scope span = none := by
    simp [ofList, Directive.latest, scope, Directive.describes, Directive.isScoped, hspan,
      hfield]
  have hnone : Verbosity.admits none event.level = false := by
    cases event <;> rfl
  rw [admits, hscope, hnone, Bool.or_false]
  simp [ofList, Directive.latest, Directive.concernsEvent, Directive.isDirect,
    Directive.hasValue, direct, deciding?, hspan, hfield, htarget]

theorem introduces_singleton (hspan : d.span = none) (hfield : d.field = none)
    (htarget : d.concerns Span.target = true) :
    (ofList [d]).introduces span = d.verbosity.admits Span.level := by
  have hceiling : (ofList [d]).ceiling.rank = d.verbosity.rank := by
    have h : (ofList [d]).ceiling = Verbosity.join none d.verbosity := by
      simp [ofList, Directive.ceiling, Directive.hasValue, hfield]
    rw [h, Verbosity.rank_join]
    exact Nat.zero_max _
  simp [introduces, Verbosity.admits, hceiling]
  simp [ofList, Directive.latest, Directive.describes, Directive.isScoped,
    Directive.concernsSpan, Directive.isDirect, Directive.hasValue, direct, deciding?, hspan,
    hfield, htarget]

end DirectiveSet

end TapeMachine
