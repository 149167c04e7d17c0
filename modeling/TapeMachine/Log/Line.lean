import TapeMachine.Log.Setting

/-!
# Log lines

A line begins with a time, the level of the record in a column of five, and the introduction of the
run, if it is introduced. Then it says what the record says. With the directives of a setting for a
filter, this is how the command shows its log.
-/

namespace TapeMachine

/-- A time at the head of a line; there is no blank in it. -/
structure Stamp where
  text : String
  solid : ' ' ∉ text.toList

/-- No time at all. -/
def Stamp.none : Stamp := ⟨"", by decide⟩

def FieldValue.shown : FieldValue → String
  | number n => toString n
  | flag true => "true"
  | flag false => "false"
  | text s => s

/-- Fields as `name=value`, with blanks between them. -/
def showFields (fields : List Field) : String :=
  " ".intercalate (fields.map fun (name, value) => name ++ "=" ++ value.shown)

/-- The introduction at the head of a line. -/
def Span.shown (span : Span) : String :=
  Span.name ++ "\x7b" ++ showFields span.fields ++ "\x7d: "

/-- What a line says of a record, whatever run the record belongs to. -/
def Event.shown (event : Event) : String :=
  event.target ++ ": " ++ event.message ++ " " ++ showFields event.fields

/-- The blanks before the name of a level in a column of five. -/
def Level.indent (level : Level) : String :=
  String.ofList (List.replicate (5 - level.name.length) ' ')

/-- A line from the level on. -/
def Event.said (introduction : String) (event : Event) : String :=
  event.level.name ++ " " ++ introduction ++ event.shown ++ "\n"

def Event.line (stamp : Stamp) (introduction : Option Span) (event : Event) : String :=
  stamp.text ++ " " ++ event.level.indent ++ event.said (introduction.elim "" Span.shown)

/-- Shows a log by the directives in a setting. -/
def directiveSubscriber : Subscriber Stamp where
  filter? setting := (Directive.all? setting).map fun ds => (DirectiveSet.ofSetting ds).toFilter
  filter setting :=
    (DirectiveSet.ofSetting ((Directive.pieces setting).filterMap Directive.ofText?)).toFilter
  line := Event.line

end TapeMachine
