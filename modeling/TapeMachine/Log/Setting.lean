import TapeMachine.Log.Directive
import TapeMachine.Text.Alphanumeric
import TapeMachine.Text.Pattern
import TapeMachine.Text.Split

/-!
# Settings

A setting is a text that spells a filter: directives with commas between them. A directive is a
verbosity by itself, or up to three parts: a target, in brackets the name of a run with a field in
braces, and behind an equals sign a verbosity. A directive without a verbosity wants everything.

The parts of a directive are looked for in its text without the blanks at the ends, by position in
bytes, and are then taken from those positions of the text with the blanks. So blanks at the
beginning shift every part, and blanks at the end belong to the last one. A directive with a part
that would split a character cannot be read.
-/

namespace TapeMachine

/-- The value that a text asks for, if it is a value or an expression for values. Whatever is no
number below 2^64 is wanted of no number. -/
def WantedValue.ofText? (text : List Char) : Option WantedValue :=
  match Text.wordNumeral? text with
  | some n => some (number n)
  | none => if Text.isRealNumeral text || Text.isPattern text then some other else none

/-- The field that a text asks for: a name, and behind an equals sign a value. A second equals
sign and what is behind it is passed over. -/
def WantedField.ofText? (text : List Char) : Option WantedField :=
  match Text.split '=' text with
  | [] | [[]] => none
  | [name] => some ⟨String.ofList name, none⟩
  | name :: value :: _ =>
    (WantedValue.ofText? value).map fun value => ⟨String.ofList name, some value⟩

namespace Directive

/-- Which part of a directive is being read, and where it began. -/
inductive Part where
  | start
  | word
  | span (first : Nat)
  | field (first : Nat)
  | fieldEnd
  | spanEnd
  | verbosity (first : Nat)
  deriving DecidableEq

/-- Whether a directive without brackets may begin with the character. -/
def isInitial (c : Char) : Bool := c == '-' || c == ':' || c == '_' || Text.isAlphanumeric c

/-- End a directive with the part that is being read. -/
def finish? (text : List Char) (d : Directive) : Part → Option Directive
  | .word =>
    match Verbosity.ofText? text with
    | some verbosity => some { verbosity }
    | none => some { d with target := some (String.ofList text) }
  | .verbosity first =>
    match Text.dropBytes? first text with
    | none => none
    | some [] => some d
    | some word => (Verbosity.ofText? word).map fun verbosity => { d with verbosity }
  | .spanEnd => some d
  | _ => none

/-- Read the rest of a directive, which is at some position of the text without blanks. -/
def read? (text : List Char) (d : Directive) : Part → Nat → List Char → Option Directive
  | part, _, [] => d.finish? text part
  | .start, position, c :: rest =>
    let next := position + c.utf8Size
    if c = '[' then d.read? text (.span next) next rest
    else if isInitial c then d.read? text .word next rest
    else none
  | .word, position, c :: rest =>
    let next := position + c.utf8Size
    if c = '=' ∨ c = '[' then
      match Text.cut? 0 position text with
      | none => none
      | some target =>
        { d with target := some (String.ofList target) }.read? text
          (if c = '=' then .verbosity next else .span next) next rest
    else d.read? text .word next rest
  | .span first, position, c :: rest =>
    let next := position + c.utf8Size
    if c = ']' ∨ c = '\x7b' then
      match Text.cut? first position text with
      | none => none
      | some name =>
        let span := if c = '\x7b' ∧ first = position then none else some (String.ofList name)
        { d with span }.read? text (if c = ']' then .spanEnd else .field next) next rest
    else d.read? text (.span first) next rest
  | .field first, position, c :: rest =>
    let next := position + c.utf8Size
    if c = '\x7d' then
      match (Text.cut? first position text).bind WantedField.ofText? with
      | none => none
      | some field => { d with field := some field }.read? text .fieldEnd next rest
    else d.read? text (.field first) next rest
  | .fieldEnd, position, c :: rest =>
    if c = ']' then d.read? text .spanEnd (position + 1) rest else none
  | .spanEnd, position, c :: rest =>
    if c = '=' then d.read? text (.verbosity (position + 1)) (position + 1) rest else none
  | .verbosity first, position, c :: rest =>
    d.read? text (.verbosity first) (position + c.utf8Size) rest

/-- The directive that a text spells. -/
def ofText? (text : List Char) : Option Directive :=
  { verbosity := some .trace : Directive }.read? text .start 0 (Text.trim text)

/-- The texts of directives in a setting. Between two commas may be nothing. -/
def pieces (setting : String) : List (List Char) :=
  (Text.split ',' setting.toList).filter (· != [])

/-- The directives that a setting spells, if every text in it spells one. -/
def all? (setting : String) : Option (List Directive) := (pieces setting).mapM ofText?

end Directive

namespace DirectiveSet

/-- The set for what a setting spells. A setting without directives asks for `error`. -/
def ofSetting : List Directive → DirectiveSet
  | [] => ofVerbosity (some .error)
  | directives => ofList directives

end DirectiveSet

end TapeMachine
