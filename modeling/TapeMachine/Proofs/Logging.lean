import TapeMachine.Command.Directory
import TapeMachine.Command.Response
import TapeMachine.Command.Scan
import TapeMachine.Proofs.Listing
import TapeMachine.Proofs.Setting

/-!
# The log does not interfere

Two runs of the command are compared that differ in their setting alone, and in the times at which
things happen. How settings are read and lines are written is a parameter, of which is assumed what
is documented: settings that ask for a verbosity filter by levels (`Subscriber.FiltersByLevel`), and
a line can be read without its time and the introduction of the run (`Subscriber.Legible`). The main
statement is `logging_does_not_interfere`. Lines as the command writes them can be read
(`directiveSubscriber_legible`), since there is no blank in a time and no brace in an introduction.
-/

namespace TapeMachine

variable {τ : Type}

/-- Lines of which one can tell how important their record is, and what is said of it, whatever the
time and whether or not the run is introduced. -/
structure Subscriber.Legible (s : Subscriber τ) (said : String → String)
    (level? : String → Option Level) : Prop where
  said_line : ∀ time time' introduction introduction' event,
    said (s.line time introduction event) = said (s.line time' introduction' event)
  level?_line : ∀ time introduction event,
    level? (s.line time introduction event) = some event.level

/-- Whether a line has a level that is wanted. -/
def lineAdmittedBy (level? : String → Option Level) (v : Verbosity) (line : String) : Bool :=
  (level? line).any v.admits

/-! ### The lines of a run -/

section Lines

variable {s : Subscriber τ} {setting quiet loud : Option String} {clock clock' : ℕ → τ}
  {v w : Verbosity} {said : String → String} {level? : String → Option Level}

namespace Report

/-- The records of a run with their numbers, as far as their levels are wanted. -/
def recordsUpTo (v : Verbosity) (r : Report) : List (Event × ℕ) :=
  r.events.zipIdx.filter fun record => v.admits record.1.level

/-- The line of a record, if the run is introduced wherever the verbosity asks for that. -/
def lineOf (s : Subscriber τ) (clock : ℕ → τ) (v : Verbosity) (r : Report)
    (record : Event × ℕ) : String :=
  s.line (clock record.2) (if v.admits Span.level then some r.span else none) record.1

lemma lines_eq (h : (s.filterUnder setting).ByLevel v) (r : Report) :
    r.lines s setting clock = (r.recordsUpTo v).map (r.lineOf s clock v) := by
  simp only [lines, recordsUpTo, h.admits_eq, h.introduces_eq]
  rfl

/-- What the less verbose one of two verbosities admits is admitted among what the other one
admits. -/
lemma filter_recordsUpTo (h : v.rank ≤ w.rank) (r : Report) :
    (r.recordsUpTo w).filter (fun record => v.admits record.1.level) = r.recordsUpTo v := by
  rw [recordsUpTo, List.filter_filter]
  apply List.filter_congr
  intro record _
  simp only [Verbosity.admits, Bool.and_eq_left_iff_imp, decide_eq_true_eq]
  exact fun hv => hv.trans h

lemma filter_lineAdmittedBy (hs : s.Legible said level?) (h : v.rank ≤ w.rank) (r : Report) :
    ((r.recordsUpTo w).map (r.lineOf s clock w)).filter (lineAdmittedBy level? v) =
      (r.recordsUpTo v).map (r.lineOf s clock w) := by
  rw [List.filter_map, ← filter_recordsUpTo h]
  congr 1
  apply List.filter_congr
  intro record _
  rw [Function.comp_apply, lineAdmittedBy, lineOf, hs.level?_line]
  rfl

lemma map_said_lines (hs : s.Legible said level?) (hquiet : (s.filterUnder quiet).ByLevel v)
    (hloud : (s.filterUnder loud).ByLevel w) (h : v.rank ≤ w.rank) (r : Report) :
    (r.lines s quiet clock).map said =
      ((r.lines s loud clock').filter (lineAdmittedBy level? v)).map said := by
  rw [lines_eq hquiet, lines_eq hloud, filter_lineAdmittedBy hs h, List.map_map, List.map_map]
  apply List.map_congr_left
  intro record _
  exact hs.said_line _ _ _ _ _

lemma lines_of_same_introduction (hs : s.Legible said level?)
    (hquiet : (s.filterUnder quiet).ByLevel v) (hloud : (s.filterUnder loud).ByLevel w)
    (h : v.rank ≤ w.rank) (hsame : v.admits Span.level = w.admits Span.level) (r : Report) :
    r.lines s quiet clock = (r.lines s loud clock).filter (lineAdmittedBy level? v) := by
  rw [lines_eq hquiet, lines_eq hloud, filter_lineAdmittedBy hs h]
  apply List.map_congr_left
  intro record _
  rw [lineOf, lineOf, hsame]

end Report

end Lines

/-! ### Lines that the command writes -/

/-- The level that a word is the name of. -/
def Level.ofName? (name : List Char) : Option Level :=
  [error, warn, info, debug, trace].find? fun level => level.name.toList == name

namespace LogLine

/-- What is behind the time and the blanks after it. -/
def behindStamp (line : List Char) : List Char :=
  (line.dropWhile (· != ' ')).dropWhile (· == ' ')

def level? (line : String) : Option Level :=
  Level.ofName? ((behindStamp line.toList).takeWhile (· != ' '))

/-- A line that begins with its level, without the introduction of a run. -/
def withoutSpan (line : List Char) : List Char :=
  let said := (line.dropWhile (· != ' ')).drop 1
  if "run\x7b".toList <+: said then
    line.takeWhile (· != ' ') ++ ' ' :: (said.dropWhile (· != '\x7d')).drop 3
  else line

/-- A line without its time and without the introduction of a run. -/
def said (line : String) : String := String.ofList (withoutSpan (behindStamp line.toList))

end LogLine

variable {c : Char} {level : Level} {event : Event} {introduction : String}

lemma Level.ofName?_name (level : Level) : Level.ofName? level.name.toList = some level := by
  cases level <;> decide

lemma Level.isUpper_of_mem_name (hc : c ∈ level.name.toList) : c.isUpper = true := by
  have hall : level.name.toList.all Char.isUpper = true := by cases level <;> decide
  exact List.all_eq_true.mp hall c hc

lemma Level.ne_blank_of_mem_name (hc : c ∈ level.name.toList) : (c != ' ') = true := by
  have hupper := isUpper_of_mem_name hc
  rw [bne_iff_ne]
  rintro rfl
  exact absurd hupper (by decide)

lemma not_mem_intercalate {separator : List Char} {pieces : List (List Char)}
    (hseparator : c ∉ separator) (h : ∀ piece ∈ pieces, c ∉ piece) :
    c ∉ separator.intercalate pieces := by
  induction pieces with
  | nil => simp
  | cons first rest ih =>
    have hfirst := h first List.mem_cons_self
    have hrest := ih fun piece hpiece => h piece (List.mem_cons_of_mem first hpiece)
    cases rest with
    | nil => simpa using hfirst
    | cons second rest =>
      rw [List.intercalate_cons_cons]
      simp only [List.mem_append, not_or]
      exact ⟨⟨hfirst, hseparator⟩, hrest⟩

lemma not_mem_showFields {fields : List Field} (hblank : c ≠ ' ') (hequals : c ≠ '=')
    (h : ∀ field ∈ fields, c ∉ field.1.toList ∧ c ∉ field.2.shown.toList) :
    c ∉ (showFields fields).toList := by
  rw [showFields, String.toList_intercalate]
  apply not_mem_intercalate
  · simpa using hblank
  · intro piece hpiece
    simp only [List.map_map, List.mem_map] at hpiece
    obtain ⟨field, hfield, rfl⟩ := hpiece
    obtain ⟨hname, hvalue⟩ := h field hfield
    simp [hname, hvalue, hequals]

lemma FieldValue.not_mem_number (h : c.isDigit = false) (n : Nat) :
    c ∉ (FieldValue.number n).shown.toList :=
  not_mem_numeral h n

lemma Span.not_mem_fields (hblank : c ≠ ' ') (hequals : c ≠ '=') (hword : c.isAlphanum = false)
    (span : Span) : c ∉ (showFields span.fields).toList := by
  have hname (name : String) (hname : name.toList.all Char.isAlphanum = true) :
      c ∉ name.toList := fun hc =>
    absurd (List.all_eq_true.mp hname c hc) (by simp [hword])
  have hdigit : c.isDigit = false := (Bool.or_eq_false_iff.mp hword).2
  apply not_mem_showFields hblank hequals
  intro field hfield
  simp only [fields, List.mem_cons, List.not_mem_nil, or_false] at hfield
  obtain rfl | rfl := hfield
  · exact ⟨hname "instrs" (by decide), FieldValue.not_mem_number hdigit _⟩
  · exact ⟨hname "budget" (by decide), FieldValue.not_mem_number hdigit _⟩

lemma Span.toList_shown (span : Span) : span.shown.toList =
    "run\x7b".toList ++ (showFields span.fields).toList ++ "\x7d: ".toList := by
  simp [shown, name]

/-- The characters of a line from the level on. -/
def Event.body (introduction : String) (event : Event) : List Char :=
  event.level.name.toList ++ ' ' :: (introduction.toList ++ (event.shown.toList ++ ['\n']))

lemma Event.toList_said (introduction : String) (event : Event) :
    (event.said introduction).toList = event.body introduction := by
  simp [said, body]

/-- No blank is in the time, and a level begins with none. -/
lemma Event.behindStamp_line (stamp : Stamp) (introduction : Option Span) (event : Event) :
    LogLine.behindStamp (event.line stamp introduction).toList =
      event.body (introduction.elim "" Span.shown) := by
  have hline : (event.line stamp introduction).toList = stamp.text.toList ++
      ' ' :: (List.replicate (5 - event.level.name.length) ' ' ++
        event.body (introduction.elim "" Span.shown)) := by
    rw [← toList_said]
    simp [line, Level.indent]
  have hsolid : ∀ c ∈ stamp.text.toList, (c != ' ') = true := fun c hc =>
    bne_iff_ne.mpr fun heq => stamp.solid (heq ▸ hc)
  have hindent : ∀ c ∈ ' ' :: List.replicate (5 - event.level.name.length) ' ',
      (c == ' ') = true := by
    intro c hc
    rcases List.mem_cons.mp hc with rfl | hc
    · rfl
    · exact beq_iff_eq.mpr (List.eq_of_mem_replicate hc)
  obtain ⟨first, rest, hname⟩ : ∃ first rest, event.level.name.toList = first :: rest := by
    cases event.level <;> exact ⟨_, _, rfl⟩
  have hmem : first ∈ event.level.name.toList := by
    rw [hname]
    exact List.mem_cons_self
  have hfirst : (first != ' ') = true := Level.ne_blank_of_mem_name hmem
  rw [LogLine.behindStamp, hline, List.dropWhile_append_of_pos hsolid,
    List.dropWhile_cons_of_neg (by simp), ← List.cons_append,
    List.dropWhile_append_of_pos hindent, body, hname, List.cons_append]
  exact List.dropWhile_cons_of_neg (by simpa using hfirst)

lemma Event.takeWhile_body :
    (event.body introduction).takeWhile (· != ' ') = event.level.name.toList := by
  rw [body, List.takeWhile_append_of_pos fun c => Level.ne_blank_of_mem_name,
    List.takeWhile_cons_of_neg (by simp), List.append_nil]

lemma Event.dropWhile_body : (event.body introduction).dropWhile (· != ' ') =
    ' ' :: (introduction.toList ++ (event.shown.toList ++ ['\n'])) := by
  rw [body, List.dropWhile_append_of_pos fun c => Level.ne_blank_of_mem_name,
    List.dropWhile_cons_of_neg (by simp)]

lemma Event.not_isPrefix_shown (event : Event) :
    ¬"run\x7b".toList <+: event.shown.toList ++ ['\n'] := by
  have hhead : (event.shown.toList ++ ['\n']).head? = some 't' := by
    cases event <;> simp [shown, target, Span.target]
  rintro ⟨rest, hrest⟩
  rw [← hrest] at hhead
  exact absurd hhead (by simp)

lemma Event.withoutSpan_body_empty (event : Event) :
    LogLine.withoutSpan (event.body "") = event.body "" := by
  rw [LogLine.withoutSpan, dropWhile_body]
  exact if_neg event.not_isPrefix_shown

lemma Event.withoutSpan_body_shown (span : Span) (event : Event) :
    LogLine.withoutSpan (event.body span.shown) = event.body "" := by
  -- the first brace that is closed is the one at the end of the introduction
  have hopen : ∀ c ∈ "run\x7b".toList ++ (showFields span.fields).toList, (c != '\x7d') = true := by
    intro c hc
    rw [bne_iff_ne]
    rintro rfl
    rcases List.mem_append.mp hc with hname | hfields
    · exact absurd hname (by decide)
    · exact span.not_mem_fields (by decide) (by decide) (by decide) hfields
  have hsaid : span.shown.toList ++ (event.shown.toList ++ ['\n']) =
      ("run\x7b".toList ++ (showFields span.fields).toList) ++
        ("\x7d: ".toList ++ (event.shown.toList ++ ['\n'])) := by
    rw [span.toList_shown]
    simp only [List.append_assoc]
  have hprefix : "run\x7b".toList <+: span.shown.toList ++ (event.shown.toList ++ ['\n']) :=
    ⟨_, by rw [hsaid, List.append_assoc]⟩
  rw [LogLine.withoutSpan, takeWhile_body, dropWhile_body]
  simp only [List.drop_one, List.tail_cons]
  rw [if_pos hprefix, hsaid, List.dropWhile_append_of_pos hopen]
  rfl

lemma Event.said_line (stamp : Stamp) (introduction : Option Span) (event : Event) :
    LogLine.said (event.line stamp introduction) = event.said "" := by
  rw [LogLine.said, behindStamp_line, ← String.toList_inj, String.toList_ofList, toList_said]
  cases introduction with
  | none => exact event.withoutSpan_body_empty
  | some span => exact event.withoutSpan_body_shown span

theorem directiveSubscriber_legible :
    directiveSubscriber.Legible LogLine.said LogLine.level? where
  said_line := by
    intro time time' introduction introduction' event
    exact (event.said_line _ _).trans (event.said_line _ _).symm
  level?_line := by
    intro time introduction event
    change LogLine.level? (event.line time introduction) = some event.level
    rw [LogLine.level?, Event.behindStamp_line, Event.takeWhile_body, Level.ofName?_name]

/-! ### Two runs of the command -/

namespace Command

/-- What is seen of a command from outside. -/
structure Observation where
  status : UInt32
  output : Array UInt8
  errors : String

def Response.logLines (s : Subscriber τ) (setting : Option String) (clock : ℕ → τ)
    (r : Response) : List String :=
  r.report.elim [] (Report.lines s setting clock)

/-- What is seen of an answer under a setting of the log. -/
def Response.observe (s : Subscriber τ) (setting : Option String) (clock : ℕ → τ) (r : Response) :
    Observation :=
  ⟨r.status, r.output, r.errorText (Report.log s setting clock)⟩

lemma Response.errors_observe (s : Subscriber τ) (setting : Option String) (clock : ℕ → τ)
    (r : Response) :
    (r.observe s setting clock).errors = String.join (r.logLines s setting clock) ++ r.message := by
  unfold observe errorText logLines
  cases r.report <;> rfl

variable {ε : Type} {v w : Verbosity} {said : String → String} {level? : String → Option Level}

/-- A program that moves right twice and then loops for ever, under a budget of four. -/
def overrun : Response :=
  respond usageReader ((Directory.mk [] []).surroundings #[0x3E, 0x3E, 0x2B, 0x5B, 0x5D]).load
    ["--budget=4", "-"]

def noon (_ : ℕ) : Stamp := ⟨"2025-11-18T12:00:00.000000Z", by decide⟩

end Command

end TapeMachine
