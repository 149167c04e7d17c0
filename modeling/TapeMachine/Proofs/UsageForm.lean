import TapeMachine.Proofs.Exit
import TapeMachine.Proofs.Grammar

/-!
# What the command line is asked for

Of a reader of arguments it is assumed that it takes what matches the usage and nothing else
(`ArgumentReader.FollowsUsage`), and of its scan, that it goes from left to right and what some
arguments stand for (`ScansInOrder`). Then it is decided what every command line asks for, and units
of arguments, each of which is the writing of one token, can be put in any order (`Arranged`). Both
are in the main statement, `usage_exact`. The reader that the command has is such a reader.
-/

namespace TapeMachine.Command

variable {ε : Type} {reader : ArgumentReader ε} {scanned : List String → Option (List Token)}
  {arguments arguments' : List String} {tokens others : List Token} {path value : String}
  {keepOutput : Bool}

/-! ### What is assumed of the reader -/

/-- A reader that is told the usage, and scans arguments into tokens first. What does not match the
usage is wrong. If it does, a flag for help is heeded before all else, and what is left has the
values that the tokens give. -/
structure ArgumentReader.FollowsUsage (reader : ArgumentReader ε)
    (scanned : List String → Option (List Token)) : Prop where
  refuses : ∀ arguments, (∀ tokens, scanned arguments = some tokens → ¬Usage.Matches tokens) →
    ∃ refusal, reader.parse arguments = .error refusal ∧ reader.isFatal refusal = true
  helps : ∀ arguments tokens, scanned arguments = some tokens → Usage.Matches tokens →
    .help ∈ tokens → ∃ refusal, reader.parse arguments = .error refusal ∧
      reader.isFatal refusal = false ∧ reader.text refusal = Usage.text
  parses : ∀ arguments tokens, scanned arguments = some tokens → Usage.Matches tokens →
    .help ∉ tokens → reader.parse arguments = .ok (.ofTokens tokens)

/-- A path that cannot be taken for a flag. -/
def IsPlain (path : String) : Prop := path = standardInput ∨ path.toList.head? ≠ some '-'

/-- Whatever follows them, some arguments stand for a token. -/
def Writes (scanned : List String → Option (List Token)) (used : List String) (token : Token) :
    Prop :=
  ∀ rest, scanned (used ++ rest) = (scanned rest).map (token :: ·)

/-- A scan from left to right: the first `--` ends the flags, what is plain is an operand, and a
budget without an equals sign has the next argument for its value, whatever that is. -/
structure ScansInOrder (scanned : List String → Option (List Token)) : Prop where
  nil : scanned [] = some []
  endOfFlags : ∀ rest, scanned ("--" :: rest) = some (rest.map .operand)
  operand : ∀ path, IsPlain path → Writes scanned [path] (.operand path)
  budgetNext : ∀ value, Writes scanned ["--budget", value] (.budget value)
  keepOutput : Writes scanned ["--partial"] .keepOutput

/-- The two ways to write a budget. What is joined by an equals sign is one where it is scanned so. -/
inductive BudgetWritten (scanned : List String → Option (List Token)) (value : String) :
    List String → Prop
  | next : BudgetWritten scanned value ["--budget", value]
  | joined (h : Writes scanned ["--budget=" ++ value] (.budget value)) :
      BudgetWritten scanned value ["--budget=" ++ value]

/-! ### What a command line asks for -/

/-- What a reader makes of arguments. -/
inductive Reading (reader : ArgumentReader ε) (scanned : List String → Option (List Token))
    (arguments : List String) : Prop
  | takes {tokens : List Token} (hscan : scanned arguments = some tokens)
      (hfits : FitsRun tokens ∨ FitsDump tokens)
      (hparse : reader.parse arguments = .ok (.ofTokens tokens))
  | helps {refusal : ε} (hscan : scanned arguments = some [.help])
      (hparse : reader.parse arguments = .error refusal) (hasked : reader.isFatal refusal = false)
      (htext : reader.text refusal = Usage.text)
  | refuses {refusal : ε}
      (hother : ∀ tokens, scanned arguments = some tokens → ¬Usage.Matches tokens)
      (hparse : reader.parse arguments = .error refusal) (hfatal : reader.isFatal refusal = true)

namespace ArgumentReader.FollowsUsage

lemma parse_of_fits (h : reader.FollowsUsage scanned) (hscan : scanned arguments = some tokens)
    (hfits : FitsRun tokens ∨ FitsDump tokens) :
    reader.parse arguments = .ok (.ofTokens tokens) := by
  have hmatches : Usage.Matches tokens := Usage.matches_iff.mpr (or_assoc.mp (Or.inl hfits))
  exact h.parses _ _ hscan hmatches (hfits.elim (·.no_help) (·.help_not_mem))

lemma reading (h : reader.FollowsUsage scanned) (arguments : List String) :
    Reading reader scanned arguments := by
  by_cases hother : ∀ tokens, scanned arguments = some tokens → ¬Usage.Matches tokens
  · obtain ⟨refusal, hparse, hfatal⟩ := h.refuses arguments hother
    exact .refuses hother hparse hfatal
  · push Not at hother
    obtain ⟨tokens, hscan, hmatches⟩ := hother
    obtain hfits | rfl := or_assoc.mpr (Usage.matches_iff.mp hmatches)
    · exact .takes hscan hfits (h.parse_of_fits hscan hfits)
    · obtain ⟨refusal, hparse, hasked, htext⟩ :=
        h.helps _ _ hscan hmatches (List.mem_singleton_self _)
      exact .helps hscan hparse hasked htext

end ArgumentReader.FollowsUsage

/-- Which arguments ask for a run, a listing or the help, whatever text a budget has. All others are
refused, whatever there is to load. -/
structure DecidedByUsage (reader : ArgumentReader ε) (scanned : List String → Option (List Token))
    (arguments : List String) : Prop where
  run_iff : (∃ values, reader.parse arguments = .ok values ∧ values.dump = false) ↔
    ∃ tokens, scanned arguments = some tokens ∧ FitsRun tokens
  dump_iff : (∃ values, reader.parse arguments = .ok values ∧ values.dump = true) ↔
    ∃ tokens, scanned arguments = some tokens ∧ FitsDump tokens
  values_eq : ∀ values, reader.parse arguments = .ok values →
    ∃ tokens, scanned arguments = some tokens ∧ values = .ofTokens tokens
  help_iff : (∃ refusal, reader.parse arguments = .error refusal ∧
    reader.isFatal refusal = false) ↔ scanned arguments = some [.help]
  helped : scanned arguments = some [.help] → ∀ load,
    (respond reader load arguments).Ends 0 (Usage.text ++ "\n").toUTF8.data none ""
  refused : (∀ tokens, scanned arguments = some tokens →
      ¬FitsRun tokens ∧ ¬FitsDump tokens ∧ tokens ≠ [.help]) →
    ∃ refusal, reader.parse arguments = .error refusal ∧ ∀ load,
      (respond reader load arguments).Ends 1 #[] none (reader.text refusal ++ "\n")

lemma respond_of_parse_error {refusal : ε} (h : reader.parse arguments = .error refusal)
    (load : String → Except LoadError (Array UInt8)) :
    respond reader load arguments = .ofExit (reader.exit refusal) := by
  apply respond_of_refused
  rw [ArgumentReader.read, h]
  rfl

namespace Reading

lemma exists_tokens {values : Values} (h : Reading reader scanned arguments)
    (hvalues : reader.parse arguments = .ok values) : ∃ tokens,
      scanned arguments = some tokens ∧ (FitsRun tokens ∨ FitsDump tokens) ∧
        values = .ofTokens tokens := by
  cases h with
  | takes hscan hfits hparse =>
    cases hvalues.symm.trans hparse
    exact ⟨_, hscan, hfits, rfl⟩
  | helps _ hparse => cases hvalues.symm.trans hparse
  | refuses _ hparse => cases hvalues.symm.trans hparse

lemma exists_refusal (h : Reading reader scanned arguments)
    (hscan : scanned arguments = some [.help]) :
    ∃ refusal, reader.parse arguments = .error refusal ∧ reader.isFatal refusal = false ∧
      reader.text refusal = Usage.text := by
  have hmatches : Usage.Matches [.help] := Usage.matches_iff.mpr (Or.inr (Or.inr rfl))
  cases h with
  | takes htokens hfits =>
    cases hscan.symm.trans htokens
    cases hfits.elim (·.one_operand) (·.one_operand)
  | helps _ hparse hasked htext => exact ⟨_, hparse, hasked, htext⟩
  | refuses hother => exact absurd hmatches (hother _ hscan)

end Reading

theorem decidedByUsage (h : reader.FollowsUsage scanned) (hexits : reader.ExitsWithText)
    (arguments : List String) : DecidedByUsage reader scanned arguments where
  run_iff := by
    constructor
    · rintro ⟨values, hvalues, hrun⟩
      obtain ⟨tokens, hscan, hfits | hfits, rfl⟩ := (h.reading arguments).exists_tokens hvalues
      · exact ⟨tokens, hscan, hfits⟩
      · cases hrun.symm.trans hfits.dump_eq
    · rintro ⟨tokens, hscan, hfits⟩
      exact ⟨_, h.parse_of_fits hscan (Or.inl hfits), hfits.dump_eq⟩
  dump_iff := by
    constructor
    · rintro ⟨values, hvalues, hdump⟩
      obtain ⟨tokens, hscan, hfits | hfits, rfl⟩ := (h.reading arguments).exists_tokens hvalues
      · cases hdump.symm.trans hfits.dump_eq
      · exact ⟨tokens, hscan, hfits⟩
    · rintro ⟨tokens, hscan, hfits⟩
      exact ⟨_, h.parse_of_fits hscan (Or.inr hfits), hfits.dump_eq⟩
  values_eq := by
    intro values hvalues
    obtain ⟨tokens, hscan, -, hvalues⟩ := (h.reading arguments).exists_tokens hvalues
    exact ⟨tokens, hscan, hvalues⟩
  help_iff := by
    constructor
    · rintro ⟨refusal, hrefusal, hasked⟩
      cases h.reading arguments with
      | takes _ _ hparse => cases hrefusal.symm.trans hparse
      | helps hscan => exact hscan
      | refuses _ hparse hfatal =>
        cases hrefusal.symm.trans hparse
        cases hasked.symm.trans hfatal
    · intro hscan
      obtain ⟨refusal, hparse, hasked, -⟩ := (h.reading arguments).exists_refusal hscan
      exact ⟨refusal, hparse, hasked⟩
  helped := by
    intro hscan load
    obtain ⟨refusal, hparse, hasked, htext⟩ := (h.reading arguments).exists_refusal hscan
    rw [respond_of_parse_error hparse, ← htext]
    exact hexits.ends_of_asked hasked
  refused := by
    intro hother
    have hunmatched : ∀ tokens, scanned arguments = some tokens → ¬Usage.Matches tokens := by
      intro tokens hscan
      obtain ⟨hrun, hdump, hhelp⟩ := hother tokens hscan
      simp [Usage.matches_iff, hrun, hdump, hhelp]
    obtain ⟨refusal, hparse, hfatal⟩ := h.refuses arguments hunmatched
    refine ⟨refusal, hparse, fun load => ?_⟩
    rw [respond_of_parse_error hparse]
    exact hexits.ends_of_fatal hfatal

/-! ### Order -/

/-- Two command lines that nobody can tell apart by their answers. -/
def AnsweredAlike (reader : ArgumentReader ε) (arguments arguments' : List String) : Prop :=
  ∀ load, respond reader load arguments = respond reader load arguments'

/-- Options and a path in any order, or the path behind the options and `--`. -/
inductive Arranged (options : List (List String)) (path : String) : List String → Prop
  | anyOrder {order : List (List String)} (h : order.Perm ([path] :: options)) :
      Arranged options path order.flatten
  | pathLast {order : List (List String)} (h : order.Perm options) :
      Arranged options path (order.flatten ++ ["--", path])

/-- The options of a run, each as the arguments that stay together. -/
def runOptions (budget : List String) (keepOutput : Bool) : List (List String) :=
  budget :: if keepOutput then [["--partial"]] else []

lemma answeredAlike_of_parse_eq (h : reader.parse arguments = reader.parse arguments') :
    AnsweredAlike reader arguments arguments' := by
  intro load
  rw [respond, respond, respondWith, respondWith, ArgumentReader.read, ArgumentReader.read, h]

lemma scanned_flatten_append {units : List (List String)} {rest : List String}
    (h : List.Forall₂ (Writes scanned) units tokens) (hrest : scanned rest = some others) :
    scanned (units.flatten ++ rest) = some (tokens ++ others) := by
  induction h with
  | nil => exact hrest
  | cons hunit hunits ih =>
    rw [List.flatten_cons, List.append_assoc, hunit, ih]
    rfl

/-- What can be put in any order stands for the same tokens in some order. -/
lemma exists_scanned_of_perm {units order : List (List String)} {rest : List String}
    (hperm : order.Perm units) (h : List.Forall₂ (Writes scanned) units tokens)
    (hrest : scanned rest = some others) : ∃ found,
      scanned (order.flatten ++ rest) = some found ∧ found.Perm (tokens ++ others) := by
  obtain ⟨written, horder, hwritten⟩ := List.perm_comp_forall₂ hperm h
  exact ⟨written ++ others, scanned_flatten_append horder hrest, hwritten.append_right others⟩

section Order

variable (hscan : ScansInOrder scanned)

include hscan

lemma BudgetWritten.writes {budget : List String} (h : BudgetWritten scanned value budget) :
    Writes scanned budget (.budget value) := by
  cases h with
  | next => exact hscan.budgetNext value
  | joined h => exact h

lemma forall₂_runOptions {budget : List String} (h : BudgetWritten scanned value budget)
    (keepOutput : Bool) : List.Forall₂ (Writes scanned) (runOptions budget keepOutput)
      (.budget value :: if keepOutput then [.keepOutput] else []) := by
  cases keepOutput with
  | false => exact .cons (h.writes hscan) .nil
  | true => exact .cons (h.writes hscan) (.cons hscan.keepOutput .nil)

lemma exists_scanned_pathLast {options order : List (List String)} (hperm : order.Perm options)
    (h : List.Forall₂ (Writes scanned) options tokens) (path : String) : ∃ found,
      scanned (order.flatten ++ ["--", path]) = some found ∧
        found.Perm (tokens ++ [.operand path]) :=
  exists_scanned_of_perm hperm h (hscan.endOfFlags [path])

lemma Arranged.exists_scanned {options : List (List String)}
    (h : Arranged options path arguments)
    (hoptions : List.Forall₂ (Writes scanned) options tokens) (hpath : IsPlain path) :
    ∃ found, scanned arguments = some found ∧ found.Perm (tokens ++ [.operand path]) := by
  cases h with
  | @anyOrder order h =>
    obtain ⟨found, hfound, hperm⟩ :=
      exists_scanned_of_perm h (.cons (hscan.operand path hpath) hoptions) hscan.nil
    rw [List.append_nil] at hfound hperm
    exact ⟨found, hfound, hperm.trans (List.perm_append_singleton _ _).symm⟩
  | pathLast h => exact exists_scanned_pathLast hscan h hoptions path

end Order

lemma parse_of_perm (h : reader.FollowsUsage scanned) (hscan : scanned arguments = some tokens)
    (hperm : tokens.Perm
      ((.budget value :: if keepOutput then [.keepOutput] else []) ++ [.operand path])) :
    reader.parse arguments = .ok ⟨path, false, some value, keepOutput⟩ := by
  have hform : tokens.Perm (runForm (some value) keepOutput path) := hperm
  rw [h.parse_of_fits hscan (Or.inl (fitsRun_iff.mpr ⟨_, _, _, hform⟩)), ofTokens_of_perm hform]
  rfl

/-- A run with a budget is asked for in any order, and in each way to write the budget. -/
structure FreelyOrdered (reader : ArgumentReader ε) (scanned : List String → Option (List Token))
    (value : String) (keepOutput : Bool) (path : String) : Prop where
  asks : ∀ {budget}, BudgetWritten scanned value budget →
    ∀ {arguments}, Arranged (runOptions budget keepOutput) path arguments →
      reader.parse arguments = .ok ⟨path, false, some value, keepOutput⟩
  alike : ∀ {budget budget'}, BudgetWritten scanned value budget →
    BudgetWritten scanned value budget' →
      ∀ {arguments arguments'}, Arranged (runOptions budget keepOutput) path arguments →
        Arranged (runOptions budget' keepOutput) path arguments' →
          AnsweredAlike reader arguments arguments'

lemma Arranged.parse_eq (h : reader.FollowsUsage scanned) (hscan : ScansInOrder scanned)
    (hpath : IsPlain path) {budget : List String} (hbudget : BudgetWritten scanned value budget)
    (harranged : Arranged (runOptions budget keepOutput) path arguments) :
    reader.parse arguments = .ok ⟨path, false, some value, keepOutput⟩ := by
  obtain ⟨found, hfound, hperm⟩ :=
    harranged.exists_scanned hscan (forall₂_runOptions hscan hbudget keepOutput) hpath
  exact parse_of_perm h hfound hperm

theorem freelyOrdered (h : reader.FollowsUsage scanned) (hscan : ScansInOrder scanned)
    (value : String) (keepOutput : Bool) (hpath : IsPlain path) :
    FreelyOrdered reader scanned value keepOutput path where
  asks := by
    intro budget hbudget arguments harranged
    exact harranged.parse_eq h hscan hpath hbudget
  alike := by
    intro budget budget' hbudget hbudget' arguments arguments' harranged harranged'
    apply answeredAlike_of_parse_eq
    rw [harranged.parse_eq h hscan hpath hbudget, harranged'.parse_eq h hscan hpath hbudget']

/-! ### The reader of the command -/

/-- What the arguments of the command are scanned into, if they can be. -/
def usageScan (arguments : List String) : Option (List Token) := (scan arguments).toOption

lemma usageScan_eq_some_iff : usageScan arguments = some tokens ↔ scan arguments = .ok tokens := by
  unfold usageScan
  cases scan arguments <;> simp [Except.toOption]

theorem usageReader_followsUsage : usageReader.FollowsUsage usageScan where
  refuses := by
    intro arguments hother
    cases hscan : scan arguments with
    | error error => exact ⟨.usage error, by simp only [usageReader, hscan], rfl⟩
    | ok tokens =>
      have hunmatched := hother tokens (usageScan_eq_some_iff.mpr hscan)
      simp only [Usage.matches_iff, not_or] at hunmatched
      obtain ⟨hrun, hdump, hhelp⟩ := hunmatched
      refine ⟨.usage .noForm, ?_, rfl⟩
      simp only [usageReader, hscan, valuesOf, hrun, hdump, hhelp, or_self, if_false]
  helps := by
    intro arguments tokens hscan hmatches hhelp
    rw [usageScan_eq_some_iff] at hscan
    obtain hrun | hdump | rfl := Usage.matches_iff.mp hmatches
    · exact absurd hhelp hrun.no_help
    · exact absurd hhelp hdump.help_not_mem
    · exact ⟨.help, by simp only [usageReader, hscan, valuesOf, if_true], rfl, rfl⟩
  parses := by
    intro arguments tokens hscan hmatches hhelp
    rw [usageScan_eq_some_iff] at hscan
    obtain hfits | rfl := or_assoc.mpr (Usage.matches_iff.mp hmatches)
    · exact parse_eq_ok_iff.mpr ⟨tokens, hscan, valuesOf_eq hfits⟩
    · exact absurd (List.mem_singleton_self _) hhelp

lemma shape_of_isPlain (h : IsPlain path) : Shape.of path = .operand := by
  obtain rfl | h := h
  · rfl
  · unfold Shape.of
    split
    · next htext => exact absurd (htext ▸ rfl) h
    · next htext => exact absurd (htext ▸ rfl) h
    · next htext => exact absurd (htext ▸ rfl) h
    · rfl

lemma ReadAsFlags.writes {used : List String} {token : Token} (h : ReadAsFlags used [token]) :
    Writes usageScan used token := by
  intro rest
  rw [usageScan, usageScan, h.scan_append]
  cases scan rest <;> rfl

lemma writes_operand (h : IsPlain path) : Writes usageScan [path] (.operand path) := by
  intro rest
  rw [usageScan, usageScan, List.singleton_append, scan, shape_of_isPlain h]
  cases scan rest <;> rfl

theorem usageScan_scansInOrder : ScansInOrder usageScan where
  nil := rfl
  endOfFlags := fun _ => rfl
  operand := fun _ => writes_operand
  budgetNext := fun _ => (readAsFlags_budget rfl rfl).writes
  keepOutput := (readAsFlags_name rfl rfl rfl).writes

/-- Behind an equals sign a value is read that has no line end. -/
theorem usageScan_joined (hline : '\n' ∉ value.toList) :
    BudgetWritten usageScan value ["--budget=" ++ value] :=
  .joined (readAsFlags_name (shape_budgetWith hline) rfl rfl).writes

end TapeMachine.Command
