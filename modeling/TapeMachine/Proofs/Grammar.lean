import TapeMachine.Command.Scan
import TapeMachine.Proofs.Move

/-!
# What the usage lists

The usage is a list of patterns. Tokens match a pattern if they are what it lists, with the flags in
any order (`Pattern.Matches`). Counting tokens of each kind tells whether they match the usage, and
which of its patterns: this is the main statement, `Usage.matches_iff`.
-/

namespace TapeMachine.Command

variable {tokens tokens' : List Token} {budget : Option String} {keepOutput : Bool} {path : String}

/-! ### Patterns -/

/-- The tokens that a pattern lists, each in its place. -/
def Pattern.Lists : Pattern → List Token → Prop
  | operand _, tokens => ∃ text, tokens = [.operand text]
  | flag f _, tokens => ∃ token, token.flag? = some f ∧ tokens = [token]
  | optional p, tokens => tokens = [] ∨ p.Lists tokens
  | both p q, tokens => ∃ first second, tokens = first ++ second ∧ p.Lists first ∧ q.Lists second
  | either p q, tokens => p.Lists tokens ∨ q.Lists tokens

/-- Flags can be anywhere among the tokens. Only the operands are in the order of the pattern. -/
def Pattern.Matches (p : Pattern) (tokens : List Token) : Prop :=
  ∃ listed, p.Lists listed ∧ tokens.Perm listed ∧ Token.operands tokens = Token.operands listed

def Usage.Matches (tokens : List Token) : Prop := ∃ p ∈ Usage.patterns, p.Matches tokens

/-- The tokens of a run, in the order of the usage. -/
def runForm (budget : Option String) (keepOutput : Bool) (path : String) : List Token :=
  budget.toList.map .budget ++ (if keepOutput then [.keepOutput] else []) ++ [.operand path]

lemma lists_toRun_iff : Usage.toRun.Lists tokens ↔
    ∃ budget keepOutput path, tokens = runForm budget keepOutput path := by
  simp only [Usage.toRun, Pattern.Lists]
  constructor
  · rintro ⟨first, _, rfl, hbudget, second, _, rfl, hkeep, path, rfl⟩
    obtain ⟨budget, rfl⟩ : ∃ budget : Option String, first = budget.toList.map .budget := by
      obtain rfl | ⟨token, hflag, rfl⟩ := hbudget
      · exact ⟨none, rfl⟩
      · cases token <;> cases hflag
        exact ⟨some _, rfl⟩
    obtain ⟨keepOutput, rfl⟩ : ∃ keepOutput : Bool,
        second = if keepOutput then [Token.keepOutput] else [] := by
      obtain rfl | ⟨token, hflag, rfl⟩ := hkeep
      · exact ⟨false, rfl⟩
      · cases token <;> cases hflag
        exact ⟨true, rfl⟩
    exact ⟨budget, keepOutput, path, (List.append_assoc ..).symm⟩
  · rintro ⟨budget, keepOutput, path, rfl⟩
    refine ⟨_, _, List.append_assoc .., ?_, _, _, rfl, ?_, path, rfl⟩
    · cases budget with
      | none => exact Or.inl rfl
      | some value => exact Or.inr ⟨_, rfl, rfl⟩
    · cases keepOutput with
      | false => exact Or.inl rfl
      | true => exact Or.inr ⟨_, rfl, rfl⟩

lemma lists_toDump_iff :
    Usage.toDump.Lists tokens ↔ ∃ path, tokens = [.dump, .operand path] := by
  simp only [Usage.toDump, Pattern.Lists]
  constructor
  · rintro ⟨_, _, rfl, ⟨token, hflag, rfl⟩, path, rfl⟩
    cases token <;> cases hflag
    exact ⟨path, rfl⟩
  · rintro ⟨path, rfl⟩
    exact ⟨_, _, rfl, ⟨_, rfl, rfl⟩, path, rfl⟩

lemma lists_toHelp_iff : Usage.toHelp.Lists tokens ↔ tokens = [.help] := by
  simp only [Usage.toHelp, Pattern.Lists, or_self]
  constructor
  · rintro ⟨token, hflag, rfl⟩
    cases token <;> cases hflag
    rfl
  · rintro rfl
    exact ⟨_, rfl, rfl⟩

/-! ### Tokens by their kinds -/

lemma count_filterMap_eq {textOf : Token → Option String} {text : String} {token : Token}
    (h : ∀ other, textOf other = some text ↔ other = token) (tokens : List Token) :
    tokens.count token = (tokens.filterMap textOf).count text := by
  rw [List.count_filterMap, List.count]
  refine List.countP_congr fun other _ => ?_
  rw [beq_iff_eq, beq_iff_eq, h]

lemma count_operand_eq (tokens : List Token) (text : String) :
    tokens.count (.operand text) = (Token.operands tokens).count text :=
  count_filterMap_eq (fun other => by cases other <;> simp) tokens

lemma count_budget_eq (tokens : List Token) (value : String) :
    tokens.count (.budget value) = (Token.budgets tokens).count value :=
  count_filterMap_eq (fun other => by cases other <;> simp) tokens

lemma length_eq (tokens : List Token) : tokens.length =
    (Token.operands tokens).length + (Token.budgets tokens).length + tokens.count .keepOutput +
      tokens.count .dump + tokens.count .help := by
  induction tokens with
  | nil => rfl
  | cons token tokens ih =>
    simp only [Token.operands, Token.budgets] at ih ⊢
    cases token <;> simp <;> omega

/-- Two lists hold the same tokens if they hold the same of each kind. -/
lemma perm_iff : tokens.Perm tokens' ↔
    (Token.operands tokens).Perm (Token.operands tokens') ∧
    (Token.budgets tokens).Perm (Token.budgets tokens') ∧
    tokens.count .keepOutput = tokens'.count .keepOutput ∧
    tokens.count .dump = tokens'.count .dump ∧ tokens.count .help = tokens'.count .help := by
  constructor
  · intro h
    exact ⟨h.filterMap _, h.filterMap _, h.count_eq _, h.count_eq _, h.count_eq _⟩
  · rintro ⟨hoperands, hbudgets, hkeep, hdump, hhelp⟩
    rw [List.perm_iff_count]
    intro token
    cases token with
    | budget value => rw [count_budget_eq, count_budget_eq, hbudgets.count_eq]
    | dump => exact hdump
    | help => exact hhelp
    | keepOutput => exact hkeep
    | operand text => rw [count_operand_eq, count_operand_eq, hoperands.count_eq]

lemma perm_runForm_iff : tokens.Perm (runForm budget keepOutput path) ↔
    Token.operands tokens = [path] ∧ Token.budgets tokens = budget.toList ∧
    tokens.count .keepOutput = keepOutput.toNat ∧ tokens.count .dump = 0 ∧
    tokens.count .help = 0 := by
  have hbudget : Token.budgets (runForm budget keepOutput path) = budget.toList := by
    cases budget <;> cases keepOutput <;> rfl
  have hoperand : Token.operands (runForm budget keepOutput path) = [path] := by
    cases budget <;> cases keepOutput <;> rfl
  rw [perm_iff, hoperand, hbudget, List.perm_singleton]
  cases budget <;> cases keepOutput <;> simp [runForm]

theorem fitsRun_iff : FitsRun tokens ↔
    ∃ budget keepOutput path, tokens.Perm (runForm budget keepOutput path) := by
  constructor
  · rintro ⟨hoperand, hbudgets, hkeep, hdump, hhelp⟩
    obtain ⟨path, hpath⟩ := List.length_eq_one_iff.mp hoperand
    refine ⟨(Token.budgets tokens).head?, tokens.count .keepOutput == 1, path,
      perm_runForm_iff.mpr ⟨hpath, ?_, ?_, List.count_eq_zero.mpr hdump,
        List.count_eq_zero.mpr hhelp⟩⟩
    · match Token.budgets tokens, hbudgets with
      | [], _ => rfl
      | [_], _ => rfl
    · rcases Nat.le_one_iff_eq_zero_or_eq_one.mp hkeep with h | h <;> rw [h] <;> rfl
  · rintro ⟨budget, keepOutput, path, hperm⟩
    obtain ⟨hoperands, hbudgets, hkeep, hdump, hhelp⟩ := perm_runForm_iff.mp hperm
    refine ⟨by rw [hoperands, List.length_singleton], ?_, ?_, ?_, ?_⟩
    · rw [hbudgets]
      cases budget <;> simp
    · rw [hkeep]
      exact Bool.toNat_le _
    · exact List.count_eq_zero.mp hdump
    · exact List.count_eq_zero.mp hhelp

theorem fitsDump_iff : FitsDump tokens ↔ ∃ path, tokens.Perm [.dump, .operand path] := by
  constructor
  · rintro ⟨hoperand, hdump, hlength⟩
    -- the operand and the flag are the two tokens, so there is nothing of the other kinds
    have htotal := length_eq tokens
    have hbudgets : Token.budgets tokens = [] := List.length_eq_zero_iff.mp (by omega)
    have hkeep : tokens.count .keepOutput = 0 := by omega
    have hhelp : tokens.count .help = 0 := by omega
    obtain ⟨path, hpath⟩ := List.length_eq_one_iff.mp hoperand
    refine ⟨path, perm_iff.mpr ?_⟩
    rw [hpath, hbudgets, hkeep, hdump, hhelp]
    exact ⟨.refl _, .refl _, rfl, rfl, rfl⟩
  · rintro ⟨path, hperm⟩
    have hoperands := (perm_iff.mp hperm).1.length_eq
    exact ⟨hoperands, hperm.count_eq _, hperm.length_eq⟩

lemma operands_eq_of_perm {listed : List Token} (h : tokens.Perm listed)
    (hlisted : Token.operands listed = [path]) :
    Token.operands tokens = Token.operands listed := by
  have hperm : (Token.operands tokens).Perm (Token.operands listed) := h.filterMap _
  rw [hlisted] at hperm ⊢
  exact List.perm_singleton.mp hperm

lemma toRun_matches_iff : Usage.toRun.Matches tokens ↔ FitsRun tokens := by
  simp only [Pattern.Matches, lists_toRun_iff, fitsRun_iff]
  constructor
  · rintro ⟨_, ⟨budget, keepOutput, path, rfl⟩, hperm, -⟩
    exact ⟨budget, keepOutput, path, hperm⟩
  · rintro ⟨budget, keepOutput, path, hperm⟩
    have hlisted := (perm_runForm_iff.mp (.refl (runForm budget keepOutput path))).1
    exact ⟨_, ⟨budget, keepOutput, path, rfl⟩, hperm, operands_eq_of_perm hperm hlisted⟩

lemma toDump_matches_iff : Usage.toDump.Matches tokens ↔ FitsDump tokens := by
  simp only [Pattern.Matches, lists_toDump_iff, fitsDump_iff]
  constructor
  · rintro ⟨_, ⟨path, rfl⟩, hperm, -⟩
    exact ⟨path, hperm⟩
  · rintro ⟨path, hperm⟩
    exact ⟨_, ⟨path, rfl⟩, hperm, operands_eq_of_perm hperm rfl⟩

lemma toHelp_matches_iff : Usage.toHelp.Matches tokens ↔ tokens = [.help] := by
  simp only [Pattern.Matches, lists_toHelp_iff]
  constructor
  · rintro ⟨_, rfl, hperm, -⟩
    exact List.perm_singleton.mp hperm
  · rintro rfl
    exact ⟨_, rfl, .refl _, rfl⟩

/-- Counting tells whether tokens match the usage, and which of its patterns. -/
theorem Usage.matches_iff :
    Usage.Matches tokens ↔ FitsRun tokens ∨ FitsDump tokens ∨ tokens = [.help] := by
  simp [Usage.Matches, Usage.patterns, toRun_matches_iff, toDump_matches_iff, toHelp_matches_iff]

lemma FitsDump.help_not_mem (h : FitsDump tokens) : .help ∉ tokens := by
  obtain ⟨path, hperm⟩ := fitsDump_iff.mp h
  rw [hperm.mem_iff]
  simp

lemma FitsRun.dump_eq (h : FitsRun tokens) : (Values.ofTokens tokens).dump = false := by
  simp [Values.ofTokens, h.no_dump]

lemma FitsDump.dump_eq (h : FitsDump tokens) : (Values.ofTokens tokens).dump = true := by
  obtain ⟨path, hperm⟩ := fitsDump_iff.mp h
  simp [Values.ofTokens, hperm.mem_iff]

lemma ofTokens_of_perm (h : tokens.Perm (runForm budget keepOutput path)) :
    Values.ofTokens tokens =
      ⟨path, false, some (budget.getD Usage.budgetDefault), keepOutput⟩ := by
  obtain ⟨hoperands, hbudgets, hkeep, hdump, -⟩ := perm_runForm_iff.mp h
  have hkeep' : tokens.contains .keepOutput = keepOutput := by
    cases keepOutput with
    | false => simpa using List.count_eq_zero.mp hkeep
    | true => simpa using List.count_pos_iff.mp (by rw [hkeep]; decide)
  have hdump' : tokens.contains .dump = false := by simpa using List.count_eq_zero.mp hdump
  rw [Values.ofTokens, hoperands, hbudgets, hkeep', hdump']
  cases budget <;> rfl

end TapeMachine.Command
