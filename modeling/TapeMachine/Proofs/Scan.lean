import Mathlib.Data.List.TakeWhile
import TapeMachine.Command.Scan
import TapeMachine.Command.Loading
import TapeMachine.Proofs.Move

/-!
# The path among the arguments

A reader that takes an argument for the path of the program is expected to take `-` in its place
(`ArgumentReader.TakesInput`). The reader of the usage does (`usageReader_takesInput`): in what
arguments are scanned into, an operand is an argument that stands for itself
(`Scanned.exists_argument`), and the usage asks of an operand only that there is one.
-/

namespace TapeMachine.Command

/-- Where the reader has taken an argument for the path of the program it takes `-` as well. -/
def ArgumentReader.TakesInput {ε : Type} (reader : ArgumentReader ε) : Prop :=
  ∀ arguments args, reader.read arguments = .ok args →
    ∃ pre post, arguments = pre ++ args.program :: post ∧
      reader.read (pre ++ standardInput :: post) = .ok { args with program := standardInput }

variable {argument path path' : String} {arguments : List String}
  {given tokens before after : List Token} {values : Values} {args : Args}

/-! ### Scanned arguments -/

/-- What arguments are scanned into if they are flags, and values of flags, whatever follows. -/
structure ReadAsFlags (used : List String) (given : List Token) : Prop where
  scan_append : ∀ rest, scan (used ++ rest) = do return given ++ (← scan rest)
  no_operand : ∀ text, .operand text ∉ given

/-- The tokens that arguments are scanned into. -/
inductive Scanned : List String → List Token → Prop
  | nil : Scanned [] []
  | endOfFlags {argument : String} {rest : List String} (h : Shape.of argument = .endOfFlags) :
      Scanned (argument :: rest) (rest.map .operand)
  | operand {argument : String} {rest : List String} {tokens : List Token}
      (h : Shape.of argument = .operand) (hrest : Scanned rest tokens) :
      Scanned (argument :: rest) (.operand argument :: tokens)
  | flags {used rest : List String} {given tokens : List Token} (h : ReadAsFlags used given)
      (hrest : Scanned rest tokens) : Scanned (used ++ rest) (given ++ tokens)

lemma Token.ne_operand_of_ofFlag {flag : Flag} {value : Option String} {token : Token}
    (h : Token.ofFlag flag value = .ok token) (text : String) : token ≠ .operand text := by
  rintro rfl
  cases flag <;> cases value <;> cases h

lemma Token.no_operand_of_ofLetters {letters : List Char}
    (h : Token.ofLetters letters = .ok tokens) (text : String) : .operand text ∉ tokens := by
  induction letters generalizing tokens with
  | nil =>
    cases h
    exact List.not_mem_nil
  | cons letter letters ih =>
    unfold ofLetters at h
    split at h
    · obtain ⟨token, htoken, h⟩ := bind_eq_ok_iff.mp h
      obtain ⟨others, hothers, h⟩ := bind_eq_ok_iff.mp h
      cases h
      rw [List.mem_cons, not_or]
      exact ⟨(ne_operand_of_ofFlag htoken text).symm, ih hothers⟩
    · cases h

lemma readAsFlags_letters {letters : List Char} (hshape : Shape.of argument = .letters letters)
    (h : Token.ofLetters letters = .ok given) : ReadAsFlags [argument] given where
  scan_append := by
    intro rest
    simp only [List.singleton_append, scan, hshape, h]
    rfl
  no_operand := Token.no_operand_of_ofLetters h

lemma readAsFlags_budget {written value : String}
    (hshape : Shape.of argument = .name written none)
    (hflag : Flag.ofLong? written = some .budget) :
    ReadAsFlags [argument, value] [.budget value] where
  scan_append := by
    intro rest
    simp only [List.cons_append, List.nil_append, scan, hshape, hflag]
  no_operand := by simp

lemma readAsFlags_name {written : String} {value : Option String} {flag : Flag} {token : Token}
    (hshape : Shape.of argument = .name written value) (hflag : Flag.ofLong? written = some flag)
    (h : Token.ofFlag flag value = .ok token) : ReadAsFlags [argument] [token] where
  scan_append := by
    intro rest
    simp only [List.singleton_append, scan, hshape, hflag]
    split
    · next heq => cases heq
    · next heq =>
      -- `--budget` by itself is not a token
      cases heq
      cases h
    · next heq _ =>
      cases heq
      rw [h]
      rfl
  no_operand := by
    intro text
    rw [List.mem_singleton]
    exact (Token.ne_operand_of_ofFlag h text).symm

lemma scanned_of_scan (h : scan arguments = .ok tokens) : Scanned arguments tokens := by
  fun_induction scan arguments generalizing tokens with
  | case1 =>
    cases h
    exact .nil
  | case2 argument rest hshape =>
    cases h
    exact .endOfFlags hshape
  | case3 argument rest hshape ih =>
    obtain ⟨others, hrest, h⟩ := bind_eq_ok_iff.mp h
    cases h
    exact .operand hshape (ih hrest)
  | case4 argument rest letters hshape ih =>
    obtain ⟨given, hgiven, h⟩ := bind_eq_ok_iff.mp h
    obtain ⟨others, hrest, h⟩ := bind_eq_ok_iff.mp h
    cases h
    exact .flags (readAsFlags_letters hshape hgiven) (ih hrest)
  | case5 => cases h
  | case6 argument written value rest hflag hshape ih =>
    obtain ⟨others, hrest, h⟩ := bind_eq_ok_iff.mp h
    cases h
    exact .flags (readAsFlags_budget hshape hflag) (ih hrest)
  | case7 argument written flag value rest hother hflag hshape ih =>
    obtain ⟨token, htoken, h⟩ := bind_eq_ok_iff.mp h
    obtain ⟨others, hrest, h⟩ := bind_eq_ok_iff.mp h
    cases h
    exact .flags (readAsFlags_name hshape hflag htoken) (ih hrest)

lemma exists_of_append_eq {token : Token} {before after : List Token}
    (h : given ++ tokens = before ++ token :: after) (hgiven : token ∉ given) :
    ∃ others, before = given ++ others ∧ tokens = others ++ token :: after := by
  obtain ⟨others, hbefore, htokens⟩ | ⟨more, rfl, htokens⟩ := List.append_eq_append_iff.mp h
  · exact ⟨others, hbefore, htokens⟩
  · cases more with
    | nil => exact ⟨[], by simp, htokens.symm⟩
    | cons other more =>
      cases htokens
      simp at hgiven

namespace Scanned

lemma scan_eq (h : Scanned arguments tokens) : scan arguments = .ok tokens := by
  induction h with
  | nil => rfl
  | endOfFlags h => simp only [scan, h]
  | operand h hrest ih =>
    simp only [scan, h, ih]
    rfl
  | flags h hrest ih =>
    rw [h.scan_append, ih]
    rfl

/-- An operand is one of the arguments, and another operand could be in its place. -/
theorem exists_argument {before after : List Token} (h : Scanned arguments tokens)
    (htokens : tokens = before ++ .operand path :: after) :
    ∃ pre post, arguments = pre ++ path :: post ∧ ∀ path', Shape.of path' = .operand →
      scan (pre ++ path' :: post) = .ok (before ++ .operand path' :: after) := by
  induction h generalizing before with
  | nil => simp at htokens
  | @endOfFlags argument rest h =>
    obtain ⟨pre, rest', rfl, rfl, hrest⟩ := List.map_eq_append_iff.mp htokens
    obtain ⟨x, post, rfl, hx, rfl⟩ := List.map_eq_cons_iff.mp hrest
    cases hx
    refine ⟨argument :: pre, post, rfl, fun path' _ => ?_⟩
    simp [scan, h]
  | @operand argument rest tokens h hrest ih =>
    cases before with
    | nil =>
      cases htokens
      refine ⟨[], rest, rfl, fun path' hpath => ?_⟩
      exact (Scanned.operand hpath hrest).scan_eq
    | cons token before =>
      obtain ⟨rfl, htail⟩ := List.cons.inj htokens
      obtain ⟨pre, post, rfl, hscan⟩ := ih htail
      refine ⟨argument :: pre, post, rfl, fun path' hpath => ?_⟩
      exact (Scanned.operand h (scanned_of_scan (hscan path' hpath))).scan_eq
  | @flags used rest given tokens h hrest ih =>
    obtain ⟨others, rfl, htail⟩ := exists_of_append_eq htokens (h.no_operand path)
    obtain ⟨pre, post, rfl, hscan⟩ := ih htail
    refine ⟨used ++ pre, post, (List.append_assoc ..).symm, fun path' hpath => ?_⟩
    rw [List.append_assoc, List.append_assoc]
    exact (Scanned.flags h (scanned_of_scan (hscan path' hpath))).scan_eq

end Scanned

/-! ### Values behind an equals sign -/

variable {name value : List Char}

lemma ne_equals (h : '=' ∉ name) : ∀ c ∈ name, (c != '=') = true :=
  fun _ hc => bne_iff_ne.mpr fun heq => h (heq ▸ hc)

lemma takeWhile_equals (h : '=' ∉ name) :
    (name ++ '=' :: value).takeWhile (· != '=') = name := by
  rw [List.takeWhile_append_of_pos (ne_equals h)]
  exact List.append_nil name

lemma dropWhile_equals (h : '=' ∉ name) :
    (name ++ '=' :: value).dropWhile (· != '=') = '=' :: value := by
  rw [List.dropWhile_append_of_pos (ne_equals h)]
  rfl

lemma isWritten_valued {c : Char} (h : '=' ∉ name) (hsolid : isSolid (c :: name) = true)
    (hline : '\n' ∉ value) : isWritten (c :: (name ++ '=' :: value)) = true := by
  rw [isWritten, dropWhile_equals h]
  simp only [takeWhile_equals h, hsolid, Bool.true_and, Bool.or_eq_true, Bool.and_eq_true,
    Bool.not_eq_true', List.isEmpty_eq_false_iff, List.contains_eq_mem, decide_eq_false_iff_not]
  rcases eq_or_ne value [] with rfl | hvalue
  · left
    rw [isSolid, ← List.cons_append, List.all_append]
    exact Bool.and_eq_true_iff.mpr ⟨hsolid, rfl⟩
  · exact Or.inr ⟨hvalue, hline⟩

lemma splitEquals_valued (h : '=' ∉ name) :
    splitEquals (name ++ '=' :: value) = (String.ofList name, some (String.ofList value)) := by
  rw [splitEquals, dropWhile_equals h, takeWhile_equals h]

lemma shape_valued {c : Char}
    (hargument : argument.toList = '-' :: '-' :: c :: (name ++ '=' :: value))
    (hequals : '=' ∉ '-' :: '-' :: c :: name) (hsolid : isSolid (c :: name) = true)
    (hline : '\n' ∉ value) : Shape.of argument =
      .name (String.ofList ('-' :: '-' :: c :: name)) (some (String.ofList value)) := by
  have hname : '=' ∉ name := by
    simp only [List.mem_cons, not_or] at hequals
    exact hequals.2.2.2
  have hwritten : isWritten (c :: (name ++ '=' :: value)) = true :=
    isWritten_valued hname hsolid hline
  have hsplit : splitEquals ('-' :: '-' :: c :: (name ++ '=' :: value)) =
      (String.ofList ('-' :: '-' :: c :: name), some (String.ofList value)) :=
    splitEquals_valued hequals
  rw [Shape.of, hargument]
  simp only [hwritten, hsplit, if_true]

lemma shape_budgetWith {value : String} (hline : '\n' ∉ value.toList) :
    Shape.of ("--budget=" ++ value) = .name "--budget" (some value) := by
  have htext : ("--budget=" ++ value).toList =
      '-' :: '-' :: 'b' :: (['u', 'd', 'g', 'e', 't'] ++ '=' :: value.toList) := by
    rw [String.toList_append]
    rfl
  rw [shape_valued htext (by decide) (by decide) hline, String.ofList_toList]

/-! ### One operand in the place of another -/

lemma exists_operand (h : (Token.operands tokens).length = 1) : ∃ before path after,
    tokens = before ++ .operand path :: after ∧ Token.operands before = [] := by
  obtain ⟨path, hpath⟩ := List.length_eq_one_iff.mp h
  obtain ⟨before, token, after, rfl, hbefore, htoken, -⟩ := List.filterMap_eq_cons_iff.mp hpath
  obtain rfl : token = .operand path := by
    cases token <;> cases htoken
    rfl
  exact ⟨before, path, after, rfl, List.filterMap_eq_nil_iff.mpr hbefore⟩

lemma count_operand {token : Token} (h : ∀ path, token ≠ .operand path) :
    (before ++ .operand path :: after).count token =
      (before ++ .operand path' :: after).count token := by
  rw [List.count_append, List.count_append, List.count_cons_of_ne (h path).symm,
    List.count_cons_of_ne (h path').symm]

lemma mem_operand {token : Token} (h : ∀ path, token ≠ .operand path) :
    token ∈ before ++ .operand path :: after ↔ token ∈ before ++ .operand path' :: after := by
  simp [h]

lemma budgets_operand : Token.budgets (before ++ .operand path :: after) =
    Token.budgets (before ++ .operand path' :: after) := by
  simp [Token.budgets]

lemma length_operands_operand : (Token.operands (before ++ .operand path :: after)).length =
    (Token.operands (before ++ .operand path' :: after)).length := by
  simp [Token.operands]

lemma FitsRun.withOperand (h : FitsRun (before ++ .operand path :: after)) (path' : String) :
    FitsRun (before ++ .operand path' :: after) where
  one_operand := length_operands_operand.trans h.one_operand
  budgets_le_one := by
    rw [budgets_operand]
    exact h.budgets_le_one
  keepOutput_le_one := by
    rw [count_operand (by simp)]
    exact h.keepOutput_le_one
  no_dump := (mem_operand (by simp)).not.mp h.no_dump
  no_help := (mem_operand (by simp)).not.mp h.no_help

lemma FitsDump.withOperand (h : FitsDump (before ++ .operand path :: after)) (path' : String) :
    FitsDump (before ++ .operand path' :: after) where
  one_operand := length_operands_operand.trans h.one_operand
  one_dump := (count_operand (by simp)).trans h.one_dump
  length_eq_two := by
    have hlength := h.length_eq_two
    simp only [List.length_append, List.length_cons] at hlength ⊢
    exact hlength

lemma contains_operand {token : Token} (h : ∀ path, token ≠ .operand path) :
    (before ++ .operand path :: after).contains token =
      (before ++ .operand path' :: after).contains token := by
  rw [Bool.eq_iff_iff, List.contains_iff_mem, List.contains_iff_mem, mem_operand h]

lemma ofTokens_operand (h : Token.operands before = []) (path' : String) :
    Values.ofTokens (before ++ .operand path' :: after) =
      { Values.ofTokens (before ++ .operand path :: after) with program := path' } := by
  have hoperands : Token.operands (before ++ .operand path' :: after) =
      path' :: Token.operands after := by
    rw [Token.operands, List.filterMap_append]
    exact congrArg (· ++ _) h
  have hdump : (before ++ .operand path' :: after).contains .dump =
      (before ++ .operand path :: after).contains .dump := contains_operand (by simp)
  have hkeep : (before ++ .operand path' :: after).contains .keepOutput =
      (before ++ .operand path :: after).contains .keepOutput := contains_operand (by simp)
  have hbudgets : Token.budgets (before ++ .operand path' :: after) =
      Token.budgets (before ++ .operand path :: after) := budgets_operand
  simp only [Values.ofTokens, hoperands, hdump, hkeep, hbudgets, List.headD_cons]

lemma valuesOf_eq (h : FitsRun tokens ∨ FitsDump tokens) :
    valuesOf tokens = .ok (.ofTokens tokens) := by
  have hhelp : tokens ≠ [.help] := by
    rintro rfl
    rcases h with h | h <;> cases h.one_operand
  rw [valuesOf, if_neg hhelp, if_pos h]

lemma fits_of_valuesOf (h : valuesOf tokens = .ok values) :
    (FitsRun tokens ∨ FitsDump tokens) ∧ values = .ofTokens tokens := by
  unfold valuesOf at h
  split at h
  · cases h
  · split at h
    · next hfits =>
      cases h
      exact ⟨hfits, rfl⟩
    · cases h

lemma exists_operand_of_valuesOf (h : valuesOf tokens = .ok values) : ∃ before after,
    tokens = before ++ .operand values.program :: after ∧ ∀ path',
      valuesOf (before ++ .operand path' :: after) = .ok { values with program := path' } := by
  obtain ⟨hfits, rfl⟩ := fits_of_valuesOf h
  have hone : (Token.operands tokens).length = 1 := hfits.elim (·.one_operand) (·.one_operand)
  obtain ⟨before, path, after, rfl, hbefore⟩ := exists_operand hone
  have hprogram : (Values.ofTokens (before ++ .operand path :: after)).program = path := by
    rw [@ofTokens_operand path before after hbefore path]
  refine ⟨before, after, by rw [hprogram], fun path' => ?_⟩
  rw [valuesOf_eq (hfits.imp (·.withOperand path') (·.withOperand path')),
    ofTokens_operand hbefore path']

lemma argsOf_withProgram (h : argsOf values = .ok args) : args.program = values.program ∧
    ∀ path', argsOf { values with program := path' } = .ok { args with program := path' } := by
  unfold argsOf at h ⊢
  split at h
  · next hbudget =>
    cases h
    simp [hbudget]
  · next text hbudget =>
    split at h
    · next budget hread =>
      cases h
      simp [hbudget, hread]
    · cases h

lemma parse_eq_ok_iff : usageReader.parse arguments = .ok values ↔
    ∃ tokens, scan arguments = .ok tokens ∧ valuesOf tokens = .ok values := by
  simp only [usageReader]
  cases scan arguments <;> simp

theorem usageReader_takesInput : usageReader.TakesInput := by
  intro arguments args h
  obtain ⟨values, hparse, hargs⟩ := bind_eq_ok_iff.mp h
  obtain ⟨tokens, hscan, hvalues⟩ := parse_eq_ok_iff.mp hparse
  obtain ⟨before, after, htokens, hother⟩ := exists_operand_of_valuesOf hvalues
  obtain ⟨pre, post, rfl, hscans⟩ := (scanned_of_scan hscan).exists_argument htokens
  obtain ⟨hprogram, hargs'⟩ := argsOf_withProgram hargs
  refine ⟨pre, post, by rw [hprogram], ?_⟩
  have hparse' : usageReader.parse (pre ++ standardInput :: post) =
      .ok { values with program := standardInput } :=
    parse_eq_ok_iff.mpr ⟨_, hscans standardInput rfl, hother standardInput⟩
  exact bind_eq_ok_iff.mpr ⟨_, hparse', hargs' standardInput⟩

end TapeMachine.Command
