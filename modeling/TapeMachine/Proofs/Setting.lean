import Mathlib.Data.Char
import Mathlib.Tactic.Common
import TapeMachine.Log.Line

/-!
# Settings that ask for a verbosity

A setting may ask for a verbosity and nothing else: by being empty, by the word for the verbosity,
or by that word for the machine alone (`Asks`). What is documented of any subscriber is that it
reads such a setting as a filter by levels (`Subscriber.FiltersByLevel`), and so the command has one
under each of these settings and without a setting (`AsksUnder.byLevel`). The main statement,
`directiveSubscriber_filtersByLevel`, says that this holds where settings are read as directives: no
character of a word means anything in a directive, so the word is read to its end as one part.
-/

namespace TapeMachine

variable {word : List Char} {v : Verbosity} {d : Directive} {c : Char}

/-- The settings that ask for a verbosity. A numeral with a plus sign does so only behind an equals
sign. -/
inductive Asks : String → Verbosity → Prop
  | empty : Asks "" (some .error)
  | verbosity (word : List Char) (v : Verbosity) : Verbosity.ofText? word = some v → '+' ∉ word →
      Asks (String.ofList word) v
  | machine (word : List Char) (v : Verbosity) : Verbosity.ofText? word = some v →
      Asks ("tapevm=" ++ String.ofList word) v

/-- What is documented of how settings are read: one that asks for a verbosity is read as a filter
by levels, and so is the word `warn`. -/
structure Subscriber.FiltersByLevel {τ : Type} (s : Subscriber τ) : Prop where
  exists_filter : ∀ {setting v}, Asks setting v → ∃ f, s.filter? setting = some f ∧ f.ByLevel v
  warn : (s.filter "warn").ByLevel (some .warn)

/-- The verbosity under a setting of the environment, or without one. -/
inductive AsksUnder : Option String → Verbosity → Prop
  | absent : AsksUnder none (some .warn)
  | given {setting : String} {v : Verbosity} (h : Asks setting v) : AsksUnder (some setting) v

theorem AsksUnder.byLevel {τ : Type} {s : Subscriber τ} (hs : s.FiltersByLevel)
    {setting : Option String} (h : AsksUnder setting v) : (s.filterUnder setting).ByLevel v := by
  cases h with
  | absent => exact hs.warn
  | given h =>
    obtain ⟨f, hf, hlevel⟩ := hs.exists_filter h
    rw [Subscriber.filterUnder, Option.bind_some, hf]
    exact hlevel

/-! ### The characters of a word -/

/-- A character that words for verbosities are made of. -/
def Spells (c : Char) : Prop := c.isAlphanum = true ∨ c = '+'

lemma isAlpha_of_toLower (h : c.toLower.isAlpha = true) : c.isAlpha = true := by
  unfold Char.toLower at h
  split at h
  · next hupper =>
    have hc : c.isUpper = true := decide_eq_true hupper
    change (c.isUpper || c.isLower) = true
    rw [hc, Bool.true_or]
  · exact h

lemma isAlpha_of_ofLowerCase? (h : Verbosity.ofLowerCase? word = some v) (hc : c ∈ word) :
    c.isAlpha = true := by
  have hall : word.all Char.isAlpha = true := by
    unfold Verbosity.ofLowerCase? at h
    split at h
    all_goals first | decide | cases h
  exact List.all_eq_true.mp hall c hc

lemma isDigit_of_digitValue? (h : Text.digitValue? c ≠ none) : c.isDigit = true := by
  have hrange : '0' ≤ c ∧ c ≤ '9' := by
    by_contra hnot
    exact h (if_neg hnot)
  simpa [Char.isDigit, Char.le_def] using hrange

lemma isDigit_of_numberFrom {n k : Nat} (h : Text.numberFrom n word = some k) (hc : c ∈ word) :
    c.isDigit = true := by
  induction word generalizing n with
  | nil => cases hc
  | cons first rest ih =>
    rw [Text.numberFrom] at h
    cases hvalue : Text.digitValue? first with
    | none =>
      rw [hvalue] at h
      cases h
    | some value =>
      rw [hvalue] at h
      rcases List.mem_cons.mp hc with rfl | hrest
      · exact isDigit_of_digitValue? (by simp [hvalue])
      · exact ih h hrest

lemma spells_of_numeral? {n : Nat} (h : Text.numeral? word = some n) (hc : c ∈ word) :
    Spells c := by
  unfold Text.numeral? at h
  split at h
  · cases h
  · cases h
  · rcases List.mem_cons.mp hc with rfl | hrest
    · exact Or.inr rfl
    · exact Or.inl (by rw [Char.isAlphanum, isDigit_of_numberFrom h hrest, Bool.or_true])
  · exact Or.inl (by rw [Char.isAlphanum, isDigit_of_numberFrom h hc, Bool.or_true])

lemma spells_of_ofText? (h : Verbosity.ofText? word = some v) (hc : c ∈ word) : Spells c := by
  unfold Verbosity.ofText? at h
  split at h
  · next hword =>
    have halpha := isAlpha_of_toLower
      (isAlpha_of_ofLowerCase? hword (List.mem_map_of_mem (f := Char.toLower) hc))
    exact Or.inl (by rw [Char.isAlphanum, halpha, Bool.true_or])
  · obtain ⟨n, hn, -⟩ := Option.bind_eq_some_iff.mp h
    exact spells_of_numeral? hn hc

lemma ne_nil_of_ofText? (h : Verbosity.ofText? word = some v) : word ≠ [] := by
  rintro rfl
  cases h

namespace Spells

lemma ne_of_not_isAlphanum (h : Spells c) {mark : Char} (hmark : mark.isAlphanum = false)
    (hplus : mark ≠ '+') : c ≠ mark := by
  rintro rfl
  rcases h with h | h
  · exact absurd h (by simp [hmark])
  · exact hplus h

lemma isBlank_eq_false (h : Spells c) : Text.isBlank c = false := by
  have hupper (h : c.isUpper = true) : 65 ≤ c.toNat ∧ c.toNat ≤ 90 :=
    (of_decide_eq_true h).imp UInt32.le_iff_toNat_le.mp UInt32.le_iff_toNat_le.mp
  have hlower (h : c.isLower = true) : 97 ≤ c.toNat ∧ c.toNat ≤ 122 := by
    have hboth : (decide ('a'.val ≤ c.val) && decide (c.val ≤ 'z'.val)) = true := h
    simpa [UInt32.le_iff_toNat_le] using hboth
  have hdigit (h : c.isDigit = true) : 48 ≤ c.toNat ∧ c.toNat ≤ 57 := by
    simpa [Char.isDigit, UInt32.le_iff_toNat_le] using h
  have hrange : 0x20 < c.toNat ∧ c.toNat < 128 := by
    rcases h with h | rfl
    · have hkind : ((c.isUpper || c.isLower) || c.isDigit) = true := h
      simp only [Bool.or_eq_true] at hkind
      rcases hkind with (h | h) | h
      · have := hupper h
        omega
      · have := hlower h
        omega
      · have := hdigit h
        omega
    · decide
  simp only [Text.isBlank, Bool.or_eq_false_iff, Bool.and_eq_false_iff, beq_eq_false_iff_ne,
    decide_eq_false_iff_not]
  omega

end Spells

lemma comma_not_mem_of_ofText? (h : Verbosity.ofText? word = some v) : ',' ∉ word := fun hc =>
  (spells_of_ofText? h hc).ne_of_not_isAlphanum (by decide) (by decide) rfl

/-! ### Reading directives -/

namespace Directive

variable {text : List Char}

/-- A word goes on to the end of the text if there is no equals sign and no bracket. -/
lemma read?_word {rest : List Char} (h : ∀ c ∈ rest, c ≠ '=' ∧ c ≠ '[') (position : Nat) :
    d.read? text .word position rest = d.finish? text .word := by
  induction rest generalizing position with
  | nil => rw [read?]
  | cons c rest ih =>
    obtain ⟨hequals, hbracket⟩ := h c List.mem_cons_self
    rw [read?, if_neg (not_or_intro hequals hbracket)]
    exact ih (fun other hother => h other (List.mem_cons_of_mem c hother)) _

lemma read?_verbosity (first position : Nat) (rest : List Char) :
    d.read? text (.verbosity first) position rest = d.finish? text (.verbosity first) := by
  induction rest generalizing position with
  | nil => rw [read?]
  | cons c rest ih =>
    rw [read?]
    exact ih _

lemma ofText?_word (hword : Verbosity.ofText? word = some v) (hplus : '+' ∉ word) :
    ofText? word = some { verbosity := v } := by
  have hspells : ∀ c ∈ word, Spells c := fun c hc => spells_of_ofText? hword hc
  obtain ⟨first, rest, rfl⟩ := List.exists_cons_of_ne_nil (ne_nil_of_ofText? hword)
  rw [ofText?, Text.trim_of_not_blank fun c hc => (hspells c hc).isBlank_eq_false]
  have hmarks : ∀ c ∈ rest, c ≠ '=' ∧ c ≠ '[' := fun c hc =>
    have h := hspells c (List.mem_cons_of_mem first hc)
    ⟨h.ne_of_not_isAlphanum (by decide) (by decide),
      h.ne_of_not_isAlphanum (by decide) (by decide)⟩
  have hfirst := hspells first List.mem_cons_self
  have hinitial : isInitial first = true := by
    have hne : first ≠ '+' := fun he => hplus (he ▸ List.mem_cons_self)
    rw [isInitial, Text.isAlphanumeric_of_isAlphanum (hfirst.resolve_right hne), Bool.or_true]
  rw [read?, if_neg (hfirst.ne_of_not_isAlphanum (by decide) (by decide)), if_pos hinitial,
    read?_word hmarks, finish?, hword]

lemma ofText?_machine (hword : Verbosity.ofText? word = some v) :
    ofText? ("tapevm=".toList ++ word) = some { verbosity := v, target := some "tapevm" } := by
  have hblank : ∀ c ∈ "tapevm=".toList ++ word, Text.isBlank c = false := by
    intro c hc
    rcases List.mem_append.mp hc with hname | hc
    · have hnone : "tapevm=".toList.any Text.isBlank = false := by decide
      simpa using List.any_eq_false.mp hnone c hname
    · exact (spells_of_ofText? hword hc).isBlank_eq_false
  have hread : ofText? ("tapevm=".toList ++ word) =
      { verbosity := some .trace, target := some "tapevm" : Directive }.finish?
        ("tapevm=".toList ++ word) (.verbosity 7) := by
    rw [ofText?, Text.trim_of_not_blank hblank]
    exact read?_verbosity 7 7 word
  have hdrop : Text.dropBytes? 7 ("tapevm=".toList ++ word) = some word :=
    Text.dropBytes?_append (by decide) word
  obtain ⟨first, rest, rfl⟩ := List.exists_cons_of_ne_nil (ne_nil_of_ofText? hword)
  simp only [hread, finish?, hdrop, hword, Option.map_some]

lemma pieces_of_not_mem {setting : String} (htext : setting.toList = text) (hcomma : ',' ∉ text)
    (hne : text ≠ []) : pieces setting = [text] := by
  rw [pieces, htext, Text.split_of_not_mem hcomma]
  exact List.filter_cons_of_pos (bne_iff_ne.mpr hne)

end Directive

lemma Event.target_cases (event : Event) :
    event.target = "tapevm::runnable::tape" ∨ event.target = Span.target := by
  cases event <;> simp [Event.target]

lemma Directive.concerns_of_part (htarget : d.target = none ∨ d.target = some "tapevm")
    {part : String} (hpart : part = "tapevm::runnable::tape" ∨ part = Span.target) :
    d.concerns part = true := by
  rcases htarget with h | h
  · rw [concerns, h]
    rfl
  · rcases hpart with rfl | rfl <;> rw [concerns, h] <;> decide

lemma DirectiveSet.byLevel_singleton (hspan : d.span = none) (hfield : d.field = none)
    (htarget : d.target = none ∨ d.target = some "tapevm") :
    (ofList [d]).toFilter.ByLevel d.verbosity where
  admits_eq _ event :=
    admits_singleton hspan hfield (Directive.concerns_of_part htarget event.target_cases)
  introduces_eq _ :=
    introduces_singleton hspan hfield (Directive.concerns_of_part htarget (Or.inr rfl))

lemma exists_filter_of_ofText? {setting : String} {text : List Char}
    (htext : setting.toList = text) (hcomma : ',' ∉ text) (hne : text ≠ [])
    (h : Directive.ofText? text = some d) (hspan : d.span = none) (hfield : d.field = none)
    (htarget : d.target = none ∨ d.target = some "tapevm") :
    ∃ f, directiveSubscriber.filter? setting = some f ∧ f.ByLevel d.verbosity := by
  refine ⟨_, ?_, DirectiveSet.byLevel_singleton hspan hfield htarget⟩
  simp only [directiveSubscriber, Directive.all?, Directive.pieces_of_not_mem htext hcomma hne,
    List.mapM_cons, List.mapM_nil, h]
  rfl

theorem exists_filter_of_asks {setting : String} (h : Asks setting v) :
    ∃ f, directiveSubscriber.filter? setting = some f ∧ f.ByLevel v := by
  cases h with
  | empty => exact ⟨_, rfl, DirectiveSet.byLevel_singleton rfl rfl (Or.inl rfl)⟩
  | verbosity word v hword hplus =>
    exact exists_filter_of_ofText? String.toList_ofList (comma_not_mem_of_ofText? hword)
      (ne_nil_of_ofText? hword) (Directive.ofText?_word hword hplus) rfl rfl (Or.inl rfl)
  | machine word v hword =>
    have htext : ("tapevm=" ++ String.ofList word).toList = "tapevm=".toList ++ word := by
      rw [String.toList_append, String.toList_ofList (l := word)]
    have hcomma : ',' ∉ "tapevm=".toList ++ word := by
      rw [List.mem_append, not_or]
      exact ⟨by decide, comma_not_mem_of_ofText? hword⟩
    exact exists_filter_of_ofText? htext hcomma
      (List.append_ne_nil_of_right_ne_nil _ (ne_nil_of_ofText? hword))
      (Directive.ofText?_machine hword) rfl rfl (Or.inr rfl)

/-- Directives are read as is documented of settings. -/
theorem directiveSubscriber_filtersByLevel : directiveSubscriber.FiltersByLevel where
  exists_filter := exists_filter_of_asks
  warn := by
    have hpieces : Directive.pieces "warn" = [['w', 'a', 'r', 'n']] :=
      Directive.pieces_of_not_mem rfl (by decide) (by decide)
    have hread : Directive.ofText? ['w', 'a', 'r', 'n'] = some { verbosity := some .warn } :=
      Directive.ofText?_word rfl (by decide)
    simp only [directiveSubscriber, hpieces, List.filterMap_cons_some hread, List.filterMap_nil]
    exact DirectiveSet.byLevel_singleton rfl rfl (Or.inl rfl)

end TapeMachine
