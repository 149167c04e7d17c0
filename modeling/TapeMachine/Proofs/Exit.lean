import TapeMachine.Proofs.Budget
import TapeMachine.Proofs.Loading
import TapeMachine.Proofs.Validation

/-!
# How the command ends

`Response.Ends` says what an answer is in full: the exit status, the bytes on the standard output,
the run that is reported on, and the text on the standard error, which is a log of that run and a
message behind it, however logs are shown. A run ends in one of three ways, which are those of the
run of the program (`EndsAsRun`), and a listing in one. The main statement, `exit_decided`, adds
what happens if there is no program to run or to list, or if the values in the arguments have not
the types that they should. Neither the reader of the arguments nor what there is to load matters.
What happens to output that cannot be delivered is said by `deliver_eq`.
-/

namespace TapeMachine.Command

variable {ε : Type} {p : Program} {keepOutput : Bool} {budget : UInt64} {report : Report}
  {output : Array UInt8} {steps : UInt64}

/-- An answer in full, with the run that it reports on. -/
structure Response.Ends (r : Response) (status : UInt32) (output : Array UInt8)
    (report : Option Report) (message : String) : Prop where
  status_eq : r.status = status
  output_eq : r.output = output
  report_eq : r.report = report
  errorText_eq : ∀ log : Report → String, r.errorText log = report.elim "" log ++ message

/-- An answer that says how a run of the program ends. -/
structure EndsAsRun (p : Program) (keepOutput : Bool) (budget : UInt64) (r : Response) : Prop where
  malformed : ¬p.bracketsMatch = true → ∃ imbalance, p.imbalance? = some imbalance ∧
    r.Ends 1 #[] (run ⟨keepOutput⟩ p budget)
      ("Error occurred while running program: " ++ (Error.malformed imbalance).message ++ "\n")
  completed : p.bracketsMatch = true → haltingTime p ≤ budget.toNat + 1 →
    ∃ (n : Nat) (s : State), haltingTime p = n ∧ stateAfter p n = .ok s ∧
      r.Ends 0 s.memory.output (run ⟨keepOutput⟩ p budget) ""
  timedOut : p.bracketsMatch = true → budget.toNat + 1 < haltingTime p →
    ∃ s, stateAfter p (budget.toNat + 1) = .ok s ∧
      r.Ends 2 (if keepOutput then s.memory.output else #[]) (run ⟨keepOutput⟩ p budget)
        ("Program exceeded its budget of " ++ toString budget.toNat ++ " instructions\n")

/-- What is documented of how a program ends whose arguments are refused. What is wrong goes to the
standard error, and the status is 1; a text that is asked for goes to the standard output. -/
structure ArgumentReader.ExitsWithText (reader : ArgumentReader ε) : Prop where
  fatal : ∀ refusal, reader.isFatal refusal = true →
    reader.exit refusal = { status := 1, message := reader.text refusal ++ "\n" }
  asked : ∀ refusal, reader.isFatal refusal = false →
    reader.exit refusal = { status := 0, output := (reader.text refusal ++ "\n").toUTF8.data }

/-- Something is wrong with the arguments if values have not the types that they should. -/
def ArgumentReader.FailsOnValues (reader : ArgumentReader ε) : Prop :=
  ∀ values refusal, reader.deserialize values = .error refusal → reader.isFatal refusal = true

/-! ### Answers without a run -/

lemma ends_failure (message : String) : (Response.failure message).Ends 1 #[] none message :=
  ⟨rfl, rfl, rfl, fun _ => rfl⟩

lemma ends_ofText (text : String) : (Response.ofText text).Ends 0 text.toUTF8.data none "" :=
  ⟨rfl, rfl, rfl, fun _ => rfl⟩

namespace ArgumentReader.ExitsWithText

variable {reader : ArgumentReader ε} {refusal : ε}

lemma ends_of_fatal (h : reader.ExitsWithText) (hfatal : reader.isFatal refusal = true) :
    (Response.ofExit (reader.exit refusal)).Ends 1 #[] none (reader.text refusal ++ "\n") := by
  rw [h.fatal refusal hfatal]
  exact ⟨rfl, rfl, rfl, fun _ => rfl⟩

lemma ends_of_asked (h : reader.ExitsWithText) (hasked : reader.isFatal refusal = false) :
    (Response.ofExit (reader.exit refusal)).Ends 0 (reader.text refusal ++ "\n").toUTF8.data none
      "" := by
  rw [h.asked refusal hasked]
  exact ⟨rfl, rfl, rfl, fun _ => rfl⟩

end ArgumentReader.ExitsWithText

/-! ### Answers to a run -/

lemma span_run (settings : Settings) (p : Program) (budget : UInt64) :
    (run settings p budget).span = ⟨p.size, budget⟩ := by
  unfold run
  split
  · rfl
  · cases drive p budget .start <;> rfl

lemma ends_of_refused {error : Error} (h : report.result = .error (.refused error)) :
    (Response.ofReport report).Ends 1 #[] report
      ("Error occurred while running program: " ++ error.message ++ "\n") := by
  unfold Response.ofReport
  rw [h]
  exact ⟨rfl, rfl, rfl, fun _ => rfl⟩

lemma ends_of_completed (h : report.result = .ok (.completed output steps)) :
    (Response.ofReport report).Ends 0 output report "" := by
  unfold Response.ofReport
  rw [h]
  exact ⟨rfl, rfl, rfl, fun _ => rfl⟩

lemma ends_of_timedOut (h : report.result = .ok (.timedOut output steps)) :
    (Response.ofReport report).Ends 2 output report
      ("Program exceeded its budget of " ++ toString report.span.budget.toNat ++
        " instructions\n") := by
  unfold Response.ofReport
  rw [h]
  exact ⟨rfl, rfl, rfl, fun _ => rfl⟩

theorem endsAsRun_ofReport (p : Program) (keepOutput : Bool) (hb : budget < State.maxSteps) :
    EndsAsRun p keepOutput budget (.ofReport (run ⟨keepOutput⟩ p budget)) where
  malformed := by
    intro hp
    obtain ⟨imbalance, himbalance, -⟩ := Program.exists_imbalance hp
    refine ⟨imbalance, himbalance, ends_of_refused ?_⟩
    rw [Program.run_of_imbalance himbalance]
  completed := by
    intro hp htime
    obtain ⟨n, s, hstop, -⟩ := exists_stopsAfter hp hb
    have hs := hstop.halted_iff.mpr htime
    have hresult := hstop.result_eq hp hb ⟨keepOutput⟩
    rw [Outcome.ofState_of_halted hs] at hresult
    exact ⟨n, s, haltingTime_eq hstop.reached hs, hstop.reached, ends_of_completed hresult⟩
  timedOut := by
    intro hp htime
    obtain ⟨n, s, hstop, -⟩ := exists_stopsAfter hp hb
    have hs : ¬s.Halted p := hstop.halted_iff.not.mpr (not_le.mpr htime)
    have hresult := hstop.result_eq hp hb ⟨keepOutput⟩
    rw [Outcome.ofState_of_not_halted hs] at hresult
    have hends := ends_of_timedOut hresult
    rw [span_run] at hends
    exact ⟨s, hstop.eq_of_not_halted hs ▸ hstop.reached, hends⟩

/-- How a command line ends that asks for a run or a listing, or that has values of which the reader
makes nothing. -/
theorem exit_decided (reader : ArgumentReader ε) (load : String → Except LoadError (Array UInt8))
    (arguments : List String) :
    (∀ args, reader.read arguments = .ok args → args.dump = false →
      args.grantedBudget < State.maxSteps →
        (∀ error, load args.program = .error error → (respond reader load arguments).Ends 1 #[] none
          ("Error occurred while loading program: " ++ error.message ++ "\n")) ∧
        ∀ bytes, load args.program = .ok bytes →
          EndsAsRun (programOfBytes bytes) args.keepOutput args.grantedBudget
            (respond reader load arguments)) ∧
    (∀ args, reader.read arguments = .ok args → args.dump = true →
      (∀ error, load args.program = .error error → (respond reader load arguments).Ends 1 #[] none
        ("Error occurred while loading program: " ++ error.message ++ "\n")) ∧
      ∀ bytes, load args.program = .ok bytes → (respond reader load arguments).Ends 0
        ((programOfBytes bytes).listing ++ "\n").toUTF8.data none "") ∧
    (reader.ExitsWithText → reader.FailsOnValues → ∀ values refusal,
      reader.parse arguments = .ok values → reader.deserialize values = .error refusal →
        (respond reader load arguments).Ends 1 #[] none (reader.text refusal ++ "\n") ∧
        ∀ load', respond reader load' arguments = respond reader load arguments) := by
  refine ⟨fun args hread hrun hb => ⟨fun error hload => ?_, fun bytes hload => ?_⟩,
    fun args hread hdump => ⟨fun error hload => ?_, fun bytes hload => ?_⟩,
    fun hexits hfails values refusal hvalues hrefused => ?_⟩
  · rw [respond_of_loadError hread hload]
    exact ends_failure _
  · rw [respond_of_loaded hread hload, Args.answer, hrun]
    exact endsAsRun_ofReport _ args.keepOutput hb
  · rw [respond_of_loadError hread hload]
    exact ends_failure _
  · rw [respond_of_loaded hread hload, Args.answer, hdump]
    exact ends_ofText _
  · have hread : reader.read arguments = .error refusal := by
      rw [ArgumentReader.read, hvalues]
      exact hrefused
    rw [respond_of_refused hread]
    exact ⟨hexits.ends_of_fatal (hfails values refusal hrefused),
      fun load' => respond_of_refused hread load'⟩

theorem usageReader_exitsWithText : usageReader.ExitsWithText where
  fatal := by
    intro refusal h
    exact if_pos h
  asked := by
    intro refusal h
    exact if_neg (ne_true_of_eq_false h)

theorem usageReader_failsOnValues : usageReader.FailsOnValues := by
  intro values refusal h
  change argsOf values = .error refusal at h
  unfold argsOf at h
  split at h
  · cases h
  · split at h
    · cases h
    · cases h
      rfl

/-- A loop that prints for ever, on the standard input, with a budget of three; and a budget that is
no number. -/
theorem exit_decided_cut_off :
    (∃ s, stateAfter (programOfBytes #[0x2B, 0x5B, 0x2E, 0x5D]) 4 = .ok s ∧
      (respond usageReader (oneFile #[0x2B, 0x5B, 0x2E, 0x5D] "/tmp/p" #[]).load
          ["--budget=3", "--partial", "-"]).Ends 2 s.memory.output
        (run ⟨true⟩ (programOfBytes #[0x2B, 0x5B, 0x2E, 0x5D]) 3)
          ("Program exceeded its budget of " ++ toString 3 ++ " instructions\n")) ∧
    (respond usageReader (oneFile #[] "/tmp/p" #[]).load ["--budget=x", "/tmp/p"]).Ends 1 #[] none
      "Could not deserialize 'x' to u64 for '--budget'.\n" := by
  have hreached : stateAfter (programOfBytes #[0x2B, 0x5B, 0x2E, 0x5D]) 4 =
      .ok ⟨⟨⟨#[1]⟩, 0, #[1], #[]⟩, 2, 4⟩ := by
    decide +kernel
  have hread : usageReader.read ["--budget=3", "--partial", "-"] =
      .ok ⟨"-", false, some 3, true⟩ := by
    decide +kernel
  have hends := ((exit_decided usageReader
    (oneFile #[0x2B, 0x5B, 0x2E, 0x5D] "/tmp/p" #[]).load _).1 _ hread rfl (by decide)).2
      #[0x2B, 0x5B, 0x2E, 0x5D] rfl
  have htime : ((3 : UInt64).toNat + 1 : ℕ∞) <
      haltingTime (programOfBytes #[0x2B, 0x5B, 0x2E, 0x5D]) :=
    lt_haltingTime hreached (by decide +kernel)
  have hparse : usageReader.parse ["--budget=x", "/tmp/p"] =
      .ok ⟨"/tmp/p", false, some "x", false⟩ := by
    decide +kernel
  have hrefused : usageReader.deserialize ⟨"/tmp/p", false, some "x", false⟩ =
      .error (.unreadableBudget "x") := by
    decide +kernel
  have hunread := (exit_decided usageReader (oneFile #[] "/tmp/p" #[]).load _).2.2
    usageReader_exitsWithText usageReader_failsOnValues _ _ hparse hrefused
  exact ⟨hends.timedOut (by decide +kernel) htime, hunread.1⟩

/-! ### Output that cannot be delivered -/

/-- Output that could be written is as it was. Output of a run that could not be written or flushed
makes the run end with an error that says so; its log is as it was. -/
theorem deliver_eq {m : Type → Type} [Monad m] [LawfulMonad m]
    {write : Array UInt8 → m (Except DeliveryError Unit)} (r : Response) :
    (write r.output = pure (.ok ()) → r.deliver write = pure r) ∧
    ∀ report error, r.report = some report → r.output ≠ #[] →
      write r.output = pure (.error error) → ∃ r' : Response, r.deliver write = pure r' ∧
        r'.Ends 1 #[] (some report)
          ("Error occurred while running program: " ++ error.message ++ "\n") := by
  constructor
  · intro hwrite
    unfold Response.deliver
    split
    · rfl
    · simp [hwrite]
  · intro report error hreport houtput hwrite
    refine ⟨r.undelivered error, ?_, ?_⟩
    · unfold Response.deliver
      rw [if_neg (by simpa using houtput)]
      simp [hwrite]
    · rw [Response.undelivered, hreport]
      exact ⟨rfl, rfl, rfl, fun _ => rfl⟩

end TapeMachine.Command
