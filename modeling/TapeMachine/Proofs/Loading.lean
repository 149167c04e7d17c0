import TapeMachine.Command.Response
import TapeMachine.Proofs.Scan
import TapeMachine.Proofs.Symbols

/-!
# Where a program is read from

What is answered to a command line depends on the bytes that are loaded only through the program in
them, however the arguments are read and whatever there is to load. The main statement,
`only_symbols_matter`, puts this together with what the program in some bytes is.
-/

namespace TapeMachine.Command

variable {ε : Type} {reader : ArgumentReader ε} {arguments : List String} {args : Args}
  {path : String} {s : Surroundings Id} {bytes : Array UInt8}

/-! ### Loading -/

lemma Surroundings.load_standardInput (s : Surroundings Id) :
    s.load standardInput = s.input.mapError .cannotRead := rfl

lemma Surroundings.load_of_ne (hpath : path ≠ standardInput) : s.load path =
    match s.file path with
    | .error cause => .error (.cannotOpen path cause)
    | .ok contents => contents.mapError .cannotRead := by
  unfold load
  rw [if_neg hpath]
  rfl

lemma mapError_eq_error_iff {contents : Except SystemError (Array UInt8)} {error : LoadError} :
    contents.mapError .cannotRead = .error error ↔
      ∃ cause, contents = .error cause ∧ error = .cannotRead cause := by
  cases contents with
  | ok bytes => simp [Except.mapError]
  | error cause => simp [Except.mapError, eq_comm]

/-- What goes wrong is told by what was tried: a file cannot be opened, or what was opened cannot be
read. -/
theorem Surroundings.load_eq_error_iff {error : LoadError} : s.load path = .error error ↔
    (path = standardInput ∧ ∃ cause, s.input = .error cause ∧ error = .cannotRead cause) ∨
    (path ≠ standardInput ∧
      ((∃ cause, s.file path = .error cause ∧ error = .cannotOpen path cause) ∨
        ∃ cause, s.file path = .ok (.error cause) ∧ error = .cannotRead cause)) := by
  by_cases hpath : path = standardInput
  · subst hpath
    rw [load_standardInput, mapError_eq_error_iff]
    simp
  · rw [load_of_ne hpath]
    simp only [hpath, false_and, false_or, ne_eq, not_false_eq_true, true_and]
    cases hfile : s.file path with
    | error cause =>
      constructor
      · intro h
        cases h
        exact Or.inl ⟨cause, rfl, rfl⟩
      · rintro (⟨_, hcause, rfl⟩ | ⟨_, hcause, -⟩) <;> cases hcause
        rfl
    | ok contents =>
      refine mapError_eq_error_iff.trans ⟨?_, ?_⟩
      · rintro ⟨cause, rfl, rfl⟩
        exact Or.inr ⟨cause, rfl, rfl⟩
      · rintro (⟨_, hcause, -⟩ | ⟨cause, hcause, rfl⟩) <;> cases hcause
        exact ⟨cause, rfl, rfl⟩

/-! ### The answer -/

lemma Args.answer_withProgram (args : Args) (path : String) (program : Program) :
    { args with program := path }.answer program = args.answer program := rfl

/-- Bytes are read as the text that they spell, damaged or not, and the instructions of the program
are what the symbol bytes stand for, one by one. So the symbols of any instructions are read as
these instructions, and a command line has the same answer if other bytes with the same symbols are
loaded, or if the bytes are the standard input and `-` is in the place of the path. -/
theorem only_symbols_matter :
    (∀ bytes text, Utf8.decode bytes = text ↔ Utf8.Spelled bytes.toList text.toList) ∧
    (∀ bytes, (programOfBytes bytes).toList.map some = (symbolsOf bytes.toList).map instrOf) ∧
    (∀ instrs, programOfBytes (encodeSource instrs).toUTF8.data = .ofList instrs) ∧
    ∀ {ε : Type} (reader : ArgumentReader ε) arguments args, reader.read arguments = .ok args →
      (∀ load load' bytes bytes', load args.program = .ok bytes →
        load' args.program = .ok bytes' → symbolsOf bytes.toList = symbolsOf bytes'.toList →
          respond reader load' arguments = respond reader load arguments) ∧
      (reader.TakesInput → ∃ pre post, arguments = pre ++ args.program :: post ∧
        ∀ (s s' : Surroundings Id) bytes, s.load args.program = .ok bytes → s'.input = .ok bytes →
          respond reader s'.load (pre ++ standardInput :: post) =
            respond reader s.load arguments) := by
  refine ⟨fun bytes text => Utf8.spelled_iff_decode.symm, map_some_programOfBytes,
    programOfBytes_encodeSource, fun reader arguments args hread => ⟨?_, fun hinput => ?_⟩⟩
  · intro load load' bytes bytes' hload hload' hsymbols
    rw [respond_of_loaded hread hload, respond_of_loaded hread hload',
      programOfBytes_congr hsymbols]
  · obtain ⟨pre, post, harguments, hread'⟩ := hinput arguments args hread
    refine ⟨pre, post, harguments, fun s s' bytes hload hbytes => ?_⟩
    have hload' : s'.load standardInput = .ok bytes := by
      rw [s'.load_standardInput, hbytes]
      rfl
    rw [respond_of_loaded hread hload, respond_of_loaded hread' hload', args.answer_withProgram]

/-- Surroundings with some standard input, and one file that can be read. -/
def oneFile (input : Array UInt8) (path : String) (contents : Array UInt8) : Surroundings Id where
  input := .ok input
  file other := if other = path then .ok (.ok contents) else .error .noSuchFile

/-- A program file with damaged bytes in front of its symbols, its symbols alone, and the damaged
bytes on the standard input. -/
theorem only_symbols_matter_damaged :
    respond usageReader (oneFile #[] "/tmp/p" #[0x2B, 0x2E]).load ["--budget=9", "/tmp/p"] =
      respond usageReader (oneFile #[] "/tmp/p" #[0xE2, 0x2B, 0xF0, 0x9F, 0x2E, 0xC3]).load
        ["--budget=9", "/tmp/p"] ∧
    ∃ pre post, ["--budget=9", "/tmp/p"] = pre ++ "/tmp/p" :: post ∧
      respond usageReader (oneFile #[0xE2, 0x2B, 0xF0, 0x9F, 0x2E, 0xC3] "/tmp/p" #[]).load
          (pre ++ "-" :: post) =
        respond usageReader (oneFile #[] "/tmp/p" #[0xE2, 0x2B, 0xF0, 0x9F, 0x2E, 0xC3]).load
          ["--budget=9", "/tmp/p"] := by
  have hload (input contents : Array UInt8) :
      (oneFile input "/tmp/p" contents).load "/tmp/p" = Except.ok contents := by
    rw [Surroundings.load_of_ne (by decide)]
    rfl
  have hread : usageReader.read ["--budget=9", "/tmp/p"] =
      .ok ⟨"/tmp/p", false, some 9, false⟩ := by
    decide +kernel
  obtain ⟨hbytes, hinput⟩ := only_symbols_matter.2.2.2 usageReader _ _ hread
  obtain ⟨pre, post, hsplit, hsame⟩ := hinput usageReader_takesInput
  exact ⟨hbytes _ _ _ _ (hload _ _) (hload _ _) (by decide), pre, post, hsplit,
    hsame _ (oneFile #[0xE2, 0x2B, 0xF0, 0x9F, 0x2E, 0xC3] "/tmp/p" #[]) _ (hload _ _) rfl⟩

end TapeMachine.Command
