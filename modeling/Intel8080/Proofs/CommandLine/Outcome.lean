import Intel8080.CommandLine
import Intel8080.Proofs.Invaders.HeadlessRuns
import Intel8080.Proofs.Text.Numerals

/-!
# The outcome of a command line

Which arguments succeed and what they print, and which of five checks is the first to fail: the
system, the frames, the path, the file, the run. Every command line comes to one of these ends,
so nothing but a success prints, whatever a run has put out before it failed.
-/

namespace Intel8080.CommandLine

variable {readFile : String → Except String ByteArray} {arguments : List String}

/-! ## Requests -/

def diagnosticNames : List String := ["diag", "cpudiag"]

def arcadeNames : List String := ["space_invaders", "space-invaders", "invaders"]

def systemName (arguments : List String) : String :=
  arguments[0]?.getD ""

def programPath (arguments : List String) : String :=
  arguments[1]?.getD ""

/-- The third argument gives the number of frames, which is 600 without it. -/
inductive GivesFrames (arguments : List String) : Nat → Prop where
  | byDefault (absent : arguments[2]? = none) : GivesFrames arguments 600
  | numeral {text : String} {frames : Nat} (given : arguments[2]? = some text)
      (denotes : Decimal.Denotes frameCountBound text frames) : GivesFrames arguments frames

/-- The first two checks succeed: the system is known, and it is given its frames if it takes
any. -/
inductive Selects (arguments : List String) : Command → Prop where
  | diagnostic (named : systemName arguments ∈ diagnosticNames) : Selects arguments .diagnostic
  | invaders {frames : Nat} (named : systemName arguments ∈ arcadeNames)
      (given : GivesFrames arguments frames) : Selects arguments (.invaders frames)

/-! ## Ends -/

/-- All checks succeed, with what is printed. -/
inductive Succeeds (readFile : String → Except String ByteArray) (arguments : List String) :
    String → Prop where
  | diagnostic {rom : ByteArray} {report : Diagnostic.Report}
      (selects : Selects arguments .diagnostic) (given : programPath arguments ≠ "")
      (file : readFile (programPath arguments) = .ok rom)
      (ended : (Diagnostic.run rom .cpudiag (.opened none)).1 = .ok report) :
      Succeeds readFile arguments (report.output ++ "\n")
  | invaders {frames : Nat} {rom : ByteArray} {summary : Invaders.Summary}
      (selects : Selects arguments (.invaders frames)) (given : programPath arguments ≠ "")
      (file : readFile (programPath arguments) = .ok rom)
      (ended : (Invaders.runHeadless rom frames (.opened none)).1 = .ok summary) :
      Succeeds readFile arguments
        (s!"ran {summary.frames} frames ({summary.cycles} cycles), " ++
          s!"{summary.litPixels} pixels lit\n")

/-- The first check that fails, with its error. -/
inductive Fails (readFile : String → Except String ByteArray) (arguments : List String) :
    Failure → Prop where
  | system (unknown : systemName arguments ∉ diagnosticNames ++ arcadeNames) :
      Fails readFile arguments (.unknownSystem (systemName arguments))
  | frames {text : String} {error : Decimal.ReadError}
      (named : systemName arguments ∈ arcadeNames) (given : arguments[2]? = some text)
      (refused : Decimal.read frameCountBound text = .error error) :
      Fails readFile arguments (.invalidFrameCount text error)
  | path {command : Command} (selects : Selects arguments command)
      (absent : programPath arguments = "") : Fails readFile arguments .noPath
  | file {command : Command} {reason : String} (selects : Selects arguments command)
      (given : programPath arguments ≠ "")
      (refused : readFile (programPath arguments) = .error reason) :
      Fails readFile arguments (.unreadableFile (programPath arguments) reason)
  | diagnostic {rom : ByteArray} {failure : Diagnostic.Failure}
      (selects : Selects arguments .diagnostic) (given : programPath arguments ≠ "")
      (file : readFile (programPath arguments) = .ok rom)
      (ended : (Diagnostic.run rom .cpudiag (.opened none)).1 = .error failure) :
      Fails readFile arguments (.diagnostic failure)
  | invaders {frames : Nat} {rom : ByteArray} {failure : Invaders.RunFailure}
      (selects : Selects arguments (.invaders frames)) (given : programPath arguments ≠ "")
      (file : readFile (programPath arguments) = .ok rom)
      (ended : (Invaders.runHeadless rom frames (.opened none)).1 = .error failure) :
      Fails readFile arguments (.invaders failure)

/-! ## Checking the arguments -/

theorem readFrames_eq_ok_iff {frames : Nat} :
    readFrames arguments[2]? = .ok frames ↔ GivesFrames arguments frames := by
  constructor
  · intro read
    cases third : arguments[2]? with
    | none =>
        rw [third] at read
        cases read
        exact .byDefault third
    | some text =>
        rw [third, readFrames] at read
        cases numeral : Decimal.read frameCountBound text with
        | error error =>
            rw [numeral] at read
            cases read
        | ok n =>
            rw [numeral] at read
            cases read
            exact .numeral third ((Decimal.read_eq_ok_iff (by decide)).mp numeral)
  · intro gives
    cases gives with
    | byDefault absent => rw [absent]; rfl
    | numeral given denotes =>
        rw [given, readFrames, (Decimal.read_eq_ok_iff (by decide)).mpr denotes]

theorem not_diagnostic_of_arcade {name : String} (arcade : name ∈ arcadeNames) :
    name ∉ diagnosticNames := by
  have table : ∀ name ∈ arcadeNames, name ∉ diagnosticNames := by decide
  exact table name arcade

theorem readCommand_eq (system : String) (frames : Option String) :
    readCommand system frames =
      if system ∈ diagnosticNames then .ok .diagnostic
      else if system ∈ arcadeNames then (readFrames frames).map .invaders
      else .error (.unknownSystem system) := by
  unfold readCommand diagnosticNames arcadeNames
  cases readFrames frames <;> rfl

theorem ofArguments_eq (arguments : List String) :
    Request.ofArguments arguments =
      match readCommand (systemName arguments) arguments[2]? with
      | .error failure => .error failure
      | .ok command =>
          if programPath arguments = "" then .error .noPath
          else .ok ⟨command, programPath arguments⟩ := by
  unfold Request.ofArguments systemName programPath
  cases readCommand (arguments[0]?.getD "") arguments[2]? with
  | error failure => rfl
  | ok command =>
      simp only [bind, Except.bind, String.isEmpty_iff]
      split <;> rfl

theorem readCommand_eq_ok_iff {command : Command} :
    readCommand (systemName arguments) arguments[2]? = .ok command ↔
      Selects arguments command := by
  rw [readCommand_eq]
  constructor
  · intro read
    split at read
    · next named =>
        cases read
        exact .diagnostic named
    · split at read
      · next named =>
          cases given : readFrames arguments[2]? with
          | error failure =>
              rw [given] at read
              cases read
          | ok frames =>
              rw [given] at read
              cases read
              exact .invaders named (readFrames_eq_ok_iff.mp given)
      · cases read
  · intro selects
    cases selects with
    | diagnostic named => rw [if_pos named]
    | invaders named given =>
        rw [if_neg (not_diagnostic_of_arcade named), if_pos named,
          readFrames_eq_ok_iff.mpr given]
        rfl

/-! ## Outcomes -/

def outcome (readFile : String → Except String ByteArray) (arguments : List String) : Outcome :=
  Id.run (run (m := Id) readFile arguments)

def result (readFile : String → Except String ByteArray) (arguments : List String) :
    Except Failure String :=
  match Request.ofArguments arguments with
  | .error failure => .error failure
  | .ok request =>
      match readFile request.path with
      | .error reason => .error (.unreadableFile request.path reason)
      | .ok rom => request.command.run rom

theorem outcome_eq (readFile : String → Except String ByteArray) (arguments : List String) :
    outcome readFile arguments = .ofResult (result readFile arguments) := by
  unfold outcome run result
  cases Request.ofArguments arguments with
  | error failure => rfl
  | ok request =>
      dsimp only
      cases readFile request.path <;> rfl

/-- In any monad at most one file is read, and the outcome is that for its contents. -/
theorem run_eq_bind {m : Type → Type} [Monad m]
    (readFile : String → m (Except String ByteArray)) (arguments : List String) :
    run readFile arguments =
      match Request.ofArguments arguments with
      | .error failure => pure (.ofResult (.error failure))
      | .ok request => readFile request.path >>= fun file =>
          pure (outcome (fun _ => file) arguments) := by
  unfold run
  simp only [outcome_eq, result]
  cases Request.ofArguments arguments with
  | error failure => rfl
  | ok request =>
      refine congrArg (readFile request.path >>= ·) (funext fun file => ?_)
      cases file <;> rfl

theorem result_of_succeeds {output : String} (succeeds : Succeeds readFile arguments output) :
    result readFile arguments = .ok output := by
  rw [result, ofArguments_eq]
  cases succeeds with
  | diagnostic selects given file ended =>
      simp only [readCommand_eq_ok_iff.mpr selects, if_neg given, file, Command.run, ended]
  | invaders selects given file ended =>
      simp only [readCommand_eq_ok_iff.mpr selects, if_neg given, file, Command.run, ended]

theorem readCommand_of_unknown (unknown : systemName arguments ∉ diagnosticNames ++ arcadeNames) :
    readCommand (systemName arguments) arguments[2]? =
      .error (.unknownSystem (systemName arguments)) := by
  rw [List.mem_append, not_or] at unknown
  rw [readCommand_eq, if_neg unknown.1, if_neg unknown.2]

theorem readCommand_of_refused {text : String} {error : Decimal.ReadError}
    (named : systemName arguments ∈ arcadeNames) (given : arguments[2]? = some text)
    (refused : Decimal.read frameCountBound text = .error error) :
    readCommand (systemName arguments) arguments[2]? = .error (.invalidFrameCount text error) := by
  rw [readCommand_eq, if_neg (not_diagnostic_of_arcade named), if_pos named, given, readFrames,
    refused]
  rfl

theorem result_of_fails {failure : Failure} (fails : Fails readFile arguments failure) :
    result readFile arguments = .error failure := by
  rw [result, ofArguments_eq]
  cases fails with
  | system unknown => simp only [readCommand_of_unknown unknown]
  | frames named given refused => simp only [readCommand_of_refused named given refused]
  | path selects absent =>
      simp only [readCommand_eq_ok_iff.mpr selects, if_pos absent]
  | file selects given refused =>
      simp only [readCommand_eq_ok_iff.mpr selects, if_neg given, refused]
  | diagnostic selects given file ended =>
      simp only [readCommand_eq_ok_iff.mpr selects, if_neg given, file, Command.run, ended]
  | invaders selects given file ended =>
      simp only [readCommand_eq_ok_iff.mpr selects, if_neg given, file, Command.run, ended]

theorem exists_selects_or_fails (readFile : String → Except String ByteArray)
    (arguments : List String) :
    (∃ command, Selects arguments command) ∨ ∃ failure, Fails readFile arguments failure := by
  by_cases diagnostic : systemName arguments ∈ diagnosticNames
  · exact .inl ⟨.diagnostic, .diagnostic diagnostic⟩
  · by_cases arcade : systemName arguments ∈ arcadeNames
    · cases third : arguments[2]? with
      | none => exact .inl ⟨.invaders 600, .invaders arcade (.byDefault third)⟩
      | some text =>
          cases read : Decimal.read frameCountBound text with
          | error error => exact .inr ⟨_, .frames arcade third read⟩
          | ok frames =>
              have denotes := (Decimal.read_eq_ok_iff (by decide)).mp read
              exact .inl ⟨.invaders frames, .invaders arcade (.numeral third denotes)⟩
    · refine .inr ⟨_, .system ?_⟩
      rw [List.mem_append]
      exact fun known => known.elim diagnostic arcade

/-- Either all checks succeed or there is a first one that fails. -/
theorem succeeds_or_fails (readFile : String → Except String ByteArray)
    (arguments : List String) :
    (∃ output, Succeeds readFile arguments output) ∨
      ∃ failure, Fails readFile arguments failure := by
  rcases exists_selects_or_fails readFile arguments with ⟨command, selects⟩ | fails
  · by_cases absent : programPath arguments = ""
    · exact .inr ⟨_, .path selects absent⟩
    · cases file : readFile (programPath arguments) with
      | error reason => exact .inr ⟨_, .file selects absent file⟩
      | ok rom =>
          cases command with
          | diagnostic =>
              cases ended : (Diagnostic.run rom .cpudiag (.opened none)).1 with
              | ok report => exact .inl ⟨_, .diagnostic selects absent file ended⟩
              | error failure => exact .inr ⟨_, .diagnostic selects absent file ended⟩
          | invaders frames =>
              cases ended : (Invaders.runHeadless rom frames (.opened none)).1 with
              | ok summary => exact .inl ⟨_, .invaders selects absent file ended⟩
              | error failure => exact .inr ⟨_, .invaders selects absent file ended⟩
  · exact .inr fails

/-- Only the first three arguments are looked at, and the third only for the arcade machine. -/
theorem outcome_congr {others : List String} (system : others[0]? = arguments[0]?)
    (path : others[1]? = arguments[1]?)
    (frames : systemName arguments ∉ diagnosticNames → others[2]? = arguments[2]?) :
    outcome readFile others = outcome readFile arguments := by
  have sameSystem : systemName others = systemName arguments := by
    rw [systemName, systemName, system]
  have samePath : programPath others = programPath arguments := by
    rw [programPath, programPath, path]
  have sameCommand : readCommand (systemName others) others[2]? =
      readCommand (systemName arguments) arguments[2]? := by
    rw [sameSystem, readCommand_eq, readCommand_eq]
    by_cases diagnostic : systemName arguments ∈ diagnosticNames
    · rw [if_pos diagnostic, if_pos diagnostic]
    · rw [frames diagnostic]
  rw [outcome_eq, outcome_eq, result, result, ofArguments_eq, ofArguments_eq, sameCommand,
    samePath]

/-- A command line succeeds, prints what its run has put out, and exits with zero, or there is
one check that is the first to fail, and it prints nothing, reports the failure, and exits with
one. Arguments after the third make no difference, nor does the third of a diagnostic run. -/
theorem command_line_outcome (readFile : String → Except String ByteArray)
    (arguments : List String) :
    (∀ output, Succeeds readFile arguments output →
      outcome readFile arguments = ⟨0, output, ""⟩) ∧
    (∀ failure, Fails readFile arguments failure →
      outcome readFile arguments = ⟨1, "", failure.report⟩ ∧
        ∀ other, Fails readFile arguments other → other = failure) ∧
    ((∃ output, Succeeds readFile arguments output) ∨
      ∃ failure, Fails readFile arguments failure) ∧
    ((outcome readFile arguments).exitCode = 0 ↔
      ∃ output, Succeeds readFile arguments output) ∧
    ∀ others : List String, others[0]? = arguments[0]? → others[1]? = arguments[1]? →
      (systemName arguments ∉ diagnosticNames → others[2]? = arguments[2]?) →
      outcome readFile others = outcome readFile arguments := by
  refine ⟨?_, ?_, succeeds_or_fails readFile arguments, ⟨fun exits => ?_, ?_⟩,
    fun others => outcome_congr⟩
  · intro output succeeds
    rw [outcome_eq, result_of_succeeds succeeds, Outcome.ofResult]
  · intro failure fails
    refine ⟨by rw [outcome_eq, result_of_fails fails, Outcome.ofResult], fun other otherFails => ?_⟩
    exact Except.error.inj ((result_of_fails otherFails).symm.trans (result_of_fails fails))
  · rcases succeeds_or_fails readFile arguments with succeeds | ⟨failure, fails⟩
    · exact succeeds
    · have exitsWithOne : (1 : UInt32) = 0 := by
        rwa [outcome_eq, result_of_fails fails] at exits
      exact absurd exitsWithOne (by decide)
  · rintro ⟨output, succeeds⟩
    rw [outcome_eq, result_of_succeeds succeeds, Outcome.ofResult]

/-- No frame of an empty program is a success, a signed count is refused before the missing path
is, and a diagnostic run does not look at it. -/
theorem command_line_outcome_unframed :
    (∃ summary : Invaders.Summary, summary.frames = 0 ∧ summary.cycles = 0 ∧
      outcome (fun _ => .ok .empty) ["invaders", "empty", "0", "more"] =
        ⟨0, s!"ran {summary.frames} frames ({summary.cycles} cycles), " ++
          s!"{summary.litPixels} pixels lit\n", ""⟩) ∧
    outcome (fun _ => .error "gone") ["invaders", "", "-5"] =
      ⟨1, "", "Error: invalid frame count '-5'\n\n" ++
        "Caused by:\n    invalid digit found in string\n"⟩ ∧
    outcome (fun _ => .error "gone") ["diag", "file", "-5"] =
      ⟨1, "", "Error: Failed to read 'file'\n\nCaused by:\n    gone\n"⟩ := by
  refine ⟨?_, ?_, ?_⟩
  · obtain ⟨succeeded, -⟩ :=
      command_line_outcome (fun _ => .ok .empty) ["invaders", "empty", "0", "more"]
    have small : ByteArray.empty.size ≤ Memory.addressSpace := Nat.zero_le _
    obtain ⟨start, boots⟩ := Invaders.exists_boots_of_le small (.opened none)
    have frames : GivesFrames ["invaders", "empty", "0", "more"] 0 :=
      .numeral rfl ((Decimal.read_eq_ok_iff (by decide)).mp rfl)
    have ended : (Invaders.runHeadless .empty 0 (.opened none)).1 =
        .ok ⟨0, 0, start.litPixels⟩ := boots.runHeadless_eq 0
    exact ⟨⟨0, 0, start.litPixels⟩, rfl, rfl,
      succeeded _ (.invaders (.invaders (by decide) frames) (by decide) rfl ended)⟩
  · obtain ⟨-, failed, -⟩ := command_line_outcome (fun _ => .error "gone") ["invaders", "", "-5"]
    have report : (Failure.invalidFrameCount "-5" .invalidDigit).report =
        "Error: invalid frame count '-5'\n\n" ++
          "Caused by:\n    invalid digit found in string\n" := by decide +kernel
    rw [← report]
    exact (failed _ (.frames (by decide) rfl rfl)).1
  · obtain ⟨-, failed, -⟩ :=
      command_line_outcome (fun _ => .error "gone") ["diag", "file", "-5"]
    have report : (Failure.unreadableFile "file" "gone").report =
        "Error: Failed to read 'file'\n\nCaused by:\n    gone\n" := by decide +kernel
    rw [← report]
    exact (failed _ (.file (.diagnostic (by decide)) (by decide) rfl)).1

end Intel8080.CommandLine
