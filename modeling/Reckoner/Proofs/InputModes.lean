/-
# Three ways to give lines

Lines can come as arguments, from a file or, behind prompts, from standard
input.  In all three the same lines are executed: up to and including the
first one that asks for the end, or all of them.  The transcripts of these
lines make up what is written, and in front of each stands a prompt if there
are prompts; one more prompt has been written if the input has come to its
end.  The exit code tells whether any outcome was a failure.

A session in the middle of a run is described by what the runs need of it: it
is not finished and has no request pending (`Waiting`).  A line leads from one
such session to the next unless it asks for the end (`turn_eq`), and each way
is an induction over the lines along that.
-/
import Reckoner.Proofs.InputLines
import Reckoner.Proofs.Statements

namespace Reckoner

namespace Session

/-! ## Executed lines -/

/-- A session that waits for a line. -/
structure Waiting (session : Session) : Prop where
  unfinished : session.finished = false
  idle : session.context.requests = .none

theorem waiting_ofSettings (settings : Settings) :
    (ofSettings settings).Waiting :=
  ⟨rfl, rfl⟩

theorem Waiting.runLine_finished {session : Session}
    (waiting : session.Waiting) (line : String) :
    (session.runLine line).2.finished = (session.requested line).quit := by
  rw [Session.runLine_finished waiting.idle, waiting.unfinished,
    Bool.false_or]

theorem Waiting.runLine {session : Session} (waiting : session.Waiting)
    {line : String} (stays : (session.requested line).quit = false) :
    (session.runLine line).2.Waiting where
  unfinished := (waiting.runLine_finished line).trans stays
  idle := runLine_requests waiting.idle line

/-- The lines up to and including the first one that asks for the end. -/
def executed (session : Session) (lines : List String) : List LineRun :=
  let passage := session.passage lines
  passage.take (passage.findIdx (fun run => run.requests.quit) + 1)

theorem executed_cons_of_quit {session : Session} {line : String}
    (quits : (session.requested line).quit = true) (rest : List String) :
    session.executed (line :: rest) = [⟨session, line⟩] := by
  simp [executed, passage, List.findIdx_cons, LineRun.requests, quits]

theorem executed_cons_of_stay {session : Session} {line : String}
    (stays : (session.requested line).quit = false) (rest : List String) :
    session.executed (line :: rest) =
      ⟨session, line⟩ :: (session.runLine line).2.executed rest := by
  simp [executed, passage, List.findIdx_cons, LineRun.requests, stays]

/-- Says whether a line has a failed outcome. -/
def LineRun.fails (run : LineRun) : Bool :=
  run.outcomes.any Outcome.isFailed

end Session

namespace CommandLine

open Session (LineRun Waiting)

/-! ## Transcripts in a row -/

namespace Transcript

theorem append_assoc (a b c : Transcript) : a ++ b ++ c = a ++ (b ++ c) :=
  congrArg₂ mk (String.append_assoc) (String.append_assoc)

theorem append_empty (a : Transcript) : a ++ ({} : Transcript) = a :=
  congrArg₂ mk (String.append_empty) (String.append_empty)

theorem empty_append (a : Transcript) : ({} : Transcript) ++ a = a :=
  congrArg₂ mk (String.empty_append) (String.empty_append)

/-- Transcripts one behind the other. -/
def join (texts : List Transcript) : Transcript :=
  texts.foldr (· ++ ·) {}

theorem join_singleton (text : Transcript) : join [text] = text :=
  text.append_empty

theorem out_join {α : Type} (text : α → Transcript) (parts : List α) :
    (join (parts.map text)).out =
      String.join (parts.map fun part => (text part).out) := by
  induction parts with
  | nil => rfl
  | cons part rest ih =>
      rw [List.map_cons, List.map_cons, String.join_cons, ← ih]
      rfl

theorem err_join {α : Type} (text : α → Transcript) (parts : List α) :
    (join (parts.map text)).err =
      String.join (parts.map fun part => (text part).err) := by
  induction parts with
  | nil => rfl
  | cons part rest ih =>
      rw [List.map_cons, List.map_cons, String.join_cons, ← ih]
      rfl

end Transcript

/-- What is written for a line. -/
def lineReport (run : LineRun) : Transcript :=
  report run.session.settings run.outcomes

/-- What is written for a line behind a prompt. -/
def promptedReport (run : LineRun) : Transcript := prompt ++ lineReport run

theorem promptedReport_err (run : LineRun) :
    (promptedReport run).err = (lineReport run).err :=
  String.empty_append

/-- The exit code of a run that began with `session`. -/
def exitAfter (session : Session) (runs : List LineRun) : Nat :=
  if session.failures = 0 ∧ runs.any LineRun.fails = false then 0 else 1

theorem exitAfter_ofSettings (settings : Settings) (runs : List LineRun) :
    exitAfter (.ofSettings settings) runs =
      if runs.any LineRun.fails then 1 else 0 := by
  unfold exitAfter
  cases runs.any LineRun.fails with
  | true => rfl
  | false => rfl

variable {session : Session}

/-- A line can add to the failures. -/
theorem exitAfter_cons (line : String) (runs : List LineRun) :
    exitAfter session (⟨session, line⟩ :: runs) =
      exitAfter (session.runLine line).2 runs := by
  have clean : (session.runLine line).2.failures = 0 ↔
      session.failures = 0 ∧ LineRun.fails ⟨session, line⟩ = false := by
    rw [session.runLine_failures line, Nat.add_eq_zero_iff, List.countP_eq_zero,
      LineRun.fails, List.any_eq_false]
    rfl
  unfold exitAfter
  simp only [clean, List.any_cons, Bool.or_eq_false_iff, and_assoc]

theorem exitAfter_nil (session : Session) :
    exitAfter session [] = exitCode session := by
  unfold exitAfter exitCode
  simp only [List.any_nil, and_true]

theorem turn_of_quit (waiting : session.Waiting) {line : String}
    (quits : (session.requested line).quit = true) :
    turn session line = .over
      ⟨exitCode (session.runLine line).2, lineReport ⟨session, line⟩⟩ := by
  have ended := (waiting.runLine_finished line).trans quits
  simp only [turn, ended, if_true]
  rfl

theorem turn_of_stay (waiting : session.Waiting) {line : String}
    (stays : (session.requested line).quit = false) :
    turn session line =
      .goOn (lineReport ⟨session, line⟩) (session.runLine line).2 := by
  have going := (waiting.runLine_finished line).trans stays
  simp only [turn, going, Bool.false_eq_true, if_false]
  rfl

/-! ## Runs -/

/-- Given lines are executed one after the other. -/
theorem runLines_eq (waiting : session.Waiting) (written : Transcript)
    (lines : List String) :
    runLines written session lines =
      ⟨exitAfter session (session.executed lines),
        written ++ .join ((session.executed lines).map lineReport)⟩ := by
  induction lines generalizing session written with
  | nil =>
      show Ending.mk _ written = ⟨exitAfter session [], written ++ {}⟩
      rw [exitAfter_nil, Transcript.append_empty]
  | cons line rest ih =>
      rw [runLines]
      cases quit : (session.requested line).quit with
      | true =>
          rw [turn_of_quit waiting quit, Session.executed_cons_of_quit quit,
            exitAfter_cons, exitAfter_nil, List.map_singleton,
            Transcript.join_singleton]
      | false =>
          rw [turn_of_stay waiting quit, Session.executed_cons_of_stay quit,
            exitAfter_cons, List.map_cons]
          refine (ih (waiting.runLine quit) _).trans ?_
          rw [Transcript.append_assoc]
          rfl

/-- What is written once more behind executed lines: a prompt, unless the last
of them asked for the end. -/
def lastPrompt (runs : List LineRun) : Transcript :=
  if runs.any (fun run => run.requests.quit) then {} else prompt

theorem lastPrompt_of_quit {line : String}
    (quits : (session.requested line).quit = true) :
    lastPrompt [⟨session, line⟩] = {} := by
  simp only [lastPrompt, List.any_cons, LineRun.requests, quits,
    Bool.true_or, if_true]

theorem lastPrompt_cons {line : String}
    (stays : (session.requested line).quit = false) (runs : List LineRun) :
    lastPrompt (⟨session, line⟩ :: runs) = lastPrompt runs := by
  simp only [lastPrompt, List.any_cons, LineRun.requests, stays,
    Bool.false_or]
  rfl

theorem lastPrompt_out (runs : List LineRun) :
    (lastPrompt runs).out =
      if runs.any (fun run => run.requests.quit) then "" else "> " := by
  unfold lastPrompt
  split
  · rfl
  · rfl

theorem lastPrompt_err (runs : List LineRun) : (lastPrompt runs).err = "" := by
  unfold lastPrompt
  split
  · rfl
  · rfl

/-- Lines of standard input are executed behind a prompt each, and behind one
more prompt the input has come to its end. -/
theorem converse_eq (waiting : session.Waiting) (written : Transcript)
    (lines : List String) :
    converse written session (lines.map some) =
      ⟨exitAfter session (session.executed lines),
        written ++ .join ((session.executed lines).map promptedReport) ++
          lastPrompt (session.executed lines)⟩ := by
  induction lines generalizing session written with
  | nil =>
      show Ending.mk _ (written ++ prompt) =
        ⟨exitAfter session [], written ++ {} ++ prompt⟩
      rw [exitAfter_nil, Transcript.append_empty]
  | cons line rest ih =>
      rw [List.map_cons, converse, answer]
      cases quit : (session.requested line).quit with
      | true =>
          rw [turn_of_quit waiting quit, Session.executed_cons_of_quit quit,
            exitAfter_cons, exitAfter_nil, List.map_singleton,
            Transcript.join_singleton, lastPrompt_of_quit quit,
            Transcript.append_empty, promptedReport, ← Transcript.append_assoc]
      | false =>
          rw [turn_of_stay waiting quit, Session.executed_cons_of_stay quit,
            exitAfter_cons, List.map_cons, lastPrompt_cons quit]
          refine (ih (waiting.runLine quit) _).trans ?_
          rw [promptedReport, Transcript.join, Transcript.join,
            List.foldr_cons]
          simp only [Transcript.append_assoc]

/-! ## Lines that are read back -/

theorem runLine_readBack (session : Session) (line : String) :
    session.runLine (readBack line) = session.runLine line := by
  simp only [Session.runLine, tokenize_readBack]

theorem turn_readBack (session : Session) (line : String) :
    turn session (readBack line) = turn session line := by
  simp only [turn, runLine_readBack]

theorem runLines_readBack (written : Transcript) (session : Session)
    (lines : List String) :
    runLines written session (lines.map readBack) =
      runLines written session lines := by
  induction lines generalizing session written with
  | nil => rfl
  | cons line rest ih =>
      simp only [List.map_cons, runLines, turn_readBack, ih]

theorem converse_readBack (written : Transcript) (session : Session)
    (lines : List String) :
    converse written session ((lines.map readBack).map some) =
      converse written session (lines.map some) := by
  induction lines generalizing session written with
  | nil => rfl
  | cons line rest ih =>
      simp only [List.map_cons, converse, answer, turn_readBack, ih]

/-! ## Arguments -/

theorem eq_of_form_terminator {argument : String}
    (ends : form argument = .terminator) : argument = "--" := by
  rw [← String.toList_inj]
  unfold form at ends
  split at ends
  · assumption
  · split at ends
    · cases ends
    · cases ends
  · cases ends
  · cases ends

theorem readArguments_cons {argument : String}
    (plain : form argument ≠ .terminator) (options : Options)
    (rest : List String) :
    readArguments options none (argument :: rest) =
      readArgument options argument >>= fun (options, pending) =>
        readArguments options pending rest := by
  cases shape : form argument with
  | terminator => exact absurd shape plain
  | _ => simp only [readArguments, shape]

/-- Arguments without a `--` are read to their end before others are. -/
theorem readArguments_append {arguments : List String}
    (no_terminator : "--" ∉ arguments) {before after : Options}
    {pending : Option Parameter}
    (given : readArguments before pending arguments = .ok after)
    (more : List String) :
    readArguments before pending (arguments ++ more) =
      readArguments after none more := by
  induction arguments generalizing before pending with
  | nil =>
      cases pending with
      | none =>
          cases given
          rfl
      | some p => cases given
  | cons argument rest ih =>
      have others : "--" ∉ rest := fun h =>
        no_terminator (List.mem_cons_of_mem _ h)
      have plain : form argument ≠ .terminator := by
        intro ends
        rw [eq_of_form_terminator ends] at no_terminator
        exact no_terminator List.mem_cons_self
      cases pending with
      | some p =>
          cases shape : form argument with
          | line =>
              simp only [List.cons_append, readArguments, shape] at given ⊢
              cases assigned : assign before argument p with
              | ok options =>
                  rw [assigned] at given
                  exact ih others given
              | error stop =>
                  rw [assigned] at given
                  cases given
          | terminator => exact absurd shape plain
          | long name value =>
              simp only [readArguments, shape] at given
              cases given
          | short names =>
              simp only [readArguments, shape] at given
              cases given
      | none =>
          rw [readArguments_cons plain] at given
          rw [List.cons_append, readArguments_cons plain]
          cases read : readArgument before argument with
          | ok result =>
              rw [read] at given
              exact ih others given
          | error stop =>
              rw [read] at given
              cases given

/-- Behind a `--` stand lines, whatever they look like. -/
theorem ofArguments_terminator {arguments : List String} {options : Options}
    (given : Options.ofArguments arguments = .ok options)
    (no_terminator : "--" ∉ arguments) (no_file : options.file = none)
    (lines : List String) :
    Options.ofArguments (arguments ++ "--" :: lines) =
      .ok { options with lines := options.lines ++ lines } := by
  cases read : readArguments {} none arguments with
  | error stop =>
      rw [Options.ofArguments, read] at given
      cases given
  | ok early =>
      rw [Options.ofArguments, read] at given
      have same : early = options := by
        by_cases both : (early.file.isSome && !early.lines.isEmpty) = true
        · simp only [bind, Except.bind, both, if_true] at given
          cases given
        · simp only [bind, Except.bind, both] at given
          exact Except.ok.inj given
      rw [same] at read
      have more := readArguments_append no_terminator read ("--" :: lines)
      rw [Options.ofArguments, more]
      simp only [readArguments, form, bind, Except.bind, no_file]
      rfl

/-! ## The three ways -/

section Options

variable {options : Options} {lines : List String}

theorem runOptions_lines (no_file : options.file = none)
    (nonempty : lines ≠ []) (readFile : String → Option ByteArray)
    (input : ByteArray) :
    runOptions { options with lines } readFile input =
      let executed := (Session.ofSettings options.settings).executed lines
      ⟨exitAfter (.ofSettings options.settings) executed,
        .join (executed.map lineReport)⟩ := by
  simp only [runOptions, no_file]
  rw [if_neg (by simpa using nonempty)]
  refine (runLines_eq (Session.waiting_ofSettings _) {} lines).trans ?_
  rw [Transcript.empty_append]
  rfl

theorem runOptions_file (clean : ∀ line ∈ lines, '\n' ∉ line.toList)
    {path : String} {readFile : String → Option ByteArray}
    (stored : readFile path = some (written lines).toUTF8)
    (input : ByteArray) :
    runOptions { options with file := some path } readFile input =
      let executed := (Session.ofSettings options.settings).executed lines
      ⟨exitAfter (.ofSettings options.settings) executed,
        .join (executed.map lineReport)⟩ := by
  simp only [runOptions, stored, Option.bind_some, fromUTF8?_toUTF8,
    textLines_written clean, runLines_readBack]
  refine (runLines_eq (Session.waiting_ofSettings _) {} lines).trans ?_
  rw [Transcript.empty_append]
  rfl

theorem runOptions_input (no_file : options.file = none)
    (no_lines : options.lines = [])
    (clean : ∀ line ∈ lines, '\n' ∉ line.toList)
    (readFile : String → Option ByteArray) :
    runOptions options readFile (written lines).toUTF8 =
      let executed := (Session.ofSettings options.settings).executed lines
      ⟨exitAfter (.ofSettings options.settings) executed,
        .join (executed.map promptedReport) ++ lastPrompt executed⟩ := by
  simp only [runOptions, no_file, no_lines, List.isEmpty_nil, if_true,
    streamLines_written clean, converse_readBack]
  refine (converse_eq (Session.waiting_ofSettings _) {} lines).trans ?_
  rw [Transcript.empty_append]

end Options

/-- **The three ways to give lines agree.**  The options are given by any
arguments without a `--`.  The same lines, as arguments behind a `--`, in a
file, or as the input behind prompts, are executed up to and including the
first that asks for the end.  What is written is what is written for the
executed lines, with a `> ` in front of each behind prompts, and one more if no
executed line asked for the end.  The exit code is zero if no executed line
failed, and one otherwise. -/
theorem run_modes_agree {arguments fileArguments : List String}
    {options : Options} (given : Options.ofArguments arguments = .ok options)
    (no_terminator : "--" ∉ arguments) (no_file : options.file = none)
    (no_lines : options.lines = []) {path : String}
    (file_given : Options.ofArguments fileArguments =
      .ok { options with file := some path })
    {lines : List String} (nonempty : lines ≠ [])
    (clean : ∀ line ∈ lines, '\n' ∉ line.toList)
    {readFile : String → Option ByteArray}
    (stored : readFile path = some (written lines).toUTF8)
    (input : ByteArray) :
    let executed := (Session.ofSettings options.settings).executed lines
    let asArguments := run (arguments ++ "--" :: lines) readFile input
    let asFile := run fileArguments readFile input
    let asInput := run arguments readFile (written lines).toUTF8
    let quits := executed.any fun run => run.requests.quit
    asFile = asArguments ∧
      asInput.exit = asArguments.exit ∧
      asInput.transcript.err = asArguments.transcript.err ∧
      asArguments.transcript.err =
        String.join (executed.map fun run => (lineReport run).err) ∧
      asArguments.transcript.out =
        String.join (executed.map fun run => (lineReport run).out) ∧
      asInput.transcript.out =
        String.join (executed.map fun run => "> " ++ (lineReport run).out) ++
          (if quits then "" else "> ") ∧
      asArguments.exit = if executed.any LineRun.fails then 1 else 0 := by
  intro executed asArguments asFile asInput quits
  have by_arguments : asArguments =
      ⟨exitAfter (.ofSettings options.settings) executed,
        .join (executed.map lineReport)⟩ := by
    have read := ofArguments_terminator given no_terminator no_file lines
    rw [no_lines, List.nil_append] at read
    simp only [asArguments, run, read]
    exact runOptions_lines no_file nonempty readFile input
  have by_file : asFile = asArguments := by
    rw [by_arguments]
    simp only [asFile, run, file_given]
    exact runOptions_file clean stored input
  have by_input : asInput =
      ⟨exitAfter (.ofSettings options.settings) executed,
        .join (executed.map promptedReport) ++ lastPrompt executed⟩ := by
    simp only [asInput, run, given]
    exact runOptions_input no_file no_lines clean readFile
  refine ⟨by_file, ?_, ?_, ?_, ?_, ?_, ?_⟩
  · rw [by_input, by_arguments]
  · rw [by_input, by_arguments]
    show (Transcript.join _).err ++ (lastPrompt executed).err = _
    rw [Transcript.err_join, Transcript.err_join, lastPrompt_err,
      String.append_empty]
    simp only [promptedReport_err]
  · rw [by_arguments]
    exact Transcript.err_join _ _
  · rw [by_arguments]
    exact Transcript.out_join _ _
  · rw [by_input]
    show (Transcript.join _).out ++ (lastPrompt executed).out = _
    rw [Transcript.out_join, lastPrompt_out]
    rfl
  · rw [by_arguments]
    exact exitAfter_ofSettings _ _

theorem run_modes_agree_quit :
    let arguments := ["--history", "2", "-r", "hex"]
    let lines := ["-5; $ + 1", "x\r", "quit(", "7"]
    let readFile (path : String) : Option ByteArray :=
      if path = "sums" then some (written lines).toUTF8 else none
    let asArguments := run (arguments ++ "--" :: lines) readFile .empty
    let asFile := run ("-f" :: "sums" :: arguments) readFile .empty
    let asInput := run arguments readFile (written lines).toUTF8
    asFile = asArguments ∧
      asInput.exit = asArguments.exit ∧
      asInput.transcript.err = asArguments.transcript.err ∧
      asArguments.transcript.out = "0xfffffffb\n0xfffffffc\n" ∧
      asInput.transcript.out = "> 0xfffffffb\n0xfffffffc\n> > " ∧
      asArguments.exit = 1 := by
  intro arguments lines readFile asArguments asFile asInput
  have stored : readFile "sums" = some (written lines).toUTF8 := if_pos rfl
  obtain ⟨file, exit, err, -, out, prompted, code⟩ :=
    @run_modes_agree arguments ("-f" :: "sums" :: arguments)
      { capacity := some 2, radix := some .hex } rfl (by decide) rfl rfl
      "sums" rfl lines (by decide) (by decide) readFile stored .empty
  refine ⟨file, exit, err, out.trans ?_, prompted.trans ?_, code.trans ?_⟩
  · decide +kernel
  · decide +kernel
  · decide +kernel

end CommandLine

end Reckoner
