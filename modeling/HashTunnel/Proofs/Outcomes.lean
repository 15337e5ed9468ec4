import HashTunnel.Engine.Command
import HashTunnel.Proofs.Trimming
import HashTunnel.Proofs.Utf8
import HashTunnel.Tunnel

/-! # What a run of a program means

A program cannot be started, or it exits with a code and leaves two sequences of octets, or it comes to another end: by a
signal, or by one that the system does not tell. Which result an expansion has is decided by this alone, and so are its
warnings (`Expansion.TellsOf`). A program that copies its input is then no other engine than the one that leaves texts as
they are (`engine_tellsOf`).
-/

namespace HashTunnel

theorem Text.isEmpty_trimEnd (line : Text) : (trimEnd line).isEmpty = line.all isBlank := by
  rw [Bool.eq_iff_iff, List.isEmpty_iff, trimEnd_eq_rdropWhile, List.rdropWhile_eq_nil_iff, List.all_eq_true]

/-- Only lines with something on them are reported, each without the blanks at its end. -/
theorem diagnostics_eq (stderr : Bytes) :
    diagnostics stderr =
      ((Text.lines (Utf8.decodeLossy stderr)).filter (·.any (!Text.isBlank ·))).map Text.trimEnd := by
  rw [diagnostics, List.filter_map]
  congr 1
  refine List.filter_congr fun line _ => ?_
  rw [Function.comp_apply, Text.isEmpty_trimEnd, List.not_all_eq_any_not]

/-- Holds of an expansion that gives account of a launch of the program `program`. Octets are UTF-8 if a string can have
    them in memory. -/
structure Expansion.TellsOf (expansion : Expansion) (program : Text) (launch : Launch) : Prop where
  ok : ∀ text, expansion.result = .ok text ↔ ∃ stderr, launch = .exited ⟨0, text.utf8Encode.data.toList, stderr⟩
  notStarted : ∀ name error, expansion.result = .error (.notStarted name error) ↔
    launch = .refused error ∧ name = program
  failed : ∀ name code complaint, expansion.result = .error (.failed name (.code code) complaint) ↔
    code ≠ 0 ∧ name = program ∧ ∃ stdout stderr, launch = .exited ⟨code, stdout, stderr⟩ ∧
      complaint = Text.trim (Utf8.decodeLossy stderr)
  killed : ∀ name signal coreDumped complaint,
    expansion.result = .error (.failed name (.signal signal coreDumped) complaint) ↔
      name = program ∧ ∃ stdout stderr, launch = .killed signal coreDumped stdout stderr ∧
        complaint = Text.trim (Utf8.decodeLossy stderr)
  lost : ∀ reason, expansion.result = .error (.unreadable reason) ↔ ∃ error, launch = .lost error ∧ reason = error.message
  notUtf8 : expansion.result = .error .notUtf8 ↔
    ∃ stdout stderr, launch = .exited ⟨0, stdout, stderr⟩ ∧ ∀ text : Text, stdout ≠ text.utf8Encode.data.toList
  /-- A warning for each line of the standard error with something on it. -/
  warned : ∀ stdout stderr, launch = .exited ⟨0, stdout, stderr⟩ → expansion.warnings =
    ((Text.lines (Utf8.decodeLossy stderr)).filter (·.any (!Text.isBlank ·))).map fun line =>
      program ++ ": ".toList ++ Text.trimEnd line
  unwarned : (∀ stdout stderr, launch ≠ .exited ⟨0, stdout, stderr⟩) → expansion.warnings = []

section Launches

variable (program : Text) (stdout stderr : Bytes)

theorem tellsOf_refused (error : StartError) :
    (Expansion.ofLaunch program (.refused error)).TellsOf program (.refused error) where
  ok := by simp [Expansion.ofLaunch, Expansion.fail]
  notStarted := by simp [Expansion.ofLaunch, Expansion.fail, and_comm, eq_comm]
  failed := by simp [Expansion.ofLaunch, Expansion.fail]
  killed := by simp [Expansion.ofLaunch, Expansion.fail]
  lost := by simp [Expansion.ofLaunch, Expansion.fail]
  notUtf8 := by simp [Expansion.ofLaunch, Expansion.fail]
  warned := by simp
  unwarned := by simp [Expansion.ofLaunch, Expansion.fail]

theorem tellsOf_killed (signal : Nat) (coreDumped : Bool) :
    (Expansion.ofLaunch program (.killed signal coreDumped stdout stderr)).TellsOf program
      (.killed signal coreDumped stdout stderr) := by
  refine ⟨?ok, ?notStarted, ?failed, ?killed, ?lost, ?notUtf8, ?warned, ?unwarned⟩
  case killed =>
    intro name other dumped complaint
    constructor
    · intro same
      obtain ⟨rfl, status, rfl⟩ := Failure.failed.inj (Except.error.inj same)
      obtain ⟨rfl, rfl⟩ := Status.signal.inj status
      exact ⟨rfl, stdout, stderr, rfl, rfl⟩
    · rintro ⟨rfl, _, _, ⟨⟩, rfl⟩
      rfl
  all_goals simp [Expansion.ofLaunch, Expansion.fail]

theorem tellsOf_lost (error : SystemError) :
    (Expansion.ofLaunch program (.lost error)).TellsOf program (.lost error) where
  ok := by simp [Expansion.ofLaunch, Expansion.fail]
  notStarted := by simp [Expansion.ofLaunch, Expansion.fail]
  failed := by simp [Expansion.ofLaunch, Expansion.fail]
  killed := by simp [Expansion.ofLaunch, Expansion.fail]
  lost := by simp [Expansion.ofLaunch, Expansion.fail, eq_comm]
  notUtf8 := by simp [Expansion.ofLaunch, Expansion.fail]
  warned := by simp
  unwarned := by simp [Expansion.ofLaunch, Expansion.fail]

theorem tellsOf_nonzero {code : Nat} (nonzero : code ≠ 0) :
    (Expansion.ofLaunch program (.exited ⟨code, stdout, stderr⟩)).TellsOf program (.exited ⟨code, stdout, stderr⟩) := by
  have expansion : Expansion.ofLaunch program (.exited ⟨code, stdout, stderr⟩) =
      .fail (.failed program (.code code) (Text.trim (Utf8.decodeLossy stderr))) := if_neg nonzero
  rw [expansion]
  refine ⟨?ok, ?notStarted, ?failed, ?killed, ?lost, ?notUtf8, ?warned, ?unwarned⟩
  case ok => simp [Expansion.fail, nonzero]
  case notStarted => simp [Expansion.fail]
  case failed =>
    intro name other complaint
    constructor
    · intro same
      obtain ⟨rfl, status, rfl⟩ := Failure.failed.inj (Except.error.inj same)
      obtain rfl := Status.code.inj status
      exact ⟨nonzero, rfl, stdout, stderr, rfl, rfl⟩
    · rintro ⟨-, rfl, _, _, ⟨⟩, rfl⟩
      rfl
  case killed => simp [Expansion.fail]
  case lost => simp [Expansion.fail]
  case notUtf8 => simp [Expansion.fail, nonzero]
  case warned => simp [nonzero]
  case unwarned => exact fun _ => rfl

theorem result_zero_eq_ok_iff {text : Text} :
    (Expansion.ofLaunch program (.exited ⟨0, stdout, stderr⟩)).result = .ok text ↔ stdout = Utf8.encode text := by
  rw [← Utf8.decode?_eq_some_iff]
  cases read : Utf8.decode? stdout with
  | none => simp [Expansion.ofLaunch, read]
  | some other => simp [Expansion.ofLaunch, read]

theorem result_zero_eq_error_iff {failure : Failure} :
    (Expansion.ofLaunch program (.exited ⟨0, stdout, stderr⟩)).result = .error failure ↔
      failure = .notUtf8 ∧ ∀ text, stdout ≠ Utf8.encode text := by
  simp only [Ne, ← Utf8.decode?_eq_some_iff]
  cases read : Utf8.decode? stdout with
  | none => simp [Expansion.ofLaunch, read, eq_comm]
  | some text => simp [Expansion.ofLaunch, read]

theorem tellsOf_zero :
    (Expansion.ofLaunch program (.exited ⟨0, stdout, stderr⟩)).TellsOf program (.exited ⟨0, stdout, stderr⟩) where
  ok := by simp [result_zero_eq_ok_iff, Utf8.encode_eq_utf8Encode]
  notStarted := by simp [result_zero_eq_error_iff]
  failed := by
    intro name code complaint
    rw [result_zero_eq_error_iff]
    constructor
    · rintro ⟨⟨⟩, -⟩
    · rintro ⟨nonzero, -, _, _, ⟨⟩, -⟩
      exact absurd rfl nonzero
  killed := by simp [result_zero_eq_error_iff]
  lost := by simp [result_zero_eq_error_iff]
  notUtf8 := by simp [result_zero_eq_error_iff, Utf8.encode_eq_utf8Encode]
  warned := by
    rintro _ _ ⟨⟩
    change (diagnostics stderr).map (program ++ ": ".toList ++ ·) = _
    rw [diagnostics_eq, List.map_map]
    rfl
  unwarned := fun other => absurd rfl (other stdout stderr)

theorem tellsOf_ofLaunch (launch : Launch) : (Expansion.ofLaunch program launch).TellsOf program launch := by
  cases launch with
  | refused error => exact tellsOf_refused program error
  | killed signal coreDumped stdout stderr => exact tellsOf_killed program stdout stderr signal coreDumped
  | lost error => exact tellsOf_lost program error
  | exited exit =>
    obtain ⟨code, stdout, stderr⟩ := exit
    by_cases zero : code = 0
    · subst zero
      exact tellsOf_zero program stdout stderr
    · exact tellsOf_nonzero program stdout stderr zero

end Launches

namespace Tunnel

/-- What a text comes to in a tunnel is known from what its engine gives. -/
theorem run_result_congr {engine other : Engine Id}
    (same : ∀ text, (engine text).run.result = (other text).run.result) (strict : Bool) (stage : Stage) (text : Text) :
    (Tunnel.run ⟨engine, strict⟩ stage text).run.result = (Tunnel.run ⟨other, strict⟩ stage text).run.result := by
  cases stage with
  | unwrapping => rfl
  | wrapping => rfl
  | full =>
    unfold Tunnel.run
    cases examine strict text with
    | error failure => rfl
    | ok warnings => exact congrArg (Except.map unwrap) (same (wrap text))

end Tunnel

/-- A program that copies its input gives back a text without a name. -/
theorem Command.result_engine_of_copies {oracle : Runner Id} {command : Command} (unnamed : command.fileName = none)
    (copies : ∀ stdin, ∃ stderr, oracle command.program command.commandLine stdin = .exited ⟨0, stdin, stderr⟩)
    (text : Text) : (command.engine oracle text).run.result = .ok text := by
  obtain ⟨stderr, copied⟩ := copies (Utf8.encode text)
  have fed : command.feed text = text := by rw [Command.feed, unnamed]
  change (Expansion.ofLaunch command.program (oracle command.program command.commandLine _)).result = .ok text
  rw [fed, copied, result_zero_eq_ok_iff]

/-- The expansion of a program tells how its launch on the command's arguments and on the octets of the text went, and
    nothing else. So where the program copies its input and the text has no name, a tunnel through it has the results of a
    tunnel through the engine that leaves every text as it is. -/
theorem engine_tellsOf (oracle : Runner Id) (command : Command) :
    (∀ text, (command.engine oracle text).run.TellsOf command.program
      (oracle command.program command.commandLine (Utf8.encode (command.feed text)))) ∧
    (command.fileName = none →
      (∀ stdin, ∃ stderr, oracle command.program command.commandLine stdin = .exited ⟨0, stdin, stderr⟩) →
      ∀ strict stage text, (Tunnel.run ⟨command.engine oracle, strict⟩ stage text).run.result =
        (Tunnel.run (m := Id) ⟨Engine.identity, strict⟩ stage text).run.result) := by
  refine ⟨fun text => tellsOf_ofLaunch command.program _, fun unnamed copies => ?_⟩
  exact Tunnel.run_result_congr (Command.result_engine_of_copies unnamed copies)

/-- A program that copies its input and complains about it. -/
def noisyCopier : Runner Id :=
  fun _ _ stdin => Launch.exited ⟨0, stdin, Utf8.encode "slow  \n \n".toList⟩

theorem engine_tellsOf_noisyCopier :
    (Tunnel.run ⟨Command.engine noisyCopier { program := "copy".toList }, false⟩ .full "#if 1\n".toList).run.result =
        .ok "#if 1\n".toList ∧
      (Command.engine noisyCopier { program := "copy".toList } "#if 1\n".toList).run.warnings =
        ["copy: slow".toList] := by
  obtain ⟨tells, copies⟩ := engine_tellsOf noisyCopier { program := "copy".toList }
  constructor
  · rw [copies rfl (fun _ => ⟨_, rfl⟩) false .full]
    decide
  · rw [(tells "#if 1\n".toList).warned _ _ rfl]
    decide

end HashTunnel
