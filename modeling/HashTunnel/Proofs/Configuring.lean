import HashTunnel.CommandLine.Request
import HashTunnel.Proofs.Statements

/-! # From settings and a command line to the engine

A request replaces the program and its arguments and adds to the macros and include paths that a settings
file gives. `configure_load` says what the program is started with, in terms of what the lines of the file state and
of the request, and that a request for another program leaves nothing of the lines that concern it.
-/

namespace HashTunnel
namespace Rc

/-- Holds of the statements about the program or its arguments. -/
def concernsEngine (statement : Statement) : Bool :=
  Key.engine.concerns statement || Key.engineArgs.concerns statement

/-- What a file states about anything but the program and its arguments, in order. -/
def otherStatements (content : Text) : List Statement :=
  (statements content).filter (!concernsEngine ·)

theorem Key.eq_of_concerns_pair {key other : Key} {name value : Text} (about : key.concerns (.pair name value) = true)
    (also : other.concerns (.pair name value) = true) : key = other := by
  have named := lookup_keys_iff.mpr (of_decide_eq_true about)
  rw [lookup_keys_iff.mpr (of_decide_eq_true also)] at named
  exact (Option.some.inj named).symm

theorem not_concerns_of_concernsEngine {key : Key} (notEngine : key ≠ .engine) (notArgs : key ≠ .engineArgs)
    {statement : Statement} (about : concernsEngine statement = true) : key.concerns statement = false := by
  cases statement with
  | command word => simp [concernsEngine, Key.concerns, Key.switch?] at about
  | pair name value =>
    rw [Bool.eq_false_iff]
    intro also
    rcases (Bool.or_eq_true _ _).mp about with engine | args
    · exact notEngine (Key.eq_of_concerns_pair also engine)
    · exact notArgs (Key.eq_of_concerns_pair also args)

theorem filterMap_otherStatements {α : Type} {key : Key} {read : Statement → Option α}
    (silent : ∀ statement, key.concerns statement = false → read statement = none)
    (notEngine : key ≠ .engine) (notArgs : key ≠ .engineArgs) (content : Text) :
    (otherStatements content).filterMap read = (statements content).filterMap read := by
  refine filterMap_filter_of_silent (fun statement about => silent statement ?_) _
  exact not_concerns_of_concernsEngine notEngine notArgs (by simpa using about)

/-- Nothing that is read of another key depends on the statements about the program and its arguments. -/
theorem filterMap_statements_congr {α : Type} {key : Key} {read : Statement → Option α}
    (silent : ∀ statement, key.concerns statement = false → read statement = none)
    (notEngine : key ≠ .engine) (notArgs : key ≠ .engineArgs) {first second : Text}
    (same : otherStatements first = otherStatements second) :
    (statements first).filterMap read = (statements second).filterMap read := by
  rw [← filterMap_otherStatements silent notEngine notArgs, same, filterMap_otherStatements silent notEngine notArgs]

end Rc

/-- The arguments of an engine: those of the request if it asks for a program or has any itself, or else the
    last ones that a file states. -/
def argumentsUnder (request : Request) (statements : List Rc.Statement) : List Text :=
  if request.engine.isSome ∨ request.engineArgs ≠ [] then request.engineArgs
  else (Rc.lastArguments? statements).getD ["-P".toList, "-C".toList, "-undef".toList, "-nostdinc".toList]

theorem configure_load_eq (request : Request) (content : Text) :
    request.configure (Rc.load Config.default content) =
      { engine := request.engine.getD ((Rc.Key.engine.valuesIn (Rc.statements content)).getLast?.getD "cpp".toList)
        engineArgs := argumentsUnder request (Rc.statements content)
        defines := Rc.Key.define.valuesIn (Rc.statements content) ++ request.defines
        includePaths := Rc.Key.includePath.valuesIn (Rc.statements content) ++ request.includePaths
        strict := (Rc.Key.strict.lastAnswer? (Rc.statements content)).getD true && !request.allowReserved
        lineMarkers := (Rc.Key.lineMarkers.lastAnswer? (Rc.statements content)).getD true } := by
  have asked : (request.engine.isSome || !request.engineArgs.isEmpty) = true ↔
      request.engine.isSome ∨ request.engineArgs ≠ [] := by simp
  rw [Rc.load_eq_stated, Request.configure, if_congr asked rfl rfl]
  rfl

/-- A request for a program makes the same of two files that state the same about everything else. -/
theorem configure_load_congr {request : Request} (replaced : request.engine.isSome = true) {first second : Text}
    (same : Rc.otherStatements first = Rc.otherStatements second) :
    request.configure (Rc.load Config.default first) = request.configure (Rc.load Config.default second) := by
  have values : ∀ key : Rc.Key, key ≠ .engine → key ≠ .engineArgs →
      (Rc.statements first).filterMap key.value? = (Rc.statements second).filterMap key.value? :=
    fun key notEngine notArgs =>
      Rc.filterMap_statements_congr (fun _ => @Rc.value?_of_not_concerns key _) notEngine notArgs same
  have answers : ∀ key : Rc.Key, key ≠ .engine → key ≠ .engineArgs →
      (Rc.statements first).filterMap key.answer? = (Rc.statements second).filterMap key.answer? :=
    fun key notEngine notArgs =>
      Rc.filterMap_statements_congr (fun _ => @Rc.answer?_of_not_concerns key _) notEngine notArgs same
  obtain ⟨program, given⟩ := Option.isSome_iff_exists.mp replaced
  rw [configure_load_eq, configure_load_eq]
  simp [given, argumentsUnder, Rc.Key.valuesIn, Rc.Key.lastAnswer?, values, answers]

/-- The program is that of the request, or else the last one that the file states. It is started with its arguments,
    then the macros of the file and of the request and then their include paths, all in order. Texts with
    reserved points are let through exactly if the request or the last statement about them says so. Where
    the request is for a program, what a file says about the program and its arguments has no effect. -/
theorem configure_load (request : Request) (content : Text) :
    (∀ line statement, Rc.statement? line = some statement ↔ ∃ body, Rc.Says line body ∧ Rc.States body statement) ∧
      (Command.ofConfig (request.configure (Rc.load Config.default content))).program =
        request.engine.getD ((Rc.Key.engine.valuesIn (Rc.statements content)).getLast?.getD "cpp".toList) ∧
      (Command.ofConfig (request.configure (Rc.load Config.default content))).commandLine =
        argumentsUnder request (Rc.statements content) ++
          ((Rc.Key.define.valuesIn (Rc.statements content)).map ("-D".toList ++ ·) ++
            request.defines.map ("-D".toList ++ ·)) ++
          ((Rc.Key.includePath.valuesIn (Rc.statements content)).map ("-I".toList ++ ·) ++
            request.includePaths.map ("-I".toList ++ ·)) ∧
      ((request.configure (Rc.load Config.default content)).strict = false ↔
        request.allowReserved = true ∨ Rc.Key.strict.lastAnswer? (Rc.statements content) = some false) ∧
      (request.engine.isSome = true → ∀ other, Rc.otherStatements content = Rc.otherStatements other →
        Command.ofConfig (request.configure (Rc.load Config.default content)) =
          Command.ofConfig (request.configure (Rc.load Config.default other))) := by
  refine ⟨fun _ _ => Rc.statement?_eq_some_iff, ?_, ?_, ?_, ?_⟩
  · rw [configure_load_eq]
    rfl
  · rw [configure_load_eq]
    simp [Command.ofConfig, Command.commandLine]
  · rw [configure_load_eq, Bool.and_eq_false_iff, or_comm]
    cases Rc.Key.strict.lastAnswer? (Rc.statements content) <;> simp
  · intro replaced other same
    rw [configure_load_congr replaced same]

theorem configure_load_replaced_engine :
    Command.ofConfig (Request.configure { engine := some "tcc".toList, defines := ["B".toList] }
        (Rc.load Config.default "engine = mcpp # old\nargs = -P\ndefine = A\nset nostrict".toList)) =
      Command.ofConfig (Request.configure { engine := some "tcc".toList, defines := ["B".toList] }
        (Rc.load Config.default " define = A\nengine_args =\n\nset nostrict # for now\n".toList)) ∧
    (Command.ofConfig (Request.configure { defines := ["B".toList] }
        (Rc.load Config.default "engine = mcpp # old\nargs = -P\ndefine = A\nset nostrict".toList))).commandLine =
      ["-P".toList, "-DA".toList, "-DB".toList] := by
  constructor
  · exact (configure_load _ _).2.2.2.2 rfl _ (by decide +kernel)
  · rw [(configure_load _ _).2.2.1]
    decide +kernel

namespace Command

/-- What adds one text after the other adds them all. -/
theorem foldl_eq_of_step (add : Command → Text → Command) (addAll : Command → List Text → Command)
    (none : ∀ command, addAll command [] = command)
    (more : ∀ command texts text, add (addAll command texts) text = addAll command (texts ++ [text]))
    (command : Command) (texts : List Text) : texts.foldl add command = addAll command texts := by
  induction texts using List.reverseRecOn with
  | nil => exact (none command).symm
  | append_singleton texts text ih => rw [List.foldl_append, List.foldl_cons, List.foldl_nil, ih, more]

/-- The command of a configuration is built from its program by adding everything else. -/
theorem ofConfig_eq_foldl (config : Config) :
    ofConfig config = config.includePaths.foldl includePath
      (config.defines.foldl define (config.engineArgs.foldl arg { program := config.engine })) := by
  have args := foldl_eq_of_step arg (fun command texts => { command with args := command.args ++ texts })
    (by simp) (by simp [arg])
  have defines := foldl_eq_of_step define (fun command texts => { command with defines := command.defines ++ texts })
    (by simp) (by simp [define])
  have includePaths := foldl_eq_of_step includePath
    (fun command texts => { command with includePaths := command.includePaths ++ texts }) (by simp) (by simp [includePath])
  rw [args, defines, includePaths]
  rfl

end Command
end HashTunnel
