import HashTunnel.Proofs.Pieces
import HashTunnel.Proofs.Trees
import HashTunnel.Proofs.Utf8
import HashTunnel.Proofs.Worlds

/-! # What a session leaves

Everything that a session does before it writes leaves the world alone, and it writes only once, when nothing
is left that can go wrong but the writing. So a session that fails changes no file and prints nothing, and one
that succeeds puts the whole text into the file or on the standard output that it was asked for
(`perform_one_sink`).
-/

namespace HashTunnel

namespace Path

/-- Holds of a hyphen. Paths are compared by their components, so slashes and dots behind the hyphen make no
    difference. -/
def IsHyphen (path : Text) : Prop :=
  ∃ still : List Text, (∀ piece ∈ still, piece = "/".toList ∨ piece = "/.".toList) ∧ path = '-' :: still.flatten

theorem parts_append_slash {start : Text} (whole : '/' ∉ start) (rest : Text) :
    parts (start ++ '/' :: rest) = start :: parts rest := by
  rw [parts, Text.splitWhere_append (by decide), Text.splitWhere_of_not_mem whole]
  rfl

theorem parts_append_flatten {start : Text} (whole : '/' ∉ start) {still : List Text}
    (each : ∀ piece ∈ still, piece = "/".toList ∨ piece = "/.".toList) :
    ∃ rest, parts (start ++ still.flatten) = start :: rest ∧ rest.all isStill = true := by
  induction still generalizing start with
  | nil =>
    refine ⟨[], ?_, rfl⟩
    rw [List.flatten_nil, List.append_nil, parts, Text.splitWhere_of_not_mem whole]
  | cons piece still ih =>
    rw [List.forall_mem_cons] at each
    obtain ⟨dot, plain, stays, rfl⟩ : ∃ dot : Text, '/' ∉ dot ∧ isStill dot = true ∧ piece = '/' :: dot := by
      rcases each.1 with rfl | rfl
      · exact ⟨[], by decide, rfl, rfl⟩
      · exact ⟨['.'], by decide, rfl, rfl⟩
    obtain ⟨rest, cut, others⟩ := ih plain each.2
    refine ⟨dot :: rest, ?_, by simp [stays, others]⟩
    rw [List.flatten_cons, List.cons_append, parts_append_slash whole, cut]

theorem joinWith_cons_eq_append (sep : Char) (first : Text) (rest : List Text) :
    Text.joinWith sep (first :: rest) = first ++ (rest.map (sep :: ·)).flatten := by
  induction rest generalizing first with
  | nil => simp [Text.joinWith]
  | cons second rest ih => rw [Text.joinWith_cons_cons, ih, List.map_cons, List.flatten_cons, List.cons_append]

theorem isStandardStream_iff {path : Text} : isStandardStream path = true ↔ IsHyphen path := by
  constructor
  · intro stands
    unfold isStandardStream at stands
    split at stands
    · rename_i rest cut
      refine ⟨rest.map ('/' :: ·), fun piece member => ?_, ?_⟩
      · obtain ⟨part, inside, rfl⟩ := List.mem_map.mp member
        have still := List.all_eq_true.mp stands part inside
        rw [isStill, Bool.or_eq_true, List.isEmpty_iff, beq_iff_eq] at still
        rcases still with rfl | rfl
        · exact .inl rfl
        · exact .inr rfl
      · have joined := Text.joinWith_splitWhere '/' path
        rw [← parts, cut, joinWith_cons_eq_append] at joined
        exact joined.symm
    · contradiction
  · rintro ⟨still, each, rfl⟩
    have whole : '/' ∉ ['-'] := by decide
    obtain ⟨rest, cut, stays⟩ := parts_append_flatten whole each
    rw [List.singleton_append] at cut
    rw [isStandardStream, cut]
    exact stays

end Path

namespace Session

/-- Holds of what asks for a standard stream: no path at all, or a hyphen. -/
def Streams (given : Option Text) : Prop :=
  given = none ∨ ∃ path, given = some path ∧ Path.IsHyphen path

/-- Holds of what asks for a file, and of the path of this file. -/
def Names (given : Option Text) (path : Text) : Prop :=
  given = some path ∧ ¬ Path.IsHyphen path

theorem file?_eq_none_iff {given : Option Text} : Request.file? given = none ↔ Streams given := by
  cases given with
  | none => simp [Request.file?, Streams]
  | some path => simp [Request.file?, Streams, Option.filter, Path.isStandardStream_iff]

theorem file?_eq_some_iff {given : Option Text} {path : Text} : Request.file? given = some path ↔ Names given path := by
  rw [Request.file?, Option.filter_eq_some_iff, Names, ← Path.isStandardStream_iff]
  simp

section Phases

variable {host : Host (StateM World)} {here : Place}

theorem quiet_findSettings (orderly : host.Orderly here) : Quiet (findSettings host) := by
  refine (orderly.quiet_read settingsName).bind fun content => ?_
  split
  · exact quiet_pure _
  · refine orderly.home.bind fun home => ?_
    cases home with
    | none => exact quiet_pure _
    | some home => exact (orderly.quiet_read (homeSettings home)).bind fun content => quiet_pure _

theorem quiet_loadConfig (orderly : host.Orderly here) : Quiet (loadConfig host) := by
  refine (quiet_findSettings orderly).bind fun found => ?_
  cases found with
  | none => exact quiet_pure _
  | some source => exact quiet_pure _

theorem quiet_readOctets (orderly : host.Orderly here) (input : Option Text) : Quiet (readOctets host input) := by
  unfold readOctets
  cases Request.file? input with
  | none => exact orderly.stdin
  | some path => exact orderly.quiet_read path

end Phases

theorem quiet_run {σ : Type} {tunnel : Tunnel (StateM σ)} (quiet : ∀ text, Quiet (tunnel.engine text))
    (stage : Stage) (text : Text) : Quiet (tunnel.run stage text) := by
  unfold Tunnel.run
  cases stage with
  | unwrapping => exact quiet_pure _
  | wrapping => cases examine tunnel.strict text <;> exact quiet_pure _
  | full =>
    cases examine tunnel.strict text with
    | error failure => exact quiet_pure _
    | ok warnings => exact (quiet (wrap text)).bind fun expansion => quiet_pure _

theorem textOf_eq_ok_iff {answer : Except SystemError Bytes} {text : Text} :
    textOf answer = .ok text ↔ answer = .ok text.utf8Encode.data.toList := by
  cases answer with
  | error error => simp [textOf]
  | ok octets =>
    rw [Except.ok.injEq, ← Utf8.encode_eq_utf8Encode, ← Utf8.decode?_eq_some_iff, textOf]
    cases Utf8.decode? octets with
    | none => simp
    | some other => simp

section Course

variable (host : Host (StateM World)) (here : Place) (request : Request) (world : World)

/-- What the host answers when it is asked for the text of the session. -/
inductive Answers (answer : Except SystemError Bytes) : Prop where
  | stream : Streams request.input → (host.stdin.run world).1 = answer → Answers answer
  | file {path : Text} : Names request.input path → ((host.read path).run world).1 = answer → Answers answer

/-- The octets are those of the file that the session is to read, or of its standard input. -/
inductive Reads (octets : Bytes) : Prop where
  | stream : Streams request.input → (host.stdin.run world).1 = .ok octets → Reads octets
  | file {path : Text} : Names request.input path → world.files.read here path = .ok octets → Reads octets

/-- What the host answers when it is given the output of the session. -/
inductive Takes (output : Text) (answer : Except SystemError Unit) : Prop where
  | stream : Streams request.output → ((host.stdout output.utf8Encode.data.toList).run world).1 = answer →
      Takes output answer
  | file {path : Text} : Names request.output path →
      ((host.write path output.utf8Encode.data.toList).run world).1 = answer → Takes output answer

/-- The tunnel that the request and the settings in force ask for. -/
def tunnel : Tunnel (StateM World) :=
  let config := request.configure ((loadConfig host).run world).1
  ⟨(request.command config).engine host.run, config.strict⟩

/-- What comes out of the tunnel for a text. -/
def expansion (text : Text) : Expansion :=
  (((tunnel host request world).run request.stage text).run world).1

/-- The output has gone in full to the standard output, and no file has changed; or to the file that the session is to
    write, and nothing to the standard output. -/
inductive Delivers (output : Text) (report : Report) (after : World) : Prop where
  | stream : Streams request.output → report.stdout = output → after.files = world.files →
      after.printed = world.printed ++ output.utf8Encode.data.toList → Delivers output report after
  | file {path : Text} : Names request.output path → report.stdout = [] → after.printed = world.printed →
      Tree.Wrote here path output.utf8Encode.data.toList world.files after.files → Delivers output report after

/-- What a session fails for: its text cannot be read or is no text, the text does not come through the tunnel, or what
    comes out cannot be written. -/
inductive Fails : Prop where
  | unread {error : SystemError} : Answers host request world (.error error) → Fails
  | noText {octets : Bytes} : Answers host request world (.ok octets) →
      (∀ text : Text, octets ≠ text.utf8Encode.data.toList) → Fails
  | notCarried {text : Text} {failure : Failure} : Answers host request world (.ok text.utf8Encode.data.toList) →
      (expansion host request world text).result = .error failure → Fails
  | unwritten {text output : Text} {error : SystemError} : Answers host request world (.ok text.utf8Encode.data.toList) →
      (expansion host request world text).result = .ok output → Takes host request world output (.error error) → Fails

end Course

section Course

variable {host : Host (StateM World)} {here : Place} {request : Request} {world : World}

theorem answers_readOctets : Answers host request world ((readOctets host request.input).run world).1 := by
  unfold readOctets
  cases file : Request.file? request.input with
  | none => exact .stream (file?_eq_none_iff.mp file) rfl
  | some path => exact .file (file?_eq_some_iff.mp file) rfl

/-- What an orderly host answers is what it has. -/
theorem Answers.reads (orderly : host.Orderly here) {octets : Bytes} (answers : Answers host request world (.ok octets)) :
    Reads host here request world octets := by
  cases answers with
  | stream streams heard => exact .stream streams heard
  | @file path names answered =>
    rcases orderly.read path world with held | ⟨error, refused⟩
    · rw [held] at answered
      exact .file names answered
    · rw [refused] at answered
      cases answered

theorem Answers.fails {answer : Except SystemError Bytes} (answers : Answers host request world answer) {message : Text}
    (wrong : textOf answer = .error message) : Fails host request world := by
  cases answer with
  | error error => exact .unread answers
  | ok octets =>
    refine .noText answers fun text same => ?_
    rw [textOf_eq_ok_iff.mpr (congrArg Except.ok same)] at wrong
    cases wrong

theorem quiet_tunnel (orderly : host.Orderly here) (text : Text) :
    Quiet ((tunnel host request world).run request.stage text) :=
  quiet_run (fun _ => (orderly.run _ _ _).bind fun _ => quiet_pure _) request.stage text

theorem perform_sample (asked : request.printSample = true) {m : Type → Type} [Monad m] (any : Host m) :
    perform any request = any.print Rc.sample >>= fun _ => pure { stdout := Rc.sample } := by
  rw [perform, if_pos asked]

/-- A session reads its settings, then its text, and sends it through the tunnel before it writes. -/
theorem perform_run (orderly : host.Orderly here) (asked : request.printSample = false) :
    (perform host request).run world =
      match textOf ((readOctets host request.input).run world).1 with
      | .error message => (reportFailure message [], world)
      | .ok text =>
        match (expansion host request world text).result with
        | .error failure => (reportFailure failure.message (expansion host request world text).warnings, world)
        | .ok output => (writeText host request.output output (expansion host request world text).warnings).run world := by
  have reading : Quiet (readText host request.input) := (quiet_readOctets orderly _).bind fun _ => quiet_pure _
  have answered : ((readText host request.input).run world).1 = textOf ((readOctets host request.input).run world).1 := rfl
  unfold perform
  rw [if_neg (by simp [asked]), (quiet_loadConfig orderly).run_bind, reading.run_bind, answered]
  cases textOf ((readOctets host request.input).run world).1 with
  | error message => rfl
  | ok text =>
    simp only
    refine (Quiet.run_bind (quiet_tunnel orderly text) _ world).trans ?_
    unfold expansion
    generalize (((tunnel host request world).run request.stage text).run world).1 = given
    obtain ⟨result, warnings⟩ := given
    cases result with
    | error failure => rfl
    | ok output => rfl

/-- The one write of a session puts the whole output where it was asked for, or fails and changes nothing. -/
theorem writeText_run (orderly : host.Orderly here) (output : Text) (warnings : List Text) {report : Report} {after : World}
    (ended : (writeText host request.output output warnings).run world = (report, after)) :
    (report.code = 0 ∧ Delivers here request world output report after) ∨
      (report.code = 1 ∧ report.stdout = [] ∧ after = world ∧ ∃ error, Takes host request world output (.error error)) := by
  unfold writeText at ended
  rw [Utf8.encode_eq_utf8Encode] at ended
  cases file : Request.file? request.output with
  | none =>
    have streams := file?_eq_none_iff.mp file
    simp only [file, run_bind_eq] at ended
    rcases orderly.stdout output.utf8Encode.data.toList world with ⟨error, refused⟩ | taken
    · rw [refused] at ended
      obtain ⟨rfl, rfl⟩ := Prod.mk.inj ended
      exact .inr ⟨rfl, rfl, rfl, error, .stream streams (by rw [refused])⟩
    · rw [taken] at ended
      obtain ⟨rfl, rfl⟩ := Prod.mk.inj ended
      exact .inl ⟨rfl, .stream streams rfl rfl rfl⟩
  | some path =>
    have names := file?_eq_some_iff.mp file
    simp only [file, run_bind_eq] at ended
    rcases orderly.write path output.utf8Encode.data.toList world with ⟨error, refused⟩ | ⟨files, written, taken⟩
    · rw [refused] at ended
      obtain ⟨rfl, rfl⟩ := Prod.mk.inj ended
      exact .inr ⟨rfl, rfl, rfl, error, .file names (by rw [refused])⟩
    · rw [taken] at ended
      obtain ⟨rfl, rfl⟩ := Prod.mk.inj ended
      exact .inl ⟨rfl, .file names rfl rfl (Tree.wrote_of_write written)⟩

/-- A session for the sample of the settings prints it and asks a host for nothing else. Any other session succeeds and
    delivers, once and in full, what the tunnel gives for the text as it was read; or it fails, prints nothing and leaves
    every file as it was. -/
theorem perform_one_sink (orderly : host.Orderly here) (request : Request) (world : World) :
    (request.printSample = true →
        (∀ {m : Type → Type} [Monad m] (any : Host m),
          perform any request = any.print Rc.sample >>= fun _ => pure { stdout := Rc.sample }) ∧
        (perform host request).run world =
          ({ stdout := Rc.sample }, { world with printed := world.printed ++ Rc.sample.utf8Encode.data.toList })) ∧
      (request.printSample = false → ∀ report after, (perform host request).run world = (report, after) →
        (report.code = 0 ∧ ∃ text output, Reads host here request world text.utf8Encode.data.toList ∧
            (expansion host request world text).result = .ok output ∧ Delivers here request world output report after) ∨
          (report.code = 1 ∧ report.stdout = [] ∧ after = world ∧ Fails host request world)) := by
  constructor
  · intro asked
    refine ⟨perform_sample asked, ?_⟩
    rw [perform_sample asked, run_bind_eq, orderly.print, Utf8.encode_eq_utf8Encode]
    rfl
  · intro asked report after ended
    have answers : Answers host request world ((readOctets host request.input).run world).1 := answers_readOctets
    rw [perform_run orderly asked] at ended
    cases found : textOf ((readOctets host request.input).run world).1 with
    | error message =>
      rw [found] at ended
      obtain ⟨rfl, rfl⟩ := Prod.mk.inj ended
      exact .inr ⟨rfl, rfl, rfl, answers.fails found⟩
    | ok text =>
      rw [found] at ended
      rw [textOf_eq_ok_iff.mp found] at answers
      cases carried : (expansion host request world text).result with
      | error failure =>
        simp only [carried] at ended
        obtain ⟨rfl, rfl⟩ := Prod.mk.inj ended
        exact .inr ⟨rfl, rfl, rfl, .notCarried answers carried⟩
      | ok output =>
        simp only [carried] at ended
        rcases writeText_run orderly output _ ended with ⟨well, delivered⟩ | ⟨ill, silent, same, error, refused⟩
        · exact .inl ⟨well, text, output, answers.reads orderly, carried, delivered⟩
        · exact .inr ⟨ill, silent, same, .unwritten answers carried refused⟩

end Course

/-- A text that goes back into the file that it was read from. -/
theorem perform_one_sink_own_file :
    let here : Place := ["home".toList]
    let host := World.host here [] fun _ _ octets => pure (.exited ⟨0, octets, []⟩)
    let request : Request := { input := some "a.c".toList, output := some "./a.c".toList }
    let world : World :=
      { files := ⟨[(here, .directory), (here ++ [settingsName], .file (Utf8.encode "set nolinemarkers".toList)),
          (here ++ ["a.c".toList], .file (Utf8.encode "#a\n///#b".toList))]⟩
        printed := [] }
    ∃ text output, Reads host here request world text.utf8Encode.data.toList ∧
      (expansion host request world text).result = .ok output ∧
      Delivers here request world output ((perform host request).run world).1 ((perform host request).run world).2 := by
  intro here host request world
  have orderly : host.Orderly here := World.orderly_host here [] fun _ _ _ => quiet_pure _
  have fine : ((perform host request).run world).1.code = 0 := by decide +kernel
  rcases (perform_one_sink orderly request world).2 rfl _ _ rfl with ⟨-, went⟩ | ⟨failed, -⟩
  · exact went
  · exact absurd (failed.symm.trans fine) (by decide)

end Session
end HashTunnel
