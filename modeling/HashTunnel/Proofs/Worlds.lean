import HashTunnel.Host.Tree
import HashTunnel.Session

/-! # The world around a session

A session can change files, and it can print. `World` holds both, and a host is orderly if it does to the world what it
is asked for, or refuses it and changes nothing.
-/

namespace HashTunnel

/-- The action leaves the state as it is. -/
def Quiet {σ α : Type} (action : StateM σ α) : Prop :=
  ∀ state, (action.run state).2 = state

section Actions

variable {σ α β : Type}

theorem quiet_pure (value : α) : Quiet (pure value : StateM σ α) :=
  fun _ => rfl

theorem run_bind_eq (action : StateM σ α) (next : α → StateM σ β) (state : σ) :
    (action >>= next).run state = (next (action.run state).1).run (action.run state).2 := rfl

theorem Quiet.run_bind {action : StateM σ α} (quiet : Quiet action) (next : α → StateM σ β) (state : σ) :
    (action >>= next).run state = (next (action.run state).1).run state := by
  rw [run_bind_eq, quiet]

theorem Quiet.bind {action : StateM σ α} (quiet : Quiet action) {next : α → StateM σ β}
    (later : ∀ value, Quiet (next value)) : Quiet (action >>= next) := by
  intro state
  rw [quiet.run_bind]
  exact later _ state

end Actions

/-- What a session can change: the files, and what stands on the standard output. -/
structure World where
  files : Tree
  printed : Bytes

namespace World

def print (world : World) (octets : Bytes) : World :=
  { world with printed := world.printed ++ octets }

/-- An action on the files, as one on the world. -/
def onFiles {α : Type} (action : StateM Tree α) : StateM World α :=
  fun world => ((action.run world.files).1, { world with files := (action.run world.files).2 })

end World

/-- A host whose files are those of the world as they are seen from a directory. It may refuse anything, but what it
    reads is what the files hold, and what it refuses to write changes nothing. Only what is printed and written changes
    the world; programs leave it alone. -/
structure Host.Orderly (host : Host (StateM World)) (here : Place) : Prop where
  read : ∀ path world, (host.read path).run world = (world.files.read here path, world) ∨
    ∃ error, (host.read path).run world = (.error error, world)
  write : ∀ path content world, (∃ error, (host.write path content).run world = (.error error, world)) ∨
    ∃ after, world.files.write here path content = .ok after ∧
      (host.write path content).run world = (.ok (), { world with files := after })
  stdin : Quiet host.stdin
  stdout : ∀ octets world, (∃ error, (host.stdout octets).run world = (.error error, world)) ∨
    (host.stdout octets).run world = (.ok (), world.print octets)
  print : ∀ text world, (host.print text).run world = ((), world.print (Utf8.encode text))
  home : Quiet host.home
  run : ∀ program args stdin, Quiet (host.run program args stdin)

theorem Host.Orderly.quiet_read {host : Host (StateM World)} {here : Place} (orderly : host.Orderly here) (path : Text) :
    Quiet (host.read path) := by
  intro world
  rcases orderly.read path world with answered | ⟨error, refused⟩
  · rw [answered]
  · rw [refused]

namespace World

/-- The host that refuses nothing that the files allow. -/
def host (here : Place) (stdin : Bytes) (run : Runner (StateM World)) : Host (StateM World) where
  read path := onFiles ((Tree.files here).read path)
  write path content := onFiles ((Tree.files here).write path content)
  stdin := pure (.ok stdin)
  stdout octets := do
    modify (·.print octets)
    pure (.ok ())
  print text := modify (·.print (Utf8.encode text))
  home := pure none
  run := run

theorem orderly_host (here : Place) (stdin : Bytes) {run : Runner (StateM World)}
    (quiet : ∀ program args stdin, Quiet (run program args stdin)) : (World.host here stdin run).Orderly here where
  read path world := .inl rfl
  write path content world := by
    have answer : ((World.host here stdin run).write path content).run world =
        ((((Tree.files here).write path content).run world.files).1,
          { world with files := (((Tree.files here).write path content).run world.files).2 }) := rfl
    rw [answer]
    cases written : world.files.write here path content with
    | error error => exact .inl ⟨error, by simp [Tree.files, written]; rfl⟩
    | ok after => exact .inr ⟨after, rfl, by simp [Tree.files, written]; rfl⟩
  stdin := quiet_pure _
  stdout octets world := .inr rfl
  print text world := rfl
  home := quiet_pure _
  run := quiet

end World
end HashTunnel
