import HashTunnel.Host.Tree
import HashTunnel.Session
import HashTunnel.Tool.Program

/-! # Enclosures

An enclosure is a host that is a value: a tree of files with a working directory and a home, a
standard input and the built-in programs. A session in an enclosure touches nothing else, so it can be compared with a
session on a real system. Like the built-in programs it belongs to the outer layer, and no result depends on it.
-/

namespace HashTunnel

/-- A host that is a value. The files are the state of its monad. -/
structure Enclosure where
  /-- The working directory. -/
  here : Place := ["tmp".toList, "work".toList]
  /-- The home directory. -/
  home : Option Place := some ["tmp".toList, "home".toList]
  stdin : Bytes := []

namespace Enclosure

/-- The tree that every enclosure begins with. -/
def baseTree : Tree :=
  let directories := [["bin"], ["dev"], ["etc"], ["home"], ["opt"], ["proc"], ["root"], ["sbin"],
    ["sys"], ["tmp"], ["tmp", "work"], ["tmp", "home"], ["usr"], ["usr", "bin"], ["usr", "lib"],
    ["var"]]
  let programs := Tool.Program.names.flatMap fun (name, _) =>
    [(["bin".toList, name], Node.program name), (["usr".toList, "bin".toList, name], .program name)]
  ⟨directories.map (fun parts => (parts.map String.toList, Node.directory)) ++
    [(["dev".toList, "null".toList], .sink), (["etc".toList, "passwd".toList], .file [])] ++
    programs⟩

/-- The text of a place as a path from the root. -/
def pathOf (place : Place) : Text :=
  place.flatMap ('/' :: ·)

/-- Runs the program that a name or a path leads to. -/
def runner (enclosure : Enclosure) : Runner (StateM Tree) :=
  fun name args stdin => do
    if name.contains '\x00' || args.any (·.contains '\x00') then pure (.refused .nulByte)
    else
      match (← get).program? enclosure.here name with
      | .error error => pure (.refused (.system error))
      | .ok found => Tool.runner (Tree.files enclosure.here) found args stdin

def host (enclosure : Enclosure) : Host (StateM Tree) where
  toFiles := Tree.files enclosure.here
  stdin := pure (.ok enclosure.stdin)
  stdout _ := pure (.ok ())
  print _ := pure ()
  home := pure (enclosure.home.map pathOf)
  run := enclosure.runner

end Enclosure
end HashTunnel
