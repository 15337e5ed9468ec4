import HashTunnel.Host.Path
import HashTunnel.Host.Program
import HashTunnel.Text.Utf8

/-! # Trees of files

A tree of files as a value. A path is followed component by component from the root or from the
directory at hand, and what cannot be followed is refused as a system refuses it. Reading and
writing go through the same look-up, so what is written is what is read.
-/

namespace HashTunnel

/-- The components of a path from the root, without those that stay. -/
abbrev Place := List Text

inductive Node where
  | file (content : Bytes)
  | directory
  /-- A device that is always empty and swallows what is written. -/
  | sink
  /-- A program, by its name. -/
  | program (name : Text)
  deriving DecidableEq, Repr

/-- A tree of files: what stands at each place. The root is always a directory. -/
structure Tree where
  nodes : List (Place × Node)
  deriving DecidableEq, Repr

namespace Tree

def node? (tree : Tree) (place : Place) : Option Node :=
  if place.isEmpty then some .directory else tree.nodes.lookup place

def put (tree : Tree) (place : Place) (node : Node) : Tree :=
  ⟨(place, node) :: tree.nodes.filter (·.1 != place)⟩

theorem node?_put {place : Place} (h : place ≠ []) (tree : Tree) (node : Node) :
    (tree.put place node).node? place = some node := by
  simp [put, node?, h]

/-- The most octets that a component may have. -/
def componentLimit : Nat := 255

/-- The place that components lead to from a directory. The last one need not stand for anything
    yet. -/
def follow (tree : Tree) (here : Place) : List Text → Except SystemError Place
  | [] => .ok here
  | part :: rest =>
    match tree.node? here with
    | none => .error .notFound
    | some .directory =>
      if Path.isStill part then tree.follow here rest
      else if part = ['.', '.'] then tree.follow here.dropLast rest
      else if componentLimit < (Utf8.encode part).length then .error .nameTooLong
      else tree.follow (here ++ [part]) rest
    | some _ => .error .notDirectory

/-- The place that a path leads to, from a directory if it does not begin at the root. -/
def locate (tree : Tree) (here : Place) (path : Text) : Except SystemError Place :=
  match path with
  | [] => .error .notFound
  | '/' :: _ => tree.follow [] (Path.parts path)
  | _ => tree.follow here (Path.parts path)

def contentAt (tree : Tree) (place : Place) : Except SystemError Bytes :=
  match tree.node? place with
  | none => .error .notFound
  | some .directory => .error .isDirectory
  | some (.file content) => .ok content
  | some .sink | some (.program _) => .ok []

/-- The content of the file that a path leads to. -/
def read (tree : Tree) (here : Place) (path : Text) : Except SystemError Bytes := do
  tree.contentAt (← tree.locate here path)

/-- The tree after a file has been made or replaced. A path that ends in a slash means a directory,
    and a file cannot be made there. -/
def write (tree : Tree) (here : Place) (path : Text) (content : Bytes) :
    Except SystemError Tree := do
  let named := (path.reverse.dropWhile (· == '/')).reverse
  if path.getLast? = some '/' && named.isEmpty then throw .isDirectory
  let place ← tree.locate here named
  if path.getLast? = some '/' then throw .isDirectory
  match tree.node? place with
  | some .directory => .error .isDirectory
  | some .sink => .ok tree
  | some (.file _) | some (.program _) | none => .ok (tree.put place (.file content))

/-- The files of a tree, as what is at hand in a directory. -/
def files (here : Place) : Files (StateM Tree) where
  read path := do pure ((← get).read here path)
  write path content := do
    match (← get).write here path content with
    | .ok tree => do
      set tree
      pure (.ok ())
    | .error error => pure (.error error)

/-- The directory where programs are looked for by their names. -/
def programPlace : Place := ["usr".toList, "bin".toList]

/-- The program that a name or a path leads to. A name without a slash is looked for among the
    programs. What is no program cannot be run. -/
def program? (tree : Tree) (here : Place) (name : Text) : Except SystemError Text := do
  let place ← if name.contains '/' then tree.locate here name else tree.locate programPlace name
  match tree.node? place with
  | none => .error .notFound
  | some (.program name) => .ok name
  | some _ => .error .denied

/-- The files below a directory that a tree has and an older one has not, or not with the same
    content, by their components below the directory. -/
def changesSince (older tree : Tree) (here : Place) : List (Place × Bytes) :=
  tree.nodes.filterMap fun (place, node) =>
    match node with
    | .file content =>
      if here.isPrefixOf place && older.node? place != some node then
        some (place.drop here.length, content)
      else none
    | _ => none

end Tree
end HashTunnel
