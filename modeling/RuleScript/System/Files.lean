import RuleScript.Entries
import RuleScript.System.Access

/-!
A tree of files and directories, and the rules by which a name finds one of them. A name is followed
part by part, from the top of the tree if it begins with a slash and from the working directory
otherwise. All parts but the last must lead to directories; what the last one may lead to depends on
what the name is for. Above the top there is nothing but the top.

* A name that ends in `.` or `..`, or has no part at all, leads to a directory.
* A part that is too long is an error when it is looked up, and not before. A file that is to be
  written under a name with a slash at its end is refused before its last part is looked up.
-/

namespace RuleScript

/-- What a name can stand for. -/
inductive Node where
  | file (content : List UInt8)
  | directory
deriving DecidableEq, Repr

/-- The parts of a way from the top of the tree down. -/
abbrev Way := List String

/-- A tree of files and directories. -/
structure Files where
  /-- What stands at the end of a way, the working directory and those around it left out. -/
  nodes : List (Way × Node)
  /-- The way to the working directory. -/
  home : Way
deriving Repr

namespace Files

/-- The tree with nothing in it but the working directory and those around it. -/
def empty (home : Way) : Files := ⟨[], home⟩

/-- What stands at the end of a way. -/
def node? (files : Files) (way : Way) : Option Node :=
  if way <+: files.home then some .directory else Entries.get? way files.nodes

/-- Puts something at the end of a way. -/
def put (files : Files) (way : Way) (node : Node) : Files :=
  ⟨Entries.set way node files.nodes, files.home⟩

/-- Puts something at the end of a way, and directories where the way leads through nothing. -/
def putWithParents (files : Files) (way : Way) (node : Node) : Files :=
  let parents := (List.range way.length).map way.take
  let around := parents.foldl (fun files parent =>
    if (files.node? parent).isNone then files.put parent .directory else files) files
  around.put way node

@[simp] theorem node?_home (files : Files) : files.node? files.home = some .directory := by
  simp [node?]

theorem node?_put_self {files : Files} {way : Way} (h : ¬ way <+: files.home) (node : Node) :
    (files.put way node).node? way = some node := by
  simp [node?, put, h]

theorem node?_put_of_ne {way other : Way} (h : other ≠ way) (files : Files) (node : Node) :
    (files.put way node).node? other = files.node? other := by
  simp [node?, put, Entries.get?_set_of_ne h]

/-! ### Names -/

/-- The longest part of a name, in bytes. -/
def maxPart : Nat := 255

/-- The longest name, in bytes. -/
def maxName : Nat := 4095

/-- The parts of a name, between its slashes. -/
def partsOf (name : String) : List String := (name.splitOn "/").filter (· ≠ "")

/-- The way from which a name is followed. -/
def origin (files : Files) (name : String) : Way := if name.startsWith "/" then [] else files.home

/-- The way behind one more part, if that part is there. -/
def extend (way : Way) (part : String) : Way :=
  if part = "." then way else if part = ".." then way.dropLast else way ++ [part]

/-- The way that a name means if all its parts are there. -/
def wayOf (files : Files) (name : String) : Way := (partsOf name).foldl extend (files.origin name)

/-! ### Following a name -/

/-- Looks for an entry in a directory. -/
def lookUp (files : Files) (directory : Way) (part : String) : Except SystemError (Option Node) :=
  if maxPart < part.utf8ByteSize then .error .nameTooLong
  else .ok (files.node? (directory ++ [part]))

/-- Enters one directory after another. -/
def enter (files : Files) (directory : Way) : List String → Except SystemError Way
  | [] => .ok directory
  | part :: rest =>
    if part = "." ∨ part = ".." then files.enter (extend directory part) rest
    else
      match files.lookUp directory part with
      | .error e => .error e
      | .ok none => .error .notFound
      | .ok (some (.file _)) => .error .notADirectory
      | .ok (some .directory) => files.enter (extend directory part) rest

/-- What is left of a name when all its parts but the last have been followed. -/
inductive Goal where
  /-- A directory that is there. -/
  | directory
  /-- An entry of a directory that is there. -/
  | entry (directory : Way) (part : String)
deriving DecidableEq, Repr

/-- Follows all parts of a name but the last. -/
def goal (files : Files) (name : String) : Except SystemError Goal :=
  if name.contains '\x00' then .error .nulInName
  else if name = "" then .error .notFound
  else if maxName < name.utf8ByteSize then .error .nameTooLong
  else
    match (partsOf name).getLast? with
    | none => .ok .directory
    | some last => do
      let directory ← files.enter (files.origin name) (partsOf name).dropLast
      return if last = "." ∨ last = ".." then .directory else .entry directory last

/-! ### Reading and writing -/

/-- Opens a file for reading. -/
def read (files : Files) (name : String) : Except SystemError Source := do
  match ← files.goal name with
  | .directory => return .directory
  | .entry directory part =>
    match ← files.lookUp directory part with
    | none => .error .notFound
    | some .directory => return .directory
    | some (.file content) =>
      if name.endsWith "/" then .error .notADirectory else return .bytes content

/-- Writes a file, which is made if it is not there. -/
def write (files : Files) (name : String) (content : List UInt8) : Except SystemError Files := do
  match ← files.goal name with
  | .directory => .error .isADirectory
  | .entry directory part =>
    if name.endsWith "/" then .error .isADirectory
    else
      match ← files.lookUp directory part with
      | some .directory => .error .isADirectory
      | none | some (.file _) => return files.put (directory ++ [part]) (.file content)

/-- The content of a file, if the name means one. -/
def content? (files : Files) (name : String) : Option (List UInt8) :=
  match files.read name with
  | .ok (.bytes content) => some content
  | _ => none

end Files

/-- A system that is only imagined: its files and all that was printed on it. -/
structure Desk where
  files : Files
  output : String
  errorOutput : String

/-- Access to an imagined system. -/
def Desk.access : Access (StateM Desk) where
  read name := do return (← get).files.read name
  write name text := do
    let desk ← get
    match desk.files.write name text.toByteArray.data.toList with
    | .ok files => do
      set (Desk.mk files desk.output desk.errorOutput)
      return .ok ()
    | .error e => return .error e
  print text := modify fun desk => ⟨desk.files, desk.output ++ text, desk.errorOutput⟩
  printError text := modify fun desk => ⟨desk.files, desk.output, desk.errorOutput ++ text⟩

end RuleScript
