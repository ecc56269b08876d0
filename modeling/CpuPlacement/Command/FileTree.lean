import CpuPlacement.Command.Files
import CpuPlacement.Text.Parts

/-!
# Files in directories

A tree of directories as data, and what a path names in it. The names of a path are followed one by
one from the root or from the working directory, each in the directory that the names before it have
led to. An empty name and a dot stay there, two dots lead to the directory above; above the root is
the root. So a path that ends in a slash names a directory. A link leads to another place, and on
from there.
-/

set_option autoImplicit false

namespace CpuPlacement.Command

/-- A place in a tree: the names that lead to it from the root. -/
abbrev Place := List String

/-- Files and directories. A directory is there as soon as something is listed below it; the ones
that are listed themselves may be empty. -/
structure FileTree where
  files : List (Place × Except FileError String)
  directories : List Place
  /-- The places of links, with the places that they lead to. -/
  links : List (Place × Place)
  workingDirectory : Place

namespace FileTree

/-- No name is longer than this, in bytes. -/
def nameLimit : Nat := 255

/-- Every path is shorter than this, in bytes. -/
def pathLimit : Nat := 4096

/-- There is a directory at the place. -/
def isDirectory (t : FileTree) (place : Place) : Bool :=
  place.isEmpty || t.directories.any place.isPrefixOf
    || t.files.any fun (file, _) => place.length < file.length && place.isPrefixOf file

/-- There is something at the place. -/
def holds (t : FileTree) (place : Place) : Bool :=
  t.isDirectory place || (t.files.lookup place).isSome

/-- The place that some names lead to from another. -/
def follow (t : FileTree) (place : Place) : List String → Except FileError Place
  | [] => .ok place
  | name :: rest =>
    let next := place ++ [name]
    if !t.isDirectory place then .error .notDirectory
    else if name = "" ∨ name = "." then t.follow place rest
    else if name = ".." then t.follow place.dropLast rest
    else if nameLimit < name.utf8ByteSize then .error .nameTooLong
    else match t.links.lookup next with
      | some target => t.follow target rest
      | none => if t.holds next then t.follow next rest else .error .missing

/-- The names of a path. -/
def names (path : String) : List String :=
  (Text.parts '/' path.toList).map String.ofList

/-- The place that a path names. -/
def locate (t : FileTree) (path : String) : Except FileError Place :=
  if path = "" then .error .missing
  else if pathLimit ≤ path.utf8ByteSize then .error .nameTooLong
  else t.follow (if path.startsWith "/" then [] else t.workingDirectory) (names path)

/-- The text of the file that a path names. -/
def read (t : FileTree) : Files := fun path => do
  let place ← t.locate path
  (t.files.lookup place).getD (.error .isDirectory)

/-- Where the working directory of `ofWorkingDirectory` is. No path can have its name, which is a
slash. -/
def workplace : Place := ["tmp", "/"]

/-- The usual directories below the root. -/
def usualDirectories : List Place :=
  ["bin", "boot", "dev", "etc", "home", "lib", "media", "mnt", "opt", "proc", "root", "run", "sbin",
    "srv", "sys", "tmp", "usr", "var"].map ([·])

/-- The usual files: the null device, which holds no text, a terminal that is not there, and the
running program, which is no text. -/
def usualFiles : List (Place × Except FileError String) :=
  [(["dev", "null"], .ok ""),
    (["dev", "tty"], .error (.refused "No such device or address (os error 6)")),
    (["proc", "self", "exe"], .error .notText)]

/-- A machine whose working directory holds some files. Elsewhere it has the usual files and
directories. Where the system keeps its processes there are links from the running program, and from
its thread, to the working directory and to the root. -/
def ofWorkingDirectory (contents : List (String × Except FileError String)) : FileTree where
  files := usualFiles ++ contents.map fun (path, text) => (workplace ++ names path, text)
  directories := workplace :: ["proc", "thread-self"] :: usualDirectories
  links := ["self", "thread-self"].flatMap fun process =>
    [(["proc", process, "cwd"], workplace), (["proc", process, "root"], [])]
  workingDirectory := workplace

end FileTree

end CpuPlacement.Command
