/-
  BuildPlan.Workspace.FileTree
  ────────────────────────────
  **THE FILES OF A WORKSPACE.**

  A finite collection of files, by path, and of directories that hold none.  Every
  directory on the way to one of them exists as well, and so does the top.  Whoever
  asks for a file that is there is given its bytes: permissions, and limits on how
  long a name or a path may be, are no part of a tree.
-/
import BuildPlan.Workspace.Path

namespace BuildPlan.Workspace

/-- Files by path, and directories that hold no file. -/
structure FileTree where
  /-- The files and their bytes. -/
  files : List (Path × ByteArray) := []
  /-- The directories that exist whether or not they hold a file. -/
  directories : List Path := []

namespace FileTree

/-- The tree with the file, which takes the place of any other of that path. -/
def insertFile (t : FileTree) (p : Path) (bytes : ByteArray) : FileTree :=
  { t with files := t.files.filter (fun f => f.1 ≠ p) ++ [(p, bytes)] }

/-- The tree with the directory. -/
def insertDirectory (t : FileTree) (p : Path) : FileTree :=
  { t with directories := t.directories ++ [p] }

/-- The bytes of a file, if there is such a file. -/
def file? (t : FileTree) (p : Path) : Option ByteArray := t.files.lookup p

/-- Whether a path leads to a directory. -/
def isDirectory (t : FileTree) (p : Path) : Bool :=
  (p = Path.top || t.directories.any fun d => p.names.isPrefixOf d.names) ||
    t.files.any fun f => p ≠ f.1 ∧ p.names.isPrefixOf f.1.names

/-- Follows the marks of a text one by one, as long as each leads on from a directory. -/
def walk (t : FileTree) : Path → List String → Option Path
  | p, [] => some p
  | p, mark :: marks => if t.isDirectory p then t.walk (p.step mark) marks else none

/-- The directory that a text leads to from another, if every step on the way exists. -/
def enter (t : FileTree) (base : Path) (text : String) : Option Path :=
  if text = "" then none
  else (t.walk (if Path.isAbsolute text then Path.top else base) (Path.marks text)).filter
    t.isDirectory

end FileTree

end BuildPlan.Workspace
