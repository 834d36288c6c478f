/-
StrategyBench.Cli.Files — what the command line does with files, and a tree of files to do it on.

A `Disk` reads texts and makes directories in some monad; a `FileTree` is a disk by itself.
-/

import StrategyBench.Text.Split

namespace StrategyBench

inductive FileError
  | notFound
  | alreadyThere
  | notDirectory
  | isDirectory
  | notText
  deriving DecidableEq, Repr

def FileError.message : FileError → String
  | .notFound => "No such file or directory (os error 2)"
  | .alreadyThere => "File exists (os error 17)"
  | .notDirectory => "Not a directory (os error 20)"
  | .isDirectory => "Is a directory (os error 21)"
  | .notText => "stream did not contain valid UTF-8"

structure Disk (m : Type → Type) where
  /-- The text of a file. -/
  read : String → m (Except FileError String)
  /-- Makes a directory with those that it stands in, unless it is there. -/
  makeDirectory : String → m (Except FileError Unit)

/-! ## Trees -/

/-- The names on the way to a file or directory. -/
abbrev Path := List String

structure FileTree where
  files : List (Path × String) := []
  /-- Directories besides those that files stand in. -/
  directories : List Path := []

/-- What stands at a path. -/
inductive Entry
  | file (text : String)
  | directory (path : Path)

namespace FileTree

def names (path : String) : List String := (Text.splitOn '/' path.toList).map String.ofList

/-- A tree of files under the paths that are written. -/
def ofTexts (files : List (String × String)) : FileTree :=
  { files := files.map fun f => ((names f.1).filter fun n => n ≠ "" ∧ n ≠ ".", f.2) }

def isDirectory (t : FileTree) (p : Path) : Bool :=
  p.isEmpty || t.directories.any (p.isPrefixOf ·) ||
    t.files.any fun f => p.isPrefixOf f.1 && f.1.length ≠ p.length

/-- Follows names from a directory; a file has to be the last. -/
def walk (t : FileTree) (here : Path) : List String → Except FileError Entry
  | [] => .ok (.directory here)
  | n :: rest =>
    if n = "" ∨ n = "." then walk t here rest
    else if n = ".." then walk t here.dropLast rest
    else
      match t.files.lookup (here ++ [n]) with
      | some text => if rest.isEmpty then .ok (.file text) else .error .notDirectory
      | none => if t.isDirectory (here ++ [n]) then walk t (here ++ [n]) rest else .error .notFound

/-- The text of a file; the tree has no path that starts at the root of the host. -/
def read (t : FileTree) (path : String) : Except FileError String :=
  if path.startsWith "/" then .error .notFound
  else
    match t.walk [] (names path) with
    | .ok (.file text) => .ok text
    | .ok (.directory _) => .error .isDirectory
    | .error e => .error e

/-- Makes the directories on a way. -/
def makeFrom (t : FileTree) (here : Path) : List String → Except FileError FileTree
  | [] => .ok t
  | n :: rest =>
    if n = "" ∨ n = "." then makeFrom t here rest
    else if n = ".." then makeFrom t here.dropLast rest
    else
      let place := here ++ [n]
      if (t.files.lookup place).isSome then
        .error (if rest.all (· = "") then .alreadyThere else .notDirectory)
      else makeFrom { t with directories := place :: t.directories } place rest

def makeDirectory (t : FileTree) (path : String) : Except FileError FileTree :=
  if path.startsWith "/" then .ok t else t.makeFrom [] (names path)

/-- Reads from the tree that is held, and makes directories in it. -/
def disk : Disk (StateM FileTree) where
  read path := do return (← get).read path
  makeDirectory path := do
    match (← get).makeDirectory path with
    | .ok t => do
      set t
      return .ok ()
    | .error e => return .error e

end FileTree
end StrategyBench
