import Grf.Text.Lines

namespace Grf

/-- What a path can name. -/
inductive FileEntry where
  | file (contents : Bytes)
  | directory

/-- Why a path names nothing that can be read. -/
inductive FileError where
  | missing
  | notDirectory
  | isDirectory
  | nameTooLong
  | malformedPath
deriving DecidableEq

/-- A way to read files: the contents at a path, or why there are none. -/
abbrev Reader := String → Except FileError Bytes

/-- The steps of a path, which stand between its slashes. -/
def Path.steps (path : String) : List String :=
  (Text.pieces '/' path.toList).map String.ofList

/-- Files and directories, each with the names on its path from the root, and the directory where
relative paths start. The directories on the way to any of them exist without an entry of their
own. -/
structure FileTree where
  home : List String := []
  entries : List (List String × FileEntry) := []

namespace FileTree

/-- What stands at the end of a path of plain names. -/
def entry? (tree : FileTree) (path : List String) : Option FileEntry :=
  match tree.entries.lookup path with
  | some entry => some entry
  | none =>
    if path.isPrefixOf tree.home || tree.entries.any (fun e => path.isPrefixOf e.1) then
      some .directory
    else none

/-- The largest number of bytes in a name. -/
def nameLimit : Nat := 255

/-- The largest number of bytes in a path. -/
def pathLimit : Nat := 4095

/-- Follows the steps of a path from the directory `here`. Empty steps and single dots stay, and
double dots lead up; above the root there is nothing else. A name is looked up only after the names
before it, so the first fault on the path counts; a step that follows a file is one. -/
def follow (tree : FileTree) (here : List String) : List String → Except FileError FileEntry
  | [] => .ok .directory
  | step :: rest =>
    if step = "" ∨ step = "." then tree.follow here rest
    else if step = ".." then tree.follow here.dropLast rest
    else if nameLimit < step.utf8ByteSize then .error .nameTooLong
    else
      match tree.entry? (here ++ [step]) with
      | none => .error .missing
      | some .directory => tree.follow (here ++ [step]) rest
      | some (.file contents) =>
        if rest.isEmpty then .ok (.file contents) else .error .notDirectory

/-- Opens a path, which starts at the root if it begins with a slash. No path can hold the
character zero. -/
def locate (tree : FileTree) (path : String) : Except FileError FileEntry :=
  if path.toList.contains (Char.ofNat 0) then .error .malformedPath
  else if path = "" then .error .missing
  else if pathLimit < path.utf8ByteSize then .error .nameTooLong
  else tree.follow (if path.toList.head? = some '/' then [] else tree.home) (Path.steps path)

/-- The contents of the file at a path. -/
def read (tree : FileTree) : Reader := fun path =>
  match tree.locate path with
  | .error e => .error e
  | .ok .directory => .error .isDirectory
  | .ok (.file contents) => .ok contents

/-- A tree with the given paths, all relative to `home`; a path without contents is a directory. -/
def ofPaths (home : List String) (paths : List (String × Option Bytes)) : FileTree where
  home := home
  entries := paths.map fun (path, contents) =>
    (home ++ (Path.steps path).filter fun step => step ≠ "" ∧ step ≠ ".",
      match contents with
      | some text => .file text
      | none => .directory)

end FileTree

namespace Path

/-- The last name on a path, trailing slashes aside. -/
def base (path : String) : String :=
  if path = "" then "."
  else
    let trimmed := (path.toList.reverse.dropWhile (· = '/'))
    if trimmed.isEmpty then "/"
    else String.ofList (trimmed.takeWhile (· ≠ '/')).reverse

/-- Takes the steps of a path one after the other without looking at any file; `done` holds the
steps that remain, the last one first. At the root there is nothing above. -/
def simplify (rooted : Bool) (done : List String) : List String → List String
  | [] => done.reverse
  | step :: rest =>
    if step = "" ∨ step = "." then simplify rooted done rest
    else if step = ".." then
      match done with
      | [] => if rooted then simplify rooted [] rest else simplify rooted [".."] rest
      | last :: before =>
        if last = ".." then simplify rooted (".." :: done) rest else simplify rooted before rest
    else simplify rooted (step :: done) rest

/-- The shortest path with the same steps. -/
def clean (path : String) : String :=
  let rooted := path.toList.head? = some '/'
  match simplify rooted [] (Path.steps path) with
  | [] => if rooted then "/" else "."
  | steps => (if rooted then "/" else "") ++ "/".intercalate steps

/-- The path of `name` in a directory. -/
def join (directory name : String) : String :=
  clean (if directory = "" then name else directory ++ "/" ++ name)

end Path

end Grf
