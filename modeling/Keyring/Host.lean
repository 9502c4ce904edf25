/-! # The host

What a process sees of the machine it runs on before it does any work: the files and directories it
may read, its environment, and its standard directories. Paths are absolute, with `/` between names.
-/

namespace Keyring

/-- The part of a machine that configuration depends on. -/
structure Host where
  /-- Files by path, with their text. -/
  files : List (String × String)
  /-- Directories by path. -/
  directories : List String
  /-- Environment variables by name. -/
  environment : List (String × String)
  workingDirectory : Option String
  /-- The home directory of the user. -/
  home : Option String
  /-- Where the user keeps configuration. -/
  configDirectory : Option String

namespace Host

/-- The text of a file. -/
def read? (h : Host) (path : String) : Option String :=
  (h.files.find? (·.1 = path)).map (·.2)

/-- Whether a path names a directory. -/
def isDirectory (h : Host) (path : String) : Bool :=
  h.directories.contains path

/-- Whether a path names a file or a directory. -/
def exists? (h : Host) (path : String) : Bool :=
  (h.read? path).isSome || h.isDirectory path

/-- The value of an environment variable. -/
def environment? (h : Host) (name : String) : Option String :=
  (h.environment.find? (·.1 = name)).map (·.2)

/-- A name inside a directory. -/
def join (directory name : String) : String :=
  directory ++ "/" ++ name

/-- Splits a path into its directory and its last name. -/
def splitLast (path : List Char) : List Char × List Char :=
  let name := (path.reverse.takeWhile (· ≠ '/')).reverse
  (path.take (path.length - name.length - 1), name)

/-- The directory of a path. -/
def parent (path : String) : String :=
  String.ofList (splitLast path.toList).1

/-- The last name of a path. -/
def fileName (path : String) : String :=
  String.ofList (splitLast path.toList).2

/-- The last name of a path without its extension: what stands before the last point, unless the
name starts with its only point. -/
def fileStem (path : String) : String :=
  let name := (splitLast path.toList).2
  let stem := (name.reverse.dropWhile (· ≠ '.')).drop 1
  if stem.isEmpty then String.ofList name else String.ofList stem.reverse

/-- Why a file cannot be written. -/
inductive WriteFault
  | missing
  | notDirectory
  | isDirectory
  deriving DecidableEq, Repr

/-- The wording of a fault. -/
def WriteFault.message : WriteFault → String
  | .missing => "No such file or directory (os error 2)"
  | .notDirectory => "Not a directory (os error 20)"
  | .isDirectory => "Is a directory (os error 21)"

/-- The host after a file was written. -/
def write (h : Host) (path text : String) : Except WriteFault Host :=
  if h.isDirectory path then .error .isDirectory
  else if h.isDirectory (parent path) then
    .ok { h with files := (path, text) :: h.files.filter (·.1 ≠ path) }
  else if (h.read? (parent path)).isSome then .error .notDirectory
  else .error .missing

end Host

end Keyring
