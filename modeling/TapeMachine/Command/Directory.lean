import TapeMachine.Command.Loading
import TapeMachine.Text.Split

/-!
# A directory as surroundings

Surroundings of which everything is known: the standard input, and the files and directories below
the directory in which paths begin. A path is followed name by name, and every name but the last has
to lead to a directory. Of the system above only the usual directories are known, a device that
holds nothing, and one that stands for the standard input.
-/

namespace TapeMachine.Command

def longestName : Nat := 255

def longestPath : Nat := 4095

/-- The names and contents of files and the names of directories below some directory. Names are
paths, their parts divided by slashes. -/
structure Directory where
  files : List (String × Array UInt8)
  directories : List String

namespace Directory

/-- The path to what has the given parts, outermost first. -/
def join (parts : List String) : String := "/".intercalate parts

/-- The contents of the file with the given parts. -/
def file? (d : Directory) (parts : List String) : Option (Array UInt8) :=
  d.files.lookup (join parts)

def isDirectory (d : Directory) (parts : List String) : Bool := d.directories.contains (join parts)

inductive Place where
  | inside (parts : List String)
  /-- To a directory above, of which nothing else is known. -/
  | above
  deriving DecidableEq

/-- Follow the rest of a path from a directory. The result is the contents of a file, or none for
a directory. -/
def follow (d : Directory) : Place → List String → Except SystemError (Option (Array UInt8))
  | _, [] => .ok none
  | place, "" :: rest => d.follow place rest
  | place, "." :: rest => d.follow place rest
  | .above, ".." :: rest => d.follow .above rest
  | .inside [], ".." :: rest => d.follow .above rest
  | .inside (part :: parts), ".." :: rest => d.follow (.inside (part :: parts).dropLast) rest
  | place, name :: rest =>
    if longestName < name.utf8ByteSize then .error .nameTooLong
    else
      match place with
      | .above => .error .noSuchFile
      | .inside parts =>
        let parts := parts ++ [name]
        match d.file? parts, rest with
        | some contents, [] => .ok (some contents)
        | some _, _ :: _ => .error .notADirectory
        | none, rest =>
          if d.isDirectory parts then d.follow (.inside parts) rest else .error .noSuchFile

/-- What is found in every system, besides what is given. -/
def system (input : Array UInt8) : Directory where
  files := [("dev/null", #[]), ("dev/stdin", input)]
  directories :=
    ["bin", "dev", "etc", "home", "lib", "mnt", "opt", "proc", "root", "run", "sbin", "srv", "sys",
      "tmp", "usr", "var"]

/-- What is at a path. One that begins with a slash is followed from the top of the system. -/
def find (d : Directory) (input : Array UInt8) (path : String) :
    Except SystemError (Option (Array UInt8)) :=
  if longestPath < path.utf8ByteSize then .error .nameTooLong
  else
    match (Text.split '/' path.toList).map String.ofList with
    | [""] => .error .noSuchFile
    | "" :: parts => (system input).follow (.inside []) parts
    | parts => d.follow (.inside []) parts

def surroundings (d : Directory) (input : Array UInt8) : Surroundings Id where
  input := .ok input
  file path := (d.find input path).map fun contents =>
    match contents with
    | some bytes => .ok bytes
    | none => .error .isADirectory

end Directory

end TapeMachine.Command
