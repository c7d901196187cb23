import GraphingCalculator.Text.Basic

/-!
# Files

Files are the leaves of a tree of directories.  A path is followed through the
tree one name at a time, and where it leads to no file, a fault tells why.
-/

namespace GraphingCalculator
namespace CommandLine

/-- Why a file or the standard input cannot be read. -/
inductive ReadingFault
  | missing
  | denied
  | notDirectory
  | isDirectory
  | nameTooLong
  | notText
  deriving DecidableEq

/-- The words that describe a fault, as the operating system gives them. -/
def ReadingFault.message : ReadingFault → String
  | missing => "No such file or directory (os error 2)"
  | denied => "Permission denied (os error 13)"
  | notDirectory => "Not a directory (os error 20)"
  | isDirectory => "Is a directory (os error 21)"
  | nameTooLong => "File name too long (os error 36)"
  | notText => "stream did not contain valid UTF-8"

/-- A file with its content, or a directory with its entries. -/
inductive FileTree
  | file (content : Text)
  | directory (entries : List (Text × FileTree))

namespace FileTree

/-- The greatest number of bytes in the name of an entry. -/
def maxNameSize : Nat := 255

/-- The greatest number of bytes in a path. -/
def maxPathSize : Nat := 4095

/-- Follow names from a place in the tree.  The directories above the place are
given with the nearest one first.  Only a directory has names in it, even if
the name is empty or stands for the directory itself. -/
def follow (above : List FileTree) (place : FileTree) :
    List Text → Except ReadingFault FileTree
  | [] => .ok place
  | name :: rest =>
      match place with
      | file _ => .error .notDirectory
      | directory entries =>
          if name.isEmpty || name = ['.'] then follow above place rest
          else if name = ['.', '.'] then
            match above with
            | [] => follow [] place rest
            | parent :: outer => follow outer parent rest
          else if maxNameSize < Text.byteSize name then .error .nameTooLong
          else
            match entries.lookup name with
            | some entry => follow (place :: above) entry rest
            | none => .error .missing

end FileTree

/-- A tree of files, and the names that lead from its root to the directory in
which the program works. -/
structure FileSystem where
  root : FileTree
  workingDirectory : List Text

/-- The content of the file at a path.  A path that begins with a slash starts
at the root, any other one in the working directory. -/
def FileSystem.read (files : FileSystem) (path : Text) :
    Except ReadingFault Text :=
  let start := if path.head? = some '/' then [] else files.workingDirectory
  if path.isEmpty then .error .missing
  else if FileTree.maxPathSize < Text.byteSize path then .error .nameTooLong
  else do
    match ← FileTree.follow [] files.root (start ++ path.splitAll '/') with
    | .file content => return content
    | .directory _ => throw .isDirectory

end CommandLine
end GraphingCalculator
