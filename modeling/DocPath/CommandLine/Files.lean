/-!
# Files

The program reads a file by its name, or is told why it cannot. `main` asks the machine
for it. Where the program is run as a function of everything that it finds around it, a
tree of directories and files stands for the machine's, and the working directory is a
place in it. A name is walked part by part from there; the first part that leads nowhere
decides why there is no file, and the error is the one that the machine gives.
-/

namespace DocPath.CommandLine

/-- Why a file could not be read. -/
inductive FileError where
  | notFound
  | permissionDenied
  | notADirectory
  | isADirectory
  | nameTooLong
  | other (description : String)

namespace FileError

def message : FileError → String
  | .notFound => "No such file or directory (os error 2)"
  | .permissionDenied => "Permission denied (os error 13)"
  | .notADirectory => "Not a directory (os error 20)"
  | .isADirectory => "Is a directory (os error 21)"
  | .nameTooLong => "File name too long (os error 36)"
  | .other description => description

/-- The error with a number of the operating system's. -/
def ofNumber? : Nat → Option FileError
  | 2 => some .notFound
  | 13 => some .permissionDenied
  | 20 => some .notADirectory
  | 21 => some .isADirectory
  | 36 => some .nameTooLong
  | _ => none

end FileError

inductive FileTree where
  | file (bytes : ByteArray)
  | directory (entries : List (String × FileTree))

/-- A node of a tree, with the directories above it, the nearest first. -/
structure Place where
  node : FileTree
  above : List FileTree

namespace Place

/-- The greatest number of bytes in a part of a name. -/
def maxPart : Nat := 255

/-- The greatest number of bytes in a whole name. -/
def maxName : Nat := 4095

def root (p : Place) : Place :=
  match p.above.getLast? with
  | none => p
  | some node => ⟨node, []⟩

/-- One part of a name. An empty part or a dot stays where it is, but not in a file. Two
dots lead to the directory above; the root is above itself. -/
def step (p : Place) (part : String) : Except FileError Place :=
  match p.node with
  | .file _ => .error .notADirectory
  | .directory entries =>
    if part = "" ∨ part = "." then .ok p
    else if part = ".." then
      match p.above with
      | [] => .ok p
      | node :: above => .ok ⟨node, above⟩
    else if maxPart < part.utf8ByteSize then .error .nameTooLong
    else match entries.lookup part with
      | some node => .ok ⟨node, p.node :: p.above⟩
      | none => .error .notFound

/-- The place that a name leads to, from the root if a slash stands in front. -/
def walk (p : Place) (name : String) : Except FileError Place :=
  if maxName < name.utf8ByteSize then .error .nameTooLong
  else (name.splitOn "/").foldlM step (if name.startsWith "/" then p.root else p)

/-- The bytes of the file that a name leads to. -/
def read (p : Place) (name : String) : Except FileError ByteArray := do
  match (← p.walk name).node with
  | .file bytes => .ok bytes
  | .directory _ => .error .isADirectory

end Place

end DocPath.CommandLine
