/-
Files and directories, as far as reading them goes.

A path is followed name by name, and each way to fail on it is told apart:
there is no such name, a name is asked of something that is no directory, a
name is longer than any directory can hold, the path ends at a directory.
-/
namespace SqlSelect

/-- Why a place yields no text. -/
inductive ReadFault where
  | missing
  | denied
  | notDirectory
  | directory
  | nameTooLong
  | notText
  | other (reason : String)
  deriving DecidableEq

/-- The wording of a read fault. -/
def ReadFault.message : ReadFault → String
  | .missing => "No such file or directory (os error 2)"
  | .denied => "Permission denied (os error 13)"
  | .notDirectory => "Not a directory (os error 20)"
  | .directory => "Is a directory (os error 21)"
  | .nameTooLong => "File name too long (os error 36)"
  | .notText => "stream did not contain valid UTF-8"
  | .other reason => reason

/-- A file, or a directory with what stands in it under a name. -/
inductive FileTree where
  | file (bytes : ByteArray)
  | directory (entries : List (String × FileTree))

namespace FileTree

/-- The most bytes in a name. -/
def longestName : Nat := 255

/-- The most bytes in a path. -/
def longestPath : Nat := 4095

end FileTree

/-- A place among files: what stands there, and the directories around it,
the nearest first. -/
structure Site where
  here : FileTree
  around : List FileTree

namespace Site

/-- The directory around all others. -/
def root (s : Site) : Site :=
  match s.around.getLast? with
  | some outermost => ⟨outermost, []⟩
  | none => s

/-- Goes to what a name stands for. Nothing and one dot stand for the
directory itself, two dots for the one around it. -/
def enter (s : Site) (name : String) : Except ReadFault Site :=
  match s.here with
  | .file _ => .error .notDirectory
  | .directory entries =>
    if name = "" ∨ name = "." then .ok s
    else if name = ".." then
      match s.around with
      | [] => .ok s
      | outer :: around => .ok ⟨outer, around⟩
    else if FileTree.longestName < name.utf8ByteSize then .error .nameTooLong
    else match entries.lookup name with
      | some entry => .ok ⟨entry, s.here :: s.around⟩
      | none => .error .missing

/-- Goes where a path leads: from the outermost directory if it starts with
a slash, from here if not. A slash at its end asks for a directory. -/
def follow (s : Site) (path : String) : Except ReadFault Site :=
  if path.isEmpty then .error .missing
  else if FileTree.longestPath < path.utf8ByteSize then .error .nameTooLong
  else
    let names := path.splitOn "/"
    names.foldlM enter (if names.head? = some "" then s.root else s)

/-- The bytes of the file to which a path leads. -/
def read (s : Site) (path : String) : Except ReadFault ByteArray := do
  match (← s.follow path).here with
  | .file bytes => return bytes
  | .directory _ => throw .directory

end Site

end SqlSelect
