import TabPackager.Text.Literal

/-!
# Refusals

Why an operation on files is refused, and the message in which a refusal, or any other error of
the operating system, is reported.
-/

namespace TabPackager

/-- Why the file system refuses an operation: for what stands there, or, with `other`, for a reason
that lies outside the tree of files, such as a full disk. -/
inductive Refusal where
  | noEntry
  | permission
  | occupied
  | notDirectory
  | isDirectory
  | nameTooLong
  | linkLoop
  | nulByte
  | other (number : Int) (reason : String)
  deriving DecidableEq, Repr

structure OsError where
  number : Int
  reason : String
  file : Option String := none
  target : Option String := none
  deriving DecidableEq, Repr

namespace Refusal

def describe? : Refusal → Option (Int × String)
  | noEntry => some (2, "No such file or directory")
  | permission => some (13, "Permission denied")
  | occupied => some (17, "File exists")
  | notDirectory => some (20, "Not a directory")
  | isDirectory => some (21, "Is a directory")
  | nameTooLong => some (36, "File name too long")
  | linkLoop => some (40, "Too many levels of symbolic links")
  | other number reason => some (number, reason)
  | nulByte => none

end Refusal

namespace OsError

def message (e : OsError) : String :=
  let head := s!"[Errno {e.number}] {e.reason}"
  match e.file, e.target with
  | none, _ => head
  | some a, none => head ++ ": " ++ Text.literal a
  | some a, some b => head ++ ": " ++ Text.literal a ++ " -> " ++ Text.literal b

end OsError

end TabPackager
