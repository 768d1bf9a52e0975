import FiniteReach.Text.Utf8

/-!
# Byte sources

A source delivers bytes one after another and then either ends or fails. Failures of files and
devices are values of `IoFault`, whatever was being read or written when they occurred.
-/

namespace FiniteReach

/-- Why a file or a device could not be used. -/
inductive IoFault where
  /-- No file of that name, or an empty name. -/
  | notFound
  /-- A file stands where the name needs a directory. -/
  | notADirectory
  /-- A directory stands where the name needs a file. -/
  | isADirectory
  /-- The name is taken. -/
  | alreadyExists
  /-- A part of the name, or all of it, is longer than the system takes. -/
  | nameTooLong
  /-- The name holds a NUL. -/
  | nulInName
  /-- The bytes were read and are no text. -/
  | invalidText
  /-- Any other failure, in the words of the device. -/
  | device (text : String)
  deriving DecidableEq, Repr

/-- The wording of a fault. -/
def IoFault.message : IoFault → String
  | .notFound => "No such file or directory (os error 2)"
  | .notADirectory => "Not a directory (os error 20)"
  | .isADirectory => "Is a directory (os error 21)"
  | .alreadyExists => "File exists (os error 17)"
  | .nameTooLong => "File name too long (os error 36)"
  | .nulInName => "file name contained an unexpected NUL byte"
  | .invalidText => "stream did not contain valid UTF-8"
  | .device text => text

/-- Bytes still to be delivered, and the failure that follows them, if the source does not end. -/
structure Source where
  bytes : Bytes
  failure : Option IoFault := none
  deriving DecidableEq, Repr

namespace Source

/-- A source that ends after `bs`. -/
def ofBytes (bs : Bytes) : Source := ⟨bs, none⟩

/-- What reading everything gives. -/
def contents (src : Source) : Except IoFault Bytes :=
  match src.failure with
  | some fault => .error fault
  | none => .ok src.bytes

end Source

end FiniteReach
