import OffloadCheck.Path.Basic
import OffloadCheck.Text.Scalar

/-!
What can go wrong in a storage operation, as causes. An I/O failure is either one of the operating
system's or one found above it; a storage error says which expectation about a path was not met, and
each has one message.
-/
namespace OffloadCheck

/-- The failures that the operating system reports for files and directories. -/
inductive SystemFailure
  | noEntry
  | busy
  | alreadyExists
  | notDirectory
  | isDirectory
  | invalidArgument
  | nameTooLong
  | notEmpty
deriving DecidableEq, Repr

namespace SystemFailure

def code : SystemFailure → Nat
  | .noEntry => 2
  | .busy => 16
  | .alreadyExists => 17
  | .notDirectory => 20
  | .isDirectory => 21
  | .invalidArgument => 22
  | .nameTooLong => 36
  | .notEmpty => 39

def wording : SystemFailure → String
  | .noEntry => "No such file or directory"
  | .busy => "Device or resource busy"
  | .alreadyExists => "File exists"
  | .notDirectory => "Not a directory"
  | .isDirectory => "Is a directory"
  | .invalidArgument => "Invalid argument"
  | .nameTooLong => "File name too long"
  | .notEmpty => "Directory not empty"

def message (f : SystemFailure) : String :=
  f.wording ++ " (os error " ++ Text.ofNat f.code ++ ")"

end SystemFailure

inductive IoFailure
  | system (failure : SystemFailure)
  | nulInPath
  | notText
  /-- A copy whose source is a directory. -/
  | notRegularFile
  /-- A write to a file that is gone, under the path as it is shown. -/
  | deletedWhileOpen (path : String)
  | other (reason : String)
deriving DecidableEq, Repr

def IoFailure.message : IoFailure → String
  | .system f => f.message
  | .nulInPath => "file name contained an unexpected NUL byte"
  | .notText => "stream did not contain valid UTF-8"
  | .notRegularFile => "the source path is neither a regular file nor a symlink to a regular file"
  | .deletedWhileOpen path => path ++ " was deleted while open"
  | .other reason => reason

inductive StorageError (ν : Type := String)
  | notFound (path : Path ν)
  | notADirectory (path : Path ν)
  | isADirectory (path : Path ν)
  | directoryNotEmpty (path : Path ν)
  | io (failure : IoFailure)
deriving DecidableEq, Repr

namespace StorageError

variable {ν : Type}

def message [PathText ν] : StorageError ν → String
  | .notFound p => "path not found: " ++ PathText.shown p.text
  | .notADirectory p => "not a directory: " ++ PathText.shown p.text
  | .isADirectory p => "is a directory: " ++ PathText.shown p.text
  | .directoryNotEmpty p => "directory not empty: " ++ PathText.shown p.text
  | .io f => "I/O error: " ++ f.message

/-- An I/O failure met at `path`: a missing entry is the path's own error. -/
def ofIo (path : Path ν) : IoFailure → StorageError ν
  | .system .noEntry => .notFound path
  | f => .io f

end StorageError
end OffloadCheck
