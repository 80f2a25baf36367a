-- SUMMARY: Why a place in a file tree cannot be used, and the messages for it.
import TestDiscovery.Files.Path
import TestDiscovery.Text.Quoted

/-!
# Faults

A fault says why a path leads nowhere or to the wrong thing. Its message has the number that the operating
system gives to the fault, its words, and the path in quotes.
-/

namespace TestDiscovery

inductive Fault where
  | missing
  | notDirectory
  | isDirectory
  | nameTooLong
  | linkLoop
deriving DecidableEq, Repr

namespace Fault

def number : Fault → Nat
  | missing => 2
  | notDirectory => 20
  | isDirectory => 21
  | nameTooLong => 36
  | linkLoop => 40

def words : Fault → String
  | missing => "No such file or directory"
  | notDirectory => "Not a directory"
  | isDirectory => "Is a directory"
  | nameTooLong => "File name too long"
  | linkLoop => "Too many levels of symbolic links"

end Fault

/-- A fault that was met on the way to a path. -/
structure FileError where
  fault : Fault
  path : Path
deriving DecidableEq, Repr

def FileError.message (e : FileError) : String :=
  "[Errno " ++ toString e.fault.number ++ "] " ++ e.fault.words ++ ": " ++
    String.ofList (Text.quoted e.path.text.toList)

end TestDiscovery
