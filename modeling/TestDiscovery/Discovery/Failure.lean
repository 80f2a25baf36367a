-- SUMMARY: Why discovery gives no result, and the messages for it.
import TestDiscovery.Files.Fault
import TestDiscovery.Text.Utf8
import TestDiscovery.Yaml.Error

/-!
# Failures

Each way in which discovery can fail is a cause of its own, with what its message needs.
-/

namespace TestDiscovery

/-- The message for bytes that are no text. -/
def Text.Utf8.Error.message (e : Text.Utf8.Error) : String :=
  let place := match e.bytes with
    | [b] => "byte 0x" ++ String.ofList (Text.hexDigits 2 b.toNat) ++ " in position " ++ toString e.offset
    | bytes => "bytes in position " ++ toString e.offset ++ "-" ++ toString (e.offset + bytes.length - 1)
  "'utf-8' codec can't decode " ++ place ++ ": " ++ e.cause.message

inductive Failure where
  /-- No directory at or above a place is a repository. -/
  | noRepository (start : Path)
  /-- A file is not there; it is named as it was given. -/
  | noFile (given : String)
  /-- A file has none of the suffixes of sources. -/
  | unsupported (given : String)
  /-- A place cannot be used. -/
  | inaccessible (e : FileError)
  /-- A path holds a character that no path can hold. -/
  | nulInPath
  /-- A path leads through a link to itself. -/
  | linkLoop (p : Path)
  /-- A source is no text. -/
  | undecodable (e : Text.Utf8.Error)
  /-- Reading the configuration broke down. -/
  | configuration (cause : Yaml.Breakdown)
deriving DecidableEq, Repr

def Failure.message : Failure → String
  | noRepository start => "Not a git repository (or any parent): " ++ start.text
  | noFile given => "File not found: " ++ given
  | unsupported given => "Unsupported file type: " ++ given
  | inaccessible e => e.message
  | nulInPath => "embedded null byte"
  | linkLoop p => "Symlink loop from " ++ String.ofList (Text.quoted p.text.toList)
  | undecodable e => e.message
  | configuration cause => cause.message

end TestDiscovery
