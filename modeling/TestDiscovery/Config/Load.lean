-- SUMMARY: Options read from the configuration file of a repository.
import TestDiscovery.Config.Options
import TestDiscovery.Yaml.Loader

/-!
# Configuration

A repository may have a configuration file with a section for discovery. The whole section counts as absent if it or
its list of directories has the wrong shape; each other setting is taken if it is of the right kind, and has its
default otherwise. A file that cannot be read as such a text sets nothing.
-/

namespace TestDiscovery

open Yaml (Atom Document Loader)

namespace Options

/-- The name of the configuration file. -/
def fileName : String := ".ablunit"

-- ---------------------------------------------------------------------------
-- Options from a value
-- ---------------------------------------------------------------------------

/-- The setting under a key, or a default where it is absent or of another kind. -/
def setting (d : Document) (part : List (Atom × Nat)) (key : String) (read : Atom → Option α) (default : α) : α :=
  match (Yaml.lookupText part key).bind d.value? with
  | some (.atom a) => (read a).getD default
  | _ => default

def textOf? : Atom → Option String
  | .text s => some s
  | _ => none

def boolOf? : Atom → Option Bool
  | .bool b => some b
  | _ => none

/-- The names of the excluded directories: the text of each item, whatever it is. -/
def excludeDirsOf (loader : Loader) (d : Document) (part : List (Atom × Nat)) :
    Option (Except Yaml.Error (List String)) :=
  match Yaml.lookupText part "exclude_dirs" with
  | none => some (.ok defaultExcludeDirs)
  | some id => (d.list? id).map fun items => items.mapM (loader.write d)

/-- The options in the section for discovery. -/
def ofSection (loader : Loader) (d : Document) (part : List (Atom × Nat)) : Except Yaml.Error Options :=
  match excludeDirsOf loader d part with
  | none => .ok {}
  | some (.error e) => .error e
  | some (.ok excludeDirs) =>
    let o : Options := {}
    .ok {
      classExtension := setting d part "class_extension" textOf? o.classExtension
      programExtension := setting d part "program_extension" textOf? o.programExtension
      legacyRanges := setting d part "legacy_ranges" boolOf? o.legacyRanges
      suiteCaseSensitive := setting d part "suite_case_sensitive" boolOf? o.suiteCaseSensitive
      excludeDirs }

/-- The options in a document. -/
def ofDocument (loader : Loader) (d : Document) : Except Yaml.Error Options :=
  match d.rootValue? with
  | some (.dict pairs) =>
    match Yaml.lookupText pairs "discovery" with
    | none => ofSection loader d []
    | some id =>
      match d.value? id with
      | some (.dict part) => ofSection loader d part
      | _ => .ok {}
  | _ => .ok {}

-- ---------------------------------------------------------------------------
-- Options from a file
-- ---------------------------------------------------------------------------

/-- The options in the bytes of a configuration file. Bytes that are refused set nothing. -/
def ofBytes (loader : Loader) (bytes : List UInt8) : Except Yaml.Breakdown Options :=
  match (loader.load bytes).bind (ofDocument loader) with
  | .ok o => .ok o
  | .error (.invalid _) => .ok {}
  | .error (.breakdown cause) => .error cause

end Options

end TestDiscovery
