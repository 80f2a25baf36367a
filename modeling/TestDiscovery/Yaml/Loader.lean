-- SUMMARY: What a program relies on to load YAML values and to write them, and the loader of this library.
import TestDiscovery.Text.Newline
import TestDiscovery.Text.Utf8
import TestDiscovery.Yaml.Document

/-!
# Loaders

A program has the value of a document from a loader, and knows of it only whether there is a value, a rule is broken, or
loading breaks down. So what is said about the program is said for every loader. The one of this library is an instance,
and the one that runs. A value is written in one way, but with too much inside each other writing it may break down.

The texts in a document are sequences of characters. Half of a pair of surrogates is none, so a value that holds one is
not among these.
-/

namespace TestDiscovery.Yaml

/-- What can stand in a list: a value, or a pair, which is known by the number of its list and its place there. -/
inductive Item where
  | value (id : Nat)
  | pair (list place key value : Nat)
deriving DecidableEq, Repr

namespace Document

/-- The items of a value that is a list. A list of pairs has pairs for items. -/
def list? (d : Document) (id : Nat) : Option (List Item) :=
  match d.value? id with
  | some (.list items) => some (items.map .value)
  | some (.pairs entries) => some (entries.zipIdx.map fun ((key, value), place) => .pair id place key value)
  | _ => none

/-- The text of an item. -/
def itemText (d : Document) : Item → Except Error String
  | .value id => d.textOf id
  | .pair list place key value => d.entryText list place key value

/-- The document in the bytes of a text. Line breaks are unified. -/
def ofBytes (bytes : List UInt8) : Except Error Document :=
  match Text.Utf8.decode bytes with
  | .error _ => .error .undecodable
  | .ok text => ofText (Text.unifyNewlines text)

end Document

/-- What loads documents from bytes and writes what is in them. -/
structure Loader where
  load : List UInt8 → Except Error Document
  write : Document → Item → Except Error String
  /-- Where writing does not break down, it gives the text. -/
  written : ∀ d item, write d item = d.itemText item ∨ ∃ cause, write d item = .error (.breakdown cause)

/-- The loader of this library. -/
def Loader.library : Loader := ⟨Document.ofBytes, Document.itemText, fun _ _ => .inl rfl⟩

end TestDiscovery.Yaml
