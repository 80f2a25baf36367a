-- SUMMARY: Values of documents as trees, and their texts: a value is written unless some number in it is too long.
import Mathlib.Data.List.Perm.Subperm
import TestDiscovery.Proofs.Yaml.Scalar
import TestDiscovery.Yaml.Loader

/-!
# Data

Values of a document refer to their parts by number, so parts can be shared, and a collection can be a part of itself.
What there is to see from a value is a tree: it goes down to atoms, and where a collection would be entered again inside
itself it says so. The text of a value is that of its tree. Writing it never nests too deep, since the collections around
a part are different, and there are no more of them than values. It fails for one reason, a whole number with too many
digits.
-/

namespace TestDiscovery.Yaml

/-- What has brackets of its own. -/
inductive Shape where
  | list
  | dict
  | pair
deriving DecidableEq, Repr

/-- A value with its parts. -/
inductive Data where
  | atom (a : Atom)
  | list (items : List Data)
  | dict (pairs : List (Atom × Data))
  | set (members : List Atom)
  | pair (key value : Data)
  /-- A list, a mapping or a pair inside itself. -/
  | again (shape : Shape)

/-! ## Texts -/

/-- The text of an atom inside another value, however long. -/
def Atom.inside : Atom → String
  | null => "None"
  | bool b => if b then "True" else "False"
  | int n => toString n
  | float d => String.ofList d.text
  | text s => String.ofList (Text.quoted s.toList)
  | bytes b => String.ofList (Text.quotedBytes b)
  | date d => d.call
  | dateTime t => t.call

/-- The text of an atom by itself: texts stand without quotes, and times in digits. -/
def Atom.alone : Atom → String
  | text s => s
  | date d => d.text
  | dateTime t => t.text
  | a => a.inside

/-- A whole number with more digits than are ever written. -/
def Atom.IsLong : Atom → Prop
  | int n => maxDigits < (toString n.natAbs).length
  | _ => False

namespace Data

open Document (bracketed)

/-- The text of a value inside another one. -/
def inside : Data → String
  | atom a => a.inside
  | list items => bracketed "[" "]" (items.map inside)
  | dict pairs => bracketed "\x7b" "\x7d" (pairs.map fun p => p.1.inside ++ ": " ++ p.2.inside)
  | set [] => "set()"
  | set members => bracketed "\x7b" "\x7d" (members.map Atom.inside)
  | pair key value => bracketed "(" ")" [key.inside, value.inside]
  | again .list => "[...]"
  | again .dict => "\x7b...\x7d"
  | again .pair => "(...)"
decreasing_by
  · decreasing_tactic
  · next hp =>
    have hlt := List.sizeOf_lt_of_mem hp
    have hvalue : sizeOf p = 1 + sizeOf p.1 + sizeOf p.2 := by cases p; rfl
    rw [dict.sizeOf_spec]
    omega
  · decreasing_tactic
  · decreasing_tactic

/-- The text of a value by itself. -/
def text : Data → String
  | atom a => a.alone
  | x => x.inside

theorem text_of_ne_atom {x : Data} (h : ∀ a, x ≠ atom a) : x.text = x.inside := by
  cases x with
  | atom a => exact absurd rfl (h a)
  | _ => rfl

/-- Somewhere in a value there is a number that is too long. -/
inductive HasLongNumber : Data → Prop where
  | atom {a : Atom} (h : a.IsLong) : HasLongNumber (.atom a)
  | item {items : List Data} {x : Data} (hx : x ∈ items) (h : HasLongNumber x) : HasLongNumber (.list items)
  | dictKey {pairs : List (Atom × Data)} {p : Atom × Data} (hp : p ∈ pairs) (h : p.1.IsLong) : HasLongNumber (.dict pairs)
  | dictValue {pairs : List (Atom × Data)} {p : Atom × Data} (hp : p ∈ pairs) (h : HasLongNumber p.2) :
      HasLongNumber (.dict pairs)
  | member {members : List Atom} {a : Atom} (ha : a ∈ members) (h : a.IsLong) : HasLongNumber (.set members)
  | pairKey {key value : Data} (h : HasLongNumber key) : HasLongNumber (.pair key value)
  | pairValue {key value : Data} (h : HasLongNumber value) : HasLongNumber (.pair key value)

variable {a : Atom} {items : List Data} {pairs : List (Atom × Data)} {members : List Atom} {key value : Data}

theorem hasLongNumber_atom_iff : (atom a).HasLongNumber ↔ a.IsLong :=
  ⟨fun h => by cases h; assumption, .atom⟩

theorem hasLongNumber_list_iff : (list items).HasLongNumber ↔ ∃ x ∈ items, x.HasLongNumber :=
  ⟨fun h => by cases h with | item hx h => exact ⟨_, hx, h⟩, fun ⟨_, hx, h⟩ => .item hx h⟩

theorem hasLongNumber_dict_iff : (dict pairs).HasLongNumber ↔ ∃ p ∈ pairs, p.1.IsLong ∨ p.2.HasLongNumber := by
  constructor
  · intro h
    cases h with
    | dictKey hp h => exact ⟨_, hp, .inl h⟩
    | dictValue hp h => exact ⟨_, hp, .inr h⟩
  · rintro ⟨p, hp, h | h⟩
    · exact .dictKey hp h
    · exact .dictValue hp h

theorem hasLongNumber_set_iff : (set members).HasLongNumber ↔ ∃ a ∈ members, a.IsLong :=
  ⟨fun h => by cases h with | member ha h => exact ⟨_, ha, h⟩, fun ⟨_, ha, h⟩ => .member ha h⟩

theorem hasLongNumber_pair_iff : (pair key value).HasLongNumber ↔ key.HasLongNumber ∨ value.HasLongNumber := by
  constructor
  · intro h
    cases h with
    | pairKey h => exact .inl h
    | pairValue h => exact .inr h
  · rintro (h | h)
    · exact .pairKey h
    · exact .pairValue h

theorem not_hasLongNumber_again (shape : Shape) : ¬ (again shape).HasLongNumber := fun h => by cases h

end Data

/-! ## Results that are refused for long numbers -/

/-- A result is refused if there is a long number, and else it is what is expected. -/
structure Writes (long : Prop) (written : β) (result : Except Error β) : Prop where
  refused : long → result = .error .badValue
  done : ¬ long → result = .ok written

namespace Writes

variable {long long' : Prop} {written : β} {written' : γ} {result : Except Error β}

theorem ok (h : ¬ long) (written : β) : Writes long written (.ok written) := ⟨fun hlong => absurd hlong h, fun _ => rfl⟩

theorem congr (h : Writes long written result) (hiff : long' ↔ long) : Writes long' written result :=
  ⟨fun hlong => h.refused (hiff.1 hlong), fun hshort => h.done fun hlong => hshort (hiff.2 hlong)⟩

theorem map (h : Writes long written result) (f : β → γ) : Writes long (f written) (f <$> result) :=
  ⟨fun hlong => by rw [h.refused hlong]; rfl, fun hshort => by rw [h.done hshort]; rfl⟩

theorem bind {f : β → Except Error γ} (h : Writes long written result) (hf : Writes long' written' (f written)) :
    Writes (long ∨ long') written' (result >>= f) := by
  by_cases hlong : long
  · rw [h.refused hlong]
    exact ⟨fun _ => rfl, fun hshort => absurd (.inl hlong) hshort⟩
  · rw [h.done hlong]
    exact hf.congr (or_iff_right hlong)

theorem mapM {f : α → Except Error β} {longAt : α → Prop} {writtenAt : α → β} {as : List α}
    (h : ∀ a ∈ as, Writes (longAt a) (writtenAt a) (f a)) :
    Writes (∃ a ∈ as, longAt a) (as.map writtenAt) (as.mapM f) := by
  induction as with
  | nil => exact .ok (fun ⟨_, ha, _⟩ => absurd ha List.not_mem_nil) []
  | cons a as ih =>
    have hrest := ih fun a ha => h a (List.mem_cons_of_mem _ ha)
    have hpure : Writes False (writtenAt a :: as.map writtenAt) (.ok (writtenAt a :: as.map writtenAt)) := .ok id _
    rw [List.mapM_cons]
    refine ((h a List.mem_cons_self).bind (hrest.bind hpure)).congr ?_
    rw [or_false, List.exists_mem_cons_iff]

/-- Such a result breaks a rule at most. -/
theorem failsOnly (h : Writes long written result) : FailsOnly Error.IsInvalid result := by
  by_cases hlong : long
  · rw [h.refused hlong]
    trivial
  · rw [h.done hlong]
    trivial

end Writes

/-! ## Atoms -/

namespace Atom

theorem inside_writes (a : Atom) : Writes a.IsLong a.inside a.nested := by
  cases a with
  | int n => exact ⟨fun hlong => if_pos hlong, fun hshort => if_neg hshort⟩
  | _ => exact .ok id _

theorem alone_writes (a : Atom) : Writes a.IsLong a.alone a.plain := by
  cases a with
  | text s => exact .ok id _
  | date d => exact .ok id _
  | dateTime t => exact .ok id _
  | _ => exact inside_writes _

end Atom

/-! ## Collections -/

namespace Data

open Document (bracketed)

variable {as : List α} {tree : α → Data}

theorem list_writes {f : α → Except Error String}
    (h : ∀ a ∈ as, Writes (tree a).HasLongNumber (tree a).inside (f a)) :
    Writes (list (as.map tree)).HasLongNumber (list (as.map tree)).inside (bracketed "[" "]" <$> as.mapM f) := by
  rw [inside, List.map_map]
  refine ((Writes.mapM h).map (bracketed "[" "]")).congr ?_
  simp only [hasLongNumber_list_iff, List.mem_map, exists_exists_and_eq_and]

theorem dict_writes {pairs : List (Atom × α)} {f : α → Except Error String}
    (h : ∀ p ∈ pairs, Writes (tree p.2).HasLongNumber (tree p.2).inside (f p.2)) :
    Writes (dict (pairs.map fun p => (p.1, tree p.2))).HasLongNumber (dict (pairs.map fun p => (p.1, tree p.2))).inside
      (bracketed "\x7b" "\x7d" <$> pairs.mapM fun (key, value) => do
        let k ← key.nested
        let v ← f value
        return k ++ ": " ++ v) := by
  have heach : ∀ p ∈ pairs, Writes (p.1.IsLong ∨ (tree p.2).HasLongNumber ∨ False) (p.1.inside ++ ": " ++ (tree p.2).inside)
      (do
        let k ← p.1.nested
        let v ← f p.2
        return k ++ ": " ++ v) := fun p hp =>
    p.1.inside_writes.bind ((h p hp).bind (.ok id _))
  rw [inside, List.map_map]
  refine ((Writes.mapM heach).map (bracketed "\x7b" "\x7d")).congr ?_
  simp only [hasLongNumber_dict_iff, List.mem_map, exists_exists_and_eq_and, or_false]

theorem set_writes (members : List Atom) :
    Writes (set members).HasLongNumber (set members).inside
      (match members with
        | [] => .ok "set()"
        | members => bracketed "\x7b" "\x7d" <$> members.mapM Atom.nested) := by
  cases members with
  | nil =>
    rw [inside]
    exact .ok (by simp [hasLongNumber_set_iff]) "set()"
  | cons a members =>
    rw [inside]
    · exact ((Writes.mapM fun a _ => a.inside_writes).map (bracketed "\x7b" "\x7d")).congr hasLongNumber_set_iff
    · simp

theorem pair_writes {key value : Data} {k v : Except Error String} (hkey : Writes key.HasLongNumber key.inside k)
    (hvalue : Writes value.HasLongNumber value.inside v) :
    Writes (pair key value).HasLongNumber (pair key value).inside (do
      let k ← k
      let v ← v
      return bracketed "(" ")" [k, v]) := by
  have hpair : Writes False (bracketed "(" ")" [key.inside, value.inside])
      (.ok (bracketed "(" ")" [key.inside, value.inside])) := .ok id _
  rw [inside]
  refine (hkey.bind (hvalue.bind hpair)).congr ?_
  rw [hasLongNumber_pair_iff, or_false]

end Data

/-! ## The tree of a value -/

namespace Document

/-- The tree of a value inside others, whose numbers are `around`, while the pair `own` is looked at by itself. -/
def part (d : Document) (own : Option (Nat × Nat)) (fuel : Nat) (around : List Nat) (id : Nat) : Data :=
  match fuel with
  | 0 => .atom .null
  | fuel + 1 =>
    let below := d.part own fuel (id :: around)
    match d.value? id with
    | none => .atom .null
    | some (.atom a) => .atom a
    | some (.list items) => if around.contains id then .again .list else .list (items.map below)
    | some (.dict pairs) =>
      if around.contains id then .again .dict else .dict (pairs.map fun p => (p.1, below p.2))
    | some (.set members) => .set members
    | some (.pairs entries) =>
      if around.contains id then .again .list
      else .list (entries.zipIdx.map fun e =>
        if own = some (id, e.2) then .again .pair else .pair (below e.1.1) (below e.1.2))

/-- The tree of a value by itself. No more collections than there are values lie around one another. -/
def data (d : Document) (id : Nat) : Data := d.part none (d.values.size + 2) [] id

variable {d : Document} {own : Option (Nat × Nat)} {id : Nat} {around : List Nat}

theorem lt_size_of_value? {v : Value} (h : d.value? id = some v) : id < d.values.size :=
  (Array.getElem?_eq_some_iff.1 (Option.join_eq_some_iff.1 h)).1

/-- The collections around a part are different values of the document. -/
structure IsAround (d : Document) (around : List Nat) : Prop where
  nodup : around.Nodup
  within : ∀ id ∈ around, id < d.values.size

theorem IsAround.nil : d.IsAround [] := ⟨List.nodup_nil, fun _ h => absurd h List.not_mem_nil⟩

theorem IsAround.cons (h : d.IsAround around) (hid : id < d.values.size) (hnew : ¬ around.contains id = true) :
    d.IsAround (id :: around) where
  nodup := List.nodup_cons.2 ⟨by simpa using hnew, h.nodup⟩
  within := List.forall_mem_cons.2 ⟨hid, h.within⟩

theorem IsAround.length_le (h : d.IsAround around) : around.length ≤ d.values.size := by
  have hrange : around ⊆ List.range d.values.size := fun id hid => List.mem_range.2 (h.within id hid)
  have hlength := (List.subperm_of_subset h.nodup hrange).length_le
  rwa [List.length_range] at hlength

/-- A value inside others is written like its tree. Each part is written with one collection more around it, of which
there are no more than values. -/
theorem nested_writes (fuel : Nat) (haround : d.IsAround around) (hfuel : d.values.size < fuel + around.length)
    (id : Nat) :
    Writes (d.part own fuel around id).HasLongNumber (d.part own fuel around id).inside (d.nested own fuel around id) := by
  induction fuel generalizing around id with
  | zero =>
    have hlength := haround.length_le
    omega
  | succ fuel ih =>
    have hbelow {v : Value} (hvalue : d.value? id = some v) (hnew : ¬ around.contains id = true) (item : Nat) :
        Writes (d.part own fuel (id :: around) item).HasLongNumber (d.part own fuel (id :: around) item).inside
          (d.nested own fuel (id :: around) item) :=
      ih (haround.cons (lt_size_of_value? hvalue) hnew) (by rw [List.length_cons]; omega) item
    have hagain (written : String) (shape : Shape) (h : (Data.again shape).inside = written) :
        Writes (Data.again shape).HasLongNumber (Data.again shape).inside (.ok written) := by
      rw [h]
      exact .ok (Data.not_hasLongNumber_again shape) written
    cases hvalue : d.value? id with
    | none =>
      simp only [nested, part, hvalue, Data.inside]
      exact .ok (fun h => by cases h; assumption) "None"
    | some v =>
      have hbelow := hbelow hvalue
      cases v with
      | atom a =>
        simp only [nested, part, hvalue, Data.inside]
        exact a.inside_writes.congr Data.hasLongNumber_atom_iff
      | list items =>
        simp only [nested, part, hvalue]
        split
        · exact hagain "[...]" .list (by rw [Data.inside])
        · next hnew => exact Data.list_writes fun item _ => hbelow hnew item
      | dict pairs =>
        simp only [nested, part, hvalue]
        split
        · exact hagain _ .dict (by rw [Data.inside])
        · next hnew => exact Data.dict_writes fun p _ => hbelow hnew p.2
      | set members =>
        cases members <;> simp only [nested, part, hvalue] <;> exact Data.set_writes _
      | pairs entries =>
        simp only [nested, part, hvalue]
        split
        · exact hagain _ .list (by rw [Data.inside])
        · next hnew =>
          refine Data.list_writes fun e _ => ?_
          split
          · exact hagain _ .pair (by rw [Data.inside])
          · exact Data.pair_writes (hbelow hnew e.1.1) (hbelow hnew e.1.2)

theorem nested_outermost_writes (id : Nat) :
    Writes (d.part own (d.values.size + 2) [] id).HasLongNumber (d.part own (d.values.size + 2) [] id).inside
      (d.nested own (d.values.size + 2) [] id) :=
  nested_writes _ .nil (by rw [List.length_nil]; omega) id

/-- A tree is an atom only where the value is one, or is not there. -/
theorem data_eq_atom_iff {a : Atom} : d.data id = .atom a ↔ d.value? id = some (.atom a) ∨ d.value? id = none ∧ a = .null := by
  unfold data part
  cases hvalue : d.value? id with
  | none => simp [eq_comm]
  | some v => cases v <;> simp

/-- A value by itself is written like its tree. -/
theorem textOf_writes (id : Nat) : Writes (d.data id).HasLongNumber (d.data id).text (d.textOf id) := by
  have hinside : Writes (d.data id).HasLongNumber (d.data id).inside (d.nested none (d.values.size + 2) [] id) :=
    nested_outermost_writes id
  unfold textOf
  cases hvalue : d.value? id with
  | none =>
    have hdata : d.data id = .atom .null := data_eq_atom_iff.2 (.inr ⟨hvalue, rfl⟩)
    rw [hdata] at hinside ⊢
    rwa [Data.inside] at hinside
  | some v =>
    cases v with
    | atom a =>
      have hdata : d.data id = .atom a := data_eq_atom_iff.2 (.inl hvalue)
      rw [hdata]
      exact a.alone_writes.congr Data.hasLongNumber_atom_iff
    | _ =>
      rw [Data.text_of_ne_atom (by simp [data_eq_atom_iff, hvalue])]
      exact hinside

/-- The tree of the pair at a place in a list. -/
def entryData (d : Document) (list place key value : Nat) : Data :=
  .pair (d.part (some (list, place)) (d.values.size + 2) [] key) (d.part (some (list, place)) (d.values.size + 2) [] value)

theorem entryText_writes (list place key value : Nat) :
    Writes (d.entryData list place key value).HasLongNumber (d.entryData list place key value).text
      (d.entryText list place key value) :=
  Data.pair_writes (nested_outermost_writes key) (nested_outermost_writes value)

/-- A pair in a list that it holds itself. -/
example : ({ values := #[some (.pairs [(1, 0)]), some (.atom (.text "x"))] } : Document).entryText 0 0 1 0 =
    .ok "('x', [(...)])" := by decide +kernel

/-- The tree of an item of a list. -/
def itemData (d : Document) : Item → Data
  | .value id => d.data id
  | .pair list place key value => d.entryData list place key value

theorem itemText_writes (item : Item) :
    Writes (d.itemData item).HasLongNumber (d.itemData item).text (d.itemText item) := by
  cases item with
  | value id => exact textOf_writes id
  | pair list place key value => exact entryText_writes list place key value

end Document

end TestDiscovery.Yaml
