-- SUMMARY: JSON texts can be told apart: escapes, strings, numbers, lists and objects end where they end; all in ASCII.
import Mathlib
import TestDiscovery.Proofs.Text.Blank
import TestDiscovery.Report.Json

/-!
# Telling JSON texts apart

A text that starts with a written character, string, list or object starts with no other one, so what is written can be
told from the text, and so can the place where it ends. Numbers are told apart where a member of an object ends, which
no number goes beyond.
-/

namespace TestDiscovery.Report

variable {α : Type} {level : Nat} {a b : α} {c d : Char} {m n : Nat} {r s : List Char} {write : α → List Char}

/-- A text that starts with a written value starts with no other one, and goes on in one way. -/
def PrefixFree (write : α → List Char) : Prop := ∀ a b r s, write a ++ r = write b ++ s → a = b ∧ r = s

theorem PrefixFree.injective (h : PrefixFree write) : Function.Injective write := fun a b hab =>
  (h a b [] [] (congrArg (· ++ []) hab)).1

/-- Values one after the other are told apart if what ends them starts none of them. -/
theorem PrefixFree.flatMap {stop : Char} (h : PrefixFree write) (hstop : ∀ a r s, write a ++ r ≠ stop :: s)
    {as bs : List α} (heq : as.flatMap write ++ stop :: r = bs.flatMap write ++ stop :: s) : as = bs ∧ r = s := by
  induction as generalizing bs with
  | nil =>
    cases bs with
    | nil => exact ⟨rfl, (List.cons.inj heq).2⟩
    | cons b bs =>
      rw [List.flatMap_cons, List.append_assoc] at heq
      exact absurd heq.symm (hstop b _ _)
  | cons a as ih =>
    cases bs with
    | nil =>
      rw [List.flatMap_cons, List.append_assoc] at heq
      exact absurd heq (hstop a _ _)
    | cons b bs =>
      rw [List.flatMap_cons, List.flatMap_cons, List.append_assoc, List.append_assoc] at heq
      obtain ⟨rfl, hrest⟩ := h a b _ _ heq
      obtain ⟨rfl, hends⟩ := ih hrest
      exact ⟨rfl, hends⟩

/-! ## Escapes -/

theorem digitChar_inj (hm : m < 16) (hn : n < 16) (h : Nat.digitChar m = Nat.digitChar n) : m = n := by
  have hall : ∀ i j : Fin 16, Nat.digitChar i = Nat.digitChar j → i = j := by decide
  exact congrArg Fin.val (hall ⟨m, hm⟩ ⟨n, hn⟩ h)

/-- Four digits tell a code. -/
theorem codeEscape_append_inj (hm : m < 0x10000) (hn : n < 0x10000) (h : codeEscape m ++ r = codeEscape n ++ s) :
    m = n ∧ r = s := by
  have hdigit (k : Nat) : k % 16 < 16 := Nat.mod_lt k (by decide)
  simp only [codeEscape, List.cons_append, List.nil_append, List.cons.injEq, true_and] at h
  obtain ⟨hthird, hsecond, hfirst, hlast, hrest⟩ := h
  have hthird := digitChar_inj (hdigit _) (hdigit _) hthird
  have hsecond := digitChar_inj (hdigit _) (hdigit _) hsecond
  have hfirst := digitChar_inj (hdigit _) (hdigit _) hfirst
  have hlast := digitChar_inj (hdigit _) (hdigit _) hlast
  exact ⟨by omega, hrest⟩

/-- A character by its code, or by the codes of a surrogate pair. -/
def codes (c : Char) : List Char :=
  if c.toNat < 0x10000 then codeEscape c.toNat
  else codeEscape (0xD800 + (c.toNat - 0x10000) / 0x400) ++ codeEscape (0xDC00 + (c.toNat - 0x10000) % 0x400)

/-- A character is no surrogate. -/
theorem not_surrogate (c : Char) : c.toNat < 0xD800 ∨ 0xDFFF < c.toNat ∧ c.toNat < 0x110000 := c.valid

/-- No code of a character starts a surrogate pair, so codes tell characters. -/
theorem codes_prefixFree : PrefixFree codes := by
  intro c d r s h
  have hc := not_surrogate c
  have hd := not_surrogate d
  unfold codes at h
  by_cases hcode : c.toNat < 0x10000 <;> by_cases hdcode : d.toNat < 0x10000
  · rw [if_pos hcode, if_pos hdcode] at h
    obtain ⟨hsame, hrest⟩ := codeEscape_append_inj hcode hdcode h
    exact ⟨Char.toNat_inj.1 hsame, hrest⟩
  · rw [if_pos hcode, if_neg hdcode, List.append_assoc] at h
    have hhigh := (codeEscape_append_inj hcode (by omega) h).1
    omega
  · rw [if_neg hcode, if_pos hdcode, List.append_assoc] at h
    have hhigh := (codeEscape_append_inj (by omega) hdcode h).1
    omega
  · rw [if_neg hcode, if_neg hdcode, List.append_assoc, List.append_assoc] at h
    obtain ⟨hhigh, hrest⟩ := codeEscape_append_inj (by omega) (by omega) h
    obtain ⟨hlow, hrest⟩ := codeEscape_append_inj (by omega) (by omega) hrest
    exact ⟨Char.toNat_inj.1 (by omega), hrest⟩

/-- The characters that have an escape of two characters, with the second one. -/
def shortEscapes : List (Char × Char) :=
  [('"', '"'), ('\\', '\\'), ('\n', 'n'), ('\r', 'r'), ('\t', 't'), ('\x0C', 'f'), ('\x08', 'b')]

theorem eq_of_mem_shortEscapes {k : Char} (hc : (c, k) ∈ shortEscapes) (hd : (d, k) ∈ shortEscapes) : c = d := by
  have hall : shortEscapes.all (fun p => shortEscapes.all fun q => p.2 != q.2 || p.1 == q.1) = true := by decide
  simpa using List.all_eq_true.1 (List.all_eq_true.1 hall _ hc) _ hd

theorem ne_of_mem_shortEscapes {k : Char} (h : (c, k) ∈ shortEscapes) : k ≠ 'u' := by
  have hall : shortEscapes.all (fun p => p.2 != 'u') = true := by decide
  simpa using List.all_eq_true.1 hall _ h

/-- The ways to write a character inside a string. -/
inductive Escape (c : Char) : List Char → Prop
  | plain (hquote : c ≠ '"') (hslash : c ≠ '\\') (hascii : c.toNat < 128) : Escape c [c]
  | short {k : Char} (h : (c, k) ∈ shortEscapes) : Escape c ['\\', k]
  | codes : Escape c (codes c)

theorem escape_escapeChar (c : Char) : Escape c (escapeChar c) := by
  unfold escapeChar
  split_ifs with hquote hslash hbreak hreturn htab hfeed hback hplain hcode
  · subst hquote
    exact .short (by decide)
  · subst hslash
    exact .short (by decide)
  · subst hbreak
    exact .short (by decide)
  · subst hreturn
    exact .short (by decide)
  · subst htab
    exact .short (by decide)
  · subst hfeed
    exact .short (by decide)
  · subst hback
    exact .short (by decide)
  · simp only [Bool.and_eq_true, decide_eq_true_eq] at hplain
    exact .plain hquote hslash (by omega)
  · have hcodes : codes c = codeEscape c.toNat := if_pos hcode
    exact hcodes ▸ .codes
  · have hcodes : codes c = codeEscape (0xD800 + (c.toNat - 0x10000) / 0x400) ++
        codeEscape (0xDC00 + (c.toNat - 0x10000) % 0x400) := if_neg hcode
    exact hcodes ▸ .codes

theorem exists_codes_eq (c : Char) : ∃ rest, codes c = '\\' :: 'u' :: rest := by
  unfold codes
  split
  · exact ⟨_, rfl⟩
  · exact ⟨_, rfl⟩

theorem escapeChar_prefixFree : PrefixFree escapeChar := by
  intro c d r s h
  obtain ⟨rest, hcodes⟩ := exists_codes_eq c
  obtain ⟨rest', hcodes'⟩ := exists_codes_eq d
  have hc := escape_escapeChar c
  have hd := escape_escapeChar d
  generalize escapeChar c = written at h hc
  generalize escapeChar d = written' at h hd
  -- Two ways to write a character differ in the first or in the second character.
  cases hc with
  | plain _ hslash _ =>
    cases hd with
    | plain => exact List.cons.inj h
    | short => exact absurd (List.cons.inj h).1 hslash
    | codes =>
      rw [hcodes'] at h
      exact absurd (List.cons.inj h).1 hslash
  | @short k hk =>
    cases hd with
    | plain _ hslash _ => exact absurd (List.cons.inj h).1.symm hslash
    | @short k' hk' =>
      obtain ⟨rfl, hrest⟩ := List.cons.inj (List.cons.inj h).2
      exact ⟨eq_of_mem_shortEscapes hk hk', hrest⟩
    | codes =>
      rw [hcodes'] at h
      exact absurd (List.cons.inj (List.cons.inj h).2).1 (ne_of_mem_shortEscapes hk)
  | codes =>
    cases hd with
    | plain _ hslash _ =>
      rw [hcodes] at h
      exact absurd (List.cons.inj h).1.symm hslash
    | @short k' hk' =>
      rw [hcodes] at h
      exact absurd (List.cons.inj (List.cons.inj h).2).1.symm (ne_of_mem_shortEscapes hk')
    | codes => exact codes_prefixFree c d r s h

/-- No quote stands unescaped. -/
theorem escapeChar_append_ne (c : Char) (r s : List Char) : escapeChar c ++ r ≠ '"' :: s := by
  intro h
  obtain ⟨rest, hcodes⟩ := exists_codes_eq c
  have hc := escape_escapeChar c
  generalize escapeChar c = written at h hc
  cases hc with
  | plain hquote _ _ => exact hquote (List.cons.inj h).1
  | short => exact absurd (List.cons.inj h).1 (by decide)
  | codes =>
    rw [hcodes] at h
    exact absurd (List.cons.inj h).1 (by decide)

theorem string_prefixFree : PrefixFree string := by
  intro a b r s h
  unfold string at h
  rw [List.append_assoc, List.append_assoc] at h
  obtain ⟨hchars, hrest⟩ := escapeChar_prefixFree.flatMap escapeChar_append_ne (List.cons.inj h).2
  exact ⟨String.toList_inj.1 hchars, hrest⟩

/-! ## Numbers -/

/-- The characters that numbers are made of. -/
def isNumberChar (c : Char) : Bool := c == '-' || c.isDigit

theorem isNumberChar_of_mem_number {k : Int} (h : c ∈ number k) : isNumberChar c = true := by
  have hdigits {n : Nat} (h : c ∈ n.repr.toList) : isNumberChar c = true := by
    rw [Nat.repr_eq_ofList_toDigits, String.toList_ofList] at h
    simp [isNumberChar, Nat.isDigit_of_mem_toDigits (by decide) (by decide) h]
  change c ∈ k.repr.toList at h
  rw [Int.repr_eq_if] at h
  split at h
  · exact hdigits h
  · rw [String.toList_append, List.mem_append] at h
    rcases h with h | h
    · rw [List.mem_singleton.1 h]
      rfl
    · exact hdigits h

/-- Numbers are told apart where no further character of a number follows. -/
theorem number_append_inj {k l : Int} (hr : Text.StopsRun isNumberChar r) (hs : Text.StopsRun isNumberChar s)
    (h : number k ++ r = number l ++ s) : k = l := by
  have hall (k : Int) : ∀ c ∈ number k, isNumberChar c = true := fun c hc => isNumberChar_of_mem_number hc
  have hnumber : number k = number l := by
    calc number k = (number k ++ r).takeWhile isNumberChar := (Text.takeWhile_append_of_stopsRun (hall k) hr).symm
      _ = (number l ++ s).takeWhile isNumberChar := by rw [h]
      _ = number l := Text.takeWhile_append_of_stopsRun (hall l) hs
  exact Int.repr_injective (String.toList_inj.1 hnumber)

theorem number_injective : Function.Injective number := fun k l h =>
  number_append_inj (r := []) (s := []) (fun _ hc => by cases hc) (fun _ hc => by cases hc) (congrArg (· ++ []) h)

/-! ## Lists -/

/-- Parts after the first one follow commas. -/
theorem separated_cons (level : Nat) (part : List Char) (parts : List (List Char)) :
    separated level (part :: parts) = newLine level ++ part ++ parts.flatMap fun p => ',' :: newLine level ++ p := by
  induction parts generalizing part with
  | nil => simp [separated]
  | cons next parts ih => simp [separated, ih]

theorem array_cons (level : Nat) (part : List Char) (parts : List (List Char)) :
    array level (part :: parts) =
      '[' :: newLine (level + 1) ++ part ++ (parts.flatMap fun p => ',' :: newLine (level + 1) ++ p) ++ newLine level ++
        [']'] := by
  simp [array, separated_cons]

/-- A list of values is told from every other one by the text. -/
theorem array_prefixFree (h : PrefixFree write) : PrefixFree fun as : List α => array level (as.map write) := by
  -- Each value after the first one is told with the comma before it, and the last one ends with its line.
  have hpart : PrefixFree fun a => ',' :: newLine (level + 1) ++ write a := by
    intro a b r s heq
    simp only [List.cons_append, List.append_assoc] at heq
    exact h a b r s (List.append_cancel_left (List.cons.inj heq).2)
  have hstop : ∀ a r s, (',' :: newLine (level + 1) ++ write a) ++ r ≠ '\n' :: s := fun a r s heq =>
    absurd (List.cons.inj heq).1 (by decide)
  have hempty (bs : List α) (b : α) (r s : List Char) : '[' :: ']' :: r ≠ array level ((b :: bs).map write) ++ s := by
    intro heq
    rw [List.map_cons, array_cons] at heq
    exact absurd (List.cons.inj (List.cons.inj heq).2).1 (by decide)
  intro as bs r s heq
  cases as with
  | nil =>
    cases bs with
    | nil => exact ⟨rfl, (List.cons.inj (List.cons.inj heq).2).2⟩
    | cons b bs => exact absurd heq (hempty bs b r s)
  | cons a as =>
    cases bs with
    | nil => exact absurd heq.symm (hempty as a s r)
    | cons b bs =>
      simp only [List.map_cons, array_cons, List.flatMap_map, List.cons_append, List.append_assoc] at heq
      obtain ⟨rfl, hrest⟩ := h a b _ _ (List.append_cancel_left (List.cons.inj heq).2)
      obtain ⟨rfl, hends⟩ := hpart.flatMap hstop hrest
      exact ⟨rfl, (List.cons.inj (List.append_cancel_left hends)).2⟩

/-! ## Objects -/

/-- Where a member of an object ends: before a comma or at the end of its line. -/
def EndsMember (r : List Char) : Prop := r.head? = some ',' ∨ r.head? = some '\n'

/-- Values are told apart by their texts as members of objects. -/
def TellsMembers (write : α → List Char) : Prop :=
  ∀ a b r s, EndsMember r → EndsMember s → write a ++ r = write b ++ s → write a = write b

theorem PrefixFree.tellsMembers {β : Type} (h : PrefixFree write) (part : β → α) :
    TellsMembers fun b => write (part b) :=
  fun b b' r s _ _ heq => congrArg write (h (part b) (part b') r s heq).1

theorem number_tellsMembers (part : α → Int) : TellsMembers fun a => number (part a) := by
  have hstop {r : List Char} (h : EndsMember r) : Text.StopsRun isNumberChar r := by
    intro c hc
    rcases h with h | h
    · obtain rfl := Option.some.inj (h.symm.trans hc)
      rfl
    · obtain rfl := Option.some.inj (h.symm.trans hc)
      rfl
  exact fun a b r s hr hs heq => congrArg number (number_append_inj (hstop hr) (hstop hs) heq)

/-- A member of an object on its line, and what follows it. -/
theorem member_append_inj {key : String} (hwrite : TellsMembers write) (hr : EndsMember r) (hs : EndsMember s)
    (h : newLine level ++ member key (write a) ++ r = newLine level ++ member key (write b) ++ s) :
    write a = write b ∧ r = s := by
  simp only [member, List.append_assoc, List.cons_append] at h
  have hkey := List.append_cancel_left (List.append_cancel_left h)
  have hvalue := (List.cons.inj (List.cons.inj hkey).2).2
  have hsame := hwrite a b r s hr hs hvalue
  rw [hsame] at hvalue
  exact ⟨hsame, List.append_cancel_left hvalue⟩

variable {fields : List (String × (α → List Char))}

/-- The members that follow the first one, and what follows on the last line. -/
def furtherMembers (level : Nat) (fields : List (String × (α → List Char))) (a : α) (r : List Char) : List Char :=
  (fields.flatMap fun f => ',' :: (newLine level ++ member f.1 (f.2 a))) ++ '\n' :: r

theorem furtherMembers_cons (level : Nat) (f : String × (α → List Char)) (fields : List (String × (α → List Char)))
    (a : α) (r : List Char) : furtherMembers level (f :: fields) a r =
      ',' :: (newLine level ++ member f.1 (f.2 a) ++ furtherMembers level fields a r) := by
  simp [furtherMembers]

theorem endsMember_furtherMembers (level : Nat) (fields : List (String × (α → List Char))) (a : α) (r : List Char) :
    EndsMember (furtherMembers level fields a r) := by
  cases fields with
  | nil => exact .inr rfl
  | cons f fields => exact .inl rfl

theorem furtherMembers_inj (hfields : ∀ f ∈ fields, TellsMembers f.2)
    (h : furtherMembers level fields a r = furtherMembers level fields b s) :
    (∀ f ∈ fields, f.2 a = f.2 b) ∧ r = s := by
  induction fields with
  | nil => exact ⟨fun _ hf => absurd hf List.not_mem_nil, (List.cons.inj h).2⟩
  | cons f fields ih =>
    obtain ⟨hfirst, hrest⟩ := List.forall_mem_cons.1 hfields
    rw [furtherMembers_cons, furtherMembers_cons] at h
    obtain ⟨hsame, hfurther⟩ := member_append_inj hfirst (endsMember_furtherMembers ..) (endsMember_furtherMembers ..)
      (List.cons.inj h).2
    obtain ⟨hsames, hends⟩ := ih hrest hfurther
    exact ⟨List.forall_mem_cons.2 ⟨hsame, hsames⟩, hends⟩

/-- An object with the fields of a value under their keys. -/
def objectOf (level : Nat) (fields : List (String × (α → List Char))) (a : α) : List Char :=
  object level (fields.map fun f => member f.1 (f.2 a))

theorem objectOf_cons_append (level : Nat) (f : String × (α → List Char)) (fields : List (String × (α → List Char)))
    (a : α) (r : List Char) : objectOf level (f :: fields) a ++ r =
      '{' :: (newLine (level + 1) ++ member f.1 (f.2 a) ++
        furtherMembers (level + 1) fields a (List.replicate (2 * level) ' ' ++ '}' :: r)) := by
  simp [objectOf, object, separated_cons, furtherMembers, List.flatMap_map, newLine]

/-- Objects with the same keys are told apart field by field. -/
theorem objectOf_append_inj (hfields : ∀ f ∈ fields, TellsMembers f.2)
    (h : objectOf level fields a ++ r = objectOf level fields b ++ s) : (∀ f ∈ fields, f.2 a = f.2 b) ∧ r = s := by
  cases fields with
  | nil => exact ⟨fun _ hf => absurd hf List.not_mem_nil, List.append_cancel_left h⟩
  | cons f fields =>
    obtain ⟨hfirst, hrest⟩ := List.forall_mem_cons.1 hfields
    rw [objectOf_cons_append, objectOf_cons_append] at h
    obtain ⟨hsame, hfurther⟩ := member_append_inj hfirst (endsMember_furtherMembers ..) (endsMember_furtherMembers ..)
      (List.cons.inj h).2
    obtain ⟨hsames, hends⟩ := furtherMembers_inj hrest hfurther
    exact ⟨List.forall_mem_cons.2 ⟨hsame, hsames⟩, (List.cons.inj (List.append_cancel_left hends)).2⟩

/-! ## ASCII -/

/-- All characters are in ASCII. -/
def IsAscii (s : List Char) : Prop := ∀ c ∈ s, c.toNat < 128

theorem isAscii_nil : IsAscii [] := fun _ h => absurd h List.not_mem_nil

theorem isAscii_cons : IsAscii (c :: s) ↔ c.toNat < 128 ∧ IsAscii s := List.forall_mem_cons

theorem isAscii_append : IsAscii (r ++ s) ↔ IsAscii r ∧ IsAscii s := List.forall_mem_append

theorem IsAscii.flatMap {as : List α} (h : ∀ a ∈ as, IsAscii (write a)) : IsAscii (as.flatMap write) := by
  intro c hc
  obtain ⟨a, ha, hmem⟩ := List.mem_flatMap.1 hc
  exact h a ha c hmem

theorem isAscii_codeEscape (n : Nat) : IsAscii (codeEscape n) := by
  have hall : ∀ d : Fin 16, (Nat.digitChar d).toNat < 128 := by decide
  have hdigit (k : Nat) : (Nat.digitChar (k % 16)).toNat < 128 := hall ⟨k % 16, Nat.mod_lt k (by decide)⟩
  simp [codeEscape, isAscii_cons, isAscii_nil, hdigit]

theorem isAscii_escapeChar (c : Char) : IsAscii (escapeChar c) := by
  have hc := escape_escapeChar c
  generalize escapeChar c = written at hc
  cases hc with
  | plain _ _ hascii => exact isAscii_cons.2 ⟨hascii, isAscii_nil⟩
  | short h =>
    have hall : shortEscapes.all (fun p => p.2.toNat < 128) = true := by decide
    refine isAscii_cons.2 ⟨by decide, isAscii_cons.2 ⟨?_, isAscii_nil⟩⟩
    simpa using List.all_eq_true.1 hall _ h
  | codes =>
    unfold codes
    split
    · exact isAscii_codeEscape _
    · exact isAscii_append.2 ⟨isAscii_codeEscape _, isAscii_codeEscape _⟩

theorem isAscii_string (a : String) : IsAscii (string a) := by
  have hquote : IsAscii ['"'] := isAscii_cons.2 ⟨by decide, isAscii_nil⟩
  have hchars : IsAscii (a.toList.flatMap escapeChar) := IsAscii.flatMap fun c _ => isAscii_escapeChar c
  exact isAscii_append.2 ⟨isAscii_append.2 ⟨hquote, hchars⟩, hquote⟩

theorem isAscii_number (k : Int) : IsAscii (number k) := by
  intro c hc
  have hnumber := isNumberChar_of_mem_number hc
  simp only [isNumberChar, Bool.or_eq_true, beq_iff_eq] at hnumber
  rcases hnumber with rfl | hdigit
  · decide
  · exact Nat.lt_of_le_of_lt (Char.isDigit_iff_toNat.1 hdigit).2 (by decide)

theorem isAscii_newLine (level : Nat) : IsAscii (newLine level) := by
  refine isAscii_cons.2 ⟨by decide, fun c hc => ?_⟩
  rw [List.eq_of_mem_replicate hc]
  decide

theorem isAscii_member {value : List Char} (key : String) (h : IsAscii value) : IsAscii (member key value) :=
  isAscii_append.2 ⟨isAscii_string key, isAscii_cons.2 ⟨by decide, isAscii_cons.2 ⟨by decide, h⟩⟩⟩

theorem isAscii_separated {parts : List (List Char)} (h : ∀ p ∈ parts, IsAscii p) : IsAscii (separated level parts) := by
  cases parts with
  | nil => exact isAscii_nil
  | cons part parts =>
    rw [separated_cons]
    obtain ⟨hpart, hparts⟩ := List.forall_mem_cons.1 h
    refine isAscii_append.2 ⟨isAscii_append.2 ⟨isAscii_newLine level, hpart⟩, IsAscii.flatMap fun p hp => ?_⟩
    exact isAscii_append.2 ⟨isAscii_cons.2 ⟨by decide, isAscii_newLine level⟩, hparts p hp⟩

theorem isAscii_object {members : List (List Char)} (h : ∀ m ∈ members, IsAscii m) : IsAscii (object level members) := by
  have hopening : IsAscii ['{'] := isAscii_cons.2 ⟨by decide, isAscii_nil⟩
  have hclosing : IsAscii ['}'] := isAscii_cons.2 ⟨by decide, isAscii_nil⟩
  exact isAscii_append.2
    ⟨isAscii_append.2 ⟨isAscii_append.2 ⟨hopening, isAscii_separated h⟩, isAscii_newLine level⟩, hclosing⟩

theorem isAscii_array {items : List (List Char)} (h : ∀ i ∈ items, IsAscii i) : IsAscii (array level items) := by
  have hbracket (c : Char) (hc : c.toNat < 128) : IsAscii [c] := isAscii_cons.2 ⟨hc, isAscii_nil⟩
  have hopening := hbracket '[' (by decide)
  have hclosing := hbracket ']' (by decide)
  unfold array
  split
  · exact isAscii_append.2 ⟨hopening, hclosing⟩
  · exact isAscii_append.2
      ⟨isAscii_append.2 ⟨isAscii_append.2 ⟨hopening, isAscii_separated h⟩, isAscii_newLine level⟩, hclosing⟩

end TestDiscovery.Report
