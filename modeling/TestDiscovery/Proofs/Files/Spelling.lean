-- SUMMARY: Paths and their texts: reading a written path gives it back, and a text ends with the last name.
import TestDiscovery.Proofs.Files.Following
import TestDiscovery.Proofs.Text.Pieces

/-!
# Spelling of paths

A path that was read from a text has names without slashes, none of them empty or a single dot. Such a path is what its
own text is read as, and its text ends with its last name.
-/

namespace TestDiscovery

/-! ## Reading and writing -/

namespace Path

/-- A path as it is read from a text. -/
def Normal (p : Path) : Prop := ∀ name ∈ p.names, name ≠ "" ∧ name ≠ "." ∧ '/' ∉ name.toList

theorem normal_parse (s : String) : (parse s).Normal := by
  intro name hname
  simp only [parse, List.mem_filter, Bool.and_eq_true, bne_iff_ne, pieces, List.mem_map] at hname
  obtain ⟨⟨piece, hpiece, rfl⟩, hempty, hdot⟩ := hname
  refine ⟨hempty, hdot, ?_⟩
  rw [String.toList_ofList]
  exact Text.not_mem_of_mem_splitOn hpiece

theorem normal_of_fileNames (anchor : Anchor) {names : List String} (h : ∀ name ∈ names, FileName name) :
    (⟨anchor, names⟩ : Path).Normal := fun name hname =>
  ⟨(h name hname).ne_empty, (h name hname).ne_dot, (h name hname).no_slash⟩

theorem Normal.child {p : Path} {name : String} (hp : p.Normal) (hname : FileName name) : (p.child name).Normal := by
  intro n hn
  rcases List.mem_append.1 hn with hn | hn
  · exact hp n hn
  · rw [List.mem_singleton.1 hn]
    exact ⟨hname.ne_empty, hname.ne_dot, hname.no_slash⟩

/-- The names of a path with slashes between them. -/
def spelledNames (p : Path) : List Char := Text.joinWith '/' (p.names.map String.toList)

/-- The text of a path is its anchor and its names, or a single dot. -/
theorem toList_text (p : Path) :
    p.text.toList = if p.anchor = .here ∧ p.names = [] then ['.'] else p.anchor.text.toList ++ p.spelledNames := by
  simp only [text, spelledNames]
  split
  · rfl
  · rw [String.toList_append, String.toList_ofList]

theorem Normal.head?_spelledNames {p : Path} (hp : p.Normal) : p.spelledNames.head? ≠ some '/' := by
  cases hnames : p.names with
  | nil => simp [spelledNames, hnames, Text.joinWith]
  | cons first rest =>
    obtain ⟨hempty, -, hslash⟩ := hp first (by simp [hnames])
    cases hchars : first.toList with
    | nil => exact absurd (String.toList_eq_nil_iff.1 hchars) hempty
    | cons c cs =>
      have hc : c ≠ '/' := by
        rintro rfl
        simp [hchars] at hslash
      cases rest <;> simp [spelledNames, hnames, hchars, Text.joinWith, hc]

theorem anchorOf_append {a : Anchor} {s : List Char} (h : s.head? ≠ some '/') : anchorOf (a.text.toList ++ s) = a := by
  cases s with
  | nil => cases a <;> rfl
  | cons c s =>
    have hc : c ≠ '/' := by simpa using h
    cases a <;> simp [Anchor.text, anchorOf, hc]

/-- The pieces of a spelled path that are names, whatever the anchor. -/
theorem Normal.filter_pieces {p : Path} (hp : p.Normal) :
    ((Text.splitOn '/' (p.anchor.text.toList ++ p.spelledNames)).map String.ofList).filter
      (fun name => name != "" && name != ".") = p.names := by
  have hnames : ((Text.splitOn '/' p.spelledNames).map String.ofList).filter
      (fun name => name != "" && name != ".") = p.names := by
    by_cases hnil : p.names = []
    · rw [spelledNames, hnil]
      decide
    · have hsplit : Text.splitOn '/' p.spelledNames = p.names.map String.toList := by
        refine Text.splitOn_joinWith (by simpa using hnil) ?_
        intro piece hpiece
        obtain ⟨name, hname, rfl⟩ := List.mem_map.1 hpiece
        exact (hp name hname).2.2
      rw [hsplit, List.map_map]
      simp only [Function.comp_def, String.ofList_toList, List.map_id']
      rw [List.filter_eq_self]
      intro name hname
      simp [(hp name hname).1, (hp name hname).2.1]
  cases p.anchor with
  | here => simpa [Anchor.text] using hnames
  | root => simpa [Anchor.text, Text.splitOn] using hnames
  | doubleRoot => simpa [Anchor.text, Text.splitOn] using hnames

/-- Reading the text of a normal path gives the path. -/
theorem parse_text {p : Path} (hp : p.Normal) : parse p.text = p := by
  by_cases hdot : p.anchor = .here ∧ p.names = []
  · obtain ⟨anchor, names⟩ := p
    obtain ⟨rfl, rfl⟩ := hdot
    decide
  · have htext : p.text.toList = p.anchor.text.toList ++ p.spelledNames := by rw [toList_text, if_neg hdot]
    rw [parse, pieces, htext, anchorOf_append hp.head?_spelledNames, hp.filter_pieces]

/-- The text of a path ends with its last name, at the start or after a slash. -/
theorem text_ends_with_name {p : Path} (hnames : p.names ≠ []) :
    p.text.toList = p.name.toList ∨ ∃ before, p.text.toList = before ++ '/' :: p.name.toList := by
  have hlast : p.names = p.names.dropLast ++ [p.name] := by
    rw [name, List.getLastD_eq_getLast?, List.getLast?_eq_some_getLast hnames, Option.getD_some]
    exact (List.dropLast_concat_getLast hnames).symm
  have htext : p.text.toList = p.anchor.text.toList ++ p.spelledNames := by
    rw [toList_text, if_neg fun h => hnames h.2]
  have hspelled : p.spelledNames = Text.joinWith '/' (p.names.dropLast.map String.toList ++ [p.name.toList]) := by
    rw [spelledNames, hlast]
    simp
  rcases Text.joinWith_concat '/' (p.names.dropLast.map String.toList) p.name.toList with h | ⟨before, h⟩
  · rw [htext, hspelled, h]
    cases p.anchor with
    | here => exact .inl rfl
    | root => exact .inr ⟨[], rfl⟩
    | doubleRoot => exact .inr ⟨['/'], rfl⟩
  · refine .inr ⟨p.anchor.text.toList ++ before, ?_⟩
    rw [htext, hspelled, h, List.append_assoc]

end Path

end TestDiscovery
