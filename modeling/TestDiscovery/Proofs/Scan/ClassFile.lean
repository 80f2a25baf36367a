-- SUMMARY: The text of a test class as it may be written, and the scan that reads its methods back.
import TestDiscovery.Proofs.Grammar.Declaration
import TestDiscovery.Proofs.Scan.PlainClass
import TestDiscovery.Proofs.Text.Pieces

/-!
# Texts of test classes

The text of a test class is a header and a sequence of test methods, each of them an annotation, a declaration and a
closing line. The scan of such a text gives the class and the methods in the order in which they are written, each on its
own line and with its own name. Only the methods with a name of one character are left out, since such a declaration is
not read. So the scan gives all methods of a class exactly if every name has two characters or more.
-/

namespace TestDiscovery

namespace Scan

/-! ## Written methods -/

/-- A test method: the annotation on a line of its own, the declaration below it, and a line that closes the method. -/
structure TestMethod where
  indent : Grammar.Gap
  annotation : List Char
  declaration : Grammar.MethodDeclaration
  closing : List Char
  annotation_spelled : Text.InAnyCase Grammar.Marker.test.text annotation
  name_noAt : '@' ∉ declaration.name
  closing_noAt : '@' ∉ closing
  closing_inLine : '\n' ∉ closing

namespace TestMethod

variable (m : TestMethod)

def name : List Char := m.declaration.name

def annotationLine : List Char := m.indent.chars ++ m.annotation

def lines : List (List Char) := [m.annotationLine, m.declaration.text, m.closing]

/-- What is found of a method whose declaration stands on line `n`: it reaches to the parentheses after the name. -/
def finding (className : List Char) (n : Nat) : Finding :=
  .method (.onLine n 0 (m.declaration.text.length - 3 : Nat)) (String.ofList className) (String.ofList m.name)

/-- The annotation is in ASCII, so its lower case is that of its letters. -/
theorem plain_annotationLine :
    m.annotationLine.flatMap Text.Lower.plain = m.indent.chars ++ Grammar.Marker.test.text := by
  have hascii : ∀ c ∈ m.annotation, c.toNat < 128 := by
    intro c hc
    have hmarker : Grammar.Marker.test.text.all (fun d => d.toNat < 128) = true := by decide
    have hlower := List.all_eq_true.1 hmarker _ (m.annotation_spelled ▸ List.mem_map_of_mem hc)
    exact Text.toNat_lt_of_toLower (of_decide_eq_true hlower)
  have hspelled : m.annotation.map Char.toLower = Grammar.Marker.test.text := m.annotation_spelled
  rw [annotationLine, List.flatMap_append, Text.Lower.flatMap_plain_of_allBlank m.indent.allBlank,
    Text.Lower.flatMap_plain_of_ascii hascii, hspelled]

theorem test_occursIn_annotationLine : Grammar.Marker.test.occursIn m.annotationLine = true := by
  rw [Grammar.Marker.occursIn_iff, plain_annotationLine]
  exact (List.suffix_append _ _).isInfix

theorem suite_occursIn_annotationLine : Grammar.Marker.suite.occursIn m.annotationLine = false := by
  rw [Bool.eq_false_iff, Ne, Grammar.Marker.occursIn_iff, plain_annotationLine]
  intro hstretch
  -- The two markers start alike; the letter u is in one of them only.
  have hletter : 'u' ∈ m.indent.chars ++ Grammar.Marker.test.text := hstretch.subset (by decide)
  rcases List.mem_append.1 hletter with hindent | htest
  · exact m.indent.allBlank.not_mem (by decide) hindent
  · exact absurd htest (by decide)

theorem at_not_mem_declaration : '@' ∉ m.declaration.text :=
  m.declaration.not_mem_text (.inl (by decide)) (by decide) (by decide) m.name_noAt

theorem inLine {line : List Char} (h : line ∈ m.lines) : '\n' ∉ line := by
  simp only [lines, List.mem_cons, List.not_mem_nil, or_false] at h
  rcases h with rfl | rfl | rfl
  · intro hmem
    rcases List.mem_append.1 hmem with hmem | hmem
    · exact m.indent.inLine hmem
    · have hmarker : '\n'.toLower ∈ Grammar.Marker.test.text := m.annotation_spelled ▸ List.mem_map_of_mem hmem
      exact absurd hmarker (by decide)
  · refine m.declaration.not_mem_text (.inr rfl) (by decide) (by decide) ?_
    intro hmem
    exact absurd (m.declaration.name_noBlank _ hmem) (by decide)
  · exact m.closing_inLine

theorem suite_occursIn {line : List Char} (h : line ∈ m.lines) : Grammar.Marker.suite.occursIn line = false := by
  simp only [lines, List.mem_cons, List.not_mem_nil, or_false] at h
  rcases h with rfl | rfl | rfl
  · exact m.suite_occursIn_annotationLine
  · exact Grammar.Marker.occursIn_of_no_at m.at_not_mem_declaration
  · exact Grammar.Marker.occursIn_of_no_at m.closing_noAt

end TestMethod

/-! ## Reading methods back -/

variable {className above : List Char} {rest : List (List Char)} {n : Nat}

/-- Lines without at signs declare no tests. -/
theorem methodsFrom_of_no_at (habove : '@' ∉ above) (hrest : ∀ line ∈ rest, '@' ∉ line) :
    methodsFrom className n above rest = [] := by
  induction rest generalizing above n with
  | nil => rfl
  | cons line rest ih =>
    rw [methodsFrom, Grammar.Marker.occursIn_of_no_at habove,
      ih (hrest line List.mem_cons_self) fun l hl => hrest l (List.mem_cons_of_mem line hl)]
    rfl

/-- The method below its annotation is found, if its name is one. -/
theorem methodsFrom_method (m : TestMethod) (habove : '@' ∉ above) :
    methodsFrom className n above (m.lines ++ rest) =
      (if 2 ≤ m.name.length then [m.finding className (n + 1)] else []) ++
        methodsFrom className (n + 3) m.closing rest := by
  have hannotation : Grammar.Marker.test.occursIn above = false := Grammar.Marker.occursIn_of_no_at habove
  have hclosing : Grammar.Marker.test.occursIn m.declaration.text = false :=
    Grammar.Marker.occursIn_of_no_at m.at_not_mem_declaration
  change methodsFrom className n above (m.annotationLine :: m.declaration.text :: m.closing :: rest) = _
  rw [methodsFrom, methodsFrom, methodsFrom, hannotation, m.test_occursIn_annotationLine, hclosing, if_pos rfl,
    m.declaration.method?_text, TestMethod.name]
  by_cases hname : 2 ≤ m.declaration.name.length
  · rw [if_pos hname, if_pos hname]
    rfl
  · rw [if_neg hname, if_neg hname]
    rfl

/-- The methods written one after the other are found one after the other, three lines for each. -/
theorem methodsFrom_methods (methods : List TestMethod) (k : Nat) (habove : '@' ∉ above)
    (hrest : ∀ line ∈ rest, '@' ∉ line) :
    methodsFrom className (3 * k + 1) above (methods.flatMap TestMethod.lines ++ rest) =
      ((methods.zipIdx k).filter fun (m, _) => 2 ≤ m.name.length).map fun (m, i) => m.finding className (3 * i + 2) := by
  induction methods generalizing above k with
  | nil => exact methodsFrom_of_no_at habove hrest
  | cons m methods ih =>
    rw [List.flatMap_cons, List.append_assoc, methodsFrom_method m habove, List.zipIdx_cons]
    have hnext := ih (k + 1) m.closing_noAt
    rw [Nat.mul_add] at hnext
    rw [hnext]
    by_cases hname : 2 ≤ m.name.length
    · simp [hname]
    · simp [hname]

/-! ## Written classes -/

/-- The text of a test class: its header, its test methods, and lines without annotations after them. -/
structure ClassFile where
  header : Grammar.ClassHeader
  methods : List TestMethod
  rest : List (List Char)
  name_noAt : '@' ∉ header.name
  methods_ne : methods ≠ []
  rest_noAt : ∀ line ∈ rest, '@' ∉ line
  rest_inLine : ∀ line ∈ rest, '\n' ∉ line

namespace ClassFile

variable (f : ClassFile)

def lines : List (List Char) := f.header.text :: (f.methods.flatMap TestMethod.lines ++ f.rest)

def text : String := String.ofList (Text.joinWith '\n' f.lines)

def classFinding (o : Options) : Finding :=
  .testClass (headerRange o 0 f.header.text f.header.name) (String.ofList f.header.name)

/-- What is found of the methods for which `kept` holds, in the order in which they are written. The declaration of a
method stands below its annotation, and three lines below that of the method before. -/
def methodFindings (kept : TestMethod → Bool) : List Finding :=
  (f.methods.zipIdx.filter fun (m, _) => kept m).map fun (m, i) => m.finding f.header.name (3 * i + 2)

theorem at_not_mem_header : '@' ∉ f.header.text :=
  f.header.not_mem_text (.inl (by decide)) (by decide) (by decide) f.name_noAt

theorem lines_text : Text.lines f.text.toList = f.lines := by
  unfold text
  rw [String.toList_ofList]
  refine Text.splitOn_joinWith (List.cons_ne_nil _ _) ?_
  intro line hline
  rcases List.mem_cons.1 hline with rfl | hline
  · exact f.header.inLine
  · rcases List.mem_append.1 hline with hline | hline
    · obtain ⟨m, -, hline⟩ := List.mem_flatMap.1 hline
      exact m.inLine hline
    · exact f.rest_inLine line hline

theorem isSuite_text : isSuite f.text = false := by
  unfold isSuite
  rw [Bool.eq_false_iff, Ne, Grammar.Marker.occursIn_iff_exists_line, f.lines_text]
  rintro ⟨line, hline, hmarker⟩
  have hnone : Grammar.Marker.suite.occursIn line = false := by
    rcases List.mem_cons.1 hline with rfl | hline
    · exact Grammar.Marker.occursIn_of_no_at f.at_not_mem_header
    · rcases List.mem_append.1 hline with hline | hline
      · obtain ⟨m, -, hline⟩ := List.mem_flatMap.1 hline
        exact m.suite_occursIn hline
      · exact Grammar.Marker.occursIn_of_no_at (f.rest_noAt line hline)
  rw [hnone] at hmarker
  cases hmarker

/-- There is a method, and its annotation is a marker. -/
theorem test_occursIn_text : Grammar.Marker.test.occursIn f.text.toList = true := by
  obtain ⟨m, methods, hmethods⟩ := List.exists_cons_of_ne_nil f.methods_ne
  rw [Grammar.Marker.occursIn_iff_exists_line, f.lines_text]
  refine ⟨m.annotationLine, ?_, m.test_occursIn_annotationLine⟩
  unfold lines
  rw [hmethods]
  exact List.mem_cons_of_mem _ (List.mem_append_left _ (List.mem_flatMap.2 ⟨m, List.mem_cons_self, List.mem_cons_self⟩))

theorem plainClass_text (o : Options) :
    plainClass o f.text.toList = f.classFinding o :: f.methodFindings fun m => 2 ≤ m.name.length := by
  have hmethods : methodsFrom f.header.name (0 + 1) f.header.text (f.methods.flatMap TestMethod.lines ++ f.rest) =
      f.methodFindings fun m => 2 ≤ m.name.length := methodsFrom_methods f.methods 0 f.at_not_mem_header f.rest_noAt
  unfold plainClass
  rw [if_pos f.test_occursIn_text, f.lines_text, lines, classFrom, f.header.className?_text]
  exact congrArg (f.classFinding o :: ·) hmethods

/-- As many methods as are kept are found, so all are found if all are kept, and only then. -/
theorem methodFindings_eq_all {p : TestMethod → Prop} [DecidablePred p] :
    f.methodFindings (fun m => p m) = f.methodFindings (fun _ => true) ↔ ∀ m ∈ f.methods, p m := by
  unfold methodFindings
  rw [List.filter_true]
  constructor
  · intro heq m hm
    have hlength := congrArg List.length heq
    rw [List.length_map, List.length_map, List.length_filter_eq_length_iff] at hlength
    obtain ⟨i, hi, rfl⟩ := List.mem_iff_getElem.1 hm
    have hkept := hlength (f.methods[i], i) (List.mem_zipIdx_iff_getElem?.2 (List.getElem?_eq_getElem hi))
    exact of_decide_eq_true hkept
  · intro hall
    refine congrArg (List.map _) (List.filter_eq_self.2 ?_)
    intro numbered hnumbered
    exact decide_eq_true (hall numbered.1 (List.fst_mem_of_mem_zipIdx hnumbered))

end ClassFile

end Scan

/-! ## The scan of a written class -/

/-- The scan of a written test class gives the class and, in the order in which they are written, the methods whose name
has at least two characters, each on the line of its declaration and with its name. So it gives all methods exactly if
no name has less. -/
theorem scan_classFile {o : Options} {path : String} (hpath : o.classExtension.toList <:+ path.toList)
    (f : Scan.ClassFile) :
    scan o path f.text =
      { findings := f.classFinding o :: f.methodFindings fun m => 2 ≤ m.name.length
        events := [] } ∧
    (scan o path f.text = { findings := f.classFinding o :: f.methodFindings fun _ => true, events := [] } ↔
      ∀ m ∈ f.methods, 2 ≤ m.name.length) := by
  have hscan : scan o path f.text = { findings := f.classFinding o :: f.methodFindings fun m => 2 ≤ m.name.length } := by
    rw [scan_of_plainClass hpath f.isSuite_text, f.plainClass_text]
  refine ⟨hscan, ?_⟩
  rw [hscan]
  constructor
  · intro hall
    have hfindings := (Scan.mk.injEq ..).mp hall
    exact f.methodFindings_eq_all.1 (List.cons.inj hfindings.1).2
  · intro hall
    rw [f.methodFindings_eq_all.2 hall]

/-- The declaration of the method `run`, with capitals in its words and two blanks in front of its name. -/
def Scan.runDeclaration : Grammar.MethodDeclaration where
  indent := .blank
  keyword := .single "METHOD".toList (by decide)
  access := some (.single "Public".toList (by decide))
  result := ⟨"void".toList, ⟨[' ', ' '], by decide, by decide⟩, by decide, by decide⟩
  name := "run".toList
  indent_ne := by decide
  name_ne := by decide
  name_noBlank := by decide
  name_noParen := by decide

/-- A class with the single method `run`. -/
def Scan.runFile : Scan.ClassFile where
  header := .ofName ['A'] (by decide) (by decide)
  methods :=
    [{ indent := .blank, annotation := "@tEST.".toList, declaration := runDeclaration, closing := "end method.".toList
       annotation_spelled := by decide, name_noAt := by decide, closing_noAt := by decide, closing_inLine := by decide }]
  rest := []
  name_noAt := by decide
  methods_ne := by decide
  rest_noAt := by simp
  rest_inLine := by simp

theorem scan_classFile_run :
    scan {} "A.cls" "class A:\n @tEST.\n METHOD Public void  run():\nend method." =
      { findings := [.testClass (.onLine 0 6 1) "A", .method (.onLine 2 0 24) "A" "run"], events := [] } := by
  have hpath : ({} : Options).classExtension.toList <:+ "A.cls".toList := by decide
  exact (scan_classFile hpath Scan.runFile).1

/-- The only method has a name of one character, so it is not found. -/
theorem scan_oneCharacterMethod :
    scan {} "A.cls" "class A:\n@Test.\n method public void t():\nend method." =
      { findings := [.testClass (.onLine 0 6 1) "A"], events := [] } := by
  rfl

end TestDiscovery
