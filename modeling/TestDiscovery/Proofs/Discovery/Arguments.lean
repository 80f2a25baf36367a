-- SUMMARY: A single file is found alike by every argument that leads to it.
import TestDiscovery.Proofs.Discovery.Aliases

/-!
# Arguments for a file

Discovery in one file takes its path, absolute or from the root, with dots and through links. Whatever leads to a file
below the root gives what the bytes of the file come to under its path from the root, which is made of the names from the
real root down to the real file.
-/

namespace TestDiscovery

/-- The tests in the bytes of a file that is seen by a path, unless the bytes are no text. -/
def Discovery.ofBytes (o : Options) (path : String) (bytes : List UInt8) : Except Failure Discovery :=
  match Text.Utf8.decode bytes with
  | .error cause => .error (.undecodable cause)
  | .ok text => .ok (.ofScan path (scan o path (String.ofList (Text.unifyNewlines text))))

theorem Discovery.ofBytes_of_text {o : Options} {path : String} {bytes : List UInt8} {text : List Char}
    (h : Text.Utf8.decode bytes = .ok text) :
    Discovery.ofBytes o path bytes = .ok (.ofScan path (scan o path (String.ofList (Text.unifyNewlines text)))) := by
  rw [Discovery.ofBytes, h]

namespace FileSystem

/-- An argument leads to a place, from the root if it is relative, and its last name has the suffix of a source. -/
structure Requests (fs : FileSystem) (o : Options) (root : Path) (given : String) (place : Location) : Prop where
  leads : fs.locate (root.join (Path.parse given)) = .ok place
  fits : isSource o (root.join (Path.parse given)) = true

variable {fs : FileSystem} {o : Options} {root file : Path} {top below place : Location} {bytes : List UInt8}
  {given : String}

theorem hasNul_of_placeOf (h : fs.placeOf file = .ok place) : file.hasNul = false := by
  unfold placeOf at h
  split at h
  · cases h
  · next hclean => simpa using hclean

theorem Requests.discoverFile (h : fs.Requests o root given place) :
    fs.discoverFile given (some root) (some o) = fs.scanFile o root (root.join (Path.parse given)) :=
  discoverFile_of_hasPath (hasPath_of_locate h.leads) h.fits

/-- The scan of a file below the root goes by its bytes and by the names that lead down to it. -/
theorem scanFile_of_locate (hroot : fs.placeOf root = .ok top) (hlocate : fs.locate file = .ok (below ++ top))
    (hget : fs.tree.get? (below ++ top) = some (.file bytes)) :
    fs.scanFile o root file = Discovery.ofBytes o (Path.text { names := below.reverse }) bytes := by
  have hclean : file.hasNul = false := hasNul_of_locate hlocate
  have hpath : fs.relativePath file root = .ok (Path.text { names := below.reverse }) :=
    relativePath_of_below (placeOf_of_locate hlocate hclean) hroot hclean (hasNul_of_placeOf hroot)
      (namesBelow?_append below top)
  unfold scanFile Discovery.ofBytes
  rw [readSource_of_locate hclean hlocate hget]
  cases Text.Utf8.decode bytes with
  | error cause => rfl
  | ok text => simp [hpath, bind, Except.bind, pure, Except.pure]

/-- The text of the names that lead down to something is read as a relative path without double dots, which leads from
the upper place to the lower one. -/
theorem parse_text_below {node : Node} (hget : fs.tree.get? (below ++ top) = some node) :
    (Path.parse (Path.text { names := below.reverse })).isAbsolute = false ∧
      ".." ∉ (Path.parse (Path.text { names := below.reverse })).names ∧
      top.path.join (Path.parse (Path.text { names := below.reverse })) = Location.path (below ++ top) := by
  have hnames : ∀ name ∈ below.reverse, FileName name := fun name hname =>
    .of_isFileName (FileTree.isFileName_of_mem hget name (List.mem_append_left top (List.mem_reverse.1 hname)))
  rw [Path.parse_text (Path.normal_of_fileNames .here hnames)]
  refine ⟨rfl, fun hdots => (hnames _ hdots).ne_dots rfl, ?_⟩
  simp [Path.join, Path.isAbsolute, Location.path]

/-- Two arguments that lead to the same file below the root, both with the suffix of a source, give the same: what the
bytes of the file come to under its path from the root. This path is relative and without double dots, and leads from the
real root to the real file. Bytes that are no text give the same error both times. -/
theorem discoverFile_of_same_place {a b : String} (hroot : fs.placeOf root = .ok top) (hbelow : top <:+ place)
    (hfile : fs.tree.get? place = some (.file bytes)) (ha : fs.Requests o root a place)
    (hb : fs.Requests o root b place) :
    ∃ path : String, (Path.parse path).isAbsolute = false ∧ ".." ∉ (Path.parse path).names ∧
      top.path.join (Path.parse path) = place.path ∧
      fs.discoverFile a (some root) (some o) = Discovery.ofBytes o path bytes ∧
      fs.discoverFile b (some root) (some o) = Discovery.ofBytes o path bytes ∧
      (∀ text, Text.Utf8.decode bytes = .ok text → ∃ found, Discovery.ofBytes o path bytes = .ok found ∧
        found.entities = (scan o path (String.ofList (Text.unifyNewlines text))).entities path ∧
        ∀ e ∈ found.entities, e.path = path) ∧
      ∀ cause, Text.Utf8.decode bytes = .error cause → Discovery.ofBytes o path bytes = .error (.undecodable cause) := by
  obtain ⟨below, rfl⟩ := hbelow
  obtain ⟨hrelative, hdots, hjoin⟩ := parse_text_below hfile
  refine ⟨Path.text { names := below.reverse }, hrelative, hdots, hjoin, ?_, ?_, ?_, ?_⟩
  · rw [ha.discoverFile, scanFile_of_locate hroot ha.leads hfile]
  · rw [hb.discoverFile, scanFile_of_locate hroot hb.leads hfile]
  · exact fun text htext => ⟨_, Discovery.ofBytes_of_text htext, rfl, path_of_mem_entities⟩
  · intro cause hcause
    rw [Discovery.ofBytes, hcause]

/-! ### A file through a link to a directory -/

/-- A root with a directory that holds a program and a link back to the directory. -/
def backLinked : FileSystem where
  tree := {
    entries := [(["d"], .dir), (["a.p", "d"], .file (Text.Utf8.encode "@Test.\nprocedure b:".toList)),
      (["l", "d"], .link "../d")]
    distinct := by decide
    placed := by
      intro e he
      simp only [List.mem_cons, List.not_mem_nil, or_false] at he
      rcases he with rfl | rfl | rfl
      · exact ⟨"d", [], rfl, by decide, .inl rfl⟩
      · exact ⟨"a.p", ["d"], rfl, by decide, .inr (by simp)⟩
      · exact ⟨"l", ["d"], rfl, by decide, .inr (by simp)⟩ }

theorem discoverFile_of_same_place_backLinked :
    backLinked.placeOf ⟨.root, ["d", "l"]⟩ = .ok ["d"] ∧
      backLinked.Requests {} ⟨.root, ["d", "l"]⟩ "l/./../d/a.p" ["a.p", "d"] ∧
      backLinked.Requests {} ⟨.root, ["d", "l"]⟩ "/d/a.p" ["a.p", "d"] ∧
      ∃ found, backLinked.discoverFile "l/./../d/a.p" (some ⟨.root, ["d", "l"]⟩) (some {}) = .ok found ∧
        backLinked.discoverFile "/d/a.p" (some ⟨.root, ["d", "l"]⟩) (some {}) = .ok found ∧
        found.entities = [{ kind := .procedure, name := "b", path := "a.p", range := ⟨⟨1, 10⟩, ⟨1, 1⟩⟩ }] := by
  have hroot : backLinked.placeOf ⟨.root, ["d", "l"]⟩ = .ok ["d"] := rfl
  have hdotted : backLinked.Requests {} ⟨.root, ["d", "l"]⟩ "l/./../d/a.p" ["a.p", "d"] := ⟨rfl, by decide⟩
  have habsolute : backLinked.Requests {} ⟨.root, ["d", "l"]⟩ "/d/a.p" ["a.p", "d"] := ⟨rfl, by decide⟩
  obtain ⟨path, -, -, -, hfound, hfound', htext, -⟩ :=
    discoverFile_of_same_place hroot (List.suffix_cons "a.p" ["d"]) rfl hdotted habsolute
  obtain ⟨found, hbytes, -, -⟩ := htext _ (Text.Utf8.decode_encode _)
  have hscanned : (backLinked.discoverFile "/d/a.p" (some ⟨.root, ["d", "l"]⟩) (some {})).map Discovery.entities =
      .ok [{ kind := .procedure, name := "b", path := "a.p", range := ⟨⟨1, 10⟩, ⟨1, 1⟩⟩ }] := by decide +kernel
  rw [hfound', hbytes] at hscanned
  exact ⟨hroot, hdotted, habsolute, found, hfound.trans hbytes, hfound'.trans hbytes, Except.ok.inj hscanned⟩

end FileSystem

end TestDiscovery
