-- SUMMARY: The options of discovery and their defaults.
/-!
# Options

Five settings steer discovery: the suffixes of the two kinds of source files, two settings of the scanner, and
the names of directories that are not searched.
-/

namespace TestDiscovery

/-- Directories of version control, build tools, package managers and editors. -/
def defaultExcludeDirs : List String :=
  [".git", ".svn", ".builder", ".pct", "node_modules", "__pycache__", ".vscode", ".idea"]

structure Options where
  /-- The suffix of class files. -/
  classExtension : String := ".cls"
  /-- The suffix of program files. -/
  programExtension : String := ".p"
  /-- Whether a range of a header ends at the length of the name, wherever the name starts. -/
  legacyRanges : Bool := true
  /-- Whether a suite annotation counts only in small letters. -/
  suiteCaseSensitive : Bool := true
  /-- The names of directories that are not entered. -/
  excludeDirs : List String := defaultExcludeDirs
deriving DecidableEq, Repr

namespace Options

/-- Both suffixes, that of classes first. -/
def extensions (o : Options) : List String := [o.classExtension, o.programExtension]

/-- The same options with one more excluded directory. -/
def exclude (o : Options) (name : String) : Options := { o with excludeDirs := o.excludeDirs ++ [name] }

end Options

end TestDiscovery
