import TestDiscovery.Scan.Session
import TestDiscovery.Main
import TestDiscovery.Proofs.Files.Following
import TestDiscovery.Proofs.Discovery.Agenda
import TestDiscovery.Proofs.Discovery.Coverage
import TestDiscovery.Proofs.Files.Spelling
import TestDiscovery.Proofs.Discovery.SourceKinds
import TestDiscovery.Proofs.Discovery.Agreement
import TestDiscovery.Proofs.Outcome
import TestDiscovery.Proofs.Discovery.Failures
import TestDiscovery.Proofs.Command.Request
import TestDiscovery.Proofs.Command.ExitCodes
import TestDiscovery.Proofs.Scan.SuiteClass
import TestDiscovery.Proofs.Text.Occurrence
import TestDiscovery.Proofs.Text.Pieces
import TestDiscovery.Proofs.Text.Blank
import TestDiscovery.Proofs.Text.Leftmost
import TestDiscovery.Proofs.Text.Keyword
import TestDiscovery.Proofs.Grammar.Marker
import TestDiscovery.Proofs.Scan.MarkedLines
import TestDiscovery.Proofs.Scan.PlainProgram
import TestDiscovery.Proofs.Scan.PlainClass
import TestDiscovery.Proofs.Grammar.Spelling
import TestDiscovery.Proofs.Grammar.Method
import TestDiscovery.Proofs.Grammar.Declaration
import TestDiscovery.Proofs.Scan.ClassFile
import TestDiscovery.Proofs.Grammar.Annotation
import TestDiscovery.Proofs.Scan.SuiteFile
import TestDiscovery.Proofs.Scan.Origin
import TestDiscovery.Proofs.Scan.Ranges
import TestDiscovery.Proofs.Grammar.TrailingBlanks
import TestDiscovery.Proofs.Text.LineEnd
import TestDiscovery.Proofs.Text.Utf8
import TestDiscovery.Proofs.Scan.TrailingBlanks
import TestDiscovery.Proofs.Text.Lower
import TestDiscovery.Proofs.Yaml.Cursor
import TestDiscovery.Proofs.Yaml.Scalar
import TestDiscovery.Proofs.Yaml.Name
import TestDiscovery.Proofs.Yaml.Token
import TestDiscovery.Proofs.Yaml.Event
import TestDiscovery.Proofs.Yaml.Node
import TestDiscovery.Proofs.Yaml.Atom
import TestDiscovery.Proofs.Yaml.Document
import TestDiscovery.Proofs.Discovery.Configuration
import TestDiscovery.Proofs.Text.LetterCase
import TestDiscovery.Proofs.Grammar.LetterCase
import TestDiscovery.Proofs.Scan.Beside
import TestDiscovery.Proofs.Scan.LetterCase
import TestDiscovery.Proofs.Scan.EndColumns
import TestDiscovery.Proofs.Grammar.AnyCaseAnnotation
import TestDiscovery.Proofs.Scan.AnnotationCase
import TestDiscovery.Proofs.Discovery.Aliases
import TestDiscovery.Proofs.Scan.Session
import TestDiscovery.Proofs.Discovery.RootSpelling
import TestDiscovery.Proofs.Discovery.Exclusion
import TestDiscovery.Proofs.Grammar.Attribute
import TestDiscovery.Proofs.Grammar.AttributePlaces
import TestDiscovery.Proofs.Discovery.Order
import TestDiscovery.Proofs.Discovery.Arguments
import TestDiscovery.Proofs.Scan.CommentLines
import TestDiscovery.Proofs.Grammar.HeaderPlaces
import TestDiscovery.Proofs.Scan.HeaderColumns
import TestDiscovery.Proofs.Grammar.AssertionPlaces
import TestDiscovery.Proofs.Grammar.HeaderTails
import TestDiscovery.Proofs.Grammar.MethodPlaces
import TestDiscovery.Proofs.Grammar.MemberPlaces
import TestDiscovery.Proofs.Scan.MarkerGates
import TestDiscovery.Proofs.Report.Entity
import TestDiscovery.Proofs.Command.WorkingDirectory
import TestDiscovery.Proofs.Yaml.Data
import TestDiscovery.Proofs.Discovery.Settings
