import Symbolizer.Address
import Symbolizer.AddressText
import Symbolizer.Bytes
import Symbolizer.CommandLine
import Symbolizer.DebugLink
import Symbolizer.Dwarf.Abbreviation
import Symbolizer.Dwarf.Attribute
import Symbolizer.Dwarf.CompilationUnit
import Symbolizer.Dwarf.Cursor
import Symbolizer.Dwarf.Encoding
import Symbolizer.Dwarf.Entry
import Symbolizer.Dwarf.Fault
import Symbolizer.Dwarf.Forest
import Symbolizer.Dwarf.LineProgram
import Symbolizer.Dwarf.Ranges
import Symbolizer.Dwarf.Sections
import Symbolizer.Fault
import Symbolizer.FileTree
import Symbolizer.Findings
import Symbolizer.HelpText
import Symbolizer.Inline.Chain
import Symbolizer.Inline.FunctionName
import Symbolizer.Inline.Naming
import Symbolizer.Inline.Scopes
import Symbolizer.LineTable
import Symbolizer.Logging
import Symbolizer.Main
import Symbolizer.Mangling.Demangle
import Symbolizer.Mangling.HashedPath
import Symbolizer.Mangling.Itanium.ExpressionGrammar
import Symbolizer.Mangling.Itanium.ExpressionPrinter
import Symbolizer.Mangling.Itanium.Fragment
import Symbolizer.Mangling.Itanium.Grammar
import Symbolizer.Mangling.Itanium.NameGrammar
import Symbolizer.Mangling.Itanium.NamePrinter
import Symbolizer.Mangling.Itanium.ObjectPrinter
import Symbolizer.Mangling.Itanium.Output
import Symbolizer.Mangling.Itanium.Part
import Symbolizer.Mangling.Itanium.Printer
import Symbolizer.Mangling.Itanium.Reader
import Symbolizer.Mangling.Itanium.Reading
import Symbolizer.Mangling.Itanium.Syntax
import Symbolizer.Mangling.Itanium.TypeGrammar
import Symbolizer.Mangling.Itanium.TypePrinter
import Symbolizer.Mangling.Itanium.Vocabulary
import Symbolizer.Mangling.Punycode
import Symbolizer.Mangling.Scheme
import Symbolizer.Mangling.Suffix
import Symbolizer.Mangling.V0.Item
import Symbolizer.Mangling.V0.Output
import Symbolizer.Mangling.V0.Reader
import Symbolizer.Memory
import Symbolizer.Modules
import Symbolizer.ObjectFile
import Symbolizer.Options
import Symbolizer.Path
import Symbolizer.Pe.FileKind
import Symbolizer.Pe.Image
import Symbolizer.Pe.Layout
import Symbolizer.Process
import Symbolizer.Program
import Symbolizer.RecordedPath
import Symbolizer.Report
import Symbolizer.Resolve
import Symbolizer.Satellite
import Symbolizer.Session
import Symbolizer.Sink
import Symbolizer.Stack
import Symbolizer.StackPrinter
import Symbolizer.Symbol
import Symbolizer.Text.Blank
import Symbolizer.Text.Numeral
import Symbolizer.Text.Printable
import Symbolizer.Text.Quoted
import Symbolizer.Text.Utf16
import Symbolizer.Text.Utf8
import Symbolizer.UnitIndex
import Symbolizer.Proofs.Resolve.Groups
import Symbolizer.Proofs.LineTable.Arrangement
import Symbolizer.Proofs.LineTable.Delivery
import Symbolizer.Proofs.Dwarf.Reading
import Symbolizer.Proofs.LineProgram.Emission
import Symbolizer.Proofs.LineProgram.Declarations
import Symbolizer.Proofs.LineTable.Separation
import Symbolizer.Proofs.LineTable.FileNames
import Symbolizer.Proofs.Dwarf.Progress
import Symbolizer.Proofs.Dwarf.RangeBounds
import Symbolizer.Proofs.Dwarf.Tree
import Symbolizer.Proofs.Inline.Frames
import Symbolizer.Proofs.Sink.Script
import Symbolizer.Proofs.Process.Governors
import Symbolizer.Proofs.Process.SharedBases
import Symbolizer.Proofs.Process.OwnBases
import Symbolizer.Proofs.Resolve.Interruption
import Symbolizer.Proofs.Inline.Nesting
import Symbolizer.Proofs.Resolve.Relocation
import Symbolizer.Proofs.Resolve.DebugImage
import Symbolizer.Proofs.Inline.Faults
import Symbolizer.Proofs.Session.Lookup
import Symbolizer.Proofs.Inline.Suppliers
import Symbolizer.Proofs.Resolve.Demangling
import Symbolizer.Proofs.Dwarf.Headers
import Symbolizer.Proofs.UnitIndex.Owners
import Symbolizer.Proofs.Inline.Links
import Symbolizer.Proofs.Inline.References
import Symbolizer.Proofs.Session.Truncation
import Symbolizer.Proofs.Modules.Extents
import Symbolizer.Proofs.Modules.Lines
import Symbolizer.Proofs.Modules.Ownership
import Symbolizer.Proofs.StackPrinter.Numbering
import Symbolizer.Proofs.UnitIndex.Candidates
import Symbolizer.Proofs.UnitIndex.Hulls
import Symbolizer.Proofs.Text.Numeral
import Symbolizer.Proofs.Text.Words
import Symbolizer.Proofs.Text.Utf8
import Symbolizer.Proofs.Text.Utf16
import Symbolizer.Proofs.Modules.WrittenLines
import Symbolizer.Proofs.Stack.Walk
import Symbolizer.Proofs.Stack.Capture
import Symbolizer.Proofs.Sink.Transcoding
import Symbolizer.Proofs.DebugLink.Layout
import Symbolizer.Proofs.Text.Surrogates
import Symbolizer.Proofs.Path.Components
import Symbolizer.Proofs.Satellite.Candidates
import Symbolizer.Proofs.FileTree.Volume
import Symbolizer.Proofs.Satellite.OwnImage
import Symbolizer.Proofs.RecordedPath.Joining
import Symbolizer.Proofs.LineTable.FilePaths
import Symbolizer.Proofs.AddressText.Renderings
import Symbolizer.Proofs.Inline.DisplayedNames
import Symbolizer.Proofs.StackPrinter.LostWrites
import Symbolizer.Proofs.LineTable.Positions
import Symbolizer.Proofs.Memory.Reads
import Symbolizer.Proofs.Text.Cuts
import Symbolizer.Proofs.ObjectFile.LinkSections
