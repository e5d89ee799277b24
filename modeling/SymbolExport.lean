import SymbolExport.Main
import SymbolExport.Class.Definition
import SymbolExport.Session
import SymbolExport.Proofs.DottedName
import SymbolExport.Proofs.LinkFree
import SymbolExport.Proofs.ModuleCache
import SymbolExport.Proofs.Frame
import SymbolExport.Proofs.Session
import SymbolExport.Proofs.Extraction
import SymbolExport.Proofs.Resolution
import SymbolExport.Proofs.Report
import SymbolExport.Proofs.SettingsFile
import SymbolExport.Proofs.DeclaredName
import SymbolExport.Proofs.Place
import SymbolExport.Proofs.UnitName
import SymbolExport.Proofs.OwnModule
import SymbolExport.Proofs.Surface
import SymbolExport.Proofs.SourceWalk
import SymbolExport.Proofs.Writing
import SymbolExport.Proofs.Output
import SymbolExport.Proofs.Rescan
import SymbolExport.Proofs.Reimport
import SymbolExport.Proofs.Recollect
import SymbolExport.Proofs.LaterRuns
import SymbolExport.Proofs.Script.Reading
import SymbolExport.Proofs.Script.Quotation
import SymbolExport.Proofs.Script.Numeral
import SymbolExport.Proofs.Script.RoundTrip
import SymbolExport.Proofs.Script.Characters
import SymbolExport.Proofs.Script.Slashes
import SymbolExport.Proofs.Script.Module
import SymbolExport.Proofs.Script.Agreement
import SymbolExport.Proofs.Footprint
import SymbolExport.Proofs.ExportFrame
import SymbolExport.Proofs.FailedExport
import SymbolExport.Proofs.PathText
import SymbolExport.Proofs.LineReading
import SymbolExport.Proofs.Confirmation
import SymbolExport.Proofs.Verbosity
import SymbolExport.Proofs.ConstantOrigin
import SymbolExport.Proofs.TokenDepth
import SymbolExport.Proofs.FirstDeclaration
import SymbolExport.Proofs.EarlierDeclaration
import SymbolExport.Proofs.Placement
import SymbolExport.Proofs.Bodies
import SymbolExport.Proofs.Attributes
import SymbolExport.Proofs.Eviction
import SymbolExport.Proofs.ImportDepth
import SymbolExport.Proofs.Evaluation
import SymbolExport.Proofs.Requirement
import SymbolExport.Proofs.LoadedBefore
import SymbolExport.Proofs.Independence
import SymbolExport.Proofs.LaterLine
import SymbolExport.Proofs.CommentLine
import SymbolExport.Proofs.Listing
import SymbolExport.Proofs.WalkOrder
import SymbolExport.Proofs.SharedName
import SymbolExport.Proofs.Renderable
import SymbolExport.Proofs.ConstantOrder
import SymbolExport.Proofs.DeclarationFile
import SymbolExport.Proofs.Script.ConstantLines
import SymbolExport.Proofs.GivenOptions
import SymbolExport.Proofs.Precedence
import SymbolExport.Proofs.ModuleNaming
import SymbolExport.Proofs.Encoding
import SymbolExport.Proofs.Overwriting
import SymbolExport.Proofs.OtherColumn
import SymbolExport.Proofs.ByteOrderMark
import SymbolExport.Proofs.Discovery
import SymbolExport.Proofs.SnakeCase
