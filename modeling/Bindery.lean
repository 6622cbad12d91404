import Bindery.Text.WordChar
import Bindery.Text.Lowercase
import Bindery.Text.Quoted
import Bindery.Name
import Bindery.Json.Reader
import Bindery.Api.Validation
import Bindery.Api.BuiltinTable
import Bindery.Document.Load
import Bindery.Config
import Bindery.Binding.TypeExpr
import Bindery.Binding.Reference
import Bindery.Binding.Source
import Bindery.Command
import Bindery.Main
import Bindery.Proofs.Consistency
import Bindery.Proofs.FirstFault
import Bindery.Proofs.Projection
import Bindery.Proofs.Casing
import Bindery.Proofs.Declaration
import Bindery.Proofs.Generation
import Bindery.Proofs.ShortNames
import Bindery.Proofs.Sections
import Bindery.Proofs.Imports
import Bindery.Proofs.Marker.Cells
import Bindery.Proofs.Marker.Collision
import Bindery.Proofs.Marker.Resolution
import Bindery.Proofs.Spelling
import Bindery.Proofs.OneLine
import Bindery.Proofs.Comments
import Bindery.Proofs.Annotation
import Bindery.Proofs.Documentation
import Bindery.Proofs.Inventory
import Bindery.Proofs.Extension
import Bindery.Proofs.CamelCase
import Bindery.Proofs.MemberIdents
import Bindery.Proofs.Places
import Bindery.Proofs.Frame
import Bindery.Proofs.Output
import Bindery.Proofs.Confinement
import Bindery.Proofs.Independence
import Bindery.Proofs.Homonyms
import Bindery.Proofs.Numerals
import Bindery.Proofs.Scanned
import Bindery.Proofs.Lines
import Bindery.Proofs.Fit
import Bindery.Proofs.Layout
import Bindery.Proofs.Inlined
import Bindery.Proofs.Carried
import Bindery.Proofs.HandleNames
import Bindery.Proofs.MemberLines
import Bindery.Proofs.Parameters
import Bindery.Proofs.CrossReference
import Bindery.Proofs.WrittenNames
import Bindery.Proofs.FailedDeclaration
import Bindery.Proofs.FailedRun
import Bindery.Proofs.Anchors
import Bindery.Proofs.Links
import Bindery.Proofs.Selection
import Bindery.Proofs.StrayMarkers
import Bindery.Proofs.RepeatedKeys
import Bindery.Proofs.MemberOrder
import Bindery.Proofs.Rearrangement
import Bindery.Proofs.CodeSpans
import Bindery.Proofs.Bodies
import Bindery.Proofs.Initials
import Bindery.Proofs.DigitCases
import Bindery.Proofs.ReadBack
import Bindery.Proofs.Prefixes
import Bindery.Proofs.MemberValues
import Bindery.Proofs.Masks
import Bindery.Proofs.EarliestFault
import Bindery.Proofs.InfoNames
import Bindery.Proofs.Registrations
import Bindery.Proofs.Insertions
