import ClassEdit.Command.Arguments
import ClassEdit.Command.Environment
import ClassEdit.Command.Files
import ClassEdit.Command.Json
import ClassEdit.Command.Quoted
import ClassEdit.Command.Run
import ClassEdit.Config.Basic
import ClassEdit.Config.Toml.Document
import ClassEdit.Config.Toml.Quoted
import ClassEdit.Config.Toml.Scalar
import ClassEdit.Config.Toml.Value
import ClassEdit.Declaration.BaseGraph
import ClassEdit.Declaration.Basic
import ClassEdit.Edit.ClassHead
import ClassEdit.Edit.Error
import ClassEdit.Edit.Implement
import ClassEdit.Edit.Insertion
import ClassEdit.Edit.PublicPlace
import ClassEdit.Edit.Session
import ClassEdit.Main
import ClassEdit.Proofs.ArgumentOrigin
import ClassEdit.Proofs.BaseAccess
import ClassEdit.Proofs.BaseClauseLookup
import ClassEdit.Proofs.BaseCycles
import ClassEdit.Proofs.BaseName
import ClassEdit.Proofs.BaseVisit
import ClassEdit.Proofs.ClassBody
import ClassEdit.Proofs.ClassNumbers
import ClassEdit.Proofs.ClosedTexts
import ClassEdit.Proofs.CompleteClass
import ClassEdit.Proofs.ComponentLookup
import ClassEdit.Proofs.DeclaratorParts
import ClassEdit.Proofs.DeclaratorValues
import ClassEdit.Proofs.DeclaredName
import ClassEdit.Proofs.Definitions
import ClassEdit.Proofs.DynamicClasses
import ClassEdit.Proofs.EditSequence
import ClassEdit.Proofs.HeadBrace
import ClassEdit.Proofs.HeadSearch
import ClassEdit.Proofs.ImplementText
import ClassEdit.Proofs.ImplicitMembers
import ClassEdit.Proofs.InPlace
import ClassEdit.Proofs.LayerReading
import ClassEdit.Proofs.LeafPaths
import ClassEdit.Proofs.LeafWalk
import ClassEdit.Proofs.Lexemes
import ClassEdit.Proofs.LineTable
import ClassEdit.Proofs.MemberOrder
import ClassEdit.Proofs.NameLookup
import ClassEdit.Proofs.NameStarts
import ClassEdit.Proofs.OneLine
import ClassEdit.Proofs.OverrideKinds
import ClassEdit.Proofs.OverrideLines
import ClassEdit.Proofs.OverrideList
import ClassEdit.Proofs.PlaceAccess
import ClassEdit.Proofs.PlaceBounds
import ClassEdit.Proofs.PlaceInside
import ClassEdit.Proofs.PlaceOffset
import ClassEdit.Proofs.PlaceTerminator
import ClassEdit.Proofs.Position
import ClassEdit.Proofs.PrintingLine
import ClassEdit.Proofs.ScopeNames
import ClassEdit.Proofs.SeparatedLists
import ClassEdit.Proofs.SignatureRendering
import ClassEdit.Proofs.SignatureText
import ClassEdit.Proofs.SpelledTexts
import ClassEdit.Proofs.SpellingTokens
import ClassEdit.Proofs.Splice
import ClassEdit.Proofs.StrippedScope
import ClassEdit.Proofs.TokenLookup
import ClassEdit.Proofs.TokenOrder
import ClassEdit.Proofs.TreeShape
import ClassEdit.Proofs.TypeLayers
import ClassEdit.Proofs.TypeReading
import ClassEdit.Proofs.UnitClasses
import ClassEdit.Proofs.WrittenNames
import ClassEdit.Proofs.WrittenTypes
import ClassEdit.Reading.Collect
import ClassEdit.Reading.Declarator
import ClassEdit.Reading.Functions
import ClassEdit.Reading.Implicit
import ClassEdit.Reading.Names
import ClassEdit.Reading.Records
import ClassEdit.Reading.Spelling
import ClassEdit.Reading.Types
import ClassEdit.Render.Declaration
import ClassEdit.Render.Overrides
import ClassEdit.Text.Bisect
import ClassEdit.Text.Blank
import ClassEdit.Text.Bytes
import ClassEdit.Text.Document
import ClassEdit.Text.Letter
import ClassEdit.Text.Location
import ClassEdit.Text.Printable
import ClassEdit.Text.Ranges
import ClassEdit.Text.Search
import ClassEdit.Text.WordChar
import ClassEdit.Token.Basic
import ClassEdit.Token.Source
import ClassEdit.Tree.Basic
import ClassEdit.Tree.Kind
import ClassEdit.Tree.Listing
import ClassEdit.Types.Basic
import ClassEdit.Types.Spelling
import ClassEdit.Unit.Basic
import ClassEdit.Unit.Lookup
