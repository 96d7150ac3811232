import Recast.Analysis.Discovery
import Recast.Analysis.ForwardRef
import Recast.Analysis.Imports
import Recast.Analysis.Markup
import Recast.Analysis.Note
import Recast.Analysis.Props
import Recast.Analysis.Source
import Recast.Analysis.Variants
import Recast.Assoc
import Recast.Catalog.Elements
import Recast.Catalog.Icons
import Recast.Catalog.PrimitiveProps
import Recast.Catalog.Primitives
import Recast.ClassExpr.Basic
import Recast.ClassExpr.Scan
import Recast.Command.Arguments
import Recast.Command.Run
import Recast.Command.Settings
import Recast.Component.Basic
import Recast.Component.Edit
import Recast.Component.Variant
import Recast.Convert
import Recast.Error
import Recast.FileTree
import Recast.Format
import Recast.Generate.Component
import Recast.Generate.Declaration
import Recast.Generate.Generated
import Recast.Generate.Import
import Recast.Generate.Layout
import Recast.Generate.Name
import Recast.Generate.Plan
import Recast.Generate.Props
import Recast.Generate.Svelte.Component
import Recast.Generate.Svelte.Markup
import Recast.Generate.Svelte.Script
import Recast.Generate.Variant
import Recast.Generate.Vue.Component
import Recast.Generate.Vue.Markup
import Recast.Main
import Recast.Markup.Node
import Recast.Number.Read
import Recast.Number.Shortest
import Recast.Options.Basic
import Recast.Options.Config
import Recast.Options.Read
import Recast.Options.Value
import Recast.Path
import Recast.Plugin.Action
import Recast.Plugin.Basic
import Recast.Plugin.Builtin
import Recast.Plugin.Pipeline
import Recast.Plugin.Registry
import Recast.Proofs.Analysis.Attribute
import Recast.Proofs.Analysis.Descent
import Recast.Proofs.Analysis.Distinct
import Recast.Proofs.Analysis.Markup
import Recast.Proofs.Analysis.Note
import Recast.Proofs.Analysis.Props
import Recast.Proofs.Analysis.Source
import Recast.Proofs.Analysis.StatePattern
import Recast.Proofs.Analysis.Taken
import Recast.Proofs.Analysis.Text
import Recast.Proofs.Analysis.VariantCalls
import Recast.Proofs.Analysis.Variants
import Recast.Proofs.ClassExpr.Adapted
import Recast.Proofs.ClassExpr.Arguments
import Recast.Proofs.ClassExpr.Calls
import Recast.Proofs.ClassExpr.Code
import Recast.Proofs.ClassExpr.Enclosing
import Recast.Proofs.ClassExpr.Entry
import Recast.Proofs.ClassExpr.Meaning
import Recast.Proofs.ClassExpr.MergeCall
import Recast.Proofs.ClassExpr.Moved
import Recast.Proofs.ClassExpr.PassedClass
import Recast.Proofs.ClassExpr.Renaming
import Recast.Proofs.ClassExpr.Requote
import Recast.Proofs.ClassExpr.Resolved
import Recast.Proofs.ClassExpr.Spans
import Recast.Proofs.ClassExpr.Spelling
import Recast.Proofs.Convert.All
import Recast.Proofs.Convert.MergeImport
import Recast.Proofs.Format.Whitespace
import Recast.Proofs.Generate.Binding
import Recast.Proofs.Generate.Carried
import Recast.Proofs.Generate.Import
import Recast.Proofs.Generate.Merge
import Recast.Proofs.Generate.OwnNames
import Recast.Proofs.Generate.Quoting
import Recast.Proofs.Generate.Rejection
import Recast.Proofs.Generate.ScriptHead
import Recast.Proofs.Generate.ScriptOrder
import Recast.Proofs.Generate.StateCode
import Recast.Proofs.Layout.Drawing
import Recast.Proofs.Layout.Flat
import Recast.Proofs.Layout.Gained
import Recast.Proofs.Layout.Ink
import Recast.Proofs.Layout.ReadBack
import Recast.Proofs.Layout.Reference
import Recast.Proofs.Layout.Runs
import Recast.Proofs.Loop
import Recast.Proofs.Markup.Foreign
import Recast.Proofs.Markup.Root
import Recast.Proofs.Markup.Sound
import Recast.Proofs.Normalize.Catalog
import Recast.Proofs.Normalize.Convert
import Recast.Proofs.Normalize.File
import Recast.Proofs.Normalize.Generate
import Recast.Proofs.Normalize.Head
import Recast.Proofs.Normalize.Indent
import Recast.Proofs.Normalize.Layout
import Recast.Proofs.Normalize.Repair
import Recast.Proofs.Normalize.Source
import Recast.Proofs.Normalize.Svelte
import Recast.Proofs.Normalize.Token
import Recast.Proofs.Normalize.Tree
import Recast.Proofs.Normalize.Vue
import Recast.Proofs.Options.Loading
import Recast.Proofs.Outcome
import Recast.Proofs.Plugin.Builtin
import Recast.Proofs.Plugin.Isolation
import Recast.Proofs.Plugin.Order
import Recast.Proofs.Plugin.Registration
import Recast.Proofs.Plugin.Registry
import Recast.Proofs.Repair.FixedText
import Recast.Proofs.Repair.FromClause
import Recast.Proofs.Repair.IconSources
import Recast.Proofs.Repair.ImportLine
import Recast.Proofs.Repair.KeptScripts
import Recast.Proofs.Repair.Progress
import Recast.Proofs.Repair.Script
import Recast.Proofs.Repair.ScriptFront
import Recast.Proofs.Repair.Settled
import Recast.Proofs.Repair.TagForest
import Recast.Proofs.Repair.TagTokens
import Recast.Proofs.Repair.Tags
import Recast.Proofs.Runes.Exports
import Recast.Proofs.Runes.Markup
import Recast.Proofs.Runes.Rules
import Recast.Proofs.Runes.Style
import Recast.Proofs.Runes.Twins
import Recast.Proofs.Runes.Upgrade
import Recast.Proofs.Sorting
import Recast.Proofs.Text.Character
import Recast.Proofs.Text.Found
import Recast.Proofs.Text.Front
import Recast.Proofs.Text.InOrder
import Recast.Proofs.Text.Lines
import Recast.Proofs.Text.Literal
import Recast.Proofs.Text.Reference
import Recast.Proofs.Text.Search
import Recast.Proofs.Text.Substitution
import Recast.Proofs.Text.Token
import Recast.Proofs.Tsx.ImportStatement
import Recast.Proofs.Tsx.Reading
import Recast.Proofs.Tsx.StringLiteral
import Recast.Proofs.Tsx.WrittenImport
import Recast.Repair.Imports
import Recast.Repair.Markup
import Recast.Repair.Tags
import Recast.Runes
import Recast.Target
import Recast.Text.Blank
import Recast.Text.Case
import Recast.Text.Digit
import Recast.Text.Quoted
import Recast.Text.Range
import Recast.Text.Search
import Recast.Text.Substitution
import Recast.Text.Word
import Recast.Toml.Document
import Recast.Toml.Reader
import Recast.Toml.Scalar
import Recast.Toml.Text
import Recast.Tsx.Grammar.Basic
import Recast.Tsx.Grammar.Binding
import Recast.Tsx.Grammar.Expression
import Recast.Tsx.Grammar.Markup
import Recast.Tsx.Grammar.Statement
import Recast.Tsx.Grammar.Type
import Recast.Tsx.Parse
import Recast.Tsx.Scan
import Recast.Tsx.Tree
import Recast.Proofs.Generate.Selection
