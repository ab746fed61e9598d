import TextTemplate.Main
import TextTemplate.Pattern.Fragments
import TextTemplate.Source.FileTree
import TextTemplate.Source.TextTable
import TextTemplate.Document.Json.Printer
import TextTemplate.Value.Same
import TextTemplate.Proofs.Scan.Tiling
import TextTemplate.Proofs.Template.Nesting
import TextTemplate.Proofs.Store.Reach
import TextTemplate.Proofs.Template.RoundTrip
import TextTemplate.Proofs.Store.Growth
import TextTemplate.Proofs.Data.Write
import TextTemplate.Proofs.Data.Session
import TextTemplate.Proofs.Data.Missing
import TextTemplate.Proofs.Render.Markup
import TextTemplate.Proofs.Engine.Caching
import TextTemplate.Proofs.Store.Order
import TextTemplate.Proofs.Render.Depth
import TextTemplate.Proofs.Render.Isolation
import TextTemplate.Proofs.Data.Export
import TextTemplate.Proofs.Data.WrittenList
import TextTemplate.Proofs.Data.Promotion
import TextTemplate.Proofs.Scan.Shift
import TextTemplate.Proofs.Scan.Terminator
import TextTemplate.Proofs.Template.Shift
import TextTemplate.Proofs.Template.HereDocument
import TextTemplate.Proofs.Template.Inverted
import TextTemplate.Proofs.Template.Scoping
import TextTemplate.Proofs.Engine.Once
import TextTemplate.Proofs.Source.Clean
import TextTemplate.Proofs.Escape.Names
import TextTemplate.Proofs.Escape.Literal
import TextTemplate.Proofs.Escape.Markup
import TextTemplate.Proofs.Escape.LogLine
import TextTemplate.Proofs.Template.Elision
import TextTemplate.Proofs.Parameter.Written
import TextTemplate.Proofs.Template.Single
import TextTemplate.Proofs.Template.Apply
import TextTemplate.Proofs.Template.Preamble
import TextTemplate.Proofs.Template.Inline
import TextTemplate.Proofs.Decimal.Digits
import TextTemplate.Proofs.Decimal.Rounding
import TextTemplate.Proofs.Format.DecimalPattern
import TextTemplate.Proofs.Format.Conversion
import TextTemplate.Proofs.Data.Inherited
import TextTemplate.Proofs.Data.LocalPath
import TextTemplate.Proofs.Data.WrittenMap
import TextTemplate.Proofs.Scan.PutBack
import TextTemplate.Proofs.Scan.Range
import TextTemplate.Proofs.Parameter.SettingList
import TextTemplate.Proofs.Template.Position
import TextTemplate.Proofs.Pattern.Fragments
import TextTemplate.Proofs.Function.Comparison
import TextTemplate.Proofs.Function.Paging
import TextTemplate.Proofs.Source.Joined
import TextTemplate.Proofs.Data.Calls
import TextTemplate.Proofs.Source.Locale
import TextTemplate.Proofs.Source.Properties
import TextTemplate.Proofs.Calendar.Rfc3339
import TextTemplate.Proofs.Format.Date
