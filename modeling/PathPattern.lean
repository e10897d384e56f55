import PathPattern.Main
import PathPattern.Json.Pattern
import PathPattern.Session
import PathPattern.Template.Writing
import PathPattern.Proofs.Number.Numeral
import PathPattern.Proofs.Template.Scan
import PathPattern.Proofs.Template.Acceptance
import PathPattern.Proofs.Template.RoundTrip
import PathPattern.Proofs.Template.FirstFault
import PathPattern.Proofs.Session.History
import PathPattern.Proofs.Template.Unknown
import PathPattern.Proofs.Session.Events
import PathPattern.Proofs.Template.Seam
import PathPattern.Proofs.Template.Juxtaposition
import PathPattern.Proofs.Node.Footprint
import PathPattern.Proofs.MediaType.Parameters
import PathPattern.Proofs.Node.Address
import PathPattern.Proofs.Node.Selection
import PathPattern.Proofs.Path.Spelling
import PathPattern.Proofs.Keyword.Meaning
import PathPattern.Proofs.Text.CodePoint
import PathPattern.Proofs.Text.LowerCase
import PathPattern.Proofs.Keyword.LetterCase
import PathPattern.Proofs.Node.Constancy
import PathPattern.Proofs.Path.Clean
import PathPattern.Proofs.Template.CleanPath
import PathPattern.Proofs.Node.Rendering
import PathPattern.Proofs.Time.Calendar
import PathPattern.Proofs.Time.Canonical
import PathPattern.Proofs.Time.Rfc3339
import PathPattern.Proofs.Number.Binary64
import PathPattern.Proofs.Json.Number
import PathPattern.Proofs.Json.RoundTrip
import PathPattern.Proofs.Json.Pattern
import PathPattern.Proofs.Time.Zone
import PathPattern.Proofs.Json.TimeText
import PathPattern.Proofs.Json.Grammar
import PathPattern.Proofs.Json.Skipping
import PathPattern.Proofs.Json.Worth
import PathPattern.Proofs.Json.Document
import PathPattern.Proofs.Json.Fields
import PathPattern.Proofs.Json.Members
import PathPattern.Proofs.Json.Decoding
import PathPattern.Proofs.Json.Shown
import PathPattern.Proofs.Json.FirstFault
import PathPattern.Proofs.Yaml.TimeText
import PathPattern.Proofs.Yaml.Flat
import PathPattern.Proofs.Yaml.FlatTime
import PathPattern.Proofs.CommandLine.Telling
import PathPattern.Proofs.CommandLine.Resolving
import PathPattern.Proofs.CommandLine.Inline
import PathPattern.Proofs.Text.UpperCase
import PathPattern.Proofs.Label.Casing
import PathPattern.Proofs.Label.Words
import PathPattern.Proofs.Number.Stamp
import PathPattern.Proofs.Time.Counting
import PathPattern.Proofs.Template.Timestamp
import PathPattern.Proofs.Template.LetterCase
import PathPattern.Proofs.CommandLine.Zones
import PathPattern.Proofs.CommandLine.Json
import PathPattern.Proofs.Node.Shape
