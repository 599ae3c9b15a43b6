import Shorthand.Batch
import Shorthand.Command.Run
import Shorthand.Expansion
import Shorthand.Html.Printer
import Shorthand.Json.Reader
import Shorthand.Lint
import Shorthand.Main
import Shorthand.Outline
import Shorthand.Proofs.Encoding
import Shorthand.Proofs.Legibility
import Shorthand.Proofs.LoadedSettings
import Shorthand.Proofs.Nesting
import Shorthand.Proofs.Pointing
import Shorthand.Proofs.Reparsing
import Shorthand.Proofs.Scanning
import Shorthand.Settings.File
import Shorthand.Store
import Shorthand.Text.CellWidth
import Shorthand.Text.Lines
import Shorthand.Text.Utf8
import Shorthand.TreeView
import Shorthand.Value
import Shorthand.Yaml.Printer
import Shorthand.Yaml.Reader
import Shorthand.Proofs.Pass
import Shorthand.Proofs.Insertion
import Shorthand.Proofs.OneLine
import Shorthand.Proofs.Portable
import Shorthand.Proofs.Characters
import Shorthand.Proofs.AllOrNothing
import Shorthand.Proofs.LoneLeaf
import Shorthand.Proofs.WellCut
import Shorthand.Proofs.Composition
import Shorthand.Proofs.Canonical
import Shorthand.Proofs.Indentation
import Shorthand.Proofs.UnclosedNames
import Shorthand.Proofs.SettingsFaults
import Shorthand.Proofs.Octets
import Shorthand.Proofs.Reloading
import Shorthand.Proofs.PlainData
import Shorthand.Proofs.Attributes
import Shorthand.Proofs.CallDepth
import Shorthand.Proofs.Parts
import Shorthand.Proofs.Underscores
import Shorthand.Proofs.Endless
