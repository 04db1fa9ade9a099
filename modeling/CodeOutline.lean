import CodeOutline.Base64
import CodeOutline.CommandLine.Arguments
import CodeOutline.CommandLine.Command
import CodeOutline.CommandLine.Screen
import CodeOutline.Config.Basic
import CodeOutline.Config.Load
import CodeOutline.Config.Printer
import CodeOutline.Config.Reader
import CodeOutline.Disk
import CodeOutline.Document.Export
import CodeOutline.Document.Generation
import CodeOutline.Document.Prompt
import CodeOutline.Element
import CodeOutline.Environment
import CodeOutline.Http.Exchange
import CodeOutline.Http.Url
import CodeOutline.Ignore.Glob
import CodeOutline.Ignore.Level
import CodeOutline.Ignore.Rules
import CodeOutline.Ignore.User
import CodeOutline.Json.Basic
import CodeOutline.Json.Printer
import CodeOutline.Json.Reader
import CodeOutline.Json.Record
import CodeOutline.Json.Token
import CodeOutline.Language
import CodeOutline.Main
import CodeOutline.Model.Anthropic
import CodeOutline.Model.Basic
import CodeOutline.Model.Chat
import CodeOutline.Model.Provider
import CodeOutline.Outline
import CodeOutline.Outline.Json
import CodeOutline.Outline.OfFile
import CodeOutline.Path
import CodeOutline.Pattern.Basic
import CodeOutline.Pattern.Build
import CodeOutline.Proofs.Pattern.Following
import CodeOutline.Proofs.Pattern.Groups
import CodeOutline.Proofs.Pattern.LineEnds
import CodeOutline.Proofs.Pattern.Margin
import CodeOutline.Proofs.Pattern.Matching
import CodeOutline.Proofs.Pattern.Search
import CodeOutline.Proofs.Pattern.Trailing
import CodeOutline.Proofs.Recognition.Distinct
import CodeOutline.Proofs.Recognition.LineEnds
import CodeOutline.Proofs.Recognition.Passes
import CodeOutline.Proofs.Recognition.Sightings
import CodeOutline.Proofs.Recognition.Translation
import CodeOutline.Proofs.Text.LineIndex
import CodeOutline.Recognition.C
import CodeOutline.Recognition.Go
import CodeOutline.Recognition.Java
import CodeOutline.Recognition.Python
import CodeOutline.Recognition.Script
import CodeOutline.Recognition.Source
import CodeOutline.Repository.Client
import CodeOutline.Repository.Reference
import CodeOutline.Run.Activity
import CodeOutline.Run.Basic
import CodeOutline.Run.Documents
import CodeOutline.Run.Report
import CodeOutline.Run.Sources
import CodeOutline.Scan.Directory
import CodeOutline.Scan.Walk
import CodeOutline.Selection
import CodeOutline.Text.Blank
import CodeOutline.Text.CharRange
import CodeOutline.Text.LineIndex
import CodeOutline.Text.Lowercase
import CodeOutline.Text.Numeral
import CodeOutline.Text.Split
import CodeOutline.Text.Utf16
import CodeOutline.Text.Utf8
import CodeOutline.Text.WordChar
import CodeOutline.Toml.Basic
import CodeOutline.Toml.Reader
import CodeOutline.Toml.Scalar
import CodeOutline.Toml.Text
import CodeOutline.Proofs.Recognition.Arrangement
import CodeOutline.Proofs.Run.Course
import CodeOutline.Proofs.Run.Chronicle
import CodeOutline.Proofs.Run.Conservation
import CodeOutline.Proofs.Base64
import CodeOutline.Proofs.Disk.Change
import CodeOutline.Proofs.Path
import CodeOutline.Proofs.Text.Utf8
import CodeOutline.Proofs.Document.Export
import CodeOutline.Proofs.Run.Exports
import CodeOutline.Proofs.Repository.Contents
import CodeOutline.Proofs.Http.Url
import CodeOutline.Proofs.Repository.Requests
import CodeOutline.Proofs.Run.Abort
import CodeOutline.Proofs.CommandLine.Failure
import CodeOutline.Proofs.Run.Isolation
import CodeOutline.Proofs.Run.Extraction
import CodeOutline.Proofs.Disk.Above
import CodeOutline.Proofs.Disk.Room
import CodeOutline.Proofs.Document.Overlay
import CodeOutline.Proofs.Document.Again
import CodeOutline.Proofs.Document.Lookup
import CodeOutline.Proofs.Ignore.Levels
import CodeOutline.Proofs.Scan.Stability
import CodeOutline.Proofs.Run.Rerun
import CodeOutline.Proofs.Text.Numeral
import CodeOutline.Proofs.Text.Lowercase
import CodeOutline.Proofs.Json.Lexing
import CodeOutline.Proofs.Json.RoundTrip
import CodeOutline.Proofs.Outline.Json
import CodeOutline.Proofs.Run.Dialog
import CodeOutline.Proofs.CommandLine.Extraction
import CodeOutline.Proofs.Config.Layers
import CodeOutline.Proofs.Config.Validity
import CodeOutline.Proofs.Model.Keys
import CodeOutline.Proofs.CommandLine.Precedence
import CodeOutline.Proofs.CommandLine.Spelling
import CodeOutline.Proofs.Language.Offered
import CodeOutline.Proofs.Document.Prompt
import CodeOutline.Proofs.Model.Keyless
import CodeOutline.Proofs.Pattern.Leading
import CodeOutline.Proofs.Recognition.InTurn
import CodeOutline.Proofs.Recognition.C.Grammar
import CodeOutline.Proofs.Recognition.C.Definitions
import CodeOutline.Proofs.Recognition.Java.Methods
import CodeOutline.Proofs.Recognition.Python.Definitions
import CodeOutline.Proofs.Recognition.Go.TypeLines
import CodeOutline.Proofs.Recognition.Go.Functions
import CodeOutline.Proofs.Recognition.Go.Generics
import CodeOutline.Proofs.Recognition.Script.Declarations
import CodeOutline.Proofs.Recognition.Script.Routes
import CodeOutline.Proofs.Document.Confinement
import CodeOutline.Proofs.Text.Decoding
import CodeOutline.Proofs.Outline.OfFile
import CodeOutline.Proofs.Scan.Visit
import CodeOutline.Proofs.Path.Order
import CodeOutline.Proofs.Scan.Reach
import CodeOutline.Proofs.Scan.Listing
import CodeOutline.Proofs.Http.Escapes
import CodeOutline.Proofs.Http.Target
import CodeOutline.Proofs.Http.Service
import CodeOutline.Proofs.Repository.Addresses
import CodeOutline.Proofs.Repository.Decoding
import CodeOutline.Proofs.Repository.References
import CodeOutline.Proofs.Repository.Tree
import CodeOutline.Proofs.Selection.Answers
import CodeOutline.Proofs.Selection.Groups
import CodeOutline.Proofs.Selection.Tree
import CodeOutline.Proofs.Model.Messages
import CodeOutline.Proofs.CommandLine.KeyCheck
import CodeOutline.Proofs.Text.NewlineBytes
