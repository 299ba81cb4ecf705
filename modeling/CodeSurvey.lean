import CodeSurvey.Analysis
import CodeSurvey.Brackets
import CodeSurvey.Calendar
import CodeSurvey.CommandLine.Arguments
import CodeSurvey.CommandLine.Help
import CodeSurvey.CommandLine.Request
import CodeSurvey.CommandLine.Run
import CodeSurvey.Components.Script
import CodeSurvey.Components.Server
import CodeSurvey.Controllers
import CodeSurvey.Decimal.Notation
import CodeSurvey.Decimal.Shortest
import CodeSurvey.Declaration.Class
import CodeSurvey.Declaration.Function
import CodeSurvey.Disk.Basic
import CodeSurvey.Disk.Edit
import CodeSurvey.Document
import CodeSurvey.Event
import CodeSurvey.Extractors
import CodeSurvey.Feature
import CodeSurvey.Glob
import CodeSurvey.Http
import CodeSurvey.Indentation
import CodeSurvey.Json.Bytes
import CodeSurvey.Json.Read
import CodeSurvey.Json.Write
import CodeSurvey.Listing
import CodeSurvey.Location
import CodeSurvey.Main
import CodeSurvey.Manifest
import CodeSurvey.Models.ActiveRecord
import CodeSurvey.Models.Braced
import CodeSurvey.Models.Ecto
import CodeSurvey.Models.Eloquent
import CodeSurvey.Models.EntityFramework
import CodeSurvey.Models.Go
import CodeSurvey.Models.Indented
import CodeSurvey.Models.Jpa
import CodeSurvey.Models.Rust
import CodeSurvey.Models.Script
import CodeSurvey.Pattern.Basic
import CodeSurvey.Pattern.Vocabulary
import CodeSurvey.Proofs.Agreement
import CodeSurvey.Proofs.Attribution
import CodeSurvey.Proofs.Brackets
import CodeSurvey.Proofs.Categories
import CodeSurvey.Proofs.Deletion
import CodeSurvey.Proofs.Detection
import CodeSurvey.Proofs.Disk.Absent
import CodeSurvey.Proofs.Disk.LinkFree
import CodeSurvey.Proofs.Disk.Proper
import CodeSurvey.Proofs.Disk.Related
import CodeSurvey.Proofs.Disk.Removal
import CodeSurvey.Proofs.Disk.Reordered
import CodeSurvey.Proofs.Disk.Restyled
import CodeSurvey.Proofs.Disk.Way
import CodeSurvey.Proofs.Enumeration
import CodeSurvey.Proofs.Exclusion
import CodeSurvey.Proofs.Extractors
import CodeSurvey.Proofs.Failures
import CodeSurvey.Proofs.Fields
import CodeSurvey.Proofs.Flattening
import CodeSurvey.Proofs.Glob
import CodeSurvey.Proofs.LineEnds
import CodeSurvey.Proofs.Lines
import CodeSurvey.Proofs.Listing
import CodeSurvey.Proofs.Location
import CodeSurvey.Proofs.Looks
import CodeSurvey.Proofs.Noninterference
import CodeSurvey.Proofs.Offers
import CodeSurvey.Proofs.Pattern
import CodeSurvey.Proofs.Records
import CodeSurvey.Proofs.Replacement
import CodeSurvey.Proofs.Restyling
import CodeSurvey.Proofs.RustFields
import CodeSurvey.Proofs.RustTypes
import CodeSurvey.Proofs.Scan
import CodeSurvey.Proofs.SeenAlike
import CodeSurvey.Proofs.Session
import CodeSurvey.Proofs.Settings
import CodeSurvey.Proofs.Snapshot
import CodeSurvey.Proofs.Sound
import CodeSurvey.Proofs.Splitting
import CodeSurvey.Proofs.Survey
import CodeSurvey.Proofs.Text
import CodeSurvey.Proofs.Textual
import CodeSurvey.Proofs.Unread
import CodeSurvey.Proofs.Visible
import CodeSurvey.Proofs.Words
import CodeSurvey.Proofs.Workers
import CodeSurvey.Quoted
import CodeSurvey.Record
import CodeSurvey.Root
import CodeSurvey.Routes.DotNet
import CodeSurvey.Routes.Generic
import CodeSurvey.Routes.Go
import CodeSurvey.Routes.Jvm
import CodeSurvey.Routes.Pages
import CodeSurvey.Routes.Path
import CodeSurvey.Routes.Phoenix
import CodeSurvey.Routes.Php
import CodeSurvey.Routes.Python
import CodeSurvey.Routes.Rails
import CodeSurvey.Routes.Rust
import CodeSurvey.Routes.Script
import CodeSurvey.Services
import CodeSurvey.Settings
import CodeSurvey.Snapshot
import CodeSurvey.Source
import CodeSurvey.Stack
import CodeSurvey.Survey
import CodeSurvey.Text.Base64
import CodeSurvey.Text.Basic
import CodeSurvey.Text.Blank
import CodeSurvey.Text.Case
import CodeSurvey.Text.CaseTable
import CodeSurvey.Text.DigitTable
import CodeSurvey.Text.Encoding
import CodeSurvey.Text.Half
import CodeSurvey.Text.InvisibleTable
import CodeSurvey.Text.Lines
import CodeSurvey.Text.Number
import CodeSurvey.Text.Ranges
import CodeSurvey.Text.Shown
import CodeSurvey.Text.Word
import CodeSurvey.Text.WordTable
import CodeSurvey.Toml.Read
import CodeSurvey.Toml.Scalar
import CodeSurvey.Value
import CodeSurvey.Yaml.Atom
import CodeSurvey.Yaml.Cursor
import CodeSurvey.Yaml.Draft
import CodeSurvey.Yaml.Node
import CodeSurvey.Yaml.Read
import CodeSurvey.Yaml.Scalar
import CodeSurvey.Yaml.Schema
import CodeSurvey.Yaml.Tag
import CodeSurvey.Yaml.Token
import CodeSurvey.Proofs.Parameters
import CodeSurvey.Proofs.PageRoutes
import CodeSurvey.Proofs.Abreast
import CodeSurvey.Proofs.ScriptComments
import CodeSurvey.Proofs.Annotations
import CodeSurvey.Proofs.Attributes
import CodeSurvey.Proofs.ClassBodies
import CodeSurvey.Proofs.PythonClasses
import CodeSurvey.Proofs.Sampling
import CodeSurvey.Proofs.Handlers
import CodeSurvey.Proofs.Exports
import CodeSurvey.Proofs.Layouts
import CodeSurvey.Proofs.FirstRoutes
import CodeSurvey.Proofs.Resources
import CodeSurvey.Proofs.PrismaModels
import CodeSurvey.Proofs.Registrations
import CodeSurvey.Proofs.Gaps
import CodeSurvey.Proofs.FeatureNames
import CodeSurvey.Proofs.Headings
import CodeSurvey.Proofs.Mappings
import CodeSurvey.Proofs.Indentation
import CodeSurvey.Proofs.Passes
