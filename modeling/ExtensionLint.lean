import ExtensionLint.Annotations
import ExtensionLint.Asset.Check
import ExtensionLint.Asset.Reference
import ExtensionLint.Catalog
import ExtensionLint.Code
import ExtensionLint.CommandLine.Invocation
import ExtensionLint.CommandLine.Options
import ExtensionLint.CommandLine.Rendering
import ExtensionLint.CommandLine.Run
import ExtensionLint.Compatibility.Check
import ExtensionLint.Compatibility.Support
import ExtensionLint.Configuration.Basic
import ExtensionLint.Configuration.File
import ExtensionLint.Diagnostic
import ExtensionLint.FileSystem.Basic
import ExtensionLint.FileSystem.Path
import ExtensionLint.FileSystem.Tree
import ExtensionLint.FileTree
import ExtensionLint.Image.Basic
import ExtensionLint.Image.Header
import ExtensionLint.Image.Raster
import ExtensionLint.Image.Svg
import ExtensionLint.Issue.Basic
import ExtensionLint.Issue.Classification
import ExtensionLint.Json.Basic
import ExtensionLint.Json.Decode
import ExtensionLint.Json.Literal
import ExtensionLint.Json.Path
import ExtensionLint.Json.Pointer
import ExtensionLint.Json.Printer
import ExtensionLint.Json.Reading
import ExtensionLint.Json.Strict
import ExtensionLint.Json.Tolerant
import ExtensionLint.Linter
import ExtensionLint.Log
import ExtensionLint.Main
import ExtensionLint.Manifest.Basic
import ExtensionLint.Manifest.Metadata
import ExtensionLint.Numeric.Binary64
import ExtensionLint.Numeric.Decimal
import ExtensionLint.Numeric.Shortest
import ExtensionLint.Ordered
import ExtensionLint.Package.Basic
import ExtensionLint.Package.Memory
import ExtensionLint.Package.Path
import ExtensionLint.Policy
import ExtensionLint.Proofs.Codes
import ExtensionLint.Proofs.Log
import ExtensionLint.Proofs.MissingFiles
import ExtensionLint.Proofs.Normalization
import ExtensionLint.Proofs.PackagePath
import ExtensionLint.Proofs.PermissionItems
import ExtensionLint.Proofs.Pointer
import ExtensionLint.Proofs.Precedence
import ExtensionLint.Proofs.References
import ExtensionLint.Proofs.Run
import ExtensionLint.Proofs.ScriptSources
import ExtensionLint.Rule.All
import ExtensionLint.Rule.Context
import ExtensionLint.Rule.Files
import ExtensionLint.Rule.Identity
import ExtensionLint.Rule.Locales
import ExtensionLint.Schema.Basic
import ExtensionLint.Schema.Configuration
import ExtensionLint.Schema.Manifest
import ExtensionLint.SecurityPolicy
import ExtensionLint.Template
import ExtensionLint.Text.Alphanumeric
import ExtensionLint.Text.Ascii
import ExtensionLint.Text.Blank
import ExtensionLint.Text.Pieces
import ExtensionLint.Text.Utf8
import ExtensionLint.Version
import ExtensionLint.Proofs.History
import ExtensionLint.Proofs.SupportWalk
import ExtensionLint.Proofs.SupportWarnings
import ExtensionLint.Proofs.Members
import ExtensionLint.Proofs.KnownKeys
import ExtensionLint.Proofs.LegacySettings
import ExtensionLint.Proofs.UnknownKeys
import ExtensionLint.Proofs.Scheduling
import ExtensionLint.Proofs.Waivers
import ExtensionLint.Proofs.ChunkedReading
import ExtensionLint.Proofs.FileTree
import ExtensionLint.Proofs.Storage
import ExtensionLint.Proofs.VersionOrder
import ExtensionLint.Proofs.Findings
import ExtensionLint.Proofs.Filling
import ExtensionLint.Proofs.Privileges
import ExtensionLint.Proofs.NumberValue
import ExtensionLint.Proofs.DeclaredVersion
import ExtensionLint.Proofs.DeclaredIdentity
import ExtensionLint.Proofs.RaisedMinimum
import ExtensionLint.Proofs.Acceptance
import ExtensionLint.Proofs.SoundValues
import ExtensionLint.Proofs.Decoding
import ExtensionLint.Proofs.ReaderSoundness
import ExtensionLint.Proofs.ConfigurationLoading
import ExtensionLint.Proofs.TokenScanning
import ExtensionLint.Proofs.WrittenText
import ExtensionLint.Proofs.Encoding
import ExtensionLint.Proofs.SavedConfiguration
import ExtensionLint.Proofs.WrittenPointers
import ExtensionLint.Proofs.AnnotationPaths
import ExtensionLint.Proofs.ImageVerdicts
import ExtensionLint.Proofs.PermissionGates
import ExtensionLint.Proofs.ReadableFiles
import ExtensionLint.Proofs.EarlyAnswers
import ExtensionLint.Proofs.LeadingComments
import ExtensionLint.Proofs.TemplatePieces
import ExtensionLint.Proofs.PolicyWording
import ExtensionLint.Proofs.PlatformFindings
import ExtensionLint.Proofs.PolicyLoosening
import ExtensionLint.Proofs.RestrictedPermissions
import ExtensionLint.Proofs.SupportData
import ExtensionLint.Proofs.MajorNumbers
import ExtensionLint.Proofs.VersionFormat
import ExtensionLint.Proofs.Identifiers
import ExtensionLint.Proofs.Localizations
import ExtensionLint.Proofs.IconDeclarations
import ExtensionLint.Proofs.PromotedSettings
import ExtensionLint.Proofs.PointerWalks
import ExtensionLint.Proofs.IssuePaths
import ExtensionLint.Proofs.PolicyExtension
import ExtensionLint.Proofs.PackageListing
import ExtensionLint.Proofs.LeadingSegments
import ExtensionLint.Proofs.TagAttributes
import ExtensionLint.Proofs.Lists
import ExtensionLint.Proofs.VersionParts
