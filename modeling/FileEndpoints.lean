import FileEndpoints.AuditLog
import FileEndpoints.CommandLine
import FileEndpoints.Console.Command
import FileEndpoints.Console.Run
import FileEndpoints.Console.Session
import FileEndpoints.Decimal.Layout
import FileEndpoints.Decimal.Nearest
import FileEndpoints.Decimal.Numeral
import FileEndpoints.Decimal.Shortest
import FileEndpoints.Endpoint.Basic
import FileEndpoints.Endpoint.BuiltIn
import FileEndpoints.Endpoint.Eager
import FileEndpoints.Endpoint.Locked
import FileEndpoints.Endpoint.Search
import FileEndpoints.Endpoint.Summary
import FileEndpoints.Error
import FileEndpoints.FileInfo
import FileEndpoints.Json.Basic
import FileEndpoints.Json.Numeral
import FileEndpoints.Json.Reader
import FileEndpoints.Json.Token
import FileEndpoints.Json.Writer
import FileEndpoints.Main
import FileEndpoints.Mounts.Path
import FileEndpoints.Mounts.Plan
import FileEndpoints.Mounts.PlanText
import FileEndpoints.Mounts.Table
import FileEndpoints.Proofs.Containment
import FileEndpoints.Proofs.EagerSteps
import FileEndpoints.Proofs.Expiry
import FileEndpoints.Proofs.FailedRuns
import FileEndpoints.Proofs.Freshness
import FileEndpoints.Proofs.Locks
import FileEndpoints.Proofs.OverlappingWrites
import FileEndpoints.Proofs.RemoteCalls
import FileEndpoints.Proofs.RequestBodies
import FileEndpoints.Proofs.Session
import FileEndpoints.Proofs.SettingsDocuments
import FileEndpoints.Proofs.SettingsHistory
import FileEndpoints.Proofs.SettingsTables
import FileEndpoints.Proofs.SingleSlot
import FileEndpoints.Proofs.SkillHistory
import FileEndpoints.Proofs.SkillStatus
import FileEndpoints.Proofs.SkillSteps
import FileEndpoints.Proofs.TreePaths
import FileEndpoints.Remote.Chat
import FileEndpoints.Remote.Request
import FileEndpoints.Remote.SearchResults
import FileEndpoints.ResponseCache
import FileEndpoints.Services
import FileEndpoints.Settings.Patch
import FileEndpoints.Settings.Secret
import FileEndpoints.Skill.Endpoint
import FileEndpoints.Skill.Status
import FileEndpoints.Skill.Transcript
import FileEndpoints.Text.Blank
import FileEndpoints.Text.CaseTables
import FileEndpoints.Text.Lowercase
import FileEndpoints.Text.Numeral
import FileEndpoints.Text.Utf8
import FileEndpoints.Time.AdjustableClock
import FileEndpoints.Time.Calendar
import FileEndpoints.Time.Instant
import FileEndpoints.Time.Reading
import FileEndpoints.Tree
import FileEndpoints.Window
import FileEndpoints.Yaml.Document
import FileEndpoints.Yaml.Gap
import FileEndpoints.Yaml.Glyph
import FileEndpoints.Yaml.Node
import FileEndpoints.Yaml.Quoting
import FileEndpoints.Yaml.Scalar
import FileEndpoints.Yaml.Tag
import FileEndpoints.Yaml.Token
import FileEndpoints.Yaml.Token.Block
import FileEndpoints.Yaml.Token.Lexer
import FileEndpoints.Yaml.Token.Plain
import FileEndpoints.Yaml.Token.Property
import FileEndpoints.Yaml.Token.Quoted
import FileEndpoints.Yaml.Value
import FileEndpoints.Yaml.Writer
import FileEndpoints.Proofs.FailedWrites
import FileEndpoints.Proofs.LockedRuns
import FileEndpoints.Proofs.MountPoints
import FileEndpoints.Proofs.MountTables
import FileEndpoints.Proofs.SecretConfinement
import FileEndpoints.Proofs.Routing
import FileEndpoints.Proofs.MountAttempts
import FileEndpoints.Proofs.MountChanges
import FileEndpoints.Proofs.ListedPaths
import FileEndpoints.Proofs.RootListing
import FileEndpoints.Proofs.AuditSteps
import FileEndpoints.Proofs.AuditTrail
import FileEndpoints.Proofs.PathAnswers
import FileEndpoints.Proofs.EditableFiles
import FileEndpoints.Proofs.ConsoleRoundTrip
import FileEndpoints.Proofs.MountedSettings
import FileEndpoints.Proofs.ReplyText
import FileEndpoints.Proofs.ResultCounts
import FileEndpoints.Proofs.TriggerPayloads
import FileEndpoints.Proofs.Paging
import FileEndpoints.Proofs.ShownSizes
import FileEndpoints.Proofs.ResultBlocks
import FileEndpoints.Proofs.LineWords
import FileEndpoints.Proofs.CommandGrammar
import FileEndpoints.Proofs.ListingLines
import FileEndpoints.Proofs.LogLines
import FileEndpoints.Proofs.Windows
import FileEndpoints.Proofs.DoubleNumerals
import FileEndpoints.Proofs.StatusDocument
import FileEndpoints.Proofs.ConsoleSessions
