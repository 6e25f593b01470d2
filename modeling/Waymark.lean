import Waymark.Buffer
import Waymark.CommandLine
import Waymark.Footer
import Waymark.Heading
import Waymark.Json
import Waymark.Json.Printer
import Waymark.Json.Reader
import Waymark.Log
import Waymark.Main
import Waymark.Note
import Waymark.Number
import Waymark.Options
import Waymark.Proofs.AnchorPlacement
import Waymark.Proofs.Anchored
import Waymark.Proofs.Batches
import Waymark.Proofs.Blocks
import Waymark.Proofs.Commands
import Waymark.Proofs.Contents
import Waymark.Proofs.Convergence
import Waymark.Proofs.Deadlines
import Waymark.Proofs.Draining
import Waymark.Proofs.Edits
import Waymark.Proofs.Exclusions
import Waymark.Proofs.Failures
import Waymark.Proofs.FileTrees
import Waymark.Proofs.FooterEdits
import Waymark.Proofs.FooterPlacement
import Waymark.Proofs.FreshNotes
import Waymark.Proofs.Frontmatter
import Waymark.Proofs.Generated
import Waymark.Proofs.HeadingLines
import Waymark.Proofs.Headings
import Waymark.Proofs.Holding
import Waymark.Proofs.Idempotence
import Waymark.Proofs.Independence
import Waymark.Proofs.JoinedLines
import Waymark.Proofs.LevelSpellings
import Waymark.Proofs.LineEnds
import Waymark.Proofs.LiveHeadings
import Waymark.Proofs.LoneReturns
import Waymark.Proofs.MarkerPartition
import Waymark.Proofs.Markers
import Waymark.Proofs.Mentions
import Waymark.Proofs.Nesting
import Waymark.Proofs.OnlyBlock
import Waymark.Proofs.OptionFields
import Waymark.Proofs.Order
import Waymark.Proofs.Outcome
import Waymark.Proofs.Outline
import Waymark.Proofs.Pieces
import Waymark.Proofs.Placing
import Waymark.Proofs.Recognisers
import Waymark.Proofs.RelativePaths
import Waymark.Proofs.RemovedUnits
import Waymark.Proofs.Renewal
import Waymark.Proofs.Repair
import Waymark.Proofs.Returns
import Waymark.Proofs.Revision
import Waymark.Proofs.RuleLines
import Waymark.Proofs.SectionFamily
import Waymark.Proofs.SectionText
import Waymark.Proofs.Sections
import Waymark.Proofs.Sessions
import Waymark.Proofs.SettingsText
import Waymark.Proofs.SoleAnchor
import Waymark.Proofs.Spans
import Waymark.Proofs.Spellings
import Waymark.Proofs.Splicing
import Waymark.Proofs.Suppression
import Waymark.Proofs.Titling
import Waymark.Proofs.TocEdits
import Waymark.Proofs.TocPlacement
import Waymark.Proofs.Top
import Waymark.Proofs.Units
import Waymark.Proofs.UserContent
import Waymark.Text
import Waymark.Text.Quoted
import Waymark.Toc
import Waymark.Top
import Waymark.Vault.Change
import Waymark.Vault.Feed
import Waymark.Vault.FileTree
import Waymark.Vault.Holder
import Waymark.Vault.Keeper
import Waymark.Vault.Path
import Waymark.Vault.Session
import Waymark.Vault.Settings
import Waymark.Vault.Store
