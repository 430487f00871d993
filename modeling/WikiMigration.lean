import WikiMigration.Action
import WikiMigration.Checksum.Meter
import WikiMigration.Checksum.Sha256
import WikiMigration.Command.Help
import WikiMigration.Command.Parse
import WikiMigration.Command.Session
import WikiMigration.Command.Switch
import WikiMigration.Command.Word
import WikiMigration.Config.Arguments
import WikiMigration.Config.Check
import WikiMigration.Config.Defaults
import WikiMigration.Config.Load
import WikiMigration.Config.Reference
import WikiMigration.Conversion
import WikiMigration.Data.Json
import WikiMigration.Data.Text
import WikiMigration.Data.Value
import WikiMigration.Decimal.Binary64
import WikiMigration.Decimal.Text
import WikiMigration.Dialect
import WikiMigration.Engine
import WikiMigration.Error
import WikiMigration.Files.Fault
import WikiMigration.Files.Operation
import WikiMigration.Files.Tree
import WikiMigration.Files.Walk
import WikiMigration.Html.Clean
import WikiMigration.Html.Entity
import WikiMigration.Html.Escape
import WikiMigration.Html.Node
import WikiMigration.Html.Printer
import WikiMigration.Html.Reference
import WikiMigration.Html.Token
import WikiMigration.Html.Tree
import WikiMigration.Log
import WikiMigration.Main
import WikiMigration.Markdown.AttributeList
import WikiMigration.Markdown.Block
import WikiMigration.Markdown.Definition
import WikiMigration.Markdown.Emphasis
import WikiMigration.Markdown.Fence
import WikiMigration.Markdown.Glyph
import WikiMigration.Markdown.Inline
import WikiMigration.Markdown.Layout
import WikiMigration.Markdown.LetterName
import WikiMigration.Markdown.LinkTarget
import WikiMigration.Markdown.Mark
import WikiMigration.Markdown.Node
import WikiMigration.Markdown.Note
import WikiMigration.Markdown.Page
import WikiMigration.Markdown.RawHtml
import WikiMigration.Markdown.TableRow
import WikiMigration.Markdown.Tag
import WikiMigration.Migration.Attachments
import WikiMigration.Migration.Export
import WikiMigration.Migration.Page
import WikiMigration.Migration.Report
import WikiMigration.Migration.Run
import WikiMigration.Migration.Setup
import WikiMigration.PageContext
import WikiMigration.Path
import WikiMigration.Proofs.Action
import WikiMigration.Proofs.Command.ExitCode
import WikiMigration.Proofs.Command.Parse
import WikiMigration.Proofs.Config.Arguments
import WikiMigration.Proofs.Config.Defaults
import WikiMigration.Proofs.Config.Reference
import WikiMigration.Proofs.Config.Validity
import WikiMigration.Proofs.Data.Entries
import WikiMigration.Proofs.Files.Directories
import WikiMigration.Proofs.Files.Making
import WikiMigration.Proofs.Files.Sight
import WikiMigration.Proofs.Html.Address
import WikiMigration.Proofs.Html.Blocks
import WikiMigration.Proofs.Html.Cleaning
import WikiMigration.Proofs.Html.Forest
import WikiMigration.Proofs.Html.Linked
import WikiMigration.Proofs.Html.Words
import WikiMigration.Proofs.Migration.Accounting
import WikiMigration.Proofs.Migration.Attempt
import WikiMigration.Proofs.Migration.Cleaning
import WikiMigration.Proofs.Migration.Copying
import WikiMigration.Proofs.Migration.DryRun
import WikiMigration.Proofs.Migration.Ending
import WikiMigration.Proofs.Migration.LastStep
import WikiMigration.Proofs.Migration.Outset
import WikiMigration.Proofs.Migration.Passage
import WikiMigration.Proofs.Migration.Release
import WikiMigration.Proofs.Migration.Replication
import WikiMigration.Proofs.Migration.Watched
import WikiMigration.Proofs.Store.Attached
import WikiMigration.Proofs.Store.Canonical
import WikiMigration.Proofs.Store.Chunks
import WikiMigration.Proofs.Store.Deposit
import WikiMigration.Proofs.Store.Filing
import WikiMigration.Proofs.Store.Found
import WikiMigration.Proofs.Store.History
import WikiMigration.Proofs.Store.Lasting
import WikiMigration.Proofs.Store.Likeness
import WikiMigration.Proofs.Store.PageList
import WikiMigration.Proofs.Store.Reach
import WikiMigration.Proofs.Store.Remembered
import WikiMigration.Proofs.Store.Separation
import WikiMigration.Proofs.Store.Session
import WikiMigration.Proofs.Store.Transparency
import WikiMigration.Proofs.Store.Undisturbed
import WikiMigration.Proofs.Text.Lines
import WikiMigration.Proofs.Text.Scan
import WikiMigration.Proofs.Wiki.BarReading
import WikiMigration.Proofs.Wiki.BareBar
import WikiMigration.Proofs.Wiki.Braces
import WikiMigration.Proofs.Wiki.Echo
import WikiMigration.Proofs.Wiki.Element
import WikiMigration.Proofs.Wiki.Escaping
import WikiMigration.Proofs.Wiki.ExternalLink
import WikiMigration.Proofs.Wiki.LineEcho
import WikiMigration.Proofs.Wiki.LinkLine
import WikiMigration.Proofs.Wiki.Literal
import WikiMigration.Proofs.Wiki.Marks
import WikiMigration.Proofs.Wiki.Nesting
import WikiMigration.Proofs.Wiki.PageLink
import WikiMigration.Proofs.Wiki.Prose
import WikiMigration.Proofs.Wiki.Reading
import WikiMigration.Proofs.Wiki.Renaming
import WikiMigration.Proofs.Wiki.Restoring
import WikiMigration.Proofs.Wiki.RowSource
import WikiMigration.Proofs.Wiki.Seam
import WikiMigration.Proofs.Wiki.SpelledMarks
import WikiMigration.Proofs.Wiki.Styled
import WikiMigration.Proofs.Wiki.TableRow
import WikiMigration.Proofs.Wiki.Totality
import WikiMigration.Proofs.Wiki.Twin
import WikiMigration.Proofs.Wiki.Waiting
import WikiMigration.Proofs.Writing.Backslash
import WikiMigration.Proofs.Writing.Blocks
import WikiMigration.Proofs.Writing.Destination
import WikiMigration.Proofs.Writing.Letters
import WikiMigration.Proofs.Writing.LineStart
import WikiMigration.Proofs.Writing.MarkdownTable
import WikiMigration.Proofs.Writing.Plugin
import WikiMigration.Proofs.Writing.Preformatted
import WikiMigration.Proofs.Writing.Prose
import WikiMigration.Proofs.Writing.Tidy
import WikiMigration.Proofs.Writing.WikiCell
import WikiMigration.Proofs.Writing.WikiLink
import WikiMigration.Proofs.Writing.WikiList
import WikiMigration.Proofs.Writing.WikiProse
import WikiMigration.Proofs.Writing.WikiTable
import WikiMigration.Proofs.Yaml.Keys
import WikiMigration.Rendering.Override
import WikiMigration.Store.Attachment
import WikiMigration.Store.Interface
import WikiMigration.Store.Layout
import WikiMigration.Store.Page
import WikiMigration.Store.World
import WikiMigration.Text.Case
import WikiMigration.Text.Lines
import WikiMigration.Text.Printable
import WikiMigration.Text.Quoted
import WikiMigration.Text.Ranges
import WikiMigration.Text.Scan
import WikiMigration.Text.Utf8
import WikiMigration.Text.WordChar
import WikiMigration.Url.Percent
import WikiMigration.Wiki.Block
import WikiMigration.Wiki.Inline
import WikiMigration.Wiki.Link
import WikiMigration.Wiki.Page
import WikiMigration.Wiki.TableRow
import WikiMigration.Writing.Element
import WikiMigration.Writing.Escape
import WikiMigration.Writing.Markdown
import WikiMigration.Writing.Page
import WikiMigration.Writing.Place
import WikiMigration.Writing.Table
import WikiMigration.Writing.Wiki
import WikiMigration.Yaml.Cursor
import WikiMigration.Yaml.Node
import WikiMigration.Yaml.Tag
import WikiMigration.Yaml.Timestamp
import WikiMigration.Yaml.Tokens
import WikiMigration.Yaml.Value
