import NoteIndex.Data.Double
import NoteIndex.Data.Json
import NoteIndex.Data.Layer
import NoteIndex.Data.Toml.Parser
import NoteIndex.Data.Toml.Scalar
import NoteIndex.Data.Toml.Table
import NoteIndex.Data.Value
import NoteIndex.Disk
import NoteIndex.Failure
import NoteIndex.Glob.Basic
import NoteIndex.Glob.Parser
import NoteIndex.Glob.Shape
import NoteIndex.Ignore
import NoteIndex.Log
import NoteIndex.Markup.Code
import NoteIndex.Markup.Element
import NoteIndex.Markup.Heading
import NoteIndex.Markup.InlineLink
import NoteIndex.Markup.Label
import NoteIndex.Markup.Scan
import NoteIndex.Markup.Slug
import NoteIndex.Markup.WikiLink
import NoteIndex.Navigation.Query
import NoteIndex.Navigation.Search
import NoteIndex.Navigation.Target
import NoteIndex.Path.Basic
import NoteIndex.Path.Resolve
import NoteIndex.Server.Capabilities
import NoteIndex.Server.Message
import NoteIndex.Server.Session
import NoteIndex.Settings
import NoteIndex.Start
import NoteIndex.Text.Alphanumeric
import NoteIndex.Text.Blank
import NoteIndex.Text.CaseTable
import NoteIndex.Text.Field
import NoteIndex.Text.Line
import NoteIndex.Text.Lowercase
import NoteIndex.Text.Percent
import NoteIndex.Text.Position
import NoteIndex.Text.Utf8
import NoteIndex.Uri.Basic
import NoteIndex.Uri.Parser
import NoteIndex.Workspace.Basic
import NoteIndex.Workspace.Document
import NoteIndex.Workspace.Event
import NoteIndex.Workspace.Folder
import NoteIndex.Proofs.Path.Join
import NoteIndex.Proofs.Disk.Walk
import NoteIndex.Proofs.Workspace.Change
import NoteIndex.Proofs.Workspace.Coherence
import NoteIndex.Proofs.Workspace.Run
import NoteIndex.Proofs.Workspace.Buffer
import NoteIndex.Proofs.Navigation.References
import NoteIndex.Proofs.Workspace.Scan
import NoteIndex.Proofs.Markup.Place
import NoteIndex.Proofs.Navigation.Duality
import NoteIndex.Proofs.Workspace.Reconcile
import NoteIndex.Proofs.Workspace.Admission
import NoteIndex.Proofs.Disk.Spelling
import NoteIndex.Proofs.Workspace.Frame
import NoteIndex.Proofs.Workspace.Closing
import NoteIndex.Proofs.Markup.Line
import NoteIndex.Proofs.Markup.Order
import NoteIndex.Proofs.Markup.Fence
import NoteIndex.Proofs.Markup.LoneLink
import NoteIndex.Proofs.Workspace.Footprint
import NoteIndex.Proofs.Path.Key
import NoteIndex.Proofs.Text.Lowercase
import NoteIndex.Proofs.Navigation.LinkSpelling
import NoteIndex.Proofs.Text.Line
import NoteIndex.Proofs.Workspace.Replacement
import NoteIndex.Proofs.Text.Utf8
import NoteIndex.Proofs.Text.Percent
import NoteIndex.Proofs.Navigation.EscapedLink
import NoteIndex.Proofs.Path.Resolve
import NoteIndex.Proofs.Path.RelativeLink
import NoteIndex.Proofs.Navigation.Creation
import NoteIndex.Proofs.Markup.Extent
import NoteIndex.Proofs.Navigation.NameLookup
import NoteIndex.Proofs.Navigation.Definitions
import NoteIndex.Proofs.Markup.Locality
import NoteIndex.Proofs.Navigation.Declarations
import NoteIndex.Proofs.Markup.Visibility
import NoteIndex.Proofs.Markup.Distance
import NoteIndex.Proofs.Markup.Search
import NoteIndex.Proofs.Text.Trim
import NoteIndex.Proofs.Markup.WikiLink
import NoteIndex.Proofs.Markup.Heading
import NoteIndex.Proofs.Markup.Shortcut
import NoteIndex.Proofs.Navigation.LabelDefinitions
import NoteIndex.Proofs.Markup.Cursor
import NoteIndex.Proofs.Markup.Brackets
import NoteIndex.Proofs.Workspace.Batch
import NoteIndex.Proofs.Glob.Matching
import NoteIndex.Proofs.Glob.Parser
import NoteIndex.Proofs.Ignore.Line
import NoteIndex.Proofs.Ignore.Starts
import NoteIndex.Proofs.Ignore.TrailingSlash
import NoteIndex.Proofs.Ignore.Defaults
import NoteIndex.Proofs.Ignore.LineOrder
import NoteIndex.Proofs.Text.Word
import NoteIndex.Proofs.Text.Letter
import NoteIndex.Proofs.Markup.SlugWords
import NoteIndex.Proofs.Navigation.AnchorSlug
import NoteIndex.Proofs.Markup.LabelWords
import NoteIndex.Proofs.Text.Clamp
import NoteIndex.Proofs.Workspace.EditRange
