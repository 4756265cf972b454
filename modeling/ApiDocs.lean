import ApiDocs.Text.Trim
import ApiDocs.Text.Quoted
import ApiDocs.Text.Case
import ApiDocs.Text.Lines
import ApiDocs.Text.Bytes
import ApiDocs.Comment.Literal
import ApiDocs.Comment.Basic
import ApiDocs.Comment.Token
import ApiDocs.Comment.Declaration
import ApiDocs.Dict
import ApiDocs.Json.Printer
import ApiDocs.Json.Numeral
import ApiDocs.Json.Reader
import ApiDocs.Model.Basic
import ApiDocs.Model.Leftover
import ApiDocs.Model.ChangeEvent
import ApiDocs.Model.Link
import ApiDocs.Model.Encode
import ApiDocs.Model.Decode
import ApiDocs.Tag.Map
import ApiDocs.Tag.Subject
import ApiDocs.Tag.Signature
import ApiDocs.Tag.Collect
import ApiDocs.Diagnostic
import ApiDocs.Session.Basic
import ApiDocs.Session.Target
import ApiDocs.Session.Module
import ApiDocs.Session.Member
import ApiDocs.Session.Block
import ApiDocs.Session.Script
import ApiDocs.Page.Inherited
import ApiDocs.Page.ClassView
import ApiDocs.Page.Highlight
import ApiDocs.Page.Basic
import ApiDocs.Files.Path
import ApiDocs.Files.Tree
import ApiDocs.Files.Spot
import ApiDocs.Files.Disk
import ApiDocs.Files.Glob
import ApiDocs.Cli.Args
import ApiDocs.Cli.Reach
import ApiDocs.Cli.Run
import ApiDocs.Main
import ApiDocs.Proofs.Session.Links
import ApiDocs.Proofs.Session.DerivedEvents
import ApiDocs.Proofs.Page.Ancestors
import ApiDocs.Proofs.Comment.FileMarker
import ApiDocs.Proofs.Comment.Layout
import ApiDocs.Proofs.Model.RoundTrip
import ApiDocs.Proofs.Tag.Collect
import ApiDocs.Proofs.Session.Placing
import ApiDocs.Proofs.Session.OpenModule
import ApiDocs.Proofs.Session.Signatures
import ApiDocs.Proofs.Session.FirstDefinition
import ApiDocs.Proofs.Model.Growth
import ApiDocs.Proofs.Session.Growth
import ApiDocs.Proofs.Model.Attachment
import ApiDocs.Proofs.Session.Listings
import ApiDocs.Proofs.Session.Draining
import ApiDocs.Proofs.Session.MissingClass
import ApiDocs.Proofs.Comment.Tokens
import ApiDocs.Proofs.Session.Commuting
import ApiDocs.Proofs.Session.MajorVersion
import ApiDocs.Proofs.Page.PrivateData
import ApiDocs.Proofs.Comment.Ordinary
import ApiDocs.Proofs.Comment.Renumbering
import ApiDocs.Proofs.Comment.LineByLine
import ApiDocs.Proofs.Comment.QuotedLine
import ApiDocs.Proofs.Session.Accounting
import ApiDocs.Proofs.Text.LowerCase
import ApiDocs.Proofs.Model.FirstValue
import ApiDocs.Proofs.Model.Shadowing
import ApiDocs.Proofs.Session.Separate
import ApiDocs.Proofs.Session.Shadowing
import ApiDocs.Proofs.Session.Origins
import ApiDocs.Proofs.Session.Names
import ApiDocs.Proofs.Session.Nameless
import ApiDocs.Proofs.Session.Submodules
import ApiDocs.Proofs.Cli.FailedRun
import ApiDocs.Proofs.Session.MemberFrame
import ApiDocs.Proofs.Session.Qualified
import ApiDocs.Proofs.Page.ClassPaths
import ApiDocs.Proofs.Text.Trim
import ApiDocs.Proofs.Text.Pattern
import ApiDocs.Proofs.Tag.Signature
import ApiDocs.Proofs.Session.Congruence
import ApiDocs.Proofs.Session.Guessing
import ApiDocs.Proofs.Session.Redirecting
import ApiDocs.Proofs.Text.Decoding
import ApiDocs.Proofs.Comment.Assignment
import ApiDocs.Proofs.Comment.Declaration
import ApiDocs.Proofs.Comment.TagPositions
import ApiDocs.Proofs.Page.Highlighting
import ApiDocs.Proofs.Tag.Values
import ApiDocs.Proofs.Comment.Restoring
import ApiDocs.Proofs.Files.Walk
import ApiDocs.Proofs.Files.FailedWalk
