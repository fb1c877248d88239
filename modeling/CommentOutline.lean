import CommentOutline.Comment.Scan
import CommentOutline.CommandLine.Run
import CommentOutline.Config.Source
import CommentOutline.Document
import CommentOutline.Html.Page
import CommentOutline.Main
import CommentOutline.Outline.Builder
import CommentOutline.Outline.Export
import CommentOutline.Outline.Rendering
import CommentOutline.Proofs.Outline.Unfolding
import CommentOutline.Proofs.Outline.Visibility
import CommentOutline.Proofs.Provider.Provenance
import CommentOutline.Provider.Host
import CommentOutline.Toml.Document
import CommentOutline.Proofs.Outline.Frozen
import CommentOutline.Proofs.Outline.ReadBack
import CommentOutline.Proofs.Provider.Ledger
import CommentOutline.Proofs.Json.Lexemes
import CommentOutline.Proofs.Json.RoundTrip
import CommentOutline.Proofs.Outline.Exchange
import CommentOutline.Proofs.Html.Tags
import CommentOutline.Proofs.Outline.Positions
import CommentOutline.Proofs.Provider.Editing
import CommentOutline.Proofs.Outline.Identity
import CommentOutline.Proofs.Outline.Sharing
import CommentOutline.Proofs.Provider.Refusal
import CommentOutline.Proofs.Outline.DocumentOrder
import CommentOutline.Proofs.Comment.Written
import CommentOutline.Proofs.Comment.Bodiless
import CommentOutline.Proofs.Provider.Registration
import CommentOutline.Proofs.Text.Layout
import CommentOutline.Proofs.Document.Stored
import CommentOutline.Proofs.Html.Unambiguous
import CommentOutline.Proofs.Provider.Legible
import CommentOutline.Proofs.Outline.Growth
import CommentOutline.Proofs.Config.Layers
import CommentOutline.Proofs.Config.Overrides
import CommentOutline.Proofs.CommandLine.Delivery
import CommentOutline.Proofs.Outline.Traversals
import CommentOutline.Proofs.Config.Discovery
import CommentOutline.Proofs.Toml.Distinct
import CommentOutline.Proofs.Config.Distinct
import CommentOutline.Proofs.CommandLine.Display
