import Mustache.Filter.Standard
import Mustache.Json.Parser
import Mustache.Render.Basic
import Mustache.Template.Store
import Mustache.Proofs.Template.Nesting
import Mustache.Proofs.Template.Preorder
import Mustache.Proofs.Text.Blanks
import Mustache.Proofs.Text.Occurrence
import Mustache.Proofs.Token.Regions
import Mustache.Proofs.Number.Spelling
import Mustache.Proofs.Expression.Grammar
import Mustache.Proofs.Number.Reflexive
import Mustache.Proofs.Expression.Reading
import Mustache.Proofs.Expression.Equality
import Mustache.Proofs.Number.Printing
import Mustache.Proofs.Expression.Printing
import Mustache.Proofs.Token.Lines
import Mustache.Proofs.Token.Relocation
import Mustache.Proofs.Template.Spelling
import Mustache.Proofs.Template.Subtrees
import Mustache.Proofs.Template.Relocation
import Mustache.Proofs.Template.Joining
import Mustache.Proofs.Template.Delimiters
import Mustache.Proofs.Token.Continuation
import Mustache.Proofs.Template.Faults
import Mustache.Proofs.Data.Members
import Mustache.Proofs.Data.Images
import Mustache.Proofs.Render.Runs
import Mustache.Proofs.Render.Evaluation
import Mustache.Proofs.Render.Labelled
import Mustache.Proofs.Render.Reach
import Mustache.Proofs.Escape
import Mustache.Proofs.Render.Markup
import Mustache.Proofs.Render.Agreement
import Mustache.Proofs.Render.Writing
import Mustache.Proofs.Render.Composition
import Mustache.Proofs.Render.Inheritance
import Mustache.Proofs.Render.Visits
import Mustache.Proofs.Render.Limits
import Mustache.Proofs.Render.SelfContained
import Mustache.Proofs.Render.Chains
import Mustache.Proofs.Render.Dependence
import Mustache.Proofs.Render.Arrivals
import Mustache.Proofs.Render.Indentation
import Mustache.Proofs.Render.Splicing
import Mustache.Proofs.Render.Identity
import Mustache.Proofs.Template.Appended
import Mustache.Proofs.Render.CommentLines
import Mustache.Proofs.Render.LineEnds
import Mustache.Proofs.Token.Progress
import Mustache.Proofs.Template.Positions
import Mustache.Proofs.Token.Standalone
import Mustache.Proofs.Data.Paths
import Mustache.Proofs.Render.Erasure
import Mustache.Proofs.Data.Elements
import Mustache.Proofs.Render.Regions
import Mustache.Proofs.Render.Sections
import Mustache.Proofs.Render.Iteration
import Mustache.Proofs.Render.Transparency
import Mustache.Proofs.Data.Counterparts
import Mustache.Proofs.Token.Spacing
import Mustache.Proofs.Template.Spacing
import Mustache.Proofs.Data.Reordering
import Mustache.Proofs.Render.Merging
import Mustache.Proofs.Render.Reordering
import Mustache.Proofs.Data.Coherence
import Mustache.Proofs.Render.Room
import Mustache.Proofs.Text.Offsets
import Mustache.Proofs.Token.Reader
import Mustache.Proofs.Token.Reading
import Mustache.Proofs.Token.Calls
