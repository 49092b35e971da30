import Discourse.Annotation
import Discourse.Chunk
import Discourse.CommandLine.Run
import Discourse.Coreference.GoldLinks
import Discourse.Main
import Discourse.Proofs.FirstFailure
import Discourse.Proofs.Runs
import Discourse.Proofs.Address
import Discourse.Proofs.Text.Words
import Discourse.Proofs.Text.Lines
import Discourse.Proofs.Tree.Legibility
import Discourse.Proofs.Tree.LeafWords
import Discourse.Proofs.Tree.Leaves
import Discourse.Proofs.Chunk.Legality
import Discourse.Proofs.Chunk.Codec
import Discourse.Proofs.Cluster.Run
import Discourse.Proofs.Cluster.Partition
import Discourse.Proofs.Cluster.Incompatibility
import Discourse.Proofs.Cluster.AcronymMemo
import Discourse.Proofs.Cluster.Exchange
import Discourse.Proofs.Cluster.SelfIncompatibility
import Discourse.Proofs.Cluster.Gold
import Discourse.Proofs.GoldLink.Place
import Discourse.Proofs.GoldLink.Turning
import Discourse.Proofs.GoldLink.Linking
import Discourse.Proofs.GoldLink.Closure
import Discourse.Proofs.GoldLink.Grounded
import Discourse.Proofs.GoldLink.Success
import Discourse.Proofs.GoldLink.Normalisation
import Discourse.Proofs.GoldLink.Views
import Discourse.Proofs.Mention.Numbering
import Discourse.Proofs.Mention.Claiming
import Discourse.Proofs.Mention.Registration
import Discourse.Proofs.Mention.Antecedent
import Discourse.Proofs.Mention.Identity
import Discourse.Proofs.Dialogue.Minting
import Discourse.Proofs.Dialogue.Scanning
import Discourse.Proofs.Dialogue.Quoting
import Discourse.Proofs.Dialogue.Naming
import Discourse.Proofs.Dialogue.Reconciliation
import Discourse.Proofs.Dialogue.Conversation
import Discourse.Proofs.Dialogue.Speaking
import Discourse.Proofs.Dialogue.Narration
import Discourse.Proofs.Attribution.Canonical
import Discourse.Proofs.Attribution.Chain
import Discourse.Proofs.Attribution.Readiness
import Discourse.Proofs.Attribution.Interference
import Discourse.Proofs.Attribution.Plain
import Discourse.Proofs.Attribution.Sketch
import Discourse.Proofs.Attribution.Composition
import Discourse.Proofs.Attribution.Entities
import Discourse.Proofs.Attribution.Cast
import Discourse.Proofs.Attribution.Glyphs
import Discourse.Proofs.Attribution.Provenance
import Discourse.Proofs.Attribution.Resumption
import Discourse.Proofs.Attribution.Exhaustion
import Discourse.Proofs.Attribution.Gain
import Discourse.Proofs.Attribution.Tally
import Discourse.Proofs.Attribution.Majority
import Discourse.Proofs.Report.Consistency
import Discourse.Proofs.Preparation.Detection
import Discourse.Proofs.Preparation.Building
import Discourse.Proofs.Mention.StrictTwins
import Discourse.Proofs.Preparation.Analysis
import Discourse.Proofs.Preparation.Outcome
import Discourse.Proofs.Preparation.Safety
import Discourse.Proofs.Column.Decoding
import Discourse.Proofs.Column.Reading
import Discourse.Proofs.Column.LineByLine
import Discourse.Proofs.Column.Concatenation
import Discourse.Proofs.Column.Documents
import Discourse.Proofs.Column.Alignment
import Discourse.Proofs.Dialogue.Transcript
import Discourse.Proofs.Dialogue.Vouching
import Discourse.Proofs.Preparation.Marks
import Discourse.Proofs.Preparation.Acceptance
import Discourse.Proofs.Preparation.Lasting
import Discourse.Proofs.Cluster.FirstMention
import Discourse.Proofs.Cluster.Rewriting
import Discourse.Proofs.Report.Naming
import Discourse.Proofs.CommandLine.Files
import Discourse.Proofs.CommandLine.Reports
import Discourse.Proofs.Preparation.Pairs
import Discourse.Proofs.Mention.TwinPolicies
import Discourse.Proofs.Tree.Grammar
import Discourse.Proofs.Tree.Layout
import Discourse.Proofs.Tree.Heads
import Discourse.Proofs.Mention.DocumentOrder
import Discourse.Proofs.Mention.Indices
import Discourse.Proofs.Relation.Marking
import Discourse.Proofs.Dialogue.Article
import Discourse.Proofs.Attribution.Reference
import Discourse.Proofs.Attribution.Alternation
import Discourse.Proofs.Column.Matching
import Discourse.Proofs.Column.Tagging
import Discourse.Proofs.Mention.Absorption
import Discourse.Proofs.Mention.Detected
import Discourse.Proofs.Dialogue.Paragraphs
import Discourse.Proofs.Attribution.StandIns
import Discourse.Proofs.Attribution.Indexing
import Discourse.Proofs.Attribution.Subjects
import Discourse.Proofs.Attribution.Eligibility
import Discourse.Proofs.Mention.Pointing
import Discourse.Proofs.Text.Wrapping
import Discourse.Proofs.Locating
import Discourse.Proofs.Ascent
import Discourse.Proofs.Attribution.Apart
import Discourse.Proofs.Dialogue.Numbering
