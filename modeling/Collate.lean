import Collate.Binary64.Written
import Collate.Command.Errand
import Collate.Config.Basic
import Collate.Coverage.Report
import Collate.Coverage.Tool
import Collate.Group
import Collate.Main
import Collate.Toml.Document
import Collate.Proofs.Content
import Collate.Proofs.Interleaving
import Collate.Proofs.Nested
import Collate.Proofs.Reading
import Collate.Proofs.Forms
import Collate.Proofs.Layout
import Collate.Proofs.Config
import Collate.Proofs.Command
import Collate.Proofs.Options
import Collate.Proofs.Text.Gist
import Collate.Proofs.Endings
import Collate.Proofs.Spellings
import Collate.Proofs.Coverage.Lines
import Collate.Proofs.Coverage.Ranking
import Collate.Proofs.Coverage.Report
import Collate.Proofs.Padding
import Collate.Proofs.Rests
import Collate.Proofs.Selection
import Collate.Proofs.Binary64
import Collate.Proofs.Coverage.Tiers
import Collate.Proofs.Acceptance
