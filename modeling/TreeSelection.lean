import TreeSelection.Config.Store
import TreeSelection.Entry.Listing
import TreeSelection.Explorer.Edit
import TreeSelection.Explorer.View
import TreeSelection.Export.Text
import TreeSelection.Proofs.Config.Persistence
import TreeSelection.Proofs.Exclusion.Listing
import TreeSelection.Proofs.Explorer.Anchoring
import TreeSelection.Proofs.Explorer.Commuting
import TreeSelection.Proofs.Explorer.Exclusion
import TreeSelection.Proofs.Explorer.Forgetting
import TreeSelection.Proofs.Explorer.Parity
import TreeSelection.Proofs.Explorer.Refreshing
import TreeSelection.Proofs.Explorer.Request
import TreeSelection.Proofs.Explorer.Secrets
import TreeSelection.Proofs.Explorer.SelectingAll
import TreeSelection.Proofs.Explorer.Spellings
import TreeSelection.Proofs.Explorer.Toggling
import TreeSelection.Proofs.Export.RoundTrip
import TreeSelection.Proofs.Glob.Cache
import TreeSelection.Proofs.Glob.Cleaning
import TreeSelection.Proofs.Glob.Cut
import TreeSelection.Proofs.Path.Joining
import TreeSelection.Proofs.Repository.Address
import TreeSelection.Proofs.Repository.Display
import TreeSelection.Proofs.Repository.Spelling
import TreeSelection.Proofs.Rows.Search
import TreeSelection.Proofs.Selection.Counting
import TreeSelection.Proofs.Selection.Resolution
import TreeSelection.Proofs.Selection.Subtree
import TreeSelection.Proofs.Tree.Aggregates
import TreeSelection.Proofs.Tree.Draft
import TreeSelection.Proofs.Tree.Finding
import TreeSelection.Proofs.Tree.Insertion
import TreeSelection.Proofs.Tree.Nesting
import TreeSelection.Proofs.Tree.Settling
import TreeSelection.Proofs.Warning
import TreeSelection.Proofs.FileSize
import TreeSelection.Proofs.Rows.Folding
import TreeSelection.Proofs.Explorer.Collapsing
import TreeSelection.Proofs.Entry.Listing
