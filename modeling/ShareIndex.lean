import ShareIndex.CommandLine.Launch
import ShareIndex.CommandLine.Machine
import ShareIndex.Main
import ShareIndex.Share.Counter
import ShareIndex.Store.Faulty
import ShareIndex.Proofs.Repository.History
import ShareIndex.Proofs.Repository.Counting
import ShareIndex.Proofs.Repository.Prune
import ShareIndex.Proofs.Repository.Pruning
import ShareIndex.Proofs.Repository.Follower
import ShareIndex.Proofs.FilePath.Entry
import ShareIndex.Proofs.Folder.Conversion
import ShareIndex.Proofs.Index.Pool
import ShareIndex.Proofs.Index.Scan
import ShareIndex.Proofs.Index.Cycle
import ShareIndex.Proofs.Repository.Sparing
import ShareIndex.Proofs.Index.Retention
import ShareIndex.Proofs.Index.Completeness
import ShareIndex.Proofs.Repository.Reorder
import ShareIndex.Proofs.Index.Determinism
import ShareIndex.Proofs.Store.Equivalence
import ShareIndex.Proofs.Store.Enumeration
import ShareIndex.Proofs.Index.Dump
import ShareIndex.Proofs.Index.Delivery
import ShareIndex.Proofs.CommandLine.Course
import ShareIndex.Proofs.Store.Tally
import ShareIndex.Proofs.Store.Lifetime
import ShareIndex.Proofs.Repository.Residue
import ShareIndex.Proofs.Index.Exclusion
import ShareIndex.Proofs.Repository.Vacancy
import ShareIndex.Proofs.CommandLine.Admission
import ShareIndex.Proofs.Store.Increment
import ShareIndex.Proofs.Store.Splitting
import ShareIndex.Proofs.Index.Schedule
import ShareIndex.Proofs.Folder.FrontMatter
import ShareIndex.Proofs.Text.Markup
import ShareIndex.Proofs.Folder.Address
import ShareIndex.Proofs.Folder.Page
import ShareIndex.Proofs.FileTree.Alike
import ShareIndex.Proofs.Folder.Offering
import ShareIndex.Proofs.Index.Offering
import ShareIndex.Proofs.Repository.Separation
import ShareIndex.Proofs.Repository.Retry
import ShareIndex.Proofs.Config.Loading
