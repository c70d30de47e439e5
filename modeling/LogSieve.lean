import LogSieve.Proofs.Placement
import LogSieve.Proofs.Leaves
import LogSieve.Proofs.Schema
import LogSieve.Proofs.Increments
import LogSieve.Proofs.DeliveredLines
import LogSieve.Proofs.Changes
import LogSieve.Session
import LogSieve.Workbench
import LogSieve.Proofs.Files
import LogSieve.Proofs.Json.Printer
import LogSieve.Proofs.Lines
import LogSieve.Proofs.Feed
import LogSieve.Proofs.FileDelivery
import LogSieve.Proofs.Sessions
import LogSieve.Proofs.Filters
import LogSieve.Proofs.Reordering
import LogSieve.Proofs.Gathering
import LogSieve.Proofs.Stowing
import LogSieve.Proofs.NormalForm
import LogSieve.Proofs.Splitting
import LogSieve.Proofs.Consistency
import LogSieve.Proofs.Rearranging
