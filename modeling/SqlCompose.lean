import SqlCompose.Page
import SqlCompose.Session
import SqlCompose.Table
import SqlCompose.Proofs.Calls
import SqlCompose.Proofs.Document
import SqlCompose.Proofs.Envelope
import SqlCompose.Proofs.FirstFault
import SqlCompose.Proofs.Paging
import SqlCompose.Proofs.RoundTrip
import SqlCompose.Proofs.Session
import SqlCompose.Proofs.Table
import SqlCompose.Proofs.Order.Pass
import SqlCompose.Proofs.Placeholder.NameFree
import SqlCompose.Proofs.Composer.Balance
import SqlCompose.Proofs.Composer.Dialects
import SqlCompose.Proofs.Composer.Fragments
import SqlCompose.Proofs.Composer.Joins
import SqlCompose.Proofs.Composer.Names
import SqlCompose.Proofs.Composer.Outcome
import SqlCompose.Proofs.Composer.Raised
import SqlCompose.Proofs.Composer.Trimmed
import SqlCompose.Proofs.Composer.Values
import SqlCompose.Proofs.Composer.Window
import SqlCompose.Proofs.View.Cycle
import SqlCompose.Proofs.View.Extension
import SqlCompose.Proofs.View.Listing
import SqlCompose.Proofs.View.Order
import SqlCompose.Proofs.Order.Reversal
import SqlCompose.Proofs.Composer.Paged
