import SelectQuery.Dialect.Registry
import SelectQuery.Query.Build
import SelectQuery.Proofs.Agreement
import SelectQuery.Proofs.Meaning
import SelectQuery.Proofs.Placeholder
import SelectQuery.Proofs.Recovery
import SelectQuery.Proofs.Binding
import SelectQuery.Proofs.Companion
import SelectQuery.Proofs.Registration
import SelectQuery.Proofs.Session
import SelectQuery.Proofs.Strings
import SelectQuery.Proofs.Documents
import SelectQuery.Proofs.Ceiling
import SelectQuery.Proofs.Quotation
import SelectQuery.Proofs.Ledger
import SelectQuery.Proofs.Interchange
import SelectQuery.Proofs.Paging
import SelectQuery.Proofs.Literal
import SelectQuery.Proofs.Separation
import SelectQuery.Proofs.Report
import SelectQuery.Proofs.Equality
import SelectQuery.Proofs.Listing
import SelectQuery.Proofs.Naming
