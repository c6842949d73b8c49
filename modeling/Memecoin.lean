import Memecoin.Refinement
import Memecoin.Solvency
import Memecoin.Rounding
import Memecoin.RoundTrips
import Memecoin.Books
import Memecoin.Lifecycle
import Memecoin.Governance
import Memecoin.Quotes
import Memecoin.Settlement
import Memecoin.Pricing
import Memecoin.Indexer
import Memecoin.Administration
import Memecoin.Driver
import Memecoin.Custody
import Memecoin.Audit
import Memecoin.Interleaving
import Memecoin.Routes
import Memecoin.Pausing
import Memecoin.Progress
import Memecoin.Admission
import Memecoin.Scripts
import Memecoin.Exit
import Memecoin.Donations
