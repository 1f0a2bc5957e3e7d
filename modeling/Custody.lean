import Custody.Bytes.Lemmas
import Custody.Proofs.Assets
import Custody.Proofs.Config
import Custody.Proofs.Digest
import Custody.Proofs.Envelope.RoundTrip
import Custody.Proofs.Manager.Confinement
import Custody.Proofs.Manager.Discipline
import Custody.Proofs.Manager.Gathering
import Custody.Proofs.Manager.Naming
import Custody.Proofs.Manager.Noninterference
import Custody.Proofs.Manager.Order
import Custody.Proofs.Manager.Readback
import Custody.Proofs.Manager.Scanning
import Custody.Proofs.Manager.Selecting
import Custody.Proofs.Manager.Signing
import Custody.Proofs.Manager.Window
import Custody.Proofs.Site.Durability
import Custody.Proofs.Site.Exclusion
import Custody.Proofs.Timeout.Arithmetic
import Custody.Proofs.Wallet.Atomicity
import Custody.Site
import Custody.Suite.Standard
import Custody.Wallet.Device
