import Columnar.LittleEndian.Lemmas
import Columnar.Reader
import Columnar.Store.Command
import Columnar.Proofs.Column.Requests
import Columnar.Proofs.Store.Returns
import Columnar.Proofs.Store.Cover
import Columnar.Proofs.Store.Doubling
import Columnar.Proofs.Store.Handover
import Columnar.Proofs.Store.Soundness
import Columnar.Proofs.Store.Splitting
import Columnar.Proofs.Agreement
import Columnar.Proofs.Column.Twins
import Columnar.Proofs.Column.Refusals
import Columnar.Proofs.Column.Commuting
import Columnar.Proofs.Store.Commuting
import Columnar.Proofs.Column.Reports
import Columnar.Proofs.Store.Frame
import Columnar.Proofs.Column.Volume
import Columnar.Proofs.Store.Refused
import Columnar.Proofs.Store.Volume
import Columnar.Proofs.Column.Slotwise
import Columnar.Proofs.Store.Slotwise
import Columnar.Proofs.Store.Breaches
import Columnar.Proofs.Store.Retries
import Columnar.Proofs.Reader
import Columnar.Proofs.Store.Peaks
import Columnar.Proofs.Store.Pieces
import Columnar.Proofs.Store.Reads
import Columnar.Proofs.Store.Views
import Columnar.Proofs.Store.Origin
import Columnar.Proofs.Store.FirstGrowth
import Columnar.Proofs.Store.SlotCopy
import Columnar.Proofs.Store.Powers
import Columnar.Proofs.Store.Ceiling
import Columnar.Proofs.Column.Wide
import Columnar.Proofs.Column.Encoding
import Columnar.Proofs.Store.Longs
import Columnar.Proofs.Store.Renewal
import Columnar.Proofs.Store.Moves
import Columnar.Proofs.Config
import Columnar.Proofs.Bitmap.InPlace
import Columnar.Proofs.Store.Blocks
