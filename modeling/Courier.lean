import Courier.Proofs.Client.Chains
import Courier.Proofs.Client.Documents
import Courier.Proofs.Client.Handshakes
import Courier.Proofs.Client.Keys
import Courier.Proofs.Client.Recovery
import Courier.Proofs.Client.Throttling
import Courier.Proofs.Delivery.FlatQueue
import Courier.Proofs.Delivery.Halving
import Courier.Proofs.Delivery.Namesakes
import Courier.Proofs.Delivery.Statuses
import Courier.Proofs.Envelope.Tolerance
import Courier.Proofs.Freshness.Grants
import Courier.Proofs.Group.Acceptance
import Courier.Proofs.Group.Agreement
import Courier.Proofs.Group.Failures
import Courier.Proofs.Group.Healing
import Courier.Proofs.Group.Membership
import Courier.Proofs.Group.Outsiders
import Courier.Proofs.Group.Owner
import Courier.Proofs.Group.Secrecy
import Courier.Proofs.Session.Arrivals
import Courier.Proofs.Session.Contacts
import Courier.Proofs.Session.Failures
import Courier.Proofs.Session.Keeping
import Courier.Proofs.Session.Path
import Courier.Proofs.Session.Retries
import Courier.Proofs.Session.View
import Courier.Proofs.Terminal.Closing
import Courier.Settings.Environment
import Courier.Terminal
import Courier.Transport.Faulty
