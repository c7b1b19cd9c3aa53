import LanguageClient.Main
import LanguageClient.Proofs.Command.Chain
import LanguageClient.Proofs.Connection.Outcomes
import LanguageClient.Proofs.Frame.RoundTrip
import LanguageClient.Proofs.Session.Deliveries
import LanguageClient.Proofs.Session.Serial
import LanguageClient.Proofs.Session.Standing
import LanguageClient.Proofs.Session.Endings
import LanguageClient.Proofs.Session.Origins
import LanguageClient.Proofs.Session.AfterStop
import LanguageClient.Proofs.Client.Attempts
import LanguageClient.Proofs.Session.Reuse
import LanguageClient.Proofs.Connection.Wire
import LanguageClient.Proofs.Connection.Framed
import LanguageClient.Proofs.Client.Opening
import LanguageClient.Proofs.Client.Farewell
import LanguageClient.Proofs.Connection.Pieces
import LanguageClient.Proofs.Session.Waiting
import LanguageClient.Proofs.Session.Reactions
import LanguageClient.Proofs.Session.Losses
import LanguageClient.Proofs.Frame.Unannounced
import LanguageClient.Proofs.VirtualDocument.Provider
import LanguageClient.Proofs.VirtualDocument.Ways
import LanguageClient.Proofs.Session.Equipment
import LanguageClient.Proofs.Connection.Unanswered
import LanguageClient.Proofs.Connection.Closing
import LanguageClient.Proofs.Connection.Faults
import LanguageClient.Proofs.Message.Classified
import LanguageClient.Proofs.Connection.Settling
import LanguageClient.Proofs.VirtualDocument.Forms
import LanguageClient.Proofs.VirtualDocument.Showing
import LanguageClient.Proofs.Client.Reports
import LanguageClient.Proofs.VirtualDocument.Subscribers
import LanguageClient.Proofs.Progress.SingleTask
import LanguageClient.Proofs.Terminal.Deactivation
import LanguageClient.Proofs.Terminal.VirtualTime
