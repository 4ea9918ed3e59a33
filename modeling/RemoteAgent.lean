import RemoteAgent.Link.Shared
import RemoteAgent.Main
import RemoteAgent.Sample
import RemoteAgent.Transport.Receivers
import RemoteAgent.Transport.Scripted
import RemoteAgent.Transport.Unconnected
import RemoteAgent.Proofs.Requests
import RemoteAgent.Proofs.SampleConduct
import RemoteAgent.Proofs.Replay
import RemoteAgent.Proofs.Independence
import RemoteAgent.Proofs.Silence
import RemoteAgent.Proofs.Writer
import RemoteAgent.Proofs.Exchange
import RemoteAgent.Proofs.Contention
import RemoteAgent.Proofs.LateAcknowledgments
import RemoteAgent.Proofs.RoundTrip
import RemoteAgent.Proofs.Grammar
import RemoteAgent.Proofs.Disconnection
import RemoteAgent.Proofs.Halting
import RemoteAgent.Proofs.TransportUse
import RemoteAgent.Proofs.Reconnects
import RemoteAgent.Proofs.Reopenings
import RemoteAgent.Proofs.ReconnectBudget
import RemoteAgent.Proofs.RunEnds
import RemoteAgent.Proofs.Placeholders
import RemoteAgent.Proofs.Pauses
import RemoteAgent.Proofs.RetriesEnd
import RemoteAgent.Proofs.Unacknowledged
import RemoteAgent.Proofs.Numerals
import RemoteAgent.Proofs.Inspection
import RemoteAgent.Proofs.Naming
import RemoteAgent.Proofs.Quotation
import RemoteAgent.Proofs.AttemptCounter
import RemoteAgent.Proofs.Settings
import RemoteAgent.Proofs.Hexadecimal
import RemoteAgent.Proofs.SingleLines
import RemoteAgent.Proofs.Addresses
import RemoteAgent.Proofs.Comparison
import RemoteAgent.Proofs.Descriptions
