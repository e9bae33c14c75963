import ExnGs.Shared.RouterFraming
import ExnGs.Shared.StringPayload
import ExnGs.Shared.PusAgreement
import ExnGs.Sim.Reporting
import ExnGs.IpcReaders
import ExnGs.IpcWriters
import ExnGs.IpcLiveness
import ExnGs.LinkReports
import ExnGs.GsdctlReplies
import ExnGs.Daemon.Reception
import ExnGs.Daemon.LinkErrors
import ExnGs.Daemon.Statistics
import ExnGs.Sim.Downlink
import ExnGs.Isolation
import ExnGs.Shared.MetaPayload
import ExnGs.Daemon.StateHistory
import ExnGs.Daemon.DeviceUri
import ExnGs.Daemon.PacketLog
import ExnGs.Sim.RingQueue
import ExnGs.Ui.Reconnection
import ExnGs.Daemon.WriteOrder
import ExnGs.Daemon.Announcements
import ExnGs.Sim.Simulator
import ExnGs.Daemon.LinkRefinement
import ExnGs.Ui.PacketTable
import ExnGs.ClientTables
import ExnGs.Uplink
import ExnGs.SystemHk
import ExnGs.Daemon.Ledger
import ExnGs.Hazards
import ExnGs.RoundTrip
