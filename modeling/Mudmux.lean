import Mudmux.Proofs.Disconnect
import Mudmux.Proofs.TurnOrder
import Mudmux.Proofs.InboundData
import Mudmux.Proofs.SlotReuse
import Mudmux.Proofs.SlotRelease
import Mudmux.Proofs.DeliverableInput
import Mudmux.Proofs.EventBatch
import Mudmux.Proofs.QueueStorage
import Mudmux.Proofs.AwaitOwner
import Mudmux.Proofs.CompletionLane
import Mudmux.Proofs.TimerFlags
import Mudmux.Proofs.PollTable
import Mudmux.Proofs.PollCompletions
import Mudmux.Proofs.LineSplitter
import Mudmux.Proofs.FileEof
import Mudmux.Proofs.BusyInput
import Mudmux.Proofs.ClosedConnections
import Mudmux.Proofs.CharTokens
import Mudmux.Proofs.TelnetText
import Mudmux.Proofs.UpgradeRequest
import Mudmux.Proofs.Utf8
import Mudmux.Proofs.FlushFlag
import Mudmux.Proofs.PingPong
import Mudmux.Proofs.ThreadPool
import Mudmux.Proofs.SlotRules
import Mudmux.Async.Event
