import OpenHop.Companion.AdvertReplay
import OpenHop.Companion.ChannelKeys
import OpenHop.Companion.ChannelSlots
import OpenHop.Companion.CommandAnswers
import OpenHop.Companion.Confirmation
import OpenHop.Companion.ContactPaths
import OpenHop.Companion.FrameClients
import OpenHop.Companion.GroupEcho
import OpenHop.Companion.KeyImport
import OpenHop.Companion.LoginDiversion
import OpenHop.Companion.OfflineQueue
import OpenHop.Companion.RawPacket
import OpenHop.Companion.SeenCache
import OpenHop.Companion.SendScope
import OpenHop.Hardware.FrameBursts
import OpenHop.Hardware.KissPending
import OpenHop.Hardware.KissSerial
import OpenHop.Hardware.KissTransmit
import OpenHop.Hardware.Sx1262Completion
import OpenHop.Hardware.Sx1262TxBusy
import OpenHop.Hardware.WsRadio
import OpenHop.Node.AnonLimiter
import OpenHop.Node.EventService
import OpenHop.Node.RepeatChain
import OpenHop.Node.ReturnTeaching
import OpenHop.Node.SignalMetrics
import OpenHop.Node.TraceNetwork
import OpenHop.Node.TxBudget
import OpenHop.Protocol.FilterMaintenance
import OpenHop.RfFabric.FabricRadio
