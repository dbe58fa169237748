import TicketIST.Charges
import TicketIST.Communication
import TicketIST.Connections
import TicketIST.Conversations
import TicketIST.Dialogues
import TicketIST.EventCache
import TicketIST.Failures
import TicketIST.Files
import TicketIST.Firewall
import TicketIST.InStep
import TicketIST.Lib.Serial
import TicketIST.Lib.Threads
import TicketIST.OwnReplies
import TicketIST.RaceWidths
import TicketIST.Relist
import TicketIST.Resale
import TicketIST.Restart
import TicketIST.Strangers
import TicketIST.TicketFormat
import TicketIST.Trades
import TicketIST.Turns
import TicketIST.Wallet
