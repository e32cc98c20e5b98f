import EthernetGateway.Fallible
import EthernetGateway.Medium
import EthernetGateway.Text
import EthernetGateway.Chunks
import EthernetGateway.KeyedList
import EthernetGateway.Image.Format
import EthernetGateway.Image.Media
import EthernetGateway.Image.Layout
import EthernetGateway.Image.Placement
import EthernetGateway.Image.Entry
import EthernetGateway.Image.Disk
import EthernetGateway.Image.Directory
import EthernetGateway.Image.Fs
import EthernetGateway.Image.Mount
import EthernetGateway.Image.Identify
import EthernetGateway.Image.Agreement
import EthernetGateway.Image.Plan
import EthernetGateway.Image.Run
import EthernetGateway.Image.Ownership
import EthernetGateway.Image.Faultless
import EthernetGateway.Image.Lookup
import EthernetGateway.Image.Edited
import EthernetGateway.Image.Frame
import EthernetGateway.Image.Drift
import EthernetGateway.Image.AllOrNothing
import EthernetGateway.Image.Store
import EthernetGateway.Image.Crash
import EthernetGateway.Image.SectorChecks
import EthernetGateway.Image.Blank
import EthernetGateway.Image.Registry
import EthernetGateway.Image.MountList
import EthernetGateway.Image.MountSelection
import EthernetGateway.Serial.PlusEscape
import EthernetGateway.Serial.AtParse
import EthernetGateway.Serial.AtCommand
import EthernetGateway.Serial.AtChain
import EthernetGateway.Machine.Host
import EthernetGateway.Machine.Hdsk
import EthernetGateway.Machine.Datakeeper
import EthernetGateway.Machine.HdskCommands
import EthernetGateway.Machine.HdskRun
import EthernetGateway.Machine.Dcdd
import EthernetGateway.Machine.DcddWrites
import EthernetGateway.Machine.Wd1771
import EthernetGateway.Machine.Floppy
import EthernetGateway.Machine.Tarbell
import EthernetGateway.Machine.Cromemco
import EthernetGateway.Machine.FloppyFlight
import EthernetGateway.Machine.FloppyBoards
import EthernetGateway.Machine.FloppyTransfer
import EthernetGateway.Machine.FloppyReads
import EthernetGateway.Machine.FloppyAnswers
import EthernetGateway.Telnet.GatewayIac
import EthernetGateway.Telnet.GatewayOptions
import EthernetGateway.Telnet.Readers
import EthernetGateway.Telnet.SessionOptions
import EthernetGateway.Terminal.AnsiToPetscii
import EthernetGateway.Terminal.GatewayFilter
import EthernetGateway.Terminal.PetsciiTokens
import EthernetGateway.Terminal.Strippers
import EthernetGateway.Terminal.Titles
import EthernetGateway.Serial.PeerCall
import EthernetGateway.Serial.PeerCallRun
import EthernetGateway.Printer.Sheet
import EthernetGateway.Printer.Page
import EthernetGateway.Printer.Odt
import EthernetGateway.Printer.OdtReading
import EthernetGateway.Printer.OdtEmphasis
import EthernetGateway.Transfer.Line
import EthernetGateway.Transfer.Xmodem
import EthernetGateway.Transfer.XmodemEot
import EthernetGateway.Transfer.XmodemBound
import EthernetGateway.Stepping
import EthernetGateway.Transfer.Zmodem
import EthernetGateway.Transfer.ZmodemReceive
import EthernetGateway.Transfer.ZmodemReceiveBound
import EthernetGateway.Transfer.ZmodemSend
import EthernetGateway.Transfer.ZmodemSendBound
import EthernetGateway.Bytes
import EthernetGateway.Kermit.Dates
import EthernetGateway.Kermit.Quoting
import EthernetGateway.Transfer.Tnio
import EthernetGateway.Transfer.Punter
import EthernetGateway.Transfer.PunterReceive
import EthernetGateway.Utf8
import EthernetGateway.Kermit.Packet
import EthernetGateway.Kermit.SendInit
import EthernetGateway.Kermit.Receive
import EthernetGateway.Kermit.ReceiveArms
import EthernetGateway.Kermit.ReceiveNames
import EthernetGateway.Kermit.ReceiveFiles
import EthernetGateway.Kermit.ReceiveBound
import EthernetGateway.Kermit.Send
import EthernetGateway.Kermit.SendSize
import EthernetGateway.Cpm.Fcb
import EthernetGateway.Cpm.FolderDirectory
import EthernetGateway.Memory
import EthernetGateway.Cpm.Bdos
import EthernetGateway.Claims
import EthernetGateway.Turnover
import EthernetGateway.Sweeping
import EthernetGateway.Access.Lockout
import EthernetGateway.Access.ConnRate
import EthernetGateway.Access.Guesses
import EthernetGateway.Log.Rotation
import EthernetGateway.Log.Sink
import EthernetGateway.Cpm.Writers
import EthernetGateway.Image.Truncation
import EthernetGateway.Words
import EthernetGateway.Relay.Command
import EthernetGateway.Answering
import EthernetGateway.Relay.Registry
