import ModbusServer.Foundation.BinaryIntegers
import ModbusServer.Foundation.CInt
import ModbusServer.Foundation.CText
import ModbusServer.Foundation.CharArray
import ModbusServer.Foundation.Lines
import ModbusServer.Foundation.Loops
import ModbusServer.Foundation.Stores
import ModbusServer.Foundation.Runs
import ModbusServer.Foundation.Transitions
import ModbusServer.Foundation.Slots
import ModbusServer.Foundation.Ownership
import ModbusServer.Foundation.Lifetimes
import ModbusServer.Foundation.Allocation
import ModbusServer.Foundation.StrictJson
import ModbusServer.Foundation.Printf
import ModbusServer.Foundation.BinaryRounding
import ModbusServer.Foundation.DecimalValues
import ModbusServer.Registers.ByteOrder
import ModbusServer.Json.Parser
import ModbusServer.Json.Printed
import ModbusServer.Json.PrintedLines
import ModbusServer.Json.Grammar
import ModbusServer.Json.MemberStrings
import ModbusServer.Json.Memory
import ModbusServer.Json.NumberText
import ModbusServer.Json.Print
import ModbusServer.Json.PrintBuffer
import ModbusServer.Json.RoundTrip
import ModbusServer.Command.Request
import ModbusServer.Command.JsonCommand
import ModbusServer.Command.ProcessJson
import ModbusServer.Command.Bounds
import ModbusServer.Command.Encoding
import ModbusServer.Command.Replies
import ModbusServer.Command.Sessions
import ModbusServer.Command.Simulation
import ModbusServer.Command.ReplyLines
import ModbusServer.Command.Answers
import ModbusServer.Command.BlockWrites
import ModbusServer.Command.Tables
import ModbusServer.Command.Memory
import ModbusServer.Config.Loader
import ModbusServer.Config.Agreement
import ModbusServer.Config.AddressRange
import ModbusServer.Config.Entries
import ModbusServer.Server.MainLoop
import ModbusServer.Server.Blocks
import ModbusServer.Server.Table
import ModbusServer.Server.CommandLines
import ModbusServer.Server.Reconnect
import ModbusServer.Server.Resources
import ModbusServer.Server.Leaks
import ModbusServer.Server.Clients
import ModbusServer.Server.Polling
import ModbusServer.Server.Lifecycle
import ModbusServer.Server.Shutdown
import ModbusServer.Server.RtuLink
import ModbusServer.Server.Device
import ModbusServer.Server.Noninterference
import ModbusServer.Server.RunServer
import ModbusServer.Adapters.Backend
import ModbusServer.Adapters.Tcp
import ModbusServer.Adapters.Rtu
import ModbusServer.Adapters.ClientView
import ModbusServer.Adapters.RtuOwnership
import ModbusServer.Adapters.Session
import ModbusServer.Adapters.Refinement
import ModbusServer.Adapters.Table
import ModbusServer.Platform.ReadStdin
