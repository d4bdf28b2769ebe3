import Txei.Machine.Word
import Txei.Machine.Memory
import Txei.Machine.Endian
import Txei.Machine.Program
import Txei.Machine.Flow
import Txei.Machine.Calls
import Txei.Machine.Text
import Txei.Machine.Slice
import Txei.Mei.Driver
import Txei.Mei.SendReceive
import Txei.Mei.Serving
import Txei.Keymaster.Layout
import Txei.Keymaster.Request
import Txei.Keymaster.CommandBounds
import Txei.Keymaster.Response
import Txei.Keymaster.SendCmd
import Txei.Keymaster.Reply
import Txei.Keymaster.Exchange
import Txei.Keymaster.Contract
import Txei.Keymaster.RequestFrame
import Txei.Keymaster.ResponseFrame
import Txei.Keymaster.Capabilities
import Txei.Keymaster.CapsList
import Txei.Keymaster.KeyNumbers
import Txei.Keymaster.KeyBlobs
import Txei.Keymaster.ReplyData
import Txei.Tee.Interface
import Txei.Tee.ProcessCmd
import Txei.Tee.CopySwap
import Txei.Acd.Commands
import Txei.Acd.ReturnValue
import Txei.Acd.DataCommands
import Txei.Acd.Handles
import Txei.Acd.ReadValue
import Txei.Acd.ProvisionValue
import Txei.Acd.ProvisionData
import Txei.Acd.ReplyBounds
import Txei.Ipt.SendMessage
import Txei.Ipt.Status
import Txei.Ipt.Mvfw
import Txei.Ipt.OutData
import Txei.Ipt.ShortReply
import Txei.Ipt.SideBySide
import Txei.Ipt.Sent
import Txei.Ipt.Independence
import Txei.Machine.History
import Txei.Machine.Latch
import Txei.Machine.Ledger
import Txei.Machine.Tidy
import Txei.Machine.SharedSlot
import Txei.Mei.Connections
import Txei.Keymaster.Question
import Txei.Keymaster.Answer
import Txei.Keymaster.Refinement
import Txei.Keymaster.Session
import Txei.Keymaster.Connections
import Txei.Ipt.Connections
import Txei.Ipt.Messages
import Txei.Ipt.Delivery
import Txei.Acd.Requests
import Txei.Acd.Store
import Txei.Iha.Service
import Txei.Iha.Manager
import Txei.Iha.LastError
import Txei.Iha.Lengths
import Txei.Iha.Library
import Txei.Iha.Clients
import Txei.Iha.SharedError
import Txei.MeiMm.Buffer
import Txei.MeiMm.Resources
import Txei.MeiMm.Mapping
import Txei.MeiMm.Copy
import Txei.MeiMm.Dma
import Txei.MeiMm.Contents
import Txei.SecTool.Files
import Txei.SecTool.Main
import Txei.SecTool.ExitStatus
import Txei.SecTool.Transfers
import Txei.SecTool.Numbers
import Txei.Machine.Numeral
import Txei.Machine.Host
import Txei.SecTool.Gpp
import Txei.SecTool.Protection
import Txei.SecTool.FieldFiles
import Txei.SecTool.CommandLine
import Txei.MiscUtils.ReadFile
import Txei.Machine.Triple
import Txei.TxeiLog.Terminate
import Txei.TxeiLog.Message
import Txei.TxeiLog.Buffer
import Txei.TxeiLog.Hex
import Txei.TxeiLog.Compose
import Txei.TxeiLog.Dump
import Txei.TxeiLog.Routing
import Txei.TxeiLog.Output
