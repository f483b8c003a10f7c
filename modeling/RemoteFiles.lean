import RemoteFiles.Sandbox
import RemoteFiles.Proofs.Call.Logs
import RemoteFiles.Proofs.Call.Records
import RemoteFiles.Proofs.Call.Refusals
import RemoteFiles.Proofs.Call.Secrecy
import RemoteFiles.Proofs.Call.SentQuery
import RemoteFiles.Proofs.Call.Verdict
import RemoteFiles.Proofs.Path.Cleaned
import RemoteFiles.Proofs.Path.Following
import RemoteFiles.Proofs.Query
import RemoteFiles.Proofs.Signature
import RemoteFiles.Proofs.Template.Grammar
import RemoteFiles.Proofs.WireRecords
import RemoteFiles.Proofs.Template.Places
import RemoteFiles.Proofs.Json.Printing
import RemoteFiles.Proofs.WrittenRecords
import RemoteFiles.Proofs.Messages
import RemoteFiles.Proofs.Call.SentHeaders
import RemoteFiles.Proofs.Calendar.Order
import RemoteFiles.Proofs.Text.Number
import RemoteFiles.Proofs.Environment
import RemoteFiles.Proofs.Setup
import RemoteFiles.Proofs.Json.Tokens
import RemoteFiles.Proofs.Call.Numbers
