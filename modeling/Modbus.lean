import Modbus.Bytes
import Modbus.Crc16
import Modbus.Table
import Modbus.Text.Utf8
import Modbus.Text.Display
import Modbus.Number.Rounding
import Modbus.Number.Double
import Modbus.Number.Single
import Modbus.Frame.Error
import Modbus.Frame.Basic
import Modbus.Frame.Session
import Modbus.Command
import Modbus.Request
import Modbus.Receiver
import Modbus.Register.Format
import Modbus.Register.Descriptor
import Modbus.Register.Value
import Modbus.Register.Reading
import Modbus.Register.History
import Modbus.Json.Number
import Modbus.Json.Basic
import Modbus.Json.Token
import Modbus.Json.Doc
import Modbus.Json.Reader
import Modbus.Config.Fault
import Modbus.Config.Shape
import Modbus.Config.Form
import Modbus.Map.AddressRange
import Modbus.Map.Error
import Modbus.Map.DeviceMap
import Modbus.Map.Loader
import Modbus.Poll
import Modbus.Proofs.Frame.Reading
import Modbus.Proofs.Reply.Layout
import Modbus.Proofs.Reply.Fields
import Modbus.Proofs.Reply.Acceptance
import Modbus.Proofs.Reply.Grammar
import Modbus.Proofs.Reply.Unambiguous
import Modbus.Proofs.Receiver.Independence
import Modbus.Proofs.Receiver.Checked
import Modbus.Proofs.Receiver.Diagnosis
import Modbus.Proofs.Crc.Detection
import Modbus.Proofs.Frame.Writing
import Modbus.Proofs.Request.Layout
import Modbus.Proofs.Request.Reading
import Modbus.Proofs.Register.Interpretation
import Modbus.Proofs.Register.Queue
import Modbus.Proofs.Register.Retention
import Modbus.Proofs.Map.Separation
import Modbus.Proofs.Map.Loading
import Modbus.Proofs.Map.Usable
import Modbus.Proofs.Map.Documents
import Modbus.Proofs.Json.Alike
import Modbus.Proofs.Config.Agreement
import Modbus.Proofs.Crc.Division
import Modbus.Proofs.Map.Order
import Modbus.Proofs.Poll.Isolation
import Modbus.Proofs.Json.RoundTrip
import Modbus.Proofs.Config.RoundTrip
import Modbus.Proofs.Frame.Actions
import Modbus.Proofs.Frame.RoundTrip
import Modbus.Proofs.Frame.Safety
import Modbus.Proofs.Frame.Failure
import Modbus.Proofs.Request.Collecting
import Modbus.Proofs.Request.Truncation
import Modbus.Proofs.Config.Reordering
import Modbus.Proofs.Map.Registers
import Modbus.Proofs.Text.Utf8
import Modbus.Proofs.Map.Directories
import Modbus.Proofs.Number.Rounding
import Modbus.Proofs.Number.Exact
import Modbus.Proofs.Number.Nearest
import Modbus.Proofs.Register.FixedPoint
import Modbus.Proofs.Register.PackedText
import Modbus.Proofs.Register.SameNumber
import Modbus.Proofs.Config.Parts
import Modbus.Proofs.Config.Respelling
import Modbus.Proofs.Map.Spellings
import Modbus.Proofs.Poll.Reach
import Modbus.Proofs.Map.Keys
