import ManagementSensors.Machinery.Run
import ManagementSensors.Machinery.Json
import ManagementSensors.Machinery.JsonLexer
import ManagementSensors.Machinery.JsonText
import ManagementSensors.Json.JsonUtils
import ManagementSensors.Server.Dispatcher
import ManagementSensors.Server.DispatcherTrace
import ManagementSensors.Server.DispatcherExact
import ManagementSensors.Machinery.Binary64
import ManagementSensors.Db.Schema
import ManagementSensors.Mqtt.Handlers
import ManagementSensors.Mqtt.Sensors
import ManagementSensors.Machinery.Queue
import ManagementSensors.Server.Handler
import ManagementSensors.Server.WakeUp
import ManagementSensors.Pipeline.Steps
import ManagementSensors.Pipeline.RequestIds
import ManagementSensors.Pipeline.Carriers
import ManagementSensors.Pipeline.Order
import ManagementSensors.Pipeline.Frame
import ManagementSensors.Machinery.Register
import ManagementSensors.Pipeline.Provenance
import ManagementSensors.Machinery.History
import ManagementSensors.Pipeline.Record
import ManagementSensors.Pipeline.Success
import ManagementSensors.Pipeline.Loss
import ManagementSensors.Machinery.Base64
import ManagementSensors.Jwt.JwtManager
import ManagementSensors.Http.QuantumSafeHttp
import ManagementSensors.Http.Responses
import ManagementSensors.Http.Gate
import ManagementSensors.Http.Login
import ManagementSensors.Cli.QuantumCommandCli
import ManagementSensors.Cli.Cuts
import ManagementSensors.Cli.Grammar
import ManagementSensors.Proxy.Session
import ManagementSensors.Proxy.Pairing
import ManagementSensors.Proxy.Errors
import ManagementSensors.Proxy.Gateway
import ManagementSensors.Jwt.RoundTrip
import ManagementSensors.Jwt.Policy
import ManagementSensors.Jwt.Spelling
import ManagementSensors.Db.Commits
import ManagementSensors.Mqtt.ConsumeLoop
import ManagementSensors.Cli.SameAsHttp
import ManagementSensors.Cli.Validity
import ManagementSensors.Pipeline.Encoding
import ManagementSensors.Pipeline.Refusal
import ManagementSensors.Pipeline.Completion
import ManagementSensors.Pipeline.WorkerPool
import ManagementSensors.Pipeline.DbEvents
import ManagementSensors.Db.Listener
import ManagementSensors.Server.OcspCache
import ManagementSensors.Server.SharedCache
import ManagementSensors.Server.QuantumSafeTlsEngine
import ManagementSensors.Server.JsonBoundary
import ManagementSensors.Db.SequenceSeed
import ManagementSensors.Machinery.Path
import ManagementSensors.Machinery.PerKey
import ManagementSensors.Http.DocumentRoot
import ManagementSensors.Db.CertBinding
import ManagementSensors.Machinery.Text
import ManagementSensors.Server.ParseUrl
import ManagementSensors.Machinery.Loop
import ManagementSensors.Server.OcspBackOff
import ManagementSensors.Machinery.Cascade
import ManagementSensors.Db.Triggers
import ManagementSensors.Db.Connections
import ManagementSensors.Mqtt.Controller
import ManagementSensors.Server.ConnectionDetails
import ManagementSensors.Mqtt.Telemetry
import ManagementSensors.Cli.Replies
import ManagementSensors.Server.DeclaredJson
import ManagementSensors.Machinery.Condition
import ManagementSensors.Mqtt.ThreadQueue
import ManagementSensors.Mqtt.Consumer
