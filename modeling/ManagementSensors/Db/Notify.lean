import ManagementSensors.Machinery.Json
import ManagementSensors.Db.Schema

/-!
# Db/Notify — what the triggers send, and how a listener reads it

`pg_notify` sends a text; the object a listener's callback is given holds the channel and the parsed
payload (`parser_notify`).  PostgreSQL writes every integer in digits, so a number arrives as an
`int64`.
-/

open Machinery

namespace ManagementSensors

/-- A `boost::json::object`. -/
abbrev Message := List (String × Json String)

variable {A : Type}

/-- `notify_config_request`, on an INSERT: the payload sent on `config_requested`. -/
def notifyConfigRequest (I : InetType A) (row : PendingRow A) : Json String :=
  .object [
    ("request_id", .int64 row.requestId),
    ("sensor_id", .int64 row.sensorId.toInt64),
    ("hostname", row.requestedHostname.elim .null .string),
    ("ip_address", .string (I.render row.requestedIp)),
    ("is_active", row.requestedIsActive.elim .null .bool),
    ("action", .string "INSERT")]

/-- `notify_config_change`, on an INSERT or an UPDATE: the payload sent on `config_events`. -/
def notifyConfigChange (I : InetType A) (op : String) (row : ConfigRow A) : Json String :=
  .object [
    ("action", .string op),
    ("sensor_id", .int64 row.sensorId.toInt64),
    ("new_ip", .string (I.text row.ipAddress)),
    ("hostname", .string row.hostname),
    ("request_id", row.requestId.elim .null .int64)]

/-- `parser_notify`, on a payload that is JSON. -/
def parserNotify (channel : String) (payload : Json String) : Message :=
  [("channel", .string channel), ("payload", payload)]

/-- The message of a pending row, on a channel. -/
def requestMessage (I : InetType A) (channel : String) (row : PendingRow A) : Message :=
  parserNotify channel (notifyConfigRequest I row)

end ManagementSensors
