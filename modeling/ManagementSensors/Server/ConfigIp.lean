import ManagementSensors.Server.Handler

/-!
# Server/ConfigIp — the three calls of a CONFIG_IP request, as the thread that makes them sees them

`config_ip` of the REST API and the CONFIG_IP command of the CLI both generate an identifier, insert
the pending row and wait for the response.  What the rest of the system does meanwhile is an input
(`CallEnv`).
-/

namespace ManagementSensors

/-- What the three calls meet: the connection during the two database calls, and the dispatcher during
the wait. -/
structure CallEnv (κ : Type) where
  generateLink : Link
  addLink : Link
  wait : RequestId → Dispatcher κ → ResponseStatus × Dispatcher κ

/-- How far the calls have come: an exception of `generate_request_id`, one of `add_pending_config`,
or the status of the response. -/
inductive CallResult
  | notGenerated
  | notAdded (r : RequestId)
  | answered (r : RequestId) (status : ResponseStatus)
  deriving DecidableEq, Repr

variable {κ A : Type}

/-- `generate_request_id`, `add_pending_config` and `wait_for_response`, for one request. -/
def configIpCalls (I : InetType A) (env : CallEnv κ) (q : ConfigRequest) (db : Db A)
    (d : Dispatcher κ) : CallResult × Db A × Dispatcher κ :=
  let g := generateRequestId env.generateLink db
  match g.result with
  | .error _ => (.notGenerated, g.db, d)
  | .ok r =>
    let a := addPendingConfig I env.addLink q.sensorId (sensorHostname q.sensorId) q.ip true r g.db
    match a.result with
    | .error _ => (.notAdded r, a.db, d)
    | .ok () =>
      let (status, d') := env.wait r d
      (.answered r status, a.db, d')

end ManagementSensors
