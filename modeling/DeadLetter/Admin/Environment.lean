import DeadLetter.Dict
import DeadLetter.Text.Blank
import DeadLetter.Text.Casing
import DeadLetter.Text.Numeral

/-!
# The environment of the admin service

`Environment.read` takes the deployment stage and the settings of the service from environment variables. A stage of
another name is refused; any other setting that cannot be read has its default.
-/

namespace DeadLetter.Admin

set_option autoImplicit false

/-- The deployment stages. -/
inductive Stage where
  | production
  | staging
  | development
deriving DecidableEq, Repr, Inhabited

namespace Stage

def name : Stage → String
  | production => "production"
  | staging => "staging"
  | development => "development"

def ofName? (s : String) : Option Stage := [production, staging, development].find? (·.name == s)

/-- Whether the interface is documented. -/
def showsDocs : Stage → Bool
  | production => false
  | _ => true

end Stage

/-- The settings of the service. -/
structure Environment where
  stage : Stage
  disableAuth : Bool
  adminToken : Option String
  port : Nat
  requestTimeout : Nat
  retryInterval : Option Nat
  drainDeadline : Nat
  configPath : String
deriving DecidableEq, Repr

namespace Environment

/-- A number of seconds, which blanks may surround. -/
def seconds? (vars : Dict String) (name : String) : Option Nat :=
  (vars.get? name).bind fun s => Text.readNat? 0xFFFFFFFFFFFFFFFF (Text.trim s)

/-- The name of the stage that the variables set. -/
def stageName (vars : Dict String) : String := Text.lower (Text.trim ((vars.get? "APP_ENV").getD "development"))

def invalidStage (name : String) : String := "Invalid environment: " ++ name

/-- The environment that variables set, or the name of a stage that there is not. The token check can be disabled in
development only, and a blank token is none. -/
def read (vars : Dict String) : Except String Environment :=
  match Stage.ofName? (stageName vars) with
  | none => .error (stageName vars)
  | some stage => .ok {
      stage := stage
      disableAuth := stage == .development && (vars.get? "DISABLE_AUTH").any (Text.trim · == "true")
      adminToken := (vars.get? "QUEUE_ADMIN_TOKEN").filter (!Text.allBlank ·)
      port := ((vars.get? "PORT").bind (Text.readNat? 0xFFFF)).getD 8080
      requestTimeout := (seconds? vars "REQUEST_TIMEOUT_SECS").getD 60
      retryInterval := (seconds? vars "DLQ_RETRY_INTERVAL_SECS").filter (0 < ·)
      drainDeadline := (seconds? vars "DLQ_DRAIN_DEADLINE_SECS").getD 300
      configPath := (vars.get? "HMPPS_SQS_CONFIG").getD "config/hmpps-sqs.toml" }

end Environment

end DeadLetter.Admin
