import DeadLetter.Admin.Auth
import DeadLetter.Service.Health
import DeadLetter.Service.Inspect
import DeadLetter.Service.Purge
import DeadLetter.Service.Retry
import DeadLetter.Text.Percent
import DeadLetter.Text.Scan

/-!
# The admin interface

`App.respond` answers a request. The routes on single queues, and every path that is no route, are protected: the token
is checked before the path, the method and the query are looked at.
-/

namespace DeadLetter.Admin

set_option autoImplicit false

open Attempt

/-- A request without a body. -/
structure Request where
  method : String
  path : String
  query : String
  headers : Headers
deriving DecidableEq, Repr

namespace Request

/-- The part of a target that says what is wanted of a host. A target that begins with a scheme names the host first and
wants all of it if nothing follows; one without a scheme and a slash is only a host, unless it is an asterisk. -/
def localPart (target : List Char) : List Char :=
  if target.head? = some '/' || target = ['*'] then target
  else match Text.Scan.split? "://".toList target with
    | none => []
    | some (_, address) =>
      let wanted := address.dropWhile fun c => c ≠ '/' && c ≠ '?' && c ≠ '#'
      if wanted.head? = some '/' then wanted else '/' :: wanted

/-- A request for a target: a path, with a query after a question mark. What follows a number sign is not sent. -/
def ofTarget (method target : String) (headers : Headers) : Request :=
  let wanted := (localPart target.toList).takeWhile (· ≠ '#')
  { method := method
    path := .ofList (wanted.takeWhile (· ≠ '?'))
    query := .ofList ((wanted.dropWhile (· ≠ '?')).drop 1)
    headers := headers }

end Request

/-- The body of an answer: a JSON value, a text, the page of the documentation, or the paths that are documented with
their methods. -/
inductive Body where
  | json (v : Json)
  | text (s : String)
  | page
  | interface (paths : List (String × String))
deriving Repr, BEq

/-- An answer. -/
structure Response where
  status : Nat
  body : Body
deriving Repr, BEq

namespace Response

def empty (status : Nat) : Response := ⟨status, .text ""⟩

/-- The answer that tells a failure. -/
def ofFailure (f : Failure) : Response := ⟨f.status, .json f.toJson⟩

/-- The answer without its body. -/
def dropBody (r : Response) : Response := .empty r.status

end Response

/-- The routes. A name in a path is still encoded. -/
inductive Route where
  | docs
  | interface
  | health
  | retryAll
  | retry (dlq : String)
  | purge (queue : String)
  | inspect (dlq : String)
deriving DecidableEq, Repr

/-- The methods of routes. -/
inductive Method where
  | get
  | put
deriving DecidableEq, Repr

def Method.name : Method → String
  | get => "GET"
  | put => "PUT"

namespace Route

/-- The name that follows the beginning of a path. -/
def nameAfter? (start path : String) : Option String := do
  let name ← Text.dropPrefix? path start
  if name.isEmpty || name.toList.contains '/' then none else some name

def ofPath? (path : String) : Option Route :=
  if path = "/docs" then some .docs
  else if path = "/openapi.json" then some .interface
  else if path = "/health" then some .health
  else if path = "/queue-admin/retry-all-dlqs" then some .retryAll
  else (nameAfter? "/queue-admin/retry-dlq/" path).map .retry <|>
    (nameAfter? "/queue-admin/purge-queue/" path).map .purge <|>
    (nameAfter? "/queue-admin/get-dlq-messages/" path).map .inspect

def method : Route → Method
  | docs | interface | health | inspect _ => .get
  | retryAll | retry _ | purge _ => .put

def isProtected : Route → Bool
  | retry _ | purge _ | inspect _ => true
  | _ => false

/-- The documented paths with their methods. -/
def documented : List (String × String) :=
  [("/queue-admin/get-dlq-messages/\x7bdlq_name\x7d", "get"), ("/queue-admin/purge-queue/\x7bqueue_name\x7d", "put"),
    ("/queue-admin/retry-all-dlqs", "put"), ("/queue-admin/retry-dlq/\x7bdlq_name\x7d", "put")]

end Route

/-- What requests are answered with. -/
structure App where
  stage : Stage
  auth : Auth
  registry : Registry
  numbers : NumberPolicy

/-- How many messages are returned where the query does not say. -/
def defaultLimit : Int := 100

/-- The query parameter that says how many messages to return. -/
def limitParameter : String := "maxMessages"

def readLimit : List (String × String) → Option Int → Except String Int
  | [], limit => .ok (limit.getD defaultLimit)
  | (name, value) :: fields, limit =>
    if name ≠ limitParameter then readLimit fields limit
    else if limit.isSome then .error ("duplicate field `" ++ limitParameter ++ "`")
    else match Text.readInt32 value with
      | .ok n => readLimit fields (some n)
      | .error e => .error (limitParameter ++ ": " ++ e.message)

def badName (parameter : String) : Response := ⟨400, .text ("Invalid URL: Invalid UTF-8 in `" ++ parameter ++ "`")⟩

def badQuery (reason : String) : Response := ⟨400, .text ("Failed to deserialize query string: " ++ reason)⟩

def answer {α : Type} (toJson : α → Json) (a : Attempt (Except Failure α)) : Routine Response := do
  match ← a.result with
  | .ok (.ok v) => return ⟨200, .json (toJson v)⟩
  | .ok (.error f) => return .ofFailure f
  | .error e => return .ofFailure (.ofQueueError e)

namespace App

def retry (app : App) (name : String) : Attempt (Except Failure RetryReport) := do
  match app.registry.queueByDlqName? name with
  | none => return .error (.notFound "DLQ not found")
  | some q => return .ok (← q.retry app.numbers)

def purge (app : App) (name : String) : Attempt (Except Failure PurgeReport) := do
  match ← app.registry.purgeOf? name with
  | none => return .error (.notFound "Queue not found")
  | some request => return .ok (← request.purge)

def inspect (app : App) (name : String) (limit : Int) : Attempt (Except Failure InspectionReport) := do
  match app.registry.queueByDlqName? name with
  | none => return .error (.notFound "DLQ not found")
  | some q => return .ok (← q.inspect app.numbers limit)

def handle (app : App) (query : String) : Route → Routine Response
  | .docs => return ⟨200, .page⟩
  | .interface => return if app.stage.showsDocs then ⟨200, .interface Route.documented⟩ else .empty 404
  | .health => do
    let report ← app.registry.health
    return ⟨if report.status = .up then 200 else 503, .json report.toJson⟩
  | .retryAll => do
    let reports ← app.registry.retryAll app.numbers
    return ⟨200, .json (.array (reports.map (·.toJson)))⟩
  | .retry dlq =>
    match Text.Percent.decode? dlq with
    | none => return badName "dlq_name"
    | some name => answer RetryReport.toJson (app.retry name)
  | .purge queue =>
    match Text.Percent.decode? queue with
    | none => return badName "queue_name"
    | some name => answer PurgeReport.toJson (app.purge name)
  | .inspect dlq =>
    match Text.Percent.decode? dlq with
    | none => return badName "dlq_name"
    | some name =>
      match readLimit (Text.Percent.fields query) none with
      | .error reason => return badQuery reason
      | .ok limit => answer InspectionReport.toJson (app.inspect name limit)

/-- Runs a route if the method is its own. `HEAD` runs what `GET` does and drops the body. -/
def dispatch (app : App) (r : Request) (route : Route) : Routine Response :=
  if r.method = route.method.name then app.handle r.query route
  else if r.method = "HEAD" ∧ route.method = .get then do return (← app.handle r.query route).dropBody
  else return .empty 405

/-- Answers a request for a path that is no route. A path without a slash is the host itself: there, and not elsewhere,
the answer to `HEAD` has no body. -/
def respondElsewhere (app : App) (r : Request) : Response :=
  match app.auth.check r.headers with
  | .error f =>
    if r.method = "HEAD" ∧ !Text.hasPrefix r.path "/" then (Response.ofFailure f).dropBody else .ofFailure f
  | .ok () => .empty 404

def respond (app : App) (r : Request) : Routine Response :=
  match Route.ofPath? r.path with
  | none => return app.respondElsewhere r
  | some route =>
    match if route.isProtected then app.auth.check r.headers else .ok () with
    | .error f => return if r.method = "HEAD" then (Response.ofFailure f).dropBody else .ofFailure f
    | .ok () => app.dispatch r route

end App

end DeadLetter.Admin
