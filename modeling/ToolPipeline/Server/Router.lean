import ToolPipeline.Http.Cors
import ToolPipeline.Text.Split

/-! Which part of the server a request is for. -/

namespace ToolPipeline

open Http

inductive Route where
  | pipeline | socket | health | plugins
  deriving DecidableEq, Repr

namespace Route

def ofPath? : String → Option Route
  | "/pipeline" => some .pipeline
  | "/ws" => some .socket
  | "/health" => some .health
  | "/plugins" => some .plugins
  | _ => none

def methods : Route → List String
  | .pipeline => ["POST"]
  | _ => ["GET", "HEAD"]

/-- What a response says of a route that does not take the method of the request. -/
def allowance (route : Route) : List (String × String) :=
  [("allow", ",".intercalate route.methods), ("content-length", "0")]

end Route

inductive Dispatch where
  | inquiry (route : Option Route)
  | unknownPath
  | wrongMethod (route : Route)
  | handled (route : Route)
  deriving DecidableEq, Repr

def Dispatch.of (method path : String) : Dispatch :=
  let route := Route.ofPath? path
  if method = "OPTIONS" then .inquiry route
  else
    match route with
    | none => .unknownPath
    | some route => if route.methods.contains method then .handled route else .wrongMethod route

namespace Router

/-- The response to a request that needs no handler. -/
def immediate? : Dispatch → Option Response
  | .inquiry none => some Cors.preflight
  | .inquiry (some route) => some (Cors.preflight.withHeaders route.allowance)
  | .unknownPath => some ⟨404, Cors.headers, ""⟩
  | .wrongMethod route => some ⟨405, Cors.headers ++ route.allowance, ""⟩
  | .handled _ => none

def finish (method : String) (r : Response) : Response :=
  let r := r.withHeaders Cors.headers
  if method = "HEAD" then r.withoutBody else r

end Router

/-- Why a request does not open a socket, in the order of the checks. -/
inductive HandshakeFault where
  | methodNotGet | noConnectionUpgrade | noSocketUpgrade | noKey | wrongVersion
  /-- The request did not come over a connection of its own. -/
  | notUpgradable
  deriving DecidableEq, Repr

namespace HandshakeFault

def message : HandshakeFault → String
  | .methodNotGet => "Request method must be `GET`"
  | .noConnectionUpgrade => "Connection header did not include 'upgrade'"
  | .noSocketUpgrade => "`Upgrade` header did not include 'websocket'"
  | .noKey => "`Sec-WebSocket-Key` header missing"
  | .wrongVersion => "`Sec-WebSocket-Version` header did not include '13'"
  | .notUpgradable => "WebSocket request couldn't be upgraded since no upgrade state was present"

def status : HandshakeFault → Nat
  | .methodNotGet => 405
  | .notUpgradable => 426
  | _ => 400

def response (f : HandshakeFault) : Response := .plain f.status f.message

end HandshakeFault

/-- Checks a request that asks for a socket. `upgradable` says whether it came over a connection
that can become one. -/
def handshake (r : Http.Request) (upgradable : Bool) : Except HandshakeFault Unit :=
  let mentions := fun name word => (r.header? name).any fun v => Text.contains (lower v) word
  let names := fun name word => (r.header? name).any fun v => lower v == word
  if r.method ≠ "GET" then .error .methodNotGet
  else if !mentions "connection" "upgrade" then .error .noConnectionUpgrade
  else if !names "upgrade" "websocket" then .error .noSocketUpgrade
  else if (r.header? "sec-websocket-key").isNone then .error .noKey
  else if !names "sec-websocket-version" "13" then .error .wrongVersion
  else if !upgradable then .error .notUpgradable
  else .ok ()

end ToolPipeline
