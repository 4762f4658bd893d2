import ToolPipeline.Http.MediaType
import ToolPipeline.Pipeline.Engine
import ToolPipeline.Pipeline.Worker
import ToolPipeline.Server.ApiError
import ToolPipeline.Server.Config

/-! A run for one request over HTTP: the body is a request for a run, and the response holds the
result with the outputs of all steps, or says what went wrong. -/

namespace ToolPipeline

open Json

structure Server where
  engine : Engine
  config : ServerConfig

/-- Why a body is no request for a run, in the order of the checks. -/
inductive BodyFault where
  | notJsonTyped
  | tooLarge
  | malformed (f : Failure)
  | wrongShape (f : Failure)

namespace BodyFault

def message : BodyFault → String
  | .notJsonTyped => "Expected request with `Content-Type: application/json`"
  | .tooLarge => "Failed to buffer the request body: length limit exceeded"
  | .malformed f => "Failed to parse the request body as JSON: " ++ f.messageWithPath
  | .wrongShape f =>
    "Failed to deserialize the JSON body into the target type: " ++ f.messageWithPath

/-- A well-formed text of the wrong shape is a pipeline that is invalid. -/
def error (f : BodyFault) : ApiError :=
  match f with
  | .notJsonTyped => ⟨415, "INVALID_REQUEST", f.message⟩
  | .tooLarge => ⟨413, "INVALID_REQUEST", f.message⟩
  | .malformed _ => ⟨400, "INVALID_REQUEST", f.message⟩
  | .wrongShape _ => ⟨400, "INVALID_PIPELINE", f.message⟩

def refused (f : BodyFault) : Log.Event :=
  ⟨.warn, "vista_server::rest", "rejected pipeline body", [("error", .text f.message)]⟩

end BodyFault

namespace Rest

/-- Only visible characters of a header can name a media type. -/
def isJsonTyped (r : Http.Request) : Bool :=
  (r.header? "content-type").any fun v =>
    v.toList.all (fun c => c == '\t' || (0x20 ≤ c.toNat && c.toNat < 0x7F))
      && (Http.MediaType.parse? v).any Http.MediaType.isJson

def readOctets (octets : List UInt8) : Except BodyFault Request :=
  match Request.shape.parsePieces (Piece.ofOctets octets) with
  | .ok v => .ok (Request.ofValue v)
  | .error f => .error (if isMismatch f.cause then .wrongShape f else .malformed f)

/-- The request for a run in the body of an HTTP request, which has at most `limit` octets. -/
def readBody (limit : Nat) (r : Http.Request) : Except BodyFault Request :=
  if !isJsonTyped r then .error .notJsonTyped
  else if limit < r.body.length then .error .tooLarge
  else readOctets r.body

def settle (worker : String) : Outcome → Except ApiError RunResult
  | .ok r => .ok r
  | .error e => .error (.ofPipeline e)
  | .panicked p => .error (.internal ("pipeline worker failed: " ++ Worker.failure worker p))

def respond (worker : String) (o : Outcome) : Http.Response :=
  match settle worker o with
  | .ok r => .json 200 r.toJson
  | .error e => e.response

def answered (worker : String) (o : Outcome) : List Log.Event :=
  match settle worker o with
  | .ok _ => []
  | .error e => e.events

def options (c : ServerConfig) (token : Token) (now : Nat) : Options :=
  (Options.default.withCancel token).withTimeout now (c.restTimeout.map UInt64.toNat)

end Rest

/-- The outcome of a request for a run: the response, the run if there was one, the world after it,
and all that happened. -/
structure Exchange where
  response : Http.Response
  ended : Option Ended
  world : World
  occurrences : List Log.Occurrence

structure RunNames where
  runId : String
  worker : String

structure Attempt where
  token : Token
  names : RunNames
  /-- The number of records of earlier runs. -/
  offered : Nat

namespace Rest

def post (server : Server) (a : Attempt) (r : Http.Request) (w : World) : Exchange :=
  match readBody server.config.maxMessageSize.toNat r with
  | .error f => ⟨f.error.response, none, w, Log.outside (f.refused :: f.error.events)⟩
  | .ok request =>
    let (ended, after) :=
      server.engine.run a.names.runId request (options server.config a.token w.now) a.offered w
    ⟨respond a.names.worker ended.outcome, some ended, after,
      Log.inside (Engine.span a.names.runId request) (Trace.events ended.trace)
        ++ Log.outside (answered a.names.worker ended.outcome)⟩

end Rest

end ToolPipeline
