import ToolPipeline.Pipeline.Progress
import ToolPipeline.Server.Frame
import ToolPipeline.Server.Rest

/-! One connection over a socket. A reader takes messages in; every frame gets a task, which waits
for a slot, has its request run by a worker, and then replies; a writer sends the replies out.
Reader, tasks, workers and writer move on in any order. -/

namespace ToolPipeline

inductive Message where
  | text (s : String)
  | binary (octets : List UInt8)
  | ping
  | pong
  | close

namespace Message

/-- What there is to read in a message, if it calls for a reply at all. -/
def content? : Message → Option (Option String)
  | .text s => some (some s)
  | .binary octets => some (textOfOctets? octets)
  | .ping | .pong | .close => none

end Message

namespace Frame

def notText : Reply := .error "" "binary frames must be UTF-8 JSON" none

def read : Option String → Except Reply Frame
  | none => .error notText
  | some s => (parse s).mapError refusalReply

def reply (f : Frame) : Outcome → Reply
  | .ok r => .result f.frameId r.result
  | .error e => .error f.frameId e.message (some e.code)
  | .panicked _ => .error f.frameId "internal error" none

def options (c : ServerConfig) (token : Token) (now : Nat) : Options :=
  ((Options.default.withCancel token).withTimeout now
    (c.frameTimeout.map UInt64.toNat)).withoutSteps

/-- The reply to a text whose frame, if it is one, is run by itself and at once. -/
def answer (e : Engine) (runId : String) (o : Options) (w : World) (s : String) : Reply :=
  match read (some s) with
  | .error reply => reply
  | .ok f => f.reply (e.run runId f.request o 0 w).1.outcome

end Frame

inductive TaskStage where
  | queued
  | holding
  | replying (r : Reply)
  | finished
  /-- It was given up or aborted. -/
  | gone

/-- The task of a frame; `message` is the number of the message. Its worker goes on with the run
even if the task is aborted. -/
structure FrameTask where
  message : Nat
  frame : Frame
  job : Job
  stage : TaskStage
  worker : Option Progress

namespace FrameTask

def holdsSlot (t : FrameTask) : Bool :=
  match t.stage with
  | .holding => true
  | _ => false

def isLive (t : FrameTask) : Bool :=
  match t.stage with
  | .finished | .gone => false
  | _ => true

def isInside (t : FrameTask) : Bool := t.worker.any Progress.isInside

end FrameTask

inductive Reader where
  | reading
  | sending (message : Nat) (r : Reply)
  | stopped

abbrev Outbound := Nat × Reply

/-- One connection. `received` are the messages so far, `queue` the replies that wait for the
writer, and `sent` those that it has sent. -/
structure Connection where
  token : Token
  received : List Message
  reader : Reader
  tasks : List FrameTask
  free : Nat
  queue : List Outbound
  writing : Bool
  sent : List Outbound

/-- What can happen next on a connection. Tasks are named by their numbers. -/
inductive ConnectionAction where
  | receive (m : Message)
  | enqueueRefusal
  | acquire (task : Nat)
  | giveUp (task : Nat)
  | work (task : Nat)
  | release (task : Nat)
  | enqueueReply (task : Nat)
  | abort (task : Nat)
  | write
  | stopReading
  | stopWriting

namespace Connection

def queueLimit : Nat := 256

def start (token : Token) (slots : Nat) : Connection :=
  ⟨token, [], .reading, [], slots, [], true, []⟩

/-- Opens a connection, unless its pings or its slots are out of bounds. -/
def opened (c : ServerConfig) (token : Token) : Except Panic Connection := do
  let _ ← c.pongTimeoutSecs
  return start token (← c.slots)

def runId (token : Token) (task : Nat) : String :=
  "frame " ++ ".".intercalate ((token.child task).reverse.map toString)

def taskOf (config : ServerConfig) (now : Nat) (c : Connection) (f : Frame) : FrameTask :=
  let task := c.tasks.length
  let options := Frame.options config (c.token.child task) now
  ⟨c.received.length, f, ⟨runId c.token task, f.request, options, now⟩, .queued, none⟩

def receive (config : ServerConfig) (now : Nat) (c : Connection) (m : Message) : Connection :=
  let after := { c with received := c.received ++ [m] }
  match m, m.content? with
  | .close, _ => { after with reader := .stopped }
  | _, none => after
  | _, some content =>
    match Frame.read content with
    | .error r => { after with reader := .sending c.received.length r }
    | .ok f => { after with tasks := c.tasks ++ [c.taskOf config now f] }

/-- Puts a reply into the queue; once the writer has stopped, replies are dropped. -/
def enqueue (c : Connection) (o : Outbound) : Option Connection :=
  if !c.writing then some c
  else if c.queue.length < queueLimit then some { c with queue := c.queue ++ [o] }
  else none

def setTask (c : Connection) (i : Nat) (t : FrameTask) : Connection :=
  { c with tasks := c.tasks.set i t }

def acquire (now : Nat) (c : Connection) (i : Nat) (t : FrameTask) : Option Connection :=
  match t.stage, c.free with
  | .queued, free + 1 =>
    let job := { t.job with began := now }
    some { c.setTask i { t with job, stage := .holding, worker := some .fresh } with free }
  | _, _ => none

def giveUp (c : Connection) (fired : List Token) (i : Nat) (t : FrameTask) : Option Connection :=
  match t.stage with
  | .queued =>
    if t.job.options.cancel.any (Token.isCancelled fired) then
      some (c.setTask i { t with stage := .gone })
    else none
  | _ => none

def release (c : Connection) (i : Nat) (t : FrameTask) : Option Connection :=
  match t.stage, t.worker.bind Progress.ended? with
  | .holding, some ended =>
    some { c.setTask i { t with stage := .replying (t.frame.reply ended.outcome) } with
      free := c.free + 1 }
  | _, _ => none

def enqueueReply (c : Connection) (i : Nat) (t : FrameTask) : Option Connection :=
  match t.stage with
  | .replying r => (c.setTask i { t with stage := .finished }).enqueue (t.message, r)
  | _ => none

/-- Once nothing is read any more, tasks are aborted. An aborted task gives its slot back. -/
def abort (c : Connection) (i : Nat) (t : FrameTask) : Option Connection :=
  match c.reader with
  | .stopped =>
    if t.isLive then
      some { c.setTask i { t with stage := .gone } with
        free := if t.holdsSlot then c.free + 1 else c.free }
    else none
  | _ => none

def enqueueRefusal (c : Connection) : Option Connection :=
  match c.reader with
  | .sending message r => { c with reader := .reading }.enqueue (message, r)
  | _ => none

def write (c : Connection) : Option Connection :=
  match c.writing, c.queue with
  | true, o :: rest => some { c with queue := rest, sent := c.sent ++ [o] }
  | _, _ => none

def cancel (c : Connection) (w : World) : World := { w with fired := c.token :: w.fired }

def work (e : Engine) (offered : Nat) (w : World) (c : Connection) (i : Nat) (t : FrameTask) :
    Option (Connection × World) := do
  let worker ← t.worker
  let (worker, w) ← worker.step? e t.job offered w
  return (c.setTask i { t with worker := some worker }, w)

/-- The reader stops at any time, and at the latest once the connection is cancelled. -/
def stopReading (c : Connection) (w : World) : Option (Connection × World) :=
  match c.reader with
  | .sending .. => none
  | _ => some ({ c with reader := .stopped }, c.cancel w)

/-- The writer stops at any time; what it has not sent by then is lost. -/
def stopWriting (c : Connection) (w : World) : Option (Connection × World) :=
  if c.writing then some ({ c with writing := false, queue := [] }, c.cancel w) else none

def onTask (c : Connection) (w : World) (i : Nat) (f : Nat → FrameTask → Option Connection) :
    Option (Connection × World) :=
  ((c.tasks[i]?).bind (f i)).map (·, w)

/-- The connection after an action, if the action is possible, and the world after it. -/
def step? (server : Server) (offered : Nat) (w : World) (c : Connection) :
    ConnectionAction → Option (Connection × World)
  | .receive m =>
    match c.reader with
    | .reading =>
      let after := c.receive server.config w.now m
      some (after, match after.reader with
        | .stopped => c.cancel w
        | _ => w)
    | _ => none
  | .enqueueRefusal => c.enqueueRefusal.map (·, w)
  | .acquire i => c.onTask w i (c.acquire w.now)
  | .giveUp i => c.onTask w i (c.giveUp w.cancelled)
  | .work i => c.tasks[i]?.bind (c.work server.engine offered w i)
  | .release i => c.onTask w i c.release
  | .enqueueReply i => c.onTask w i c.enqueueReply
  | .abort i => c.onTask w i c.abort
  | .write => c.write.map (·, w)
  | .stopReading => c.stopReading w
  | .stopWriting => c.stopWriting w

/-- The connections, with the world around them, that actions in any order lead to. In between, time
may pass and other tokens may be cancelled. -/
inductive Reachable (server : Server) (token : Token) (slots : Nat) :
    Connection → World → Prop where
  | start (w : World) : Reachable server token slots (start token slots) w
  | act {c d : Connection} {w v : World} (offered : Nat) (a : ConnectionAction) :
      Reachable server token slots c w → c.step? server offered w a = some (d, v) →
      Reachable server token slots d v
  | elapse {c : Connection} {w v : World} :
      Reachable server token slots c w → w.Before v → Reachable server token slots c v

def executing (c : Connection) : Nat := c.tasks.countP FrameTask.isInside

def held (c : Connection) : Nat := c.tasks.countP FrameTask.holdsSlot

def isCancelled (c : Connection) (w : World) : Bool := c.token.isCancelled w.cancelled

end Connection

end ToolPipeline
