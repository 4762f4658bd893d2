import ToolPipeline.Pipeline.Token
import ToolPipeline.Log.Event

/-! Shutting down: the root of all tokens is cancelled, and for a limited time the tasks that are
left may end by themselves. Times are in milliseconds. -/

namespace ToolPipeline

/-- The text of a span of milliseconds, in the largest unit that it fills. -/
def spanText (ms : Nat) : String :=
  if ms = 0 then "0ns"
  else if ms < 1000 then toString ms ++ "ms"
  else
    let places := (Nat.toDigits 10 (1000 + ms % 1000)).drop 1
    let places := (places.reverse.dropWhile (· == '0')).reverse
    toString (ms / 1000) ++ (if places = [] then "" else "." ++ String.ofList places) ++ "s"

namespace Shutdown

def isShuttingDown (fired : List Token) : Bool := Token.root.isCancelled fired

def initiate (fired : List Token) : List Token := Token.root :: fired

def defaultTimeout : Nat := 10000

structure Drain where
  finished : List Bool
  timedOut : Bool
  events : List Log.Event

def waiting (taskCount timeout : Nat) : Log.Event :=
  ⟨.info, "vista_server::shutdown", "waiting for tasks to complete",
    [("task_count", .nat taskCount), ("timeout_secs", .nat (timeout / 1000))]⟩

def timeoutPassed (timeout : Nat) : Log.Event :=
  ⟨.warn, "vista_server::shutdown",
    "shutdown timed out after " ++ spanText timeout ++ ", some tasks may still be running", []⟩

/-- Waits for tasks, of which each ends after the time given, or never. -/
def drain (ends : List (Option Nat)) (timeout : Option Nat) : Drain :=
  let timeout := timeout.getD defaultTimeout
  let finished := ends.map fun e => e.any (· ≤ timeout)
  let timedOut := finished.any (!·)
  ⟨finished, timedOut,
    waiting ends.length timeout :: if timedOut then [timeoutPassed timeout] else []⟩

end Shutdown

end ToolPipeline
