import ToolPipeline.Log.Event
import ToolPipeline.Text.Split

/-! Questions about a list of captured events. -/

namespace ToolPipeline.Log

def withMessage (needle : String) (events : List Event) : List Event :=
  events.filter fun e => Text.contains e.message needle

def hasEvent (level : Level) (needle : String) (events : List Event) : Bool :=
  events.any fun e => e.level = level && Text.contains e.message needle

end ToolPipeline.Log
