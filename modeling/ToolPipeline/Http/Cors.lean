import ToolPipeline.Http.Message

/-! Leave for pages of other origins to make requests. Every origin may make every request. -/

namespace ToolPipeline.Http.Cors

def origin : String × String := ("access-control-allow-origin", "*")

/-- What a response to any request but an inquiry carries. -/
def headers : List (String × String) := [origin, ("access-control-expose-headers", "*")]

def preflight : Response :=
  ⟨200, [origin, ("access-control-allow-methods", "*"), ("access-control-allow-headers", "*")], ""⟩

end ToolPipeline.Http.Cors
