/-! Tokens by which work is cancelled. A token is named by the way to it from the root: a child has
one more number in front of the name of its parent. Cancelling a token cancels all below it. -/

namespace ToolPipeline

abbrev Token := List Nat

namespace Token

def root : Token := []

def child (parent : Token) (n : Nat) : Token := n :: parent

/-- Whether a token is cancelled once the tokens `fired` have been cancelled: one of them is the
token itself or above it. -/
def isCancelled (fired : List Token) (t : Token) : Bool := fired.any fun f => f.isSuffixOf t

end Token

end ToolPipeline
