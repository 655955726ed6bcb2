/-!
# Sources of lines

A session asks for the lines of the file that has the focus, whichever that is, or of a file by its
path.  Results for the focused file are remembered under a key of their own.
-/

namespace YamlIndex

/-- Where lines come from. -/
inductive Source where
  /-- The file that has the focus. -/
  | focus
  | file (path : String)
  deriving DecidableEq, Repr

namespace Source

/-- The key for results about the file that has the focus. -/
def focusKey : String := "current"

/-- The key under which results for a source are remembered. -/
def key : Source → String
  | focus => focusKey
  | file path => path

/-- The text of a source in messages. -/
def text : Source → String
  | focus => "<current buffer>"
  | file path => path

end Source

end YamlIndex
