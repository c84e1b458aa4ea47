/-! # Styles

A style tells how headings and the labels of messages are written. Without colors both are plain. -/

namespace EntitySchema

/-- What a message of one line is about. -/
inductive Tone where
  /-- A command ended well. -/
  | ok
  /-- Something is odd. -/
  | warning
  /-- A command failed. -/
  | error
  deriving DecidableEq, Repr

/-- The label of a message. -/
def Tone.label : Tone → String
  | .ok => "ok"
  | .warning => "warning:"
  | .error => "error:"

/-- How headings and labels are written. -/
structure Style where
  /-- How a heading is written. -/
  heading : String → String
  /-- How the label of a message is written. -/
  label : Tone → String

namespace Style

/-- The style without colors. -/
def plain : Style := ⟨id, Tone.label⟩

/-- A message of one line with its label. -/
def labelled (style : Style) (tone : Tone) (message : String) : String :=
  style.label tone ++ " " ++ message ++ "\n"

end Style

end EntitySchema
