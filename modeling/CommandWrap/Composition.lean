import CommandWrap.Text.Basic

/-!
The lexical check for shell operators that compose commands. It looks for them anywhere, also inside
quotes: to leave a harmless command alone costs nothing, to rewrite a composed one breaks it.
-/
namespace CommandWrap.Composition

/-- In the order in which they are reported. -/
def operators : List Text := ["|", "&&", "||", ";", "<<"]

def operatorsIn (command : Text) : List Text := operators.filter (Text.occursIn · command)

/-- No operator starts here. -/
def startsPlain (command : Text) : Bool :=
  !(["|", ";", "&&", "<<"] : List Text).any (·.isPrefixOf command)

def isSimple : Text → Bool
  | [] => true
  | c :: rest => startsPlain (c :: rest) && isSimple rest

end CommandWrap.Composition
