import Binding.Unicode.Word

/-!
# Context names

Generated code reads bare names off an object, the *context*.  Its name is a path of names joined
by points.  The first character of each part is a letter of ASCII, an underscore or a dollar sign;
the others are word characters or dollar signs.
-/

namespace Binding

namespace Context

/-- Whether a part of a path may begin with the character. -/
def isPartStart (c : Char) : Bool :=
  c.isAlpha || c = '_' || c = '$'

/-- Whether a part of a path may go on with the character. -/
def isPartRest (c : Char) : Bool :=
  Unicode.isWord c || c = '$'

/-- Whether the text is a single part of a path. -/
def isPart : List Char → Bool
  | [] => false
  | c :: rest => isPartStart c && rest.all isPartRest

/-- The text cut at its points. -/
def parts : List Char → List (List Char)
  | [] => [[]]
  | c :: rest =>
    if c = '.' then [] :: parts rest
    else
      match parts rest with
      | [] => [[c]]
      | part :: others => (c :: part) :: others

/-- Whether the text is a path. -/
def isPath (text : List Char) : Bool :=
  (parts text).all isPart

end Context

/-- The name of the object that bare names are read off. -/
structure Context where
  name : String
  isPath_name : Context.isPath name.toList = true

/-- A text that cannot name a context. -/
structure ContextError where
  /-- The rejected text. -/
  name : String
deriving DecidableEq

namespace ContextError

/-- The wording of the error. -/
def message (e : ContextError) : String :=
  s!"Invalid context name '{e.name}': expected an identifier such as 'model' or 'this.model'"

end ContextError

namespace Context

/-- The context that applies when none is chosen. -/
def default : Context :=
  ⟨"model", by decide +kernel⟩

/-- The context of the name, if it is a path. -/
def ofName (name : String) : Except ContextError Context :=
  if h : isPath name.toList = true then .ok ⟨name, h⟩ else .error ⟨name⟩

/-- The context chosen by name, or the default one. -/
def choose : Option String → Except ContextError Context
  | none => .ok default
  | some name => ofName name

end Context

end Binding
