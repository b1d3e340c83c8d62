/-!
# Quoted text

A text between two quotes, in which the quote itself and the backslash are written with a
backslash before them and every other character stands for itself.  The quote is a parameter: a
source may use either of two, generated code always uses the double one.
-/

namespace Binding.Text

/-- The text with a backslash before each `quote` and each backslash. -/
def escaped (quote : Char) : List Char → List Char
  | [] => []
  | c :: rest =>
    if c = quote ∨ c = '\\' then '\\' :: c :: escaped quote rest else c :: escaped quote rest

/-- The text between two quotes. -/
def quoted (quote : Char) (text : List Char) : List Char :=
  quote :: (escaped quote text ++ [quote])

/-- The string in double quotes, as generated code writes it. -/
def doubleQuoted (text : String) : String :=
  String.ofList (quoted '"' text.toList)

@[simp] theorem toList_doubleQuoted (text : String) :
    (doubleQuoted text).toList = quoted '"' text.toList :=
  String.toList_ofList

end Binding.Text
