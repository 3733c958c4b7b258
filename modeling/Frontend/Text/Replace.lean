set_option autoImplicit false

namespace Frontend.Text

-- The hole is not empty. What was filled in is not looked at again.
def replaceChars (hole filling : List Char) : List Char → List Char
  | [] => []
  | c :: rest =>
    if hole.isPrefixOf (c :: rest) then
      filling ++ replaceChars hole filling (rest.drop (hole.length - 1))
    else
      c :: replaceChars hole filling rest
termination_by text => text.length
decreasing_by
  · simp only [List.length_drop, List.length_cons]; omega
  · simp

def replace (hole filling text : String) : String :=
  String.ofList (replaceChars hole.toList filling.toList text.toList)

end Frontend.Text
