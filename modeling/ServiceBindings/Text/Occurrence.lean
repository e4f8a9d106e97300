/-!
# Occurrences

Whether a text occurs in another one.
-/

namespace ServiceBindings.Text

/-- Whether a text occurs in another one. -/
def occursIn (part : List Char) : List Char → Bool
  | [] => part.isEmpty
  | c :: cs => part.isPrefixOf (c :: cs) || occursIn part cs

end ServiceBindings.Text
