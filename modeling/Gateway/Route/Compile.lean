import Gateway.Route.Pattern

/-! From the text of a pattern to the source of its expression, by way of its escaped form. -/

namespace Gateway.Pattern

/-- The text with its special characters escaped. Stars become colons, and a caret at its start
stays an anchor. -/
def rewrite (text : List Char) : List Char :=
  match Text.replacePair '\\' '*' [':'] (text.flatMap Template.escape) with
  | '\\' :: '^' :: rest => '^' :: rest
  | rest => rest

/-- The colons of a text that stand before a name, and its other characters. -/
def tokens : List Char → List Piece
  | [] => []
  | c :: cs =>
    if c = ':' ∧ cs.takeWhile Template.isNameChar ≠ [] then
      .token (cs.takeWhile Template.isNameChar) :: tokens (cs.dropWhile Template.isNameChar)
    else .char c :: tokens cs
termination_by cs => cs.length
decreasing_by
  all_goals simp only [List.length_cons]
  · have := (List.dropWhile_sublist (l := cs) Template.isNameChar).length_le; omega
  · omega

def name? : Piece → Option (List Char)
  | .char _ => none
  | .token name => some name

def keys (text : List Char) : List (List Char) := (tokens (rewrite text)).filterMap name?

/-- A token becomes a lazy group, and the expression ends where the path ends. -/
def source (text : List Char) : List Char :=
  (tokens (rewrite text)).flatMap (fun
    | .char c => [c]
    | .token _ => "(.*?)".toList) ++ ['$']

end Gateway.Pattern
