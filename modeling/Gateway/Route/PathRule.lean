import Gateway.Http.Uri
import Gateway.Route.Pattern

/-! Rules that replace the path and query of a request by globs. -/

namespace Gateway

/-- A glob whose stars capture, and the output, in which `$1` stands for the first capture. -/
structure PathRule where
  glob : Template
  template : List Char
deriving DecidableEq, Repr

namespace PathRule

def readGlob (s : List Char) : List Piece :=
  s.map fun c => if c = '*' then .token [] else .char c

/-- The expression for a glob: all of it is literal but its stars and a caret at its start. -/
def expression (glob : String) : List Char :=
  let escaped :=
    Text.replacePair '\\' '*' "(.*?)".toList (glob.toList.flatMap Template.escape)
  (match escaped with
    | '\\' :: '^' :: rest => '^' :: rest
    | rest => rest) ++ ['$']

/-- A caret at the start of the glob anchors it. -/
def ofTexts (source output : String) : PathRule :=
  let glob := match source.toList with
    | '^' :: cs => ⟨true, readGlob cs⟩
    | cs => ⟨false, readGlob cs⟩
  ⟨glob, output.toList⟩

/-- A dollar with the digits after it is replaced by the capture of that number, counted from
one, and stays as it is when there is no such capture. -/
def expand (captures : List (List Char)) : List Char → List Char
  | [] => []
  | c :: cs =>
    if c = '$' then
      let digits := cs.takeWhile Char.isDigit
      let value :=
        if digits.isEmpty then none
        else
          match digits.foldl (fun n d => n * 10 + (d.toNat - 48)) 0 with
          | 0 => none
          | n + 1 => captures[n]?
      value.getD ('$' :: digits) ++ expand captures (cs.dropWhile Char.isDigit)
    else c :: expand captures cs
termination_by cs => cs.length
decreasing_by
  all_goals simp only [List.length_cons]
  · have := (List.dropWhile_sublist (l := cs) Char.isDigit).length_le; omega
  · omega

def output? (r : PathRule) (input : List Char) : Option (List Char) :=
  (r.glob.find? input).map fun (_, captures) => expand captures r.template

end PathRule

abbrev PathRules := List PathRule

namespace PathRules

def ofTexts (rules : List (String × String)) : PathRules :=
  rules.map fun (source, output) => PathRule.ofTexts source output

def output? (rules : PathRules) (input : String) : Option String :=
  (rules.findSome? (·.output? input.toList)).map String.ofList

/-- The target with its path and query replaced; `none` when no rule matches. -/
def apply (rules : PathRules) (uri : Uri) : Except UriError (Option Uri) :=
  match rules.output? (uri.pathAndQuery?.getD "/") with
  | none => .ok none
  | some out =>
    let out := if out.startsWith "/" then out else "/" ++ out
    (uri.withPathAndQuery out).map some

end PathRules

end Gateway
