import Gateway.Text.Split

/-! The `White_Space` property of Unicode, and trimming and splitting by it. -/

namespace Gateway.Text

def isBlank (c : Char) : Bool :=
  let n := c.toNat
  (9 ≤ n && n ≤ 13) || n == 0x20 || n == 0x85 || n == 0xA0 || n == 0x1680 ||
    (0x2000 ≤ n && n ≤ 0x200A) || n == 0x2028 || n == 0x2029 || n == 0x202F ||
    n == 0x205F || n == 0x3000

/-- The text without blanks at either end. -/
def trimBlank (s : String) : String :=
  String.ofList (trim isBlank s.toList)

/-- The maximal runs of characters that are not blank. -/
def wordsOf : List Char → List (List Char)
  | [] => []
  | c :: cs =>
    if isBlank c then wordsOf cs
    else match cs with
      | [] => [[c]]
      | d :: _ =>
        if isBlank d then [c] :: wordsOf cs
        else match wordsOf cs with
          | [] => [[c]]
          | w :: ws => (c :: w) :: ws

def words (s : String) : List String :=
  (wordsOf s.toList).map String.ofList

end Gateway.Text
