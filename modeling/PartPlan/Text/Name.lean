/-
The two name patterns of a part: parameter names and output names. Both use
ASCII letters and digits only.
-/
namespace PartPlan.Text

/-- An ASCII letter. -/
def isLetter (c : Char) : Bool := ('a' ≤ c && c ≤ 'z') || ('A' ≤ c && c ≤ 'Z')

/-- An ASCII digit. -/
def isDigit (c : Char) : Bool := '0' ≤ c && c ≤ '9'

/-- Whether a text is a parameter name: a letter or an underscore, then
letters, digits and underscores. -/
def isParamName (s : String) : Bool :=
  match s.toList with
  | [] => false
  | c :: cs => (isLetter c || c == '_') && cs.all fun d => isLetter d || isDigit d || d == '_'

/-- A character of an output name after its colon. -/
def isOutputChar (c : Char) : Bool :=
  isLetter c || isDigit c || c == '_' || c == '.' || c == '-'

/-- The text after a given beginning, if the text has it. -/
def afterStart? : List Char → List Char → Option (List Char)
  | [], cs => some cs
  | _ :: _, [] => none
  | p :: ps, c :: cs => if p = c then afterStart? ps cs else none

/-- Whether a text is an output name: the word body or surface, a colon and
at least one letter, digit, underscore, point or hyphen. -/
def isOutputName (s : String) : Bool :=
  let body := afterStart? "body:".toList s.toList
  let surface := afterStart? "surface:".toList s.toList
  match body <|> surface with
  | some (c :: cs) => isOutputChar c && cs.all isOutputChar
  | _ => false

end PartPlan.Text
