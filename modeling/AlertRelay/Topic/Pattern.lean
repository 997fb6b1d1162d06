import AlertRelay.Topic.Regex

/-! Binding keys of topic exchanges. A key is a list of words with dots between
them; `*` stands for one word and `#` for any number of words. The key is
turned into an expression over characters: a `#` takes the dot beside it along,
the one after it at the beginning and the one before it elsewhere. -/

namespace AlertRelay

/-- The words between the dots, at least one. -/
def words : List Char → List (List Char)
  | [] => [[]]
  | c :: rest =>
    if c = '.' then [] :: words rest
    else match words rest with
      | [] => [[c]]
      | w :: ws => (c :: w) :: ws

def notDot : Regex := .one (.allBut '.')

def dot : Regex := .one (.exactly '.')

/-- One or more characters other than a dot. -/
def anyWord : Regex := .cat notDot (.star notDot)

/-- A word as it is written. -/
def literal (word : List Char) : Regex := .sequence (word.map fun c => .one (.exactly c))

/-- A word that is no `#`. -/
def wordRegex (word : List Char) : Regex := if word = ['*'] then anyWord else literal word

/-- A word after the first one. -/
def laterWord (word : List Char) : Regex :=
  if word = ['#'] then .star (.cat dot anyWord) else .cat dot (wordRegex word)

/-- A word after a `#` at the beginning, which has taken the dot between them. -/
def wordAfterHash (word : List Char) : Regex :=
  if word = ['#'] then .star (.cat dot anyWord) else wordRegex word

/-- The expression of a binding key. A lone `#` matches all keys of one line. -/
def patternRegex (pattern : List (List Char)) : Regex :=
  match pattern with
  | [] => .empty
  | [word] => if word = ['#'] then .star (.one (.allBut '\n')) else wordRegex word
  | first :: second :: rest =>
    if first = ['#'] then
      .cat (.star (.cat anyWord dot)) (.cat (wordAfterHash second) (.sequence (rest.map laterWord)))
    else .cat (wordRegex first) (.sequence ((second :: rest).map laterWord))

/-- Whether a binding key of a topic exchange accepts a routing key. -/
def topicAccepts (bindingKey routingKey : String) : Bool :=
  (patternRegex (words bindingKey.toList)).accepts routingKey.toList

end AlertRelay
