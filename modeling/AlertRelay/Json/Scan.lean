import AlertRelay.Json.Document
import AlertRelay.Text.Encoding

/-! A scanner that reads one character at a time and keeps the open containers
on a stack, so that texts of any depth are read in one pass. What it scans to the
end is a text or bytes that are exactly one JSON value. -/

namespace AlertRelay

/-- An open container; the latest item or member comes first. An object holds
the name of the member whose value is awaited. -/
inductive Frame
  | array (items : List Document)
  | object (members : List (Option String × Document)) (name : Option (Option String))

/-- How far a number has been read. -/
inductive NumberPhase
  | minus
  | zero
  | whole
  | point
  | fraction
  | mark
  | sign
  | exponent
deriving DecidableEq, Repr

/-- Whether a number may end here. -/
def NumberPhase.complete : NumberPhase → Bool
  | .zero | .whole | .fraction | .exponent => true
  | .minus | .point | .mark | .sign => false

/-- Where a string literal stands: plain, after a backslash, or within the four
digits of a code unit, of which `count` have been read. -/
inductive EscapePhase
  | plain
  | backslash
  | unit (count : Nat) (value : Nat)
deriving DecidableEq, Repr

/-- What the next character belongs to. `value` and `name` tell whether the
container just opened may also be closed. -/
inductive Mode
  | value (closable : Bool)
  | name (closable : Bool)
  | colon
  | word (rest : List Char) (result : Document)
  | number (phase : NumberPhase) (numeral : Numeral)
  | text (isName : Bool) (spelling : Spelling) (escape : EscapePhase)
  | after
  | done (root : Document)
  | failed (root : Document)

structure Scan where
  frames : List Frame
  mode : Mode

def Scan.start : Scan := ⟨[], .value false⟩

/-- The blanks of JSON. -/
def isJsonBlank (c : Char) : Bool := c = ' ' || c = '\n' || c = '\r' || c = '\t'

/-- A container that is left open, around what was read inside it last. -/
def Frame.leaveOpen : Frame → Document → Document
  | .array items, .broken => .array items.reverse false
  | .array items, d => .array (d :: items).reverse false
  | .object members none, _ => .object members.reverse false
  | .object members (some name), d => .object ((name, d) :: members).reverse false

/-- The document of a text that stops being JSON inside these containers. -/
def leaveOpen (frames : List Frame) : Document := frames.foldl (fun d f => f.leaveOpen d) .broken

def Scan.fail (frames : List Frame) : Scan := ⟨[], .failed (leaveOpen frames)⟩

/-- Puts a finished value where it belongs. -/
def Scan.deliver (frames : List Frame) (d : Document) : Scan :=
  match frames with
  | [] => ⟨[], .done d⟩
  | .array items :: rest => ⟨.array (d :: items) :: rest, .after⟩
  | .object members (some name) :: rest => ⟨.object ((name, d) :: members) none :: rest, .after⟩
  | .object _ none :: _ => Scan.fail frames

def Scan.close (frames : List Frame) (c : Char) : Scan :=
  match frames with
  | .array items :: rest =>
    if c = ']' then Scan.deliver rest (.array items.reverse true) else Scan.fail frames
  | .object members none :: rest =>
    if c = '\x7d' then Scan.deliver rest (.object members.reverse true) else Scan.fail frames
  | _ => Scan.fail frames

/-- After a value: a comma, the end of the container, or blanks. -/
def Scan.afterValue (frames : List Frame) (c : Char) : Scan :=
  if isJsonBlank c then ⟨frames, .after⟩
  else if c = ',' then
    match frames with
    | .array _ :: _ => ⟨frames, .value false⟩
    | _ => ⟨frames, .name false⟩
  else Scan.close frames c

/-- After the root value only blanks may follow. -/
def Scan.afterRoot (root : Document) (c : Char) : Scan :=
  if isJsonBlank c then ⟨[], .done root⟩ else ⟨[], .failed root⟩

def isDigit19 (c : Char) : Bool := '1' ≤ c && c ≤ '9'

def digitOf (c : Char) : Nat := c.toNat - '0'.toNat

/-- The first character of a value. -/
def Scan.beginValue (frames : List Frame) (closable : Bool) (c : Char) : Scan :=
  if isJsonBlank c then ⟨frames, .value closable⟩
  else if c = '[' then ⟨.array [] :: frames, .value true⟩
  else if c = '\x7b' then ⟨.object [] none :: frames, .name true⟩
  else if c = '"' then ⟨frames, .text false .empty .plain⟩
  else if c = '-' then ⟨frames, .number .minus ⟨true, [], [], none⟩⟩
  else if c = '0' then ⟨frames, .number .zero ⟨false, [0], [], none⟩⟩
  else if isDigit19 c then ⟨frames, .number .whole ⟨false, [digitOf c], [], none⟩⟩
  else if c = 't' then ⟨frames, .word ['r', 'u', 'e'] (.bool true)⟩
  else if c = 'f' then ⟨frames, .word ['a', 'l', 's', 'e'] (.bool false)⟩
  else if c = 'n' then ⟨frames, .word ['u', 'l', 'l'] .null⟩
  else if closable then Scan.close frames c
  else Scan.fail frames

/-- The opening quote of a member's name. -/
def Scan.beginName (frames : List Frame) (closable : Bool) (c : Char) : Scan :=
  if isJsonBlank c then ⟨frames, .name closable⟩
  else if c = '"' then ⟨frames, .text true .empty .plain⟩
  else if closable then Scan.close frames c
  else Scan.fail frames

/-- What a character does to a number: it belongs to it, it follows it, or it spoils it. -/
inductive NumberStep
  | more (phase : NumberPhase) (numeral : Numeral)
  | stop
  | bad

/-- Digits are kept latest first until the number ends. -/
def Numeral.pushWhole (n : Numeral) (c : Char) : Numeral := { n with whole := digitOf c :: n.whole }

def Numeral.pushFraction (n : Numeral) (c : Char) : Numeral :=
  { n with fraction := digitOf c :: n.fraction }

def Numeral.pushExponent (n : Numeral) (c : Char) : Numeral :=
  { n with exponent := n.exponent.map fun e => (e.1, digitOf c :: e.2) }

/-- A number whose digits are most significant first. -/
def Numeral.finish (n : Numeral) : Numeral :=
  { n with
    whole := n.whole.reverse
    fraction := n.fraction.reverse
    exponent := n.exponent.map fun e => (e.1, e.2.reverse) }

def isExponentMark (c : Char) : Bool := c = 'e' || c = 'E'

def NumberPhase.step (n : Numeral) (c : Char) : NumberPhase → NumberStep
  | .minus =>
    if c = '0' then .more .zero (n.pushWhole c)
    else if isDigit19 c then .more .whole (n.pushWhole c)
    else .bad
  | .zero =>
    if c = '.' then .more .point n
    else if isExponentMark c then .more .mark { n with exponent := some (false, []) }
    else if c.isDigit then .bad
    else .stop
  | .whole =>
    if c.isDigit then .more .whole (n.pushWhole c)
    else if c = '.' then .more .point n
    else if isExponentMark c then .more .mark { n with exponent := some (false, []) }
    else .stop
  | .point => if c.isDigit then .more .fraction (n.pushFraction c) else .bad
  | .fraction =>
    if c.isDigit then .more .fraction (n.pushFraction c)
    else if isExponentMark c then .more .mark { n with exponent := some (false, []) }
    else .stop
  | .mark =>
    if c.isDigit then .more .exponent (n.pushExponent c)
    else if c = '+' then .more .sign n
    else if c = '-' then .more .sign { n with exponent := some (true, []) }
    else .bad
  | .sign => if c.isDigit then .more .exponent (n.pushExponent c) else .bad
  | .exponent => if c.isDigit then .more .exponent (n.pushExponent c) else .stop

/-- The character that a backslash and a letter stand for. -/
def simpleEscape? (c : Char) : Option Char :=
  if c = '"' then some '"'
  else if c = '\\' then some '\\'
  else if c = '/' then some '/'
  else if c = 'b' then some '\x08'
  else if c = 'f' then some '\x0c'
  else if c = 'n' then some '\n'
  else if c = 'r' then some '\r'
  else if c = 't' then some '\t'
  else none

def hexDigit? (c : Char) : Option Nat :=
  if '0' ≤ c && c ≤ '9' then some (c.toNat - '0'.toNat)
  else if 'a' ≤ c && c ≤ 'f' then some (c.toNat - 'a'.toNat + 10)
  else if 'A' ≤ c && c ≤ 'F' then some (c.toNat - 'A'.toNat + 10)
  else none

/-- The closing quote: of a name, which then waits for its value, or of a value. -/
def Scan.endText (frames : List Frame) (isName : Bool) (s : Spelling) : Scan :=
  if isName then
    match frames with
    | .object members _ :: rest => ⟨.object members (some s.text?) :: rest, .colon⟩
    | _ => Scan.fail frames
  else Scan.deliver frames (.text s.text?)

def Scan.textStep (frames : List Frame) (isName : Bool) (s : Spelling) (c : Char) :
    EscapePhase → Scan
  | .plain =>
    if c = '"' then Scan.endText frames isName s
    else if c = '\\' then ⟨frames, .text isName s .backslash⟩
    else if c.toNat < 0x20 then Scan.fail frames
    else ⟨frames, .text isName (s.push c) .plain⟩
  | .backslash =>
    if c = 'u' then ⟨frames, .text isName s (.unit 0 0)⟩
    else match simpleEscape? c with
      | some x => ⟨frames, .text isName (s.push x) .plain⟩
      | none => Scan.fail frames
  | .unit count value =>
    match hexDigit? c with
    | none => Scan.fail frames
    | some h =>
      if count < 3 then ⟨frames, .text isName s (.unit (count + 1) (16 * value + h))⟩
      else ⟨frames, .text isName (s.pushUnit (16 * value + h)) .plain⟩

/-- Reads the next character of a word; the last one ends it. -/
def Scan.wordStep (frames : List Frame) (rest : List Char) (result : Document) (c : Char) : Scan :=
  match rest with
  | [] => Scan.fail frames
  | x :: more =>
    if c = x then
      if more.isEmpty then Scan.deliver frames result else ⟨frames, .word more result⟩
    else Scan.fail frames

/-- A character after a value that has just been put in its place. -/
def Scan.follow (s : Scan) (c : Char) : Scan :=
  match s.mode with
  | .done root => Scan.afterRoot root c
  | _ => Scan.afterValue s.frames c

def Scan.step (s : Scan) (c : Char) : Scan :=
  match s.mode with
  | .value closable => Scan.beginValue s.frames closable c
  | .name closable => Scan.beginName s.frames closable c
  | .colon =>
    if isJsonBlank c then s
    else if c = ':' then ⟨s.frames, .value false⟩
    else Scan.fail s.frames
  | .word rest result => Scan.wordStep s.frames rest result c
  | .number phase n =>
    match phase.step n c with
    | .more p m => ⟨s.frames, .number p m⟩
    | .stop => (Scan.deliver s.frames (.number n.finish)).follow c
    | .bad => Scan.fail s.frames
  | .text isName spelling escape => Scan.textStep s.frames isName spelling c escape
  | .after => Scan.afterValue s.frames c
  | .done root => Scan.afterRoot root c
  | .failed _ => s

/-- At the end of the text a number may just have ended; all else that is not
finished stays open. -/
def Scan.atEnd (s : Scan) : Scan :=
  match s.mode with
  | .done _ | .failed _ => s
  | .number phase n =>
    if phase.complete then
      match s.frames with
      | [] => ⟨[], .done (.number n.finish)⟩
      | frames => Scan.fail (Scan.deliver frames (.number n.finish)).frames
    else Scan.fail s.frames
  | _ => Scan.fail s.frames

/-- The document of a text, and whether the text is JSON to its end. -/
def Scan.result (s : Scan) : Document × Bool :=
  match s.atEnd.mode with
  | .done root => (root, true)
  | .failed root => (root, false)
  | _ => (.broken, false)

def scanDocument (text : List Char) : Document × Bool := (text.foldl Scan.step .start).result

/-- A byte that belongs to no character spoils the literal it stands in, and
elsewhere fits as little as a control character. -/
def Scan.gap (s : Scan) : Scan :=
  match s.mode with
  | .text isName spelling .plain => ⟨s.frames, .text isName spelling.spoil .plain⟩
  | _ => s.step '\x00'

/-- Reads bytes in UTF-8, going on after each byte that does not fit. -/
def Scan.readBytes (s : Scan) (bytes : List UInt8) : Scan :=
  match _h : utf8Fault? bytes with
  | none => (utf8Text bytes).toList.foldl Scan.step s
  | some f =>
    let valid := (utf8Text (bytes.take f.index)).toList.foldl Scan.step s
    valid.gap.readBytes (bytes.drop (f.index + 1))
termination_by bytes.length
decreasing_by
  cases bytes with
  | nil => simp [utf8Fault?_nil] at _h
  | cons b rest => simp only [List.length_drop, List.length_cons]; omega

/-- The document of bytes, of which only the literals need not be UTF-8. -/
def scanBytes (bytes : ByteArray) : Document × Bool := (Scan.start.readBytes bytes.toList).result

/-- The value of a text that is one JSON document with blanks around it. -/
def readJson? (text : List Char) : Option Json :=
  match scanDocument text with
  | (d, true) => d.value?
  | (_, false) => none

/-- The value of a text in UTF-8. -/
def readJsonBytes? (body : ByteArray) : Option Json :=
  (String.fromUTF8? body).bind fun s => readJson? s.toList

end AlertRelay
