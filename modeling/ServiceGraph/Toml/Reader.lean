import ServiceGraph.Text.Utf8
import ServiceGraph.Toml.Draft
import ServiceGraph.Toml.Scalar
import ServiceGraph.Toml.Token

/-!
# Reading TOML texts

A text is cut into statements at the line ends outside brackets (`statements`). A statement is
empty, opens a table, or sets a key (`Page.add`). A value is read token by token (`Reading.step`):
a `Reading` holds the arrays and inline tables that are open, innermost first, and the place
where the next token stands.
-/

set_option autoImplicit false

namespace ServiceGraph.Toml

/-- How deep arrays and inline tables may nest, and how many parts a key may have. -/
def greatestDepth : Nat := 80

/-! ## Keys -/

/-- Whether a character can stand in a key without quotes. -/
def isBareChar (c : Char) : Bool := c.isAlphanum || c = '_' || c = '-'

/-- The part of a key that a token is. -/
def keyPart? : Token → Option String
  | .word w => if w.all isBareChar then some (String.ofList w) else none
  | .text s false => some s
  | _ => none

/-- The path and the last part of a key that parts with dots between them write. -/
def readParts? : List Token → Option (List String × String)
  | [] => none
  | [part] => (keyPart? part).map fun key => ([], key)
  | part :: .dot :: rest =>
    (keyPart? part).bind fun part => (readParts? rest).map fun r => (part :: r.1, r.2)
  | _ => none

/-- Whether a token is a gap. -/
def Token.isGap : Token → Bool
  | .gap _ => true
  | _ => false

/-- The path and the last part of a key; gaps around its parts say nothing. -/
def readKey (tokens : List Token) : Except SyntaxError (List String × String) :=
  match readParts? (tokens.filter fun t => !t.isGap) with
  | none => .error .unexpectedToken
  | some r => if r.1.length < greatestDepth then .ok r else .error .tooDeep

/-! ## Values -/

/-- An array or inline table that is still open, with what has been read of it. -/
inductive Frame where
  /-- An array; its items, latest first. -/
  | items (read : List Toml)
  /-- An inline table waiting for the value of a key. -/
  | members (read : Draft) (path : List String) (key : String)

/-- Where the next token of a value stands. -/
inductive Place where
  /-- Where a value must start, or an array may close. -/
  | start
  /-- In a value without quotes. -/
  | word (read : List Char)
  /-- After a value without quotes and one space, after which the time of a date may come. -/
  | spaced (read : List Char)
  /-- In an inline table, where a key must start or go on; the tokens of the key, latest first. -/
  | key (read : Draft) (tokens : List Token)
  /-- After a value. -/
  | done (value : Toml)

/-- A value that is being read. -/
structure Reading where
  frames : List Frame := []
  place : Place := .start

namespace Reading

/-- The value of a word. -/
def valueOf (word : List Char) : Except SyntaxError Toml :=
  match readScalar? word with
  | some value => .ok value
  | none => .error .malformedWord

/-- Where an array or inline table opens. -/
def nest (frames : List Frame) (r : Reading) : Except SyntaxError Reading :=
  if frames.length < greatestDepth then .ok r else .error .tooDeep

/-- Takes a token where a value must start. -/
def begin (frames : List Frame) (token : Token) : Except SyntaxError Reading :=
  match frames, token with
  | _, .gap _ => .ok ⟨frames, .start⟩
  | .items _ :: _, .lineEnd => .ok ⟨frames, .start⟩
  | _, .openBracket => nest frames ⟨.items [] :: frames, .start⟩
  | .items read :: outer, .closeBracket => .ok ⟨outer, .done (.array read.reverse)⟩
  | _, .openBrace => nest frames ⟨frames, .key [] []⟩
  | _, .text s _ => .ok ⟨frames, .done (.string s)⟩
  | _, .word w => .ok ⟨frames, .word w⟩
  | _, _ => .error .unexpectedToken

/-- The members of an inline table with one more. -/
def setMember (read : Draft) (path : List String) (key : String) (value : Toml) :
    Except SyntaxError Draft :=
  match read.set? path key value .header with
  | some read => .ok read
  | none => .error .repeatedKey

/-- Takes a token after a value. -/
def resume (frames : List Frame) (value : Toml) (token : Token) : Except SyntaxError Reading :=
  match frames, token with
  | _, .gap _ => .ok ⟨frames, .done value⟩
  | _ :: _, .lineEnd => .ok ⟨frames, .done value⟩
  | .items read :: outer, .comma => .ok ⟨.items (value :: read) :: outer, .start⟩
  | .items read :: outer, .closeBracket => .ok ⟨outer, .done (.array (value :: read).reverse)⟩
  | .members read path key :: outer, .comma =>
    (setMember read path key value).map fun read => ⟨outer, .key read []⟩
  | .members read path key :: outer, .closeBrace =>
    (setMember read path key value).map fun read => ⟨outer, .done (.table (membersToToml read))⟩
  | _, _ => .error .unexpectedToken

/-- Takes a token after a value without quotes. -/
def resumeWord (frames : List Frame) (word : List Char) (token : Token) :
    Except SyntaxError Reading := do
  resume frames (← valueOf word) token

/-- Takes a token in the key of an inline table, where the table may close instead. -/
def takeKey (frames : List Frame) (read : Draft) (tokens : List Token) (token : Token) :
    Except SyntaxError Reading :=
  match tokens, token with
  | [], .gap _ => .ok ⟨frames, .key read []⟩
  | [], .lineEnd => .ok ⟨frames, .key read []⟩
  | [], .closeBrace => .ok ⟨frames, .done (.table (membersToToml read))⟩
  | tokens, .equals =>
    (readKey tokens.reverse).map fun r => ⟨.members read r.1 r.2 :: frames, .start⟩
  | tokens, token => .ok ⟨frames, .key read (token :: tokens)⟩

/-- Takes a token. -/
def step (r : Reading) (token : Token) : Except SyntaxError Reading :=
  match r.place with
  | .start => begin r.frames token
  | .word w =>
    match token with
    | .word more => .ok { r with place := .word (w ++ more) }
    | .dot => .ok { r with place := .word (w ++ ['.']) }
    | .gap [' '] => .ok { r with place := .spaced w }
    | token => resumeWord r.frames w token
  | .spaced w =>
    match token with
    | .word more => .ok { r with place := .word (w ++ ' ' :: more) }
    | token => resumeWord r.frames w token
  | .key read tokens => takeKey r.frames read tokens token
  | .done value => resume r.frames value token

/-- The value that has been read. -/
def finish (r : Reading) : Except SyntaxError Toml :=
  match r.frames, r.place with
  | [], .word w => valueOf w
  | [], .spaced w => valueOf w
  | [], .done value => .ok value
  | _, _ => .error .unexpectedEnd

end Reading

/-- The value that tokens write. -/
def readValue (tokens : List Token) : Except SyntaxError Toml := do
  (← tokens.foldlM Reading.step {}).finish

/-! ## Statements -/

/-- Puts a token in front of the first statement. -/
def consFirst (token : Token) : List (List Token) → List (List Token)
  | [] => [[token]]
  | first :: others => (token :: first) :: others

/-- How a token changes the number of open brackets and braces. -/
def Token.deepen (token : Token) (depth : Nat) : Nat :=
  match token with
  | .openBracket => depth + 1
  | .openBrace => depth + 1
  | .closeBracket => depth - 1
  | .closeBrace => depth - 1
  | _ => depth

/-- The statements of a text; `depth` counts the open brackets and braces. -/
def statements : Nat → List Token → List (List Token)
  | _, [] => [[]]
  | 0, .lineEnd :: rest => [] :: statements 0 rest
  | depth, token :: rest => consFirst token (statements (token.deepen depth) rest)

/-- What has been read of a text. -/
structure Page where
  root : Draft := []
  /-- The path of the table that keys are set in. -/
  here : List String := []

namespace Page

/-- The page with another root, or a failure when there is none. -/
def change (p : Page) (root? : Option Draft) : Except SyntaxError Page :=
  match root? with
  | some root => .ok { p with root }
  | none => .error .repeatedKey

/-- Opens the table that a header names. -/
def openTable (p : Page) (key : List Token) : Except SyntaxError Page := do
  let (path, last) ← readKey key
  { p with here := path ++ [last] }.change (p.root.openTable? path last)

/-- Opens a new table in the series that a header in double brackets names. -/
def addTable (p : Page) (key : List Token) : Except SyntaxError Page := do
  let (path, last) ← readKey key
  { p with here := path ++ [last] }.change (p.root.addTable? path last)

/-- Sets a key of the open table. -/
def set (p : Page) (key value : List Token) : Except SyntaxError Page := do
  let (path, last) ← readKey key
  let value ← readValue value
  let change := fun origin inner => Draft.set? path last value origin inner
  p.change (Draft.changeAt? .free change p.here .header p.root)

/-- Adds a statement. -/
def add (p : Page) (statement : List Token) : Except SyntaxError Page :=
  let tokens := ((statement.dropWhile Token.isGap).reverse.dropWhile Token.isGap).reverse
  match tokens with
  | [] => .ok p
  | .openBracket :: .openBracket :: rest =>
    match rest.reverse with
    | .closeBracket :: .closeBracket :: key => p.addTable key.reverse
    | _ => .error .unexpectedToken
  | .openBracket :: rest =>
    match rest.reverse with
    | .closeBracket :: key => p.openTable key.reverse
    | _ => .error .unexpectedToken
  | tokens =>
    match tokens.dropWhile (· ≠ .equals) with
    | _ :: value => p.set (tokens.takeWhile (· ≠ .equals)) value
    | [] => .error .unexpectedToken

end Page

/-- Reads a text. -/
def read (s : String) : Except SyntaxError Members := do
  let tokens ← scan (Text.dropByteOrderMark s.toList)
  let page ← (statements 0 tokens).foldlM Page.add {}
  return membersToToml page.root

end ServiceGraph.Toml
