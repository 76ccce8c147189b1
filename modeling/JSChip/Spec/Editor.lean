import JSChip.Lua.Pattern
import JSChip.Machine.Loop

/-!
# The text editor mode

`EDITOR` of `jschip.lua`: what it does to a selection that is commented out, and how it colours a
line. The base editor is not part of the repository. It keeps the selected text and its end points,
and it moves the tokenizer through a line.

* `commentSelection`, `blockCommentSelection`
* `resetTokenizer`: whether a row starts in a block comment.
* `syntaxColorLine`: the coloured segments of a line. Its loops run for a bounded number of rounds.
-/

namespace JSChip.Editor

open Machine Lua

/-! ## Comments around a selection -/

/-- `CommentSelection`: what replaces the selected text. -/
def commentSelection (removecomment : Bool) (selection : Str) : Str :=
  if removecomment then
    let tmp := gsub ('\n' :: selection) (.text ['\n', '/', '/']) fun _ => ['\n']
    tmp.drop 1
  else ['/', '/'] ++ gsub selection (.text ['\n']) fun _ => ['\n', '/', '/']

/-- A place in the text: its row and its column. -/
structure Position where
  row : ℤ
  column : ℤ
deriving DecidableEq, Repr

/-- `MakeSelection` of the base editor: the end points in the order of the text. -/
def makeSelection (selection : Position × Position) : Position × Position :=
  let (a, b) := selection
  if a.row < b.row ∨ a.row = b.row ∧ a.column ≤ b.column then (a, b) else (b, a)

/-- `"^/%*"` -/
def commentStart : Pattern := ⟨true, literal ['/', '*'], false⟩

/-- `"%*/$"` -/
def commentEnd : Pattern := ⟨false, literal ['*', '/'], true⟩

/-- `"^/%*(.+)%*/$"` -/
def blockComment : Pattern :=
  ⟨true, literal ['/', '*'] ++ .plus (fun _ => true) :: literal ['*', '/'], true⟩

/-- `"%1"` for `blockComment`: what its third item matched. -/
def commented (pieces : List Str) : Str := pieces.getD 2 []

/-- `BlockCommentSelection`: what replaces the selected text, and the new end points. -/
def blockCommentSelection (removecomment : Bool) (str : Str) (selection : Position × Position) :
    Str × Position × Position :=
  let (start, caret) := makeSelection selection
  if removecomment then
    if find str commentStart && find str commentEnd then
      (gsub str blockComment commented, start, { caret with column := caret.column - 2 })
    else (str, start, caret)
  else
    (['/', '*'] ++ str ++ ['*', '/'], start,
      { caret with column := caret.column + if caret.row = start.row then 4 else 2 })

/-! ## Where a block comment is open -/

/-- `"[/*][/*]"` -/
def delimiters : Pattern :=
  ⟨false, [.one fun c => c == '/' || c == '*', .one fun c => c == '/' || c == '*'], false⟩

/-- The matches in a row: the first `//` ends the loop. -/
def scanMatches (blockcomment : Bool) : List Str → Bool
  | [] => blockcomment
  | m :: ms =>
    -- a line comment, also within a block comment
    if m = ['/', '/'] then blockcomment
    else if m = ['/', '*'] then scanMatches true ms
    else if m = ['*', '/'] then scanMatches false ms
    else scanMatches blockcomment ms

/-- `ResetTokenizer` when the row `scroll` is the first that can be seen, with `blockcomment` being
nil or true. -/
def resetTokenizer (rows : List Str) (scroll : ℕ) : Bool :=
  (rows.take (scroll - 1)).foldl (fun b row => scanMatches b (gmatch row delimiters)) false

/-! ## The tokenizer -/

/-- What the tokenizer of the base editor has, and the field of the mode. `rest` is the line from
the current character on: past the end, the character is nil. -/
structure Tokenizer where
  rest : Str
  tokendata : Str
  blockcomment : Bool

/-- A loop has used up its rounds. -/
inductive Timeout
  | timeout

/-- The environment is the number of rounds a loop may take. -/
abbrev EditorM := Prog ℕ Tokenizer Timeout

/-- `self.character`. -/
def character : EditorM (Option Char) := do
  let s ← get
  pure s.rest.head?

/-- `NextCharacter`: past the end it does nothing. -/
def nextCharacter : EditorM Unit :=
  modify fun s => match s.rest with
    | [] => s
    | c :: rest => { s with tokendata := s.tokendata ++ [c], rest }

/-- `NextPattern`. -/
def nextPattern (p : Pattern) : EditorM Bool := do
  let s ← get
  if s.rest.isEmpty then pure false else
  match p.matchAt s.rest with
  | some (pieces, rest) => do
    set { s with tokendata := s.tokendata ++ pieces.flatten, rest }
    pure true
  | none => pure false

/-- `ResetTokenizer` of the base editor and the first `NextCharacter`: the first character of the
line is the current one. -/
def rewind (line : Str) : EditorM Unit :=
  modify fun s => { s with rest := line, tokendata := [] }

def clearTokendata : EditorM Unit := modify fun s => { s with tokendata := [] }

def tokendata : EditorM Str := do
  let s ← get
  pure s.tokendata

def setBlockcomment (b : Bool) : EditorM Unit := modify fun s => { s with blockcomment := b }

/-! ## The patterns of a line -/

/-- `".-%*/"` -/
def untilCommentEnd : Pattern := ⟨false, .lazy (fun _ => true) :: literal ['*', '/'], false⟩

/-- `".*"` -/
def restOfLine : Pattern := ⟨false, [.star fun _ => true], false⟩

/-- `" *"` -/
def spaces : Pattern := ⟨false, [.star (· == ' ')], false⟩

/-- `[a-zA-Z0-9_@]` -/
def isWordChar (c : Char) : Bool := c.isAlphanum || c == '_' || c == '@'

/-- `"^[a-zA-Z0-9_@]+"` -/
def word : Pattern := ⟨true, [.plus isWordChar], false⟩

/-- `"^//.*$"` -/
def lineComment : Pattern := ⟨true, literal ['/', '/'] ++ [.star fun _ => true], true⟩

/-! ## Names -/

/-- The names of the colours, which are all different. -/
inductive TokenName
  | normal | bracket | decs | operator | comment | number | string | keyword | loop | className | error
deriving DecidableEq, Repr

def keywordsTable : List String :=
  ["VAR", "CONST", "LET", "FUNCTION", "TRUE", "FALSE", "UNDEFINED", "TYPEOF", "INSTANCEOF", "NEW",
    "NULL", "ASYNC", "DELETE", "CONSTRUCTOR", "THIS", "CLASS", "VOID", "SUPER", "EXTENDS"]

def operatorTable : List String :=
  ["+", "-", "*", "/", "%", "**", "=", "+=", "-=", "*=", "/=", "%=", "**=", "&=", "|=", "^=", "<<=",
    ">>=", ">>>=", "==", "===", "!=", "!==", "<", ">", "<=", ">=", "&&", "||", "!", "&", "|", "^",
    "~", "<<", ">>", ">>>", ".", ",", ";", "?:", "=>", "...", ":", "?."]

def bracketTable : List String := ["\x7b", "\x7d", "[", "]", "(", ")"]

def loopTable : List String :=
  ["DO", "WHILE", "FOR", "IN", "AWAIT", "IF", "ELSE", "SWITCH", "CASE", "DEFAULT", "BREAK", "RETURN",
    "CONTINUE", "TRY", "CATCH", "THROW"]

def stdObjectTable : List String :=
  ["Math", "Object", "Number", "String", "Array", "Date", "globalThis", "Map", "Set", "WeakSet ",
    "WeakMap", "JSON", "Promise", "Symbol", "Proxy", "Atomics", "BigInt", "WeakRef",
    "SharedArrayBuffer", "Error", "TypeError", "RangeError", "SyntaxError", "AggregateError",
    "EvalError", "ReferenceError", "Events", "Inputs", "Outputs", "Entity", "Vector"]

/-- `%s` -/
def isSpace (c : Char) : Bool := [' ', '\t', '\n', '\x0b', '\x0c', '\r'].contains c

/-- `Trim` -/
def trim (s : Str) : Str := ((s.dropWhile isSpace).reverse.dropWhile isSpace).reverse

/-- `string.upper` -/
def upper (s : Str) : Str := s.map Char.toUpper

def isHexDigit (c : Char) : Bool :=
  c.isDigit || ('a' ≤ c && c ≤ 'f') || ('A' ≤ c && c ≤ 'F')

/-- Whether `tonumber` takes a word, in which there is no sign and no point: a decimal numeral,
perhaps with an exponent, or a hexadecimal one. -/
def isNumeral (s : Str) : Bool :=
  let exponent : Item := .one fun c => c == 'e' || c == 'E'
  let hexadecimal : Item := .one fun c => c == 'x' || c == 'X'
  find (trim s) ⟨true, [.plus Char.isDigit], true⟩ ||
    find (trim s) ⟨true, [.plus Char.isDigit, exponent, .plus Char.isDigit], true⟩ ||
    find (trim s) ⟨true, literal ['0'] ++ [hexadecimal, .plus isHexDigit], true⟩

/-! ## Colouring -/

structure Segment where
  text : Str
  color : TokenName
deriving DecidableEq, Repr

/-- The local variables of `SyntaxColorLine`. -/
structure Locals where
  cols : List Segment
  prevSstr : String
  curOperator : Option Char

/-- The end of the loop: a segment that has the colour of the last one is added to it, unless that
is the first. -/
def addSegment (cols : List Segment) (text : Str) (color : TokenName) : List Segment :=
  match cols.getLast? with
  | some last =>
    -- `#cols > 1`: the second segment is never joined to the first
    if 1 < cols.length ∧ color = last.color then
      cols.dropLast ++ [{ last with text := last.text ++ text }]
    else cols ++ [⟨text, color⟩]
  | none => [⟨text, color⟩]

/-- The rest of a block comment. -/
def finishComment : EditorM Unit := do
  if ← nextPattern untilCommentEnd then setBlockcomment false
  else do
    let _ ← nextPattern restOfLine
    pure ()

/-- Keywords and numbers. -/
def wordToken (prevSstr : String) : EditorM (TokenName × String) := do
  let data ← tokendata
  let c ← character
  let sstrLcase := String.ofList (trim data)
  let sstr := String.ofList (upper (trim data))
  let tokenname : TokenName :=
    if sstrLcase ∈ stdObjectTable then .className
    else if sstr ∈ loopTable then .loop
    else if sstr ∈ keywordsTable then .keyword
    else if isNumeral data then .number
    else if prevSstr = "CLASS" then .className
    else if c = some '(' then .decs
    else .normal
  pure (tokenname, sstr)

/-- One round of the loop over a string. -/
def stringRound (delimiter : Char) (tokenname : TokenName) : EditorM (ForInStep TokenName) := do
  match ← character with
  | none => pure (.done .error)
  | some c =>
    if c = delimiter then pure (.done tokenname) else do
    -- the character after a backslash does not end the string
    if c = '\\' then nextCharacter
    nextCharacter
    pure (.yield tokenname)

/-- Strings. -/
def stringToken (delimiter : Char) : EditorM TokenName := do
  nextCharacter
  let n ← read
  let tokenname ← Machine.loop .timeout (stringRound delimiter) n .string
  nextCharacter
  pure tokenname

/-- Multi-line comments. The character behind the comment is taken with it. -/
def commentToken : EditorM Unit := do
  setBlockcomment true
  finishComment
  -- one character more than the comment
  nextCharacter

/-- Individual operators. -/
def operatorToken (curOperator : Option Char) (prevOperator : Char) : EditorM TokenName := do
  nextCharacter
  let c ← character
  let single := String.singleton prevOperator
  pure <|
    if (prevOperator = '=' ∧ c = some '>') ∨ (curOperator = some '=' ∧ prevOperator = '>') then
      .keyword
    else if single ∈ operatorTable then .operator
    else if single ∈ bracketTable then .bracket
    else .normal

def isQuote (c : Char) : Bool := c == '\'' || c == '"' || c == '`'

/-- One token, from the current character on. -/
def token (x : Locals) (c : Char) : EditorM (TokenName × Locals) := do
  if ← nextPattern word then do
    let (tokenname, sstr) ← wordToken x.prevSstr
    pure (tokenname, { x with prevSstr := sstr })
  else if isQuote c then do
    let tokenname ← stringToken c
    pure (tokenname, x)
  else do
  if ← nextPattern lineComment then pure (.comment, x) else do
  if ← nextPattern commentStart then do
    commentToken
    pure (.comment, x)
  else do
    let tokenname ← operatorToken x.curOperator c
    pure (tokenname, { x with curOperator := some c })

/-- One round of the loop over a line. -/
def colorRound (x : Locals) : EditorM (ForInStep Locals) := do
  if (← character).isNone then pure (.done x) else do
  clearTokendata
  let _ ← nextPattern spaces
  match ← character with
  | none => pure (.done x)
  | some c => do
    let (tokenname, x) ← token x c
    let data ← tokendata
    pure (.yield { x with cols := addSegment x.cols data tokenname })

/-- The segment of a block comment that the line begins in. -/
def openSegment : EditorM (List Segment) := do
  let s ← get
  if s.blockcomment then do
    finishComment
    let data ← tokendata
    pure [⟨data, .comment⟩]
  else pure []

/-- `SyntaxColorLine`. -/
def syntaxColorLine (line : Str) : EditorM (List Segment) := do
  rewind line
  let cols ← openSegment
  let n ← read
  let x ← Machine.loop .timeout colorRound n ⟨cols, "", none⟩
  pure x.cols

end JSChip.Editor
