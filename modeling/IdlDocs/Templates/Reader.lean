import IdlDocs.Json.Reader
import IdlDocs.Templates.Basic

/-!
# Reading templates

A source text of a template is a row of texts with **tags** between them.  Tags that
open, divide and close a block nest; a comment, or a tag of a block, that stands alone in
its line takes the line with it.

* `Tag`, `tags`: the tags of a text.
* `trimLines`: the texts without the lines of the tags that stand alone.
* `assemble`: the pieces of texts and tags.
* `parse?`: **the template of a source text.**
-/

namespace IdlDocs.Templates

open Text Text.Parser

/-- The name and the arguments of a tag. -/
structure Call where
  head : Expr
  args : List Expr := []
  named : List (String × Expr) := []

/-- A tag. -/
inductive Tag
  | comment
  | fill (call : Call)
  | openBlock (call : Call)
  | divide
  /-- Divides a block, of which the second part is a block itself. -/
  | divideOpen (call : Call)
  | closeBlock (name : String)

/-! ## Tags -/

def isBlankChar (c : Char) : Bool := c == ' ' || c == '\t' || c == '\n' || c == '\r'

/-- Reads the blanks in a tag. -/
def blanks : Parser Unit := (fun _ => ()) <$> run isBlankChar

def isNameChar (c : Char) : Bool :=
  c.isAlphanum || c == '_' || c == '-' || c == '$' || 0x80 ≤ c.toNat

def name : Parser String := String.ofList <$> run1 isNameChar

/-- Reads a key of a path: a name, or any text in square brackets. -/
def key : Parser String := name <|> do
  exactly ['[']
  let cs ← run (· ≠ ']')
  exactly [']']
  return String.ofList cs

def moreKeys : Parser (List String) := many (do exactly ['.'] <|> exactly ['/']; key)

def path : Parser Expr := do
  let ups ← many (exactly ['.', '.', '/'])
  (do exactly ['.', '.']; return .path (ups.length + 1) []) <|>
  (do
    let _ ← Parser.optional (exactly ['.', '/'])
    let first ← key
    let more ← moreKeys
    return .path ups.length (if first == "this" then more else first :: more)) <|>
  (do exactly ['.']; return .path ups.length [])

def quotedString : Parser Json :=
  (do return .string (← (← Json.text))) <|>
  (do
    exactly ['\'']
    let cs ← run (· ≠ '\'')
    exactly ['\'']
    return .string (String.ofList cs))

def wordValues : List (String × Json) :=
  [("null", .null), ("true", .bool true), ("false", .bool false)]

def wordValue : Parser Json := do
  let w ← name
  match wordValues.lookup w with
  | some j => return j
  | none => if w.toList.all Char.isDigit then return .number w else failure

def expr : Parser Expr :=
  (do exactly ['@']; return .mark (← name)) <|>
  .literal <$> quotedString <|>
  .literal <$> wordValue <|>
  path

def namedArgument : Parser (String × Expr) := do
  let n ← name
  blanks
  exactly ['=']
  blanks
  let e ← expr
  blanks
  return (n, e)

def call : Parser Call := do
  blanks
  let head ← expr
  blanks
  let args ← many (do notNamed; let e ← expr; blanks; return e)
  let named ← many namedArgument
  return { head, args, named }
where
  /-- Refuses an argument with a name. -/
  notNamed : Parser Unit := fun s =>
    match namedArgument s with
    | some _ => none
    | none => some ((), s)

def otherwise : Parser Unit := do
  blanks
  exactly "else".toList
  notBefore isNameChar
  blanks

def tagBody : Parser Tag :=
  (do let _ ← mark "#"; return .openBlock (← call)) <|>
  (do
    mark "/"
    let n ← name
    blanks
    return .closeBlock n) <|>
  (do mark "^"; return .divide) <|>
  (do otherwise; notAtCall; return .divide) <|>
  (do otherwise; return .divideOpen (← call)) <|>
  (do let _ ← Parser.optional (mark "&"); return .fill (← call))
where
  /-- Reads a mark and the blanks around it. -/
  mark (m : String) : Parser Unit := do
    blanks
    exactly m.toList
    blanks
  /-- Refuses a text that starts with a name. -/
  notAtCall : Parser Unit := notBefore fun c => c != '\x7d'

/-- The text after a mark, if it stands in the text. -/
def after (m : String) : Parser Unit := fun s => (Text.cutAt m.toList s).map fun (_, r) => ((), r)

def tag : Parser Tag :=
  (do exactly "\x7b\x7b!--".toList; after "--\x7d\x7d"; return .comment) <|>
  (do exactly "\x7b\x7b!".toList; after "\x7d\x7d"; return .comment) <|>
  (do
    exactly "\x7b\x7b\x7b".toList
    let c ← call
    exactly "\x7d\x7d\x7d".toList
    return .fill c) <|>
  (do
    exactly "\x7b\x7b".toList
    let t ← tagBody
    exactly "\x7d\x7d".toList
    return t)

/-- Reads a text up to the next tag.  A backslash in front of two braces takes them for
text. -/
def plainText : Parser (List Char) := fun s =>
  let rec go : List Char → List Char × List Char
    | '\\' :: '\x7b' :: '\x7b' :: r =>
      let (t, r) := go r
      ('\\' :: '\x7b' :: '\x7b' :: t, r)
    | '\x7b' :: '\x7b' :: r => ([], '\x7b' :: '\x7b' :: r)
    | c :: r =>
      let (t, r) := go r
      (c :: t, r)
    | [] => ([], [])
  some (go s)

/-- The texts and the tags of a source text: the first text, and each tag with the text
after it. -/
def tags : Parser (List Char × List (Tag × List Char)) := do
  let first ← plainText
  let rest ← many (do let t ← tag; return (t, ← plainText))
  return (first, rest)

/-! ## Lines -/

def Tag.ownsLine : Tag → Bool
  | fill _ => false
  | comment | openBlock _ | divide | divideOpen _ | closeBlock _ => true

def isLineBlank (c : Char) : Bool := c == ' ' || c == '\t'

/-- A text without the blanks and the line break that it starts with. -/
def withoutFirstLine (s : List Char) : List Char :=
  match s.dropWhile isLineBlank with
  | '\r' :: '\n' :: r => r
  | '\n' :: r => r
  | r => r

def withoutLastBlanks (s : List Char) : List Char := (s.reverse.dropWhile isLineBlank).reverse

/-- Tells whether a text starts with a line of blanks. -/
def startsBlank (s : List Char) : Bool :=
  match s.dropWhile isLineBlank with
  | '\n' :: _ | '\r' :: _ => true
  | _ => false

/-- Tells whether a text ends with the start of a line of blanks; the first text of a
template may be blank as a whole. -/
def endsBlank (isFirst : Bool) (s : List Char) : Bool :=
  match withoutLastBlanks s |>.getLast? with
  | some c => c == '\n' || c == '\r'
  | none => isFirst

/-- The texts without the lines of the tags that stand alone in their line.  `before` is
the text in front, as it is written and as it is kept. -/
def trimLines (isFirst : Bool) (written kept : List Char) :
    List (Tag × List Char) → List Char × List (Tag × List Char)
  | [] => (kept, [])
  | (t, s) :: rest =>
    let alone := t.ownsLine && endsBlank isFirst written && startsBlank s
    let (s', rest') := trimLines false s (if alone then withoutFirstLine s else s) rest
    (if alone then withoutLastBlanks kept else kept, (t, s') :: rest')

/-! ## Pieces -/

/-- The text with the backslashes in front of two braces taken away. -/
def unescape : List Char → List Char
  | '\\' :: '\x7b' :: '\x7b' :: r => '\x7b' :: '\x7b' :: unescape r
  | c :: r => c :: unescape r
  | [] => []

def textPiece (s : List Char) : List Piece :=
  if s.isEmpty then [] else [.text (String.ofList (unescape s))]

/-- The name of a helper or a block. -/
def Call.name (c : Call) : String :=
  match c.head with
  | .path 0 [n] => n
  | _ => ""

/-- The names that stand for helpers even without arguments. -/
def helperNames : List String := ["macro", "xref", "if", "unless", "each", "with", "lookup"]

/-- The piece of a call outside of blocks: a value if it has no arguments. -/
def Call.piece (c : Call) : Piece :=
  if c.args.isEmpty && c.named.isEmpty && !(helperNames.contains c.name) then .value c.head
  else .call c.name c.args c.named

/-- The piece of a block.  A block that is no condition and no repetition is the call of a
helper. -/
def blockPiece (c : Call) (first second : List Piece) : Piece :=
  match c.name, c.args with
  | "if", e :: _ => .choice e first second
  | "unless", e :: _ => .choice e second first
  | "each", e :: _ => .repeat e first second
  | n, args => .call n args c.named

/-- A block that is open. -/
structure OpenBlock where
  call : Call
  /-- The pieces in front of it, the last one first. -/
  before : List Piece
  /-- The first part, once the second one has begun. -/
  first : Option (List Piece) := none
  /-- It is the second part of the block around it. -/
  isChained : Bool := false

def OpenBlock.close (b : OpenBlock) (last : List Piece) : Piece :=
  match b.first with
  | some first => blockPiece b.call first last
  | none => blockPiece b.call last []

/-- Closes the block of a name, with the blocks that are its second part.  Pieces are
listed with the last one first. -/
def closeTo (name : String) (here : List Piece) :
    List OpenBlock → Option (List Piece × List OpenBlock)
  | [] => none
  | b :: bs =>
    let here' := b.close here.reverse :: b.before
    if b.isChained then closeTo name here' bs
    else if b.call.name == name then some (here', bs) else none

/-- Begins the second part of a block. -/
def divideTop (here : List Piece) : List OpenBlock → Option (List OpenBlock)
  | [] => none
  | b :: bs => if b.first.isSome then none else some ({ b with first := some here.reverse } :: bs)

/-- The pieces of texts and tags, after the pieces `here` and within the open blocks. -/
def assemble (here : List Piece) (blocks : List OpenBlock) :
    List (Tag × List Char) → Option Template
  | [] => if blocks.isEmpty then some here.reverse else none
  | (t, s) :: rest =>
    let after (pieces : List Piece) := (textPiece s).reverse ++ pieces
    match t with
    | .comment => assemble (after here) blocks rest
    | .fill c => assemble (after (c.piece :: here)) blocks rest
    | .openBlock c => assemble (after []) ({ call := c, before := here } :: blocks) rest
    | .divide => do assemble (after []) (← divideTop here blocks) rest
    | .divideOpen c => do
      let blocks ← divideTop here blocks
      assemble (after []) ({ call := c, before := [], isChained := true } :: blocks) rest
    | .closeBlock n => do
      let (here, blocks) ← closeTo n here blocks
      assemble (after here) blocks rest

def parse? (source : String) : Option Template := do
  let (first, rest) ← wholly tags source.toList
  let (first, rest) := trimLines true first first rest
  assemble (textPiece first).reverse [] rest

end IdlDocs.Templates
