import GbaArm.Toml.Number

/-! Reading a TOML document. Each reader gives what it read and the text that follows. -/
namespace GbaArm.Toml

/-- A reader of one construct. -/
abbrev Reader (α : Type) := List Char → Except Problem (α × List Char)

def isBlank (c : Char) : Bool := c == ' ' || c == '\t'

def skipBlank (text : List Char) : List Char := text.dropWhile isBlank

/-- Control characters other than the tab may stand nowhere. -/
def isControl (c : Char) : Bool := (c.toNat < 0x20 && c != '\t') || c.toNat == 0x7F

/-- The problem of a text that does not go on as it should. -/
def stuck {α : Type} : List Char → Except Problem α
  | [] => .error .unexpectedEnd
  | c :: _ => .error (.unexpected c)

/-- A line ends with a line feed, maybe after a carriage return, or with the text. -/
def newline : List Char → Except Problem (List Char)
  | [] => .ok []
  | '\n' :: rest | '\r' :: '\n' :: rest => .ok rest
  | text => stuck text

/-- Blanks, a comment and the end of the line. -/
def lineEnd (text : List Char) : Except Problem (List Char) :=
  match skipBlank text with
  | '#' :: rest => newline (rest.dropWhile fun c => !isControl c)
  | rest => newline rest

/-- Blanks, comments and line ends inside an array. -/
def skipLines : (fuel : Nat) → List Char → Except Problem (List Char)
  | 0, text => .ok text
  | fuel + 1, text =>
    match skipBlank text with
    | '#' :: rest => do skipLines fuel (← newline (rest.dropWhile fun c => !isControl c))
    | '\n' :: rest | '\r' :: '\n' :: rest => skipLines fuel rest
    | rest => .ok rest

/-- The character of a code point, unless it is none. -/
def scalarChar? (digits : List Char) : Option Char :=
  let n := ofDigits 16 digits
  if digits.all (fun c => digitValue c < 16) && n.isValidChar then some (Char.ofNat n) else none

/-- One escape, after its backslash. -/
def escape : Reader Char
  | 'b' :: rest => .ok ('\x08', rest)
  | 't' :: rest => .ok ('\t', rest)
  | 'n' :: rest => .ok ('\n', rest)
  | 'f' :: rest => .ok ('\x0c', rest)
  | 'r' :: rest => .ok ('\r', rest)
  | '"' :: rest => .ok ('"', rest)
  | '\\' :: rest => .ok ('\\', rest)
  | 'u' :: rest =>
    match scalarChar? (rest.take 4) with
    | some c => if (rest.take 4).length = 4 then .ok (c, rest.drop 4) else .error .badEscape
    | none => .error .badEscape
  | 'U' :: rest =>
    match scalarChar? (rest.take 8) with
    | some c => if (rest.take 8).length = 8 then .ok (c, rest.drop 8) else .error .badEscape
    | none => .error .badEscape
  | _ => .error .badEscape

/-- The rest of a string in double quotes. `read` holds what was read, last character first. -/
def basicString : (fuel : Nat) → (read : List Char) → Reader String
  | 0, _, _ => .error .unexpectedEnd
  | fuel + 1, read, text =>
    match text with
    | '"' :: rest => .ok (String.ofList read.reverse, rest)
    | '\\' :: rest => do
      let (c, rest) ← escape rest
      basicString fuel (c :: read) rest
    | c :: rest => if isControl c then .error (.unexpected c) else basicString fuel (c :: read) rest
    | [] => .error .unexpectedEnd

/-- The rest of a string in single quotes. -/
def literalString (text : List Char) : Except Problem (String × List Char) :=
  let body := text.takeWhile fun c => c != '\'' && !isControl c
  match text.drop body.length with
  | '\'' :: rest => .ok (String.ofList body, rest)
  | rest => stuck rest

/-- The rest of a string in triple quotes. One or two quotes may stand right before the last three. -/
def multilineString (quote : Char) (escapes : Bool) :
    (fuel : Nat) → (read : List Char) → Reader String
  | 0, _, _ => .error .unexpectedEnd
  | fuel + 1, read, text =>
    let quotes := (text.takeWhile (· == quote)).length
    if 3 ≤ quotes then
      let extra := min (quotes - 3) 2
      .ok (String.ofList (List.replicate extra quote ++ read).reverse, text.drop (extra + 3))
    else
      match text with
      | '\r' :: '\n' :: rest | '\n' :: rest => multilineString quote escapes fuel ('\n' :: read) rest
      | c :: rest =>
        if c == '\\' && escapes then
          match lineEndAfterBackslash rest with
          | some rest => multilineString quote escapes fuel read rest
          | none => do
            let (c, rest) ← escape rest
            multilineString quote escapes fuel (c :: read) rest
        else if isControl c then .error (.unexpected c)
        else multilineString quote escapes fuel (c :: read) rest
      | [] => .error .unexpectedEnd
where
  /-- A backslash at the end of a line takes all blanks and line ends after it away. -/
  lineEndAfterBackslash (text : List Char) : Option (List Char) :=
    match skipBlank text with
    | '\n' :: rest | '\r' :: '\n' :: rest =>
      some (rest.dropWhile fun c => isBlank c || c == '\n' || c == '\r')
    | _ => none

/-- A line end right after the opening quotes does not count. -/
def skipFirstNewline : List Char → List Char
  | '\n' :: rest | '\r' :: '\n' :: rest => rest
  | text => text

def isBareKey (c : Char) : Bool := c.isAlphanum || c == '_' || c == '-'

def simpleKey : Reader String
  | '"' :: rest => basicString (rest.length + 1) [] rest
  | '\'' :: rest => literalString rest
  | text =>
    let key := text.takeWhile isBareKey
    if key.isEmpty then stuck text else .ok (String.ofList key, text.drop key.length)

/-- A key of one or more parts: the leading parts, and the last. -/
def dottedKey : (fuel : Nat) → Reader (List String × String)
  | 0, text => stuck text
  | fuel + 1, text => do
    let (key, rest) ← simpleKey (skipBlank text)
    match skipBlank rest with
    | '.' :: rest =>
      let ((path, last), rest) ← dottedKey fuel rest
      return ((key :: path, last), rest)
    | rest => return (([], key), rest)

def isScalarChar (c : Char) : Bool :=
  c.isAlphanum || c == '+' || c == '-' || c == '_' || c == '.' || c == ':'

/-- The text of a scalar. A date and a time may have one blank between them. -/
def scalarText (text : List Char) : List Char :=
  let first := text.takeWhile isScalarChar
  match text.drop first.length with
  | ' ' :: rest =>
    if isDate first && looksLikeTime (rest.take 3) then first ++ ' ' :: rest.takeWhile isScalarChar
    else first
  | _ => first

mutual

def value : (fuel : Nat) → Reader Value
  | 0, text => stuck text
  | fuel + 1, text =>
    match text with
    | '"' :: '"' :: '"' :: rest => do
      let (s, rest) ← multilineString '"' true (rest.length + 1) [] (skipFirstNewline rest)
      return (.string s, rest)
    | '"' :: rest => do
      let (s, rest) ← basicString (rest.length + 1) [] rest
      return (.string s, rest)
    | '\'' :: '\'' :: '\'' :: rest => do
      let (s, rest) ← multilineString '\'' false (rest.length + 1) [] (skipFirstNewline rest)
      return (.string s, rest)
    | '\'' :: rest => do
      let (s, rest) ← literalString rest
      return (.string s, rest)
    | '[' :: rest => do
      let (items, rest) ← arrayItems fuel rest
      return (.array false items, rest)
    | '\x7b' :: rest =>
      match skipBlank rest with
      | '\x7d' :: rest => .ok (.table .closed [], rest)
      | _ => do
        let (entries, rest) ← inlineEntries fuel [] rest
        return (.table .closed entries, rest)
    | _ => do
      let word := scalarText text
      if word.isEmpty then stuck text
      else return (← scalar word, text.drop word.length)

/-- The items of an array up to its closing bracket. -/
def arrayItems : (fuel : Nat) → Reader (List Value)
  | 0, text => stuck text
  | fuel + 1, text => do
    match ← skipLines (text.length + 1) text with
    | ']' :: rest => return ([], rest)
    | rest =>
      let (item, rest) ← value fuel rest
      match ← skipLines (rest.length + 1) rest with
      | ',' :: rest =>
        let (items, rest) ← arrayItems fuel rest
        return (item :: items, rest)
      | ']' :: rest => return ([item], rest)
      | rest => stuck rest

/-- The entries of a table in braces, at least one, up to its closing brace. -/
def inlineEntries : (fuel : Nat) → Table → Reader Table
  | 0, _, text => stuck text
  | fuel + 1, table, text => do
    let ((path, key), rest) ← dottedKey (text.length + 1) text
    match rest with
    | '=' :: rest =>
      let (v, rest) ← value fuel (skipBlank rest)
      let table ← table.insertDotted path key v
      match skipBlank rest with
      | ',' :: rest => inlineEntries fuel table rest
      | '\x7d' :: rest => return (table, rest)
      | rest => stuck rest
    | rest => stuck rest

end

/-- Applies `f` to the table that the last header opened. -/
def withinHeader (f : Table → Except Problem Table) : List String → Table → Except Problem Table
  | [], table => f table
  | key :: path, table =>
    table.alter key fun
      | some (.table kind entries) => return .table kind (← withinHeader f path entries)
      | some (.array growing items) =>
        return .array growing (← Table.alterLast (withinHeader f path) key items)
      | _ => .error (.duplicateKey key)

/-- One header or entry: the document so far, and the header that is open. -/
def line (root : Table) (header : List String) (text : List Char) :
    Except Problem (Table × List String × List Char) :=
  match text with
  | '[' :: '[' :: rest => do
    let ((path, key), rest) ← dottedKey (rest.length + 1) rest
    match rest with
    | ']' :: ']' :: rest => return (← root.openItem path key, path ++ [key], rest)
    | rest => stuck rest
  | '[' :: rest => do
    let ((path, key), rest) ← dottedKey (rest.length + 1) rest
    match rest with
    | ']' :: rest => return (← root.openTable path key, path ++ [key], rest)
    | rest => stuck rest
  | _ => do
    let ((path, key), rest) ← dottedKey (text.length + 1) text
    match rest with
    | '=' :: rest =>
      let rest := skipBlank rest
      let (v, rest) ← value (3 * rest.length + 3) rest
      return (← withinHeader (Table.insertDotted path key v) header root, header, rest)
    | rest => stuck rest

def lines : (fuel : Nat) → Table → (header : List String) → List Char → Except Problem Table
  | 0, root, _, _ => .ok root
  | fuel + 1, root, header, text =>
    match skipBlank text with
    | [] => .ok root
    | '#' :: rest => do lines fuel root header (← lineEnd ('#' :: rest))
    | '\n' :: rest | '\r' :: '\n' :: rest => lines fuel root header rest
    | rest => do
      let (root, header, rest) ← line root header rest
      lines fuel root header (← lineEnd rest)

/-- Reads a whole document. A byte order mark in front is skipped. -/
def read (text : String) : Except Problem Table :=
  let chars := match text.toList with
    | '\uFEFF' :: rest => rest
    | chars => chars
  lines (chars.length + 1) [] [] chars

end GbaArm.Toml
