import GbaArm.Text.Hex

/-! Writing the lines of a TOML document. -/
namespace GbaArm.Toml

/-- Whether a character cannot stand in a string as it is. -/
def needsEscape (c : Char) : Bool := (c.toNat < 0x20 && c != '\t' && c != '\n') || c.toNat == 0x7F

/-- The length of the longest run of `c`. -/
def longestRun (c : Char) (text : List Char) : Nat :=
  (text.foldl (fun (run, longest) d =>
    let run := if d == c then run + 1 else 0
    (run, max longest run)) (0, 0)).2

/-- A character inside double quotes. -/
def escapeChar (keepNewline : Bool) (c : Char) : String :=
  if c == '\x08' then "\\b"
  else if c == '\t' then "\\t"
  else if c == '\n' then if keepNewline then "\n" else "\\n"
  else if c == '\x0c' then "\\f"
  else if c == '\r' then "\\r"
  else if c == '\\' then "\\\\"
  else if needsEscape c then "\\u" ++ Text.hexUpper 4 c.toNat
  else c.toString

/-- Escapes a text for double quotes; a run of quotes may be at most `quotes` long. -/
def escapeText (keepNewline : Bool) (quotes : Nat) : (run : Nat) → List Char → String
  | _, [] => ""
  | run, c :: rest =>
    if c == '"' then
      if quotes ≤ run then "\\\"" ++ escapeText keepNewline quotes 0 rest
      else "\"" ++ escapeText keepNewline quotes (run + 1) rest
    else escapeChar keepNewline c ++ escapeText keepNewline quotes 0 rest

/-- A string in the quotes that need the fewest escapes: double, single, triple double, triple single.
If none does without, it is escaped. -/
def stringText (s : String) : String :=
  let text := s.toList
  let codes := text.any needsEscape
  let backslash := text.contains '\\'
  let multiline := text.contains '\n'
  let doubles := longestRun '"' text
  let singles := longestRun '\'' text
  let first := if multiline then "\n" else ""
  if !codes && !backslash && doubles == 0 && !multiline then
    "\"" ++ escapeText false 0 0 text ++ "\""
  else if !codes && singles == 0 && !multiline then "'" ++ s ++ "'"
  else if !codes && !backslash && doubles ≤ 2 then
    "\"\"\"" ++ first ++ escapeText true 2 0 text ++ "\"\"\""
  else if !codes && singles ≤ 2 then "'''" ++ first ++ s ++ "'''"
  else if multiline then "\"\"\"" ++ first ++ escapeText true 2 0 text ++ "\"\"\""
  else "\"" ++ escapeText false 0 0 text ++ "\""

/-- An array of strings on one line. -/
def flatArray (items : List String) : String := "[" ++ ", ".intercalate (items.map stringText) ++ "]"

/-- An array of strings, one to a line if there are several. -/
def tallArray (items : List String) : String :=
  match items with
  | [] | [_] => flatArray items
  | _ => "[\n" ++ String.join (items.map fun s => "    " ++ stringText s ++ ",\n") ++ "]"

/-- One entry of a document. -/
def entry (key value : String) : String := key ++ " = " ++ value ++ "\n"

end GbaArm.Toml
