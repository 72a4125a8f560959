import GbaArm.Text.Hex
import GbaArm.Text.Markless

/-! Text in double quotes, with an escape for every character that could not be told apart. -/
namespace GbaArm.Text

def quotedChar (c : Char) : String :=
  if c = '\x00' then "\\0"
  else if c = '\t' then "\\t"
  else if c = '\n' then "\\n"
  else if c = '\r' then "\\r"
  else if c = '"' then "\\\""
  else if c = '\\' then "\\\\"
  else if isMarkless c then "\\u\x7b" ++ hexLower 1 c.toNat ++ "\x7d"
  else c.toString

def quoted (text : String) : String := "\"" ++ String.join (text.toList.map quotedChar) ++ "\""

end GbaArm.Text
