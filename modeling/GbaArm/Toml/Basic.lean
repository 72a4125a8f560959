/-! Values of a TOML document, and tables that grow key by key. -/
namespace GbaArm.Toml

/-- How a table came about, which decides what may be added to it. -/
inductive TableKind
  /-- Named by a header of its own. -/
  | header
  /-- Only passed through by a longer header. -/
  | implied
  /-- Passed through by a dotted key. -/
  | dotted
  /-- Written in braces; nothing may be added. -/
  | closed
  deriving DecidableEq, Repr

inductive Value
  | string (text : String)
  | integer (value : Int)
  | float (text : String)
  | boolean (value : Bool)
  | dateTime (text : String)
  /-- An array of tables, written with double headers, can still grow. -/
  | array (growing : Bool) (items : List Value)
  | table (kind : TableKind) (entries : List (String × Value))
  deriving Repr

/-- The entries of a table, in the order they were added. -/
abbrev Table := List (String × Value)

/-- Why a text is not a document. -/
inductive Problem
  | unexpectedEnd
  | unexpected (c : Char)
  | badEscape
  | badNumber (text : String)
  | badTime (text : String)
  | duplicateKey (key : String)
  | wrongType (key : String)
  deriving DecidableEq, Repr

def Problem.message : Problem → String
  | unexpectedEnd => "TOML parse error: the text ends too early"
  | unexpected c => "TOML parse error: unexpected " ++ c.quote
  | badEscape => "TOML parse error: bad escape in a string"
  | badNumber text => "TOML parse error: bad number " ++ text
  | badTime text => "TOML parse error: bad time " ++ text
  | duplicateKey key => "TOML parse error: duplicate key " ++ key
  | wrongType key => "TOML parse error: wrong type for " ++ key

namespace Table

/-- The value of a key. -/
def find? (table : Table) (key : String) : Option Value := List.lookup key table

/-- Replaces the value of a key by what `f` makes of it, or adds one at the end. -/
def alter (key : String) (f : Option Value → Except Problem Value) : Table → Except Problem Table
  | [] => return [(key, ← f none)]
  | (k, v) :: rest => do
    if k == key then return (k, ← f (some v)) :: rest
    else return (k, v) :: (← alter key f rest)

/-- Replaces the last item of an array. -/
def alterLast (f : Table → Except Problem Table) (key : String) (items : List Value) :
    Except Problem (List Value) :=
  match items.getLast? with
  | some (.table kind entries) => return items.dropLast ++ [.table kind (← f entries)]
  | _ => .error (.duplicateKey key)

/-- Goes down the tables of a header, making those that are missing, and applies `f` to the last. -/
def throughHeader (f : Table → Except Problem Table) : List String → Table → Except Problem Table
  | [], table => f table
  | key :: path, table =>
    table.alter key fun
      | none => return .table .implied (← throughHeader f path [])
      | some (.table .closed _) => .error (.duplicateKey key)
      | some (.table kind entries) => return .table kind (← throughHeader f path entries)
      | some (.array true items) => return .array true (← alterLast (throughHeader f path) key items)
      | some _ => .error (.duplicateKey key)

/-- Goes down the tables of a dotted key. It may not reach into a table with a header of its own. -/
def throughDotted (f : Table → Except Problem Table) : List String → Table → Except Problem Table
  | [], table => f table
  | key :: path, table =>
    table.alter key fun
      | none => return .table .dotted (← throughDotted f path [])
      | some (.table .implied entries) => return .table .implied (← throughDotted f path entries)
      | some (.table .dotted entries) => return .table .dotted (← throughDotted f path entries)
      | some _ => .error (.duplicateKey key)

/-- Adds a key that must be new. -/
def insertNew (key : String) (value : Value) (table : Table) : Except Problem Table :=
  table.alter key fun
    | none => .ok value
    | some _ => .error (.duplicateKey key)

/-- Adds a value under a dotted key: the tables on the way, then the key itself. -/
def insertDotted (path : List String) (key : String) (value : Value) (table : Table) :
    Except Problem Table :=
  throughDotted (insertNew key value) path table

/-- Gives a table its header. -/
def openTable (path : List String) (key : String) (table : Table) : Except Problem Table :=
  throughHeader (alter key fun
    | none => .ok (.table .header [])
    | some (.table .implied entries) => .ok (.table .header entries)
    | some _ => .error (.duplicateKey key)) path table

/-- Adds a table to an array of tables. -/
def openItem (path : List String) (key : String) (table : Table) : Except Problem Table :=
  throughHeader (alter key fun
    | none => .ok (.array true [.table .header []])
    | some (.array true items) => .ok (.array true (items ++ [.table .header []]))
    | some _ => .error (.duplicateKey key)) path table

end Table

end GbaArm.Toml
