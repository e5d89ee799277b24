import SymbolExport.Number.Reading
import SymbolExport.Number.Text
import SymbolExport.Text.Quoted
import SymbolExport.Value

/-!
Literals of a script: what a value looks like there, laid out over lines. A slash inside of a text
is escaped, so that no text can end the script element around it.
-/
namespace SymbolExport

open SymbolExport.Number SymbolExport.Text

inductive Literal
  | null
  | bool (b : Bool)
  | int (i : Int)
  | float (x : Binary64)
  | str (s : String)
  | array (items : List Literal)
  | object (entries : List (String × Literal))
  deriving Repr, Inhabited

/-- Why a value has no literal: by the name of its type, or that of a key, or since an integer has
too many digits. -/
inductive LiteralError
  | value (typeName : String)
  | key (typeName : String)
  | tooManyDigits
  deriving DecidableEq, Repr

def LiteralError.message : LiteralError → String
  | value typeName => "Object of type " ++ typeName ++ " is not JSON serializable"
  | key typeName => "keys must be str, int, float, bool or None, not " ++ typeName
  | tooManyDigits =>
    "Exceeds the limit (4300 digits) for integer string conversion; " ++
      "use sys.set_int_max_str_digits() to increase the limit"

/-- The numeral of an integer. -/
def numeral? (i : Int) : Except LiteralError (List Char) :=
  if exceedsDigits i then .error .tooManyDigits else .ok (intText i)

/-- Numbers outside of the decimal ones have words of their own. -/
def scriptWords : NonFiniteWords :=
  ⟨"NaN".toList, "Infinity".toList⟩

/-- The text of a key: other plain values are written as they would be alone. -/
def Value.key? (v : Value) : Except LiteralError String :=
  match v.str?, v.float?, v.int?, v with
  | some s, _, _, _ => .ok s
  | _, some x, _, _ => .ok (String.ofList (x.textWith scriptWords))
  | _, _, some i, _ => (numeral? i).map String.ofList
  | _, _, _, .bool b => .ok (if b then "true" else "false")
  | _, _, _, .null => .ok "null"
  | _, _, _, v => .error (.key v.typeName)

mutual

def Value.literal? : Value → Except LiteralError Literal
  | .null => .ok .null
  | .bool b => .ok (.bool b)
  | .int i | .derivedInt i | .member _ _ ⟨.int, _⟩ (.int i) =>
    (numeral? i).map fun _ => .int i
  | .float x | .member _ _ ⟨.float, _⟩ (.float x) => .ok (.float x)
  | .str s | .derivedStr s | .member _ _ ⟨.str, _⟩ (.str s) => .ok (.str s)
  | .list items | .tuple items => do return .array (← Value.literals? items)
  | .dict entries => do return .object (← Value.literalEntries? entries)
  | .member enumeration .. => .error (.value enumeration)
  | .object kind => .error (.value kind.typeName)

def Value.literals? : List Value → Except LiteralError (List Literal)
  | [] => .ok []
  | item :: rest => do return (← Value.literal? item) :: (← Value.literals? rest)

def Value.literalEntries? : List (Value × Value) → Except LiteralError (List (String × Literal))
  | [] => .ok []
  | (key, value) :: rest => do
    let name ← key.key?
    return (name, ← Value.literal? value) :: (← Value.literalEntries? rest)

end

/-- A code unit of 16 bits by its number. -/
def escapeUnit (n : Nat) : List Char :=
  '\\' :: 'u' :: hexDigits 4 n

/-- Printable ASCII characters stand for themselves but for two; beyond the first plane a character
is written as two units. -/
def serializeChar (c : Char) : List Char :=
  if c = '"' then ['\\', '"']
  else if c = '\\' then ['\\', '\\']
  else if c = '\n' then ['\\', 'n']
  else if c = '\r' then ['\\', 'r']
  else if c = '\t' then ['\\', 't']
  else if c = '\x08' then ['\\', 'b']
  else if c = '\x0c' then ['\\', 'f']
  else if ' ' ≤ c && c ≤ '~' then [c]
  else if c.toNat < 0x10000 then escapeUnit c.toNat
  else
    let n := c.toNat - 0x10000
    escapeUnit (0xd800 + n / 0x400) ++ escapeUnit (0xdc00 + n % 0x400)

def serializeString (cs : List Char) : List Char :=
  '"' :: cs.flatMap serializeChar ++ ['"']

/-- A new line at a depth of nesting. -/
def lineAt (depth : Nat) : List Char :=
  '\n' :: List.replicate (4 * depth) ' '

/-- Parts on lines of their own, with commas between them. -/
def separatedLines (depth : Nat) : List (List Char) → List Char
  | [] => []
  | [part] => lineAt depth ++ part
  | part :: rest => lineAt depth ++ part ++ ',' :: separatedLines depth rest

mutual

/-- A literal in the common data format of scripts, from a depth of nesting on. -/
def Literal.serialize (depth : Nat) : Literal → List Char
  | .null => "null".toList
  | .bool b => if b then "true".toList else "false".toList
  | .int i => intText i
  | .float x => x.textWith scriptWords
  | .str s => serializeString s.toList
  | .array [] => ['[', ']']
  | .array items =>
    '[' :: separatedLines (depth + 1) (Literal.serializeItems (depth + 1) items) ++
      lineAt depth ++ [']']
  | .object [] => ['\x7b', '\x7d']
  | .object entries =>
    '\x7b' :: separatedLines (depth + 1) (Literal.serializeEntries (depth + 1) entries) ++
      lineAt depth ++ ['\x7d']

def Literal.serializeItems (depth : Nat) : List Literal → List (List Char)
  | [] => []
  | item :: rest => Literal.serialize depth item :: Literal.serializeItems depth rest

def Literal.serializeEntries (depth : Nat) : List (String × Literal) → List (List Char)
  | [] => []
  | (name, value) :: rest =>
    (serializeString name.toList ++ ':' :: ' ' :: Literal.serialize depth value) ::
      Literal.serializeEntries depth rest

end

/-- A slash is escaped wherever it stands. -/
def escapeSlashes (cs : List Char) : List Char :=
  cs.flatMap fun c => if c = '/' then ['\\', '/'] else [c]

/-- The text of a literal in a module. Slashes stand inside of texts only, so that escaping them
changes nothing else. -/
def Literal.text (depth : Nat) (l : Literal) : List Char :=
  escapeSlashes (l.serialize depth)

end SymbolExport
