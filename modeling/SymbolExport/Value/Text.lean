import SymbolExport.Number.Text
import SymbolExport.Text.Quoted
import SymbolExport.Value

/-! The text of a value, as it is shown alone and as it is shown inside of a collection. -/
namespace SymbolExport

open SymbolExport.Number SymbolExport.Text

def separated : List (List Char) → List Char
  | [] => []
  | [cs] => cs
  | cs :: rest => cs ++ ',' :: ' ' :: separated rest

/-- Bytes, sets and complex numbers have one value each, so one text. -/
def ObjectKind.text : ObjectKind → List Char
  | .bytes => "b'x'".toList
  | .set => "\x7b1\x7d".toList
  | .complex => "1j".toList
  | kind => '<' :: kind.typeName.toList ++ ['>']

mutual

/-- The text of a value inside of a collection: texts are quoted. -/
def Value.inner : Value → List Char
  | .null => "None".toList
  | .bool b => if b then "True".toList else "False".toList
  | .int i | .derivedInt i => intText i
  | .float x => x.text
  | .str s | .derivedStr s => quote s.toList
  | .list items => '[' :: separated (Value.innerAll items) ++ [']']
  | .tuple [item] => '(' :: Value.inner item ++ [',', ')']
  | .tuple items => '(' :: separated (Value.innerAll items) ++ [')']
  | .dict entries => '\x7b' :: separated (Value.innerEntries entries) ++ ['\x7d']
  | .member enumeration name _ value =>
    '<' :: enumeration.toList ++ '.' :: name.toList ++ ':' :: ' ' :: Value.inner value ++ ['>']
  | .object kind => kind.text

def Value.innerAll : List Value → List (List Char)
  | [] => []
  | item :: rest => Value.inner item :: Value.innerAll rest

def Value.innerEntries : List (Value × Value) → List (List Char)
  | [] => []
  | (key, value) :: rest =>
    (Value.inner key ++ ':' :: ' ' :: Value.inner value) :: Value.innerEntries rest

end

def Value.textChars : Value → List Char
  | .str s | .derivedStr s | .member _ _ ⟨.str, true⟩ (.str s) => s.toList
  | .member _ _ ⟨.int, true⟩ value => value.inner
  | .member enumeration name _ _ => enumeration.toList ++ '.' :: name.toList
  | value => value.inner

def Value.text (v : Value) : String :=
  String.ofList v.textChars

end SymbolExport
