import SymbolExport.Run

/-!
The program on its own. Files, and what modules define, are given by whoever embeds the library, so
this program sees an empty disk: it answers requests for help and refuses what it cannot read.
-/
namespace SymbolExport

def RunEnd.code : RunEnd → UInt32
  | exited code => UInt32.ofNat code
  | failed _ => 1

/-- What is said of a failure that ends the program. -/
def RunEnd.lastWords : RunEnd → String
  | exited _ => ""
  | failed f => f.message ++ "\n"

end SymbolExport

open SymbolExport in
def main (arguments : List String) : IO UInt32 := do
  let (result, _) := newRuntime.run {} arguments
  (← IO.getStdout).putStr result.output
  (← IO.getStderr).putStr (result.errors ++ result.ending.lastWords)
  return result.ending.code
