import SymbolExport.CommandLine.Reading
import SymbolExport.Text.Wrap

/-! The usage and the help of a command line. -/
namespace SymbolExport

open SymbolExport.Text

/-- The width of all lines. -/
def lineWidth : Nat := 78

def spaces (n : Nat) : String :=
  String.ofList (List.replicate n ' ')

/-- How an option stands in the usage. -/
def OptionForm.usage (o : OptionForm) : String :=
  let first := o.flags.headD ""
  let inner := match o.kind with
    | .text placeholder => first ++ " " ++ placeholder
    | .onOff => " | ".intercalate o.flags
    | .help | .on => first
  "[" ++ inner ++ "]"

/-- How an option stands in the help. -/
def OptionForm.header (o : OptionForm) : String :=
  match o.kind with
  | .text placeholder => ", ".intercalate (o.flags.map fun flag => flag ++ " " ++ placeholder)
  | _ => ", ".intercalate o.flags

namespace Operand

def header : Operand → String
  | text name _ => name
  | command _ choices => "\x7b" ++ ",".intercalate (choices.map Prod.fst) ++ "\x7d"

def usageParts : Operand → List String
  | text name _ => ["[" ++ name ++ "]"]
  | command name choices => [header (.command name choices), "..."]

end Operand

/-- Fills lines with parts. `used` counts the columns of the open line so far, and `indent` those of
every further line. -/
def fillParts (indent used : Nat) (line : List String) : List String → List (List String)
  | [] => if line.isEmpty then [] else [line]
  | part :: rest =>
    if used + 1 + part.length > lineWidth && !line.isEmpty then
      line :: fillParts indent (indent + part.length) [part] rest
    else fillParts indent (used + part.length + 1) (line ++ [part]) rest

def joinParts (parts : List String) : String :=
  " ".intercalate parts

def usageStart : String :=
  "usage: "

/-- The usage: one line, or the options and then the operand, indented behind the program. A long
program has a line to itself. -/
def CommandLine.usage (line : CommandLine) : String :=
  let start := usageStart.length
  let options := line.options.map OptionForm.usage
  let operand := line.operand.usageParts
  let whole := joinParts (line.program :: options ++ operand)
  let body :=
    if start + whole.length ≤ lineWidth then whole
    else if 4 * (start + line.program.length) ≤ 3 * lineWidth then
      let indent := start + line.program.length + 1
      let lines := fillParts indent (start - 1) [] (line.program :: options) ++
        fillParts indent (indent - 1) [] operand
      ("\n" ++ spaces indent).intercalate (lines.map joinParts)
    else
      let fill := fillParts start (start - 1) []
      let lines := match fill (options ++ operand) with
        | [single] => [single]
        | _ => fill options ++ fill operand
      ("\n" ++ spaces start).intercalate (line.program :: lines.map joinParts)
  usageStart ++ body ++ "\n"

/-- An entry of a help list: what it is about, and how it is explained. -/
structure HelpEntry where
  indent : Nat
  header : String
  help : String

/-- The lines of an entry. Its help starts in a column of its own, on the header's line if there is
room. -/
def HelpEntry.lines (e : HelpEntry) (column : Nat) : List String :=
  let first := spaces e.indent ++ e.header
  let help := (wrap (max (lineWidth - column) 11) (squeeze e.help.toList)).map String.ofList
  if e.help.isEmpty then [first]
  else if e.header.length + e.indent + 2 ≤ column then
    (first ++ spaces (column - e.indent - e.header.length) ++ help.headD "") ::
      help.tail.map (spaces column ++ ·)
  else first :: help.map (spaces column ++ ·)

def Operand.entries : Operand → List HelpEntry
  | text name help => [⟨2, name, help⟩]
  | command name choices =>
    ⟨2, header (.command name choices), ""⟩ :: choices.map fun (choice, help) => ⟨4, choice, help⟩

/-- The column of all help texts: behind the longest header, but not too far to the right. -/
def helpColumn (entries : List HelpEntry) : Nat :=
  min (((entries.map fun e => e.header.length).foldl max 0) + 4) 24

def CommandLine.help (line : CommandLine) : String :=
  let operand := line.operand.entries
  let options := line.options.map fun o => (⟨2, o.header, o.help⟩ : HelpEntry)
  let column := helpColumn (operand ++ options)
  let description := wrap lineWidth (squeeze line.description.toList)
  let block (title : String) (entries : List HelpEntry) : String :=
    "\n".intercalate (title :: entries.flatMap fun e => e.lines column) ++ "\n"
  let parts := [line.usage] ++
    (if description.isEmpty then []
      else ["\n".intercalate (description.map String.ofList) ++ "\n"]) ++
    [block "positional arguments:" operand, block "options:" options]
  "\n".intercalate parts

/-- What a refused command line is answered. -/
def CommandLine.refusal (line : CommandLine) (fault : LineFault) : String :=
  line.usage ++ line.program ++ ": error: " ++ fault.message ++ "\n"

end SymbolExport
