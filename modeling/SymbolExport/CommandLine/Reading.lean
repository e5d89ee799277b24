import SymbolExport.CommandLine
import SymbolExport.Text.Digit
import SymbolExport.Text.Quoted

/-!
Reading the arguments of a command line. All arguments are sorted first: flags, words, and the
separator, behind which there are only words. Then they are taken from left to right.
-/
namespace SymbolExport

open SymbolExport.Text

/-- Why a command line is refused. -/
inductive LineFault
  | ambiguous (argument : String) (flags : List String)
  | needsText (option : OptionForm)
  | takesNoText (option : OptionForm) (text : String)
  | unknownCommand (operand given : String) (choices : List String)
  | noCommand (operand : String)
  | unrecognized (arguments : List String)
  deriving DecidableEq, Repr

def LineFault.message : LineFault → String
  | ambiguous argument flags =>
    "ambiguous option: " ++ argument ++ " could match " ++ ", ".intercalate flags
  | needsText option => "argument " ++ option.label ++ ": expected one argument"
  | takesNoText option text =>
    "argument " ++ option.label ++ ": ignored explicit argument " ++ quoted text
  | unknownCommand operand given choices =>
    "argument " ++ operand ++ ": invalid choice: " ++ quoted given ++ " (choose from " ++
      ", ".intercalate (choices.map quoted) ++ ")"
  | noCommand operand => "the following arguments are required: " ++ operand
  | unrecognized arguments => "unrecognized arguments: " ++ " ".intercalate arguments

/-- How reading can end early. -/
inductive LineEnd
  | help
  | refused (fault : LineFault)
  deriving DecidableEq, Repr

/-- A flag as it is used, with the text that is attached to it. -/
structure FlagUse where
  flag : String
  option : OptionForm
  text? : Option String
  deriving DecidableEq, Repr

/-- What an argument is for the line it stands in. -/
inductive ArgumentRole
  | word
  | separator
  | unknown
  | flag (use : FlagUse)
  deriving DecidableEq, Repr

structure LineItem where
  text : String
  role : ArgumentRole
  deriving DecidableEq, Repr

/-- Separates flags from words. -/
def separatorText : String :=
  "--"

/-- Cuts a text at its first equals sign. -/
def splitEquals? (cs : List Char) : Option (List Char × List Char) :=
  let before := cs.takeWhile (· ≠ '=')
  match cs.drop before.length with
  | _ :: after => some (before, after)
  | [] => none

def isDecimalDigit (c : Char) : Bool :=
  (digitValue? c).isSome

/-- Whether an argument is a negative number. A line feed may end it. -/
def looksNegative (cs : List Char) : Bool :=
  match cs with
  | '-' :: rest =>
    let number := if rest.getLast? = some '\n' then rest.dropLast else rest
    match number.dropWhile isDecimalDigit with
    | [] => !number.isEmpty
    | '.' :: fraction => !fraction.isEmpty && fraction.all isDecimalDigit
    | _ => false
  | _ => false

/-- The uses that an argument can be short for. The text of a flag with one hyphen follows it
directly. -/
def CommandLine.candidates (line : CommandLine) (argument : List Char) : List FlagUse :=
  match argument with
  | '-' :: '-' :: _ =>
    let (start, text?) := match splitEquals? argument with
      | some (before, after) => (before, some (String.ofList after))
      | none => (argument, none)
    line.flags.filterMap fun (flag, option) =>
      if start.isPrefixOf flag.toList then some ⟨flag, option, text?⟩ else none
  | a :: b :: rest =>
    line.flags.filterMap fun (flag, option) =>
      if flag.toList = [a, b] then some ⟨flag, option, some (String.ofList rest)⟩
      else if argument.isPrefixOf flag.toList then some ⟨flag, option, none⟩
      else none
  | _ => []

/-- The use that an argument names in full. -/
def CommandLine.exactUse? (line : CommandLine) (argument : String) : Option FlagUse :=
  match line.option? argument with
  | some option => some ⟨argument, option, none⟩
  | none => do
    let (before, after) ← splitEquals? argument.toList
    let option ← line.option? (String.ofList before)
    return ⟨String.ofList before, option, some (String.ofList after)⟩

/-- The role of an argument. One that starts with a hyphen is still a word if no flag fits and it is
a negative number or contains a space. -/
def CommandLine.role (line : CommandLine) (argument : String) : Except LineFault ArgumentRole :=
  match argument.toList with
  | '-' :: c :: rest =>
    let cs := '-' :: c :: rest
    match line.exactUse? argument with
    | some use => .ok (.flag use)
    | none =>
      match line.candidates cs with
      | [use] => .ok (.flag use)
      | [] => .ok (if looksNegative cs || ' ' ∈ cs then .word else .unknown)
      | uses => .error (.ambiguous argument (uses.map FlagUse.flag))
  | _ => .ok .word

def CommandLine.items (line : CommandLine) : List String → Except LineFault (List LineItem)
  | [] => .ok []
  | argument :: rest =>
    if argument = separatorText then .ok (⟨argument, .separator⟩ :: rest.map (⟨·, .word⟩))
    else do return ⟨argument, ← line.role argument⟩ :: (← line.items rest)

/-- Sorting keeps all arguments and their order. -/
theorem CommandLine.text_of_items {line : CommandLine} {arguments : List String}
    {items : List LineItem} (h : line.items arguments = .ok items) :
    items.map LineItem.text = arguments := by
  induction arguments generalizing items with
  | nil => cases h; rfl
  | cons argument rest ih =>
    unfold CommandLine.items at h
    split at h
    · cases h
      simp [Function.comp_def]
    · cases hi : line.role argument with
      | error fault => simp [hi, bind, Except.bind] at h
      | ok role =>
        cases hr : line.items rest with
        | error fault => simp [hi, hr, bind, Except.bind] at h
        | ok more =>
          simp only [hi, hr, bind, Except.bind, pure, Except.pure, Except.ok.injEq] at h
          simp [← h, ih hr]

/-- The uses in an argument with text: a flag with one hyphen that takes no text may be followed by
further ones, each by its letter. -/
def CommandLine.cluster (line : CommandLine) (flag : String) (option : OptionForm) :
    List Char → Except LineFault (List FlagUse)
  | [] =>
    if option.takesText then .ok [⟨flag, option, some ""⟩] else .error (.takesNoText option "")
  | c :: rest =>
    let text := String.ofList (c :: rest)
    if option.takesText then .ok [⟨flag, option, some text⟩]
    else if flag.startsWith "--" then .error (.takesNoText option text)
    else
      let next := String.ofList ['-', c]
      match line.option? next with
      | none => .error (.takesNoText option text)
      | some nextOption => do
        let more ← if rest.isEmpty then pure [⟨next, nextOption, none⟩]
          else line.cluster next nextOption rest
        return ⟨flag, option, none⟩ :: more

def CommandLine.usesOf (line : CommandLine) (use : FlagUse) : Except LineFault (List FlagUse) :=
  match use.text? with
  | some text => line.cluster use.flag use.option text.toList
  | none => .ok [use]

/-- What the arguments say. The text of an option is none if it is given as the separator. -/
structure LineReading where
  texts : Table (Option String) := []
  switches : Table Bool := []
  operand? : Option String := none
  command? : Option (String × List String) := none
  extras : List String := []
  deriving DecidableEq, Repr

namespace LineReading

/-- Takes a use into account, whose text may be in the next argument. -/
def apply (r : LineReading) (use : FlagUse) (next : String) : Except LineEnd LineReading :=
  match use.option.kind with
  | .help => .error .help
  | .text _ =>
    let text := use.text?.getD next
    .ok { r with texts :=
      r.texts.insert use.option.name (if text = separatorText then none else some text) }
  | .on => .ok { r with switches := r.switches.insert use.option.name true }
  | .onOff =>
    .ok { r with switches := r.switches.insert use.option.name (!use.flag.startsWith "--no-") }

def applyAll (r : LineReading) (next : String) : List FlagUse → Except LineEnd LineReading
  | [] => .ok r
  | use :: rest => do (← r.apply use next).applyAll next rest

def addExtra (r : LineReading) (argument : String) : LineReading :=
  { r with extras := r.extras ++ [argument] }

/-- Takes an argument as the name of a command, to which all behind it belongs. -/
def choose (r : LineReading) (operand given : String) (choices behind : List String) :
    Except LineEnd LineReading :=
  if given ∈ choices then .ok { r with command? := some (given, behind) }
  else .error (.refused (.unknownCommand operand given choices))

/-- The text of an option, none if it is not given. -/
def text? (r : LineReading) (name : String) : Option String :=
  (r.texts.get? name).join

def isOn (r : LineReading) (name : String) : Bool :=
  (r.switches.get? name).getD false

end LineReading

/-- The option whose text is still to come. -/
def waitingOption? (uses : List FlagUse) : Option OptionForm :=
  match uses.getLast? with
  | some ⟨_, option, none⟩ => if option.takesText then some option else none
  | _ => none

namespace CommandLine

/-- Takes the items in order. `waiting` are the uses before a text that is still to come. The
separator counts as an extra argument unless it stands next to the operand; before further arguments
it is taken for the name of a command. -/
def readItems (line : CommandLine) (r : LineReading) (waiting : List FlagUse)
    (isBehindOperand : Bool) : List LineItem → Except LineEnd LineReading
  | [] =>
    match waitingOption? waiting with
    | some option => .error (.refused (.needsText option))
    | none => .ok r
  | item :: rest =>
    match waitingOption? waiting, item.role, line.operand with
    | some _, .word, _ => do readItems line (← r.applyAll item.text waiting) [] false rest
    | some option, _, _ => .error (.refused (.needsText option))
    | none, .unknown, _ => readItems line (r.addExtra item.text) [] false rest
    | none, .flag use, _ => do
      let uses ← (line.usesOf use).mapError .refused
      if (waitingOption? uses).isSome then readItems line r uses false rest
      else readItems line (← r.applyAll "" uses) [] false rest
    | none, .word, .text .. =>
      if r.operand?.isNone then readItems line { r with operand? := some item.text } [] true rest
      else readItems line (r.addExtra item.text) [] false rest
    | none, .separator, .text .. =>
      if r.operand?.isNone || isBehindOperand then readItems line r [] false rest
      else readItems line (r.addExtra item.text) [] false rest
    | none, .word, .command name choices =>
      r.choose name item.text (choices.map Prod.fst) (rest.map LineItem.text)
    | none, .separator, .command name choices =>
      if rest.isEmpty then readItems line (r.addExtra item.text) [] false rest
      else r.choose name item.text (choices.map Prod.fst) (rest.map LineItem.text)

/-- Reads arguments, and leaves it to the caller what becomes of extra ones. -/
def readPart (line : CommandLine) (arguments : List String) : Except LineEnd LineReading := do
  let items ← (line.items arguments).mapError .refused
  let r ← line.readItems {} [] false items
  match line.operand, r.command? with
  | .command name _, none => throw (.refused (.noCommand name))
  | _, _ => return r

/-- Reads arguments; there must be no extra ones. -/
def read (line : CommandLine) (arguments : List String) : Except LineEnd LineReading := do
  let r ← line.readPart arguments
  if r.extras.isEmpty then return r else throw (.refused (.unrecognized r.extras))

end CommandLine

end SymbolExport
