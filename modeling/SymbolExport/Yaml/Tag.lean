import SymbolExport.Yaml.Cursor

/-! Tags of nodes, and the tag of a plain scalar by its form. -/
namespace SymbolExport.Yaml

inductive Tag
  | null
  | bool
  | int
  | float
  | str
  | binary
  | timestamp
  | sequence
  | mapping
  | set
  | orderedMap
  | pairs
  | merge
  | default
  | other
  deriving DecidableEq, Repr

def standardTags : List (String × Tag) :=
  [("null", .null), ("bool", .bool), ("int", .int), ("float", .float), ("str", .str),
   ("binary", .binary), ("timestamp", .timestamp), ("seq", .sequence), ("map", .mapping),
   ("set", .set), ("omap", .orderedMap), ("pairs", .pairs), ("merge", .merge), ("value", .default)]

def standardStart : List Char :=
  "tag:yaml.org,2002:".toList

def Tag.ofUri (uri : List Char) : Tag :=
  if standardStart.isPrefixOf uri then
    let name := uri.drop standardStart.length
    ((standardTags.find? fun entry => entry.1.toList = name).map Prod.snd).getD .other
  else .other

/-! Forms of plain scalars. A recogniser takes the rest of a scalar and gives what may follow. -/

def isDigitOrBar (c : Char) : Bool :=
  c.isDigit || c = '_'

/-- A digit and then digits and underscores. -/
def digitsBars? : List Char → Option (List Char)
  | d :: rest => if d.isDigit then some (rest.dropWhile isDigitOrBar) else none
  | [] => none

def dropSign : List Char → List Char
  | '+' :: rest | '-' :: rest => rest
  | cs => cs

/-- Groups of a colon and one or two digits below sixty, at least one. -/
def sixties (atLeastOne : Bool) : List Char → Option (List Char)
  | ':' :: a :: b :: rest =>
    if '0' ≤ a && a ≤ '5' && b.isDigit then sixties false rest
    else if a.isDigit then sixties false (b :: rest)
    else if atLeastOne then none else some (':' :: a :: b :: rest)
  | [':', a] => if a.isDigit then some [] else if atLeastOne then none else some [':', a]
  | cs => if atLeastOne then none else some cs
termination_by cs => cs.length

/-- An exponent with a sign, up to the end; or nothing. -/
def isExponent : List Char → Bool
  | [] => true
  | e :: s :: d :: rest =>
    (e = 'e' || e = 'E') && (s = '+' || s = '-') && d.isDigit && rest.all Char.isDigit
  | _ => false

def isPointFloat (cs : List Char) : Bool :=
  match digitsBars? (dropSign cs) with
  | some ('.' :: rest) => isExponent (rest.dropWhile isDigitOrBar)
  | _ => false

def isFractionFloat : List Char → Bool
  | '.' :: rest => (digitsBars? rest).any isExponent
  | _ => false

def isSixtiesFloat (cs : List Char) : Bool :=
  match (digitsBars? (dropSign cs)).bind (sixties true) with
  | some ('.' :: rest) => rest.all isDigitOrBar
  | _ => false

def spellings (words : List String) (cs : List Char) : Bool :=
  words.any fun word => word.toList = cs

def isFloatForm (cs : List Char) : Bool :=
  isPointFloat cs || isFractionFloat cs || isSixtiesFloat cs ||
    spellings [".inf", ".Inf", ".INF"] (dropSign cs) || spellings [".nan", ".NaN", ".NAN"] cs

def isDecimalForm : List Char → Bool
  | ['0'] => true
  | d :: rest => '1' ≤ d && d ≤ '9' && rest.all isDigitOrBar
  | [] => false

def isSixtiesInt : List Char → Bool
  | d :: rest =>
    '1' ≤ d && d ≤ '9' && sixties true (rest.dropWhile isDigitOrBar) = some []
  | [] => false

def isIntForm (cs : List Char) : Bool :=
  let bare := dropSign cs
  let based := match bare with
    | '0' :: 'b' :: d :: rest => (d :: rest).all fun c => c = '0' || c = '1' || c = '_'
    | '0' :: 'x' :: d :: rest => (d :: rest).all fun c => isHexChar c || c = '_'
    | '0' :: d :: rest => (d :: rest).all fun c => ('0' ≤ c && c ≤ '7') || c = '_'
    | _ => false
  based || isDecimalForm bare || isSixtiesInt bare

def isBoolForm : List Char → Bool :=
  spellings ["yes", "Yes", "YES", "no", "No", "NO", "true", "True", "TRUE", "false", "False",
    "FALSE", "on", "On", "ON", "off", "Off", "OFF"]

def isNullForm : List Char → Bool :=
  spellings ["~", "null", "Null", "NULL", ""]

/-- The parts of a date with an optional time, as digits. -/
structure MomentParts where
  year : List Char
  month : List Char
  day : List Char
  time? : Option (List Char × List Char × List Char) := none
  fraction : List Char := []
  zone? : Option (Char × List Char × List Char) := none

/-- Digits at the head, from `least` to `most` of them. -/
def someDigits? (least most : Nat) (cs : List Char) : Option (List Char × List Char) :=
  let digits := (cs.take most).takeWhile Char.isDigit
  if digits.length < least then none else some (digits, cs.drop digits.length)

def after? (c : Char) : List Char → Option (List Char)
  | d :: rest => if c = d then some rest else none
  | [] => none

/-- A time zone: `Z`, or a sign, hours and optional minutes, up to the end. -/
def zone? (cs : List Char) : Option (Option (Char × List Char × List Char)) :=
  match cs.dropWhile fun c => c = ' ' || c = '\t' with
  | [] => if cs.isEmpty then some none else none
  | ['Z'] => some (some ('Z', [], []))
  | sign :: rest =>
    if sign = '+' || sign = '-' then do
      let (hours, rest) ← someDigits? 1 2 rest
      match rest with
      | [] => some (some (sign, hours, []))
      | _ =>
        let (minutes, rest) ← someDigits? 2 2 (← after? ':' rest)
        if rest.isEmpty then some (some (sign, hours, minutes)) else none
    else none

/-- Cuts a date and time into its parts. -/
def momentParts? (cs : List Char) : Option MomentParts := do
  let (year, rest) ← someDigits? 4 4 cs
  let (month, rest) ← someDigits? 1 2 (← after? '-' rest)
  let (day, rest) ← someDigits? 1 2 (← after? '-' rest)
  match rest with
  | [] => some { year, month, day }
  | mark :: more =>
    let rest ←
      if mark = 'T' || mark = 't' then some more
      else if mark = ' ' || mark = '\t' then
        some (more.dropWhile fun c => c = ' ' || c = '\t')
      else none
    let (hour, rest) ← someDigits? 1 2 rest
    let (minute, rest) ← someDigits? 2 2 (← after? ':' rest)
    let (second, rest) ← someDigits? 2 2 (← after? ':' rest)
    let (fraction, rest) := match rest with
      | '.' :: more => (more.takeWhile Char.isDigit, more.dropWhile Char.isDigit)
      | rest => ([], rest)
    let zone ← zone? rest
    return { year, month, day, time? := some (hour, minute, second), fraction, zone? := zone }

/-- A plain date has two digits for its month and its day. -/
def isMomentForm (cs : List Char) : Bool :=
  match momentParts? cs with
  | some parts => parts.time?.isSome || (parts.month.length = 2 && parts.day.length = 2)
  | none => false

/-- Forms leave one line feed at the end out of account. -/
def withoutLastBreak (cs : List Char) : List Char :=
  if cs.getLast? = some '\n' then cs.dropLast else cs

/-- The tag of a plain scalar. Indicators of properties alone are reserved. -/
def Tag.ofPlain (text : List Char) : Tag :=
  let cs := withoutLastBreak text
  if isBoolForm cs then .bool
  else if isFloatForm cs then .float
  else if isIntForm cs then .int
  else if cs = ['<', '<'] then .merge
  else if isNullForm cs && (text.isEmpty || !cs.isEmpty) then .null
  else if isMomentForm cs then .timestamp
  else if cs = ['='] then .default
  else if [['!'], ['&'], ['*']].contains cs then .other
  else .str

end SymbolExport.Yaml
