import Sexp.Decimal.Basic
import Sexp.Proofs.Text.Quoted

/-!
# Decoding JSON

A decoder for the whole of JSON: values of all six kinds, space between all parts of
a text, every escape of strings with surrogate pairs, and numbers with a fraction and
an exponent.  It knows nothing of how texts are written here, and so it can judge them.
In the extended notation three words stand for the numbers that are not finite, which
plain JSON cannot express.

A number is read as the nearest floating point number, and as an infinity if it is past
the largest one.
-/

namespace Sexp

/-- A JSON value of any kind.  The members of an object keep their order. -/
inductive JsonValue
  | null
  | boolean (value : Bool)
  | number (value : Binary64)
  | string (text : Text)
  | array (items : List JsonValue)
  | object (members : List (Text × JsonValue))

/-- Plain JSON, or JSON with words for the numbers that are not finite. -/
inductive JsonNotation
  | plain
  | extended
  deriving DecidableEq

/-- The parts of a JSON number: its minus sign, the digits before and after the point, and
the exponent of ten. -/
structure JsonNumber where
  negative : Bool
  whole : Text
  fraction : Text
  exponent : Int

namespace JsonNumber

/-- One or more digits, and what follows them. -/
def digits? (text : Text) : Option (Text × Text) :=
  match text.takeWhile Char.isDigit with
  | [] => none
  | digits => some (digits, text.dropWhile Char.isDigit)

def minus : Text → Bool × Text
  | '-' :: rest => (true, rest)
  | text => (false, text)

/-- A single zero, or digits of which the first is not zero. -/
def whole? : Text → Option (Text × Text)
  | '0' :: rest => some (['0'], rest)
  | text => digits? text

/-- A point with digits after it, or nothing. -/
def fraction? : Text → Option (Text × Text)
  | '.' :: rest => digits? rest
  | text => some ([], text)

/-- A natural number that is the whole of a text; zeros may begin it. -/
def natural? (text : Text) : Option Nat :=
  match digits? text with
  | some (digits, []) => some (Nat.ofDigitChars 10 digits 0)
  | _ => none

/-- The letter of an exponent with its sign and digits, or nothing. -/
def exponent? : Text → Option Int
  | [] => some 0
  | letter :: rest =>
      if letter = 'e' ∨ letter = 'E' then
        match rest with
        | '+' :: digits => (natural? digits).map Int.ofNat
        | '-' :: digits => (natural? digits).map fun n : Nat => -(n : Int)
        | digits => (natural? digits).map Int.ofNat
      else
        none

/-- The parts of a text that is a number as a whole. -/
def ofText? (text : Text) : Option JsonNumber := do
  let (negative, unsigned) := minus text
  let (whole, rest) ← whole? unsigned
  let (fraction, rest) ← fraction? rest
  let exponent ← exponent? rest
  return ⟨negative, whole, fraction, exponent⟩

/-- The size of a number. -/
def toDecimal (number : JsonNumber) : Decimal where
  coefficient := Nat.ofDigitChars 10 (number.whole ++ number.fraction) 0
  exponent := number.exponent - number.fraction.length

/-- The nearest floating point number. -/
def toBinary64 (number : JsonNumber) : Binary64 :=
  number.toDecimal.toMagnitude?.elim (.infinity number.negative) (.finite number.negative)

end JsonNumber

namespace JsonValue

def isSpace (c : Char) : Bool := c == ' ' || c == '\t' || c == '\n' || c == '\r'

def skipSpace (text : Text) : Text := text.dropWhile isSpace

/-- Whether a character belongs to a word: it is no space, no quotation mark and none of
the six marks of structure. -/
def isWordChar (c : Char) : Bool :=
  !(isSpace c || "\x22[]\x7b\x7d:,".toList.contains c)

/-- The value that a word stands for. -/
def ofWord? (style : JsonNotation) (word : Text) : Option JsonValue :=
  if word = "null".toList then some null
  else if word = "true".toList then some (boolean true)
  else if word = "false".toList then some (boolean false)
  else if style = .extended ∧ word = "NaN".toList then some (number .nan)
  else if style = .extended ∧ word = "Infinity".toList then some (number (.infinity false))
  else if style = .extended ∧ word = "-Infinity".toList then some (number (.infinity true))
  else (JsonNumber.ofText? word).map fun parts => number parts.toBinary64

/-- The characters that follow a backslash, and what they stand for. -/
def escapes : List (Char × Char) :=
  [('\x22', '\x22'), ('\\', '\\'), ('/', '/'), ('b', '\x08'), ('f', '\x0C'), ('n', '\n'),
   ('r', '\r'), ('t', '\t')]

/-- Puts a unit before the units that were found, and keeps what follows them. -/
def before (unit : Nat) (found : List Nat × Text) : List Nat × Text :=
  (unit :: found.1, found.2)

/-- The code units of a string up to its closing mark, and what follows the mark.  A
character that stands for itself is one unit, even when it is large. -/
def units? : Text → Option (List Nat × Text)
  | [] => none
  | '\x22' :: rest => some ([], rest)
  | '\\' :: 'u' :: a :: b :: c :: d :: rest =>
      (hexNumber? [a, b, c, d]).bind fun unit => (units? rest).map (before unit)
  | '\\' :: letter :: rest =>
      (escapes.lookup letter).bind fun c => (units? rest).map (before c.toNat)
  | c :: rest =>
      if c.toNat < 0x20 ∨ c = '\\' then none else (units? rest).map (before c.toNat)

def isHighSurrogate (unit : Nat) : Bool := 0xD800 ≤ unit && unit < 0xDC00

def isLowSurrogate (unit : Nat) : Bool := 0xDC00 ≤ unit && unit < 0xE000

/-- The text of a sequence of code units.  A high surrogate and a low one after it make a
character together; a surrogate on its own makes none. -/
def ofUnits? : List Nat → Option Text
  | [] => some []
  | unit :: rest =>
      if isLowSurrogate unit then none
      else if isHighSurrogate unit then
        match rest with
        | low :: rest =>
            if isLowSurrogate low then
              (ofUnits? rest).map
                (Char.ofNat (0x10000 + (unit - 0xD800) * 0x400 + (low - 0xDC00)) :: ·)
            else
              none
        | [] => none
      else (ofUnits? rest).map (Char.ofNat unit :: ·)

/-- The text of a string after its opening mark, and what follows its closing mark. -/
def string? (text : Text) : Option (Text × Text) := do
  let (units, rest) ← units? text
  let content ← ofUnits? units
  return (content, rest)

mutual

/-- The value at the beginning of a text, and what follows it.  The count bounds how deep
the recursion goes. -/
def value? (style : JsonNotation) : Nat → Text → Option (JsonValue × Text)
  | 0, _ => none
  | count + 1, text =>
      match skipSpace text with
      | '\x22' :: rest => (string? rest).map fun (content, rest) => (string content, rest)
      | '[' :: rest =>
          match skipSpace rest with
          | ']' :: rest => some (array [], rest)
          | rest => (items? style count rest).map fun (items, rest) => (array items, rest)
      | '\x7b' :: rest =>
          match skipSpace rest with
          | '\x7d' :: rest => some (object [], rest)
          | rest =>
              (members? style count rest).map fun (members, rest) => (object members, rest)
      | rest =>
          (ofWord? style (rest.takeWhile isWordChar)).map fun value =>
            (value, rest.dropWhile isWordChar)

/-- The values up to the end of an array. -/
def items? (style : JsonNotation) : Nat → Text → Option (List JsonValue × Text)
  | 0, _ => none
  | count + 1, text => do
      let (item, rest) ← value? style count text
      match skipSpace rest with
      | ',' :: rest =>
          let (items, rest) ← items? style count rest
          return (item :: items, rest)
      | ']' :: rest => return ([item], rest)
      | _ => none

/-- The names and values up to the end of an object. -/
def members? (style : JsonNotation) : Nat → Text → Option (List (Text × JsonValue) × Text)
  | 0, _ => none
  | count + 1, text =>
      match skipSpace text with
      | '\x22' :: rest => do
          let (name, rest) ← string? rest
          match skipSpace rest with
          | ':' :: rest =>
              let (item, rest) ← value? style count rest
              match skipSpace rest with
              | ',' :: rest =>
                  let (members, rest) ← members? style count rest
                  return ((name, item) :: members, rest)
              | '\x7d' :: rest => return ([(name, item)], rest)
              | _ => none
          | _ => none
      | _ => none

end

/-- The value of a text that is JSON as a whole. -/
def ofText? (style : JsonNotation) (text : Text) : Option JsonValue :=
  match value? style (text.length + 1) text with
  | some (value, rest) => if skipSpace rest = [] then some value else none
  | none => none

example : ofText? .plain " [\"\\ud83d\\ude00\\/\", \x7b\"a\" : [true, null]\x7d ]\n".toList =
    some (array [string "😀/".toList, object [(['a'], array [boolean true, null])]]) := by
  cbv

end JsonValue

end Sexp
