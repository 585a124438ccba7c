import PluginHost.Json.Error
import PluginHost.Text.Numeral

/-!
# The words of a JSON text

Readers take the rest of the text and give back what they read with the rest behind it.  This
module holds the readers for what has no inner structure: blanks, the three fixed words, texts
in quotation marks, and numbers.

A number without a fraction and without an exponent that fits into 64 bits is kept exactly.  All
others are rounded in two steps: up to nineteen or twenty digits are kept as a whole number, and
that is scaled by a power of ten.
-/

namespace PluginHost.Json

open PluginHost.Decimal PluginHost.Text

/-- A reader takes the rest of the text. -/
abbrev Reader (α : Type) := List Char → Except Error (α × List Char)

/-- The four blank characters of the format. -/
def isSpace (c : Char) : Bool := c == ' ' || c == '\n' || c == '\t' || c == '\r'

/-- The rest without the blanks in front. -/
def skipSpace (cs : List Char) : List Char := cs.dropWhile isSpace

/-- Reads the rest of a fixed word. -/
def readIdent : List Char → List Char → Except Error (List Char)
  | [], cs => .ok cs
  | _ :: _, [] => .error .eofInValue
  | w :: word, c :: cs => if c == w then readIdent word cs else .error .expectedIdent

/-! ## Texts -/

/-- Reads four hexadecimal digits.  With fewer than four bytes left the text ends too early. -/
def readHexFour : Reader Nat
  | a :: b :: c :: d :: rest =>
      match hexValue? a, hexValue? b, hexValue? c, hexValue? d with
      | some a, some b, some c, some d => .ok (((a * 16 + b) * 16 + c) * 16 + d, rest)
      | _, _, _, _ => .error .invalidEscape
  | cs => if (utf8OfChars cs).length < 4 then .error .eofInString else .error .invalidEscape

/-- The characters that stand for themselves or for a control character after a backslash. -/
def simpleEscape? : Char → Option Char
  | '"' => some '"'
  | '\\' => some '\\'
  | '/' => some '/'
  | 'b' => some '\x08'
  | 'f' => some '\x0c'
  | 'n' => some '\n'
  | 'r' => some '\r'
  | 't' => some '\t'
  | _ => none

/-- Reads a code point in four digits, or in twice four digits as a pair of surrogates. -/
def readCodePoint : Reader Char := fun cs => do
  let (high, cs) ← readHexFour cs
  if 0xDC00 ≤ high && high ≤ 0xDFFF then throw .loneSurrogate
  else if high < 0xD800 || 0xDBFF < high then pure (Char.ofNat high, cs)
  else
    match cs with
    | [] => throw .eofInString
    | '\\' :: [] => throw .eofInString
    | '\\' :: 'u' :: cs =>
        let (low, cs) ← readHexFour cs
        if low < 0xDC00 || 0xDFFF < low then throw .loneSurrogate
        else pure (Char.ofNat (0x10000 + (high - 0xD800) * 0x400 + (low - 0xDC00)), cs)
    | _ => throw .endOfHexEscape

/-- Reads what follows a backslash. -/
def readEscape : Reader Char
  | [] => .error .eofInString
  | 'u' :: cs => readCodePoint cs
  | c :: cs =>
      match simpleEscape? c with
      | some e => .ok (e, cs)
      | none => .error .invalidEscape

/-- Reads up to the closing quotation mark; the first argument bounds the number of characters. -/
def readStringFrom : Nat → Reader (List Char)
  | 0, _ => .error .eofInString
  | _ + 1, [] => .error .eofInString
  | _ + 1, '"' :: cs => .ok ([], cs)
  | fuel + 1, '\\' :: cs => do
      let (c, cs) ← readEscape cs
      let (more, cs) ← readStringFrom fuel cs
      pure (c :: more, cs)
  | fuel + 1, c :: cs =>
      if c.toNat < 0x20 then .error .controlCharacter
      else do
        let (more, cs) ← readStringFrom fuel cs
        pure (c :: more, cs)

/-- Reads a text behind its opening quotation mark. -/
def readString : Reader String := fun cs => do
  let (s, cs) ← readStringFrom (cs.length + 1) cs
  pure (String.ofList s, cs)

/-- Passes over a text behind its opening quotation mark.  Surrogates need no partner there. -/
def skipStringFrom : Nat → List Char → Except Error (List Char)
  | 0, _ => .error .eofInString
  | _ + 1, [] => .error .eofInString
  | _ + 1, '"' :: cs => .ok cs
  | _ + 1, '\\' :: [] => .error .eofInString
  | fuel + 1, '\\' :: 'u' :: cs => do
      let (_, cs) ← readHexFour cs
      skipStringFrom fuel cs
  | fuel + 1, '\\' :: c :: cs =>
      if (simpleEscape? c).isSome then skipStringFrom fuel cs else .error .invalidEscape
  | fuel + 1, c :: cs =>
      if c.toNat < 0x20 then .error .controlCharacter else skipStringFrom fuel cs

/-- Passes over a text behind its opening quotation mark. -/
def skipString (cs : List Char) : Except Error (List Char) := skipStringFrom (cs.length + 1) cs

/-! ## Numbers -/

/-- Takes digits into a whole number as long as it fits into 64 bits: the number, how many digits
it took, and the digits it left. -/
def takeDigits (acc : Nat) : List Char → Nat × Nat × List Char
  | [] => (acc, 0, [])
  | c :: cs =>
      if isDigit c && acc * 10 + digitValue c ≤ maxUInt64 then
        let (n, count, rest) := takeDigits (acc * 10 + digitValue c) cs
        (n, count + 1, rest)
      else (acc, 0, c :: cs)

/-- The number of digits in front, and the rest behind them. -/
def dropDigits (cs : List Char) : Nat × List Char :=
  ((cs.takeWhile isDigit).length, cs.dropWhile isDigit)

/-- The number of `digits * 10 ^ exponent`. -/
def scaled (negative : Bool) (digits : Nat) (exponent : Int) : Except Error Number :=
  match Double.magnitudeOfDecimal digits exponent with
  | some m => .ok (.fraction ⟨negative, m⟩)
  | none => .error .numberOutOfRange

/-- The largest exponent that is read; a larger one makes the number zero or too large. -/
def maxExponent : Nat := 2147483647

/-- Reads an exponent behind its letter, for a number of which `digits` are kept. -/
def readExponent (negative : Bool) (digits : Nat) (start : Int) : Reader Number := fun cs =>
  let (below, cs) := match cs with
    | '+' :: cs => (false, cs)
    | '-' :: cs => (true, cs)
    | cs => (false, cs)
  match cs with
  | [] => .error .eofInValue
  | c :: _ =>
      if !isDigit c then .error .invalidNumber
      else do
        let exponent := digitsValue 0 (cs.takeWhile isDigit)
        let rest := cs.dropWhile isDigit
        if maxExponent < exponent then
          if digits != 0 && !below then throw .numberOutOfRange
          else pure (.fraction (Double.zero negative), rest)
        else
          let number ← scaled negative digits (if below then start - exponent else start + exponent)
          pure (number, rest)

/-- Reads what may follow the digits of a number with a fraction. -/
def readScale (negative : Bool) (digits : Nat) (exponent : Int) : Reader Number
  | 'e' :: cs => readExponent negative digits exponent cs
  | 'E' :: cs => readExponent negative digits exponent cs
  | cs => do
      let number ← scaled negative digits exponent
      pure (number, cs)

/-- Reads a fraction behind its point.  Digits beyond those that are kept are passed over. -/
def readFraction (negative : Bool) (digits : Nat) (exponent : Int) : Reader Number := fun cs =>
  let (digits, count, rest) := takeDigits digits cs
  match rest with
  | [] => if count == 0 then .error .eofInValue else readScale negative digits (exponent - count) []
  | c :: _ =>
      if isDigit c then readScale negative digits (exponent - count) (rest.dropWhile isDigit)
      else if count == 0 then .error .invalidNumber
      else readScale negative digits (exponent - count) rest

/-- A whole number that is kept exactly if it fits into 64 bits with its sign. -/
def wholeNumber (negative : Bool) (digits : Nat) : Number :=
  if !negative then .integer digits
  else if 0 < digits && digits ≤ maxInt64 + 1 then .integer (-(digits : Int))
  else .fraction ⟨true, Double.magnitudeOfRatio digits 1⟩

/-- Reads what may follow the digits of a whole number. -/
def readAfterWhole (negative : Bool) (digits : Nat) : Reader Number
  | '.' :: cs => readFraction negative digits 0 cs
  | 'e' :: cs => readExponent negative digits 0 cs
  | 'E' :: cs => readExponent negative digits 0 cs
  | cs => .ok (wholeNumber negative digits, cs)

/-- Reads a number behind its sign. -/
def readNumber (negative : Bool) : Reader Number
  | [] => .error .eofInValue
  | '0' :: cs =>
      match cs with
      | c :: _ => if isDigit c then .error .invalidNumber else readAfterWhole negative 0 cs
      | [] => readAfterWhole negative 0 cs
  | c :: cs =>
      if !isDigit c then .error .invalidNumber
      else
        let (digits, _, rest) := takeDigits 0 (c :: cs)
        let (dropped, rest) := dropDigits rest
        if dropped == 0 then readAfterWhole negative digits rest
        else
          match rest with
          | '.' :: rest => readFraction negative digits dropped rest
          | rest => readScale negative digits dropped rest

/-- Passes over an exponent behind its letter. -/
def skipExponent (cs : List Char) : Except Error (List Char) :=
  let cs := match cs with
    | '+' :: cs => cs
    | '-' :: cs => cs
    | cs => cs
  match cs with
  | c :: cs => if isDigit c then .ok (cs.dropWhile isDigit) else .error .invalidNumber
  | [] => .error .invalidNumber

/-- Passes over what may follow the digits of a number. -/
def skipScale : List Char → Except Error (List Char)
  | 'e' :: cs => skipExponent cs
  | 'E' :: cs => skipExponent cs
  | cs => .ok cs

/-- Passes over a fraction and an exponent. -/
def skipAfterWhole : List Char → Except Error (List Char)
  | '.' :: cs =>
      match cs with
      | c :: cs =>
          if isDigit c then skipScale (cs.dropWhile isDigit) else .error .invalidNumber
      | [] => .error .invalidNumber
  | cs => skipScale cs

/-- Passes over a number behind its sign. -/
def skipNumber : List Char → Except Error (List Char)
  | [] => .error .invalidNumber
  | '0' :: cs =>
      match cs with
      | c :: _ => if isDigit c then .error .invalidNumber else skipAfterWhole cs
      | [] => .ok []
  | c :: cs => if isDigit c then skipAfterWhole (cs.dropWhile isDigit) else .error .invalidNumber

end PluginHost.Json
