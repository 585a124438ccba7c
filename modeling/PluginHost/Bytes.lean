/-!
# Bytes and UTF-8

File contents, arguments and everything that crosses a pipe are lists of bytes.  Text is written
to bytes in UTF-8 (`utf8`), and read back in two ways: `text?` refuses bytes that are no UTF-8,
`lossyText` puts a replacement character for each ill-formed part.  Both come from `utf8Units`,
which cuts the bytes into characters and ill-formed parts.
-/

namespace PluginHost

/-- A sequence of bytes. -/
abbrev Bytes := List UInt8

/-- A byte that continues a character within the given bounds. -/
def isContinuation (low high : Nat) (b : UInt8) : Bool :=
  low ≤ b.toNat && b.toNat ≤ high

/-- The last six bits of a continuation byte. -/
def continuationBits (b : UInt8) : Nat := b.toNat % 64

/-- The bounds of the second byte after a leading byte of three: no overlong form, no surrogate. -/
def secondOfThree (lead : UInt8) : Nat × Nat :=
  if lead == 0xE0 then (0xA0, 0xBF) else if lead == 0xED then (0x80, 0x9F) else (0x80, 0xBF)

/-- The bounds of the second byte after a leading byte of four: no overlong form, nothing beyond
the last code point. -/
def secondOfFour (lead : UInt8) : Nat × Nat :=
  if lead == 0xF0 then (0x90, 0xBF) else if lead == 0xF4 then (0x80, 0x8F) else (0x80, 0xBF)

/-- Cuts bytes into characters and ill-formed parts.  An ill-formed part is the longest start of
a character that the bytes break off, or a single byte that starts none. -/
def utf8Units : Bytes → List (Option Char)
  | [] => []
  | b0 :: rest0 =>
      if b0 < 0x80 then some (Char.ofNat b0.toNat) :: utf8Units rest0
      else if 0xC2 ≤ b0 && b0 ≤ 0xDF then
        match rest0 with
        | b1 :: rest1 =>
            if isContinuation 0x80 0xBF b1 then
              some (Char.ofNat (b0.toNat % 32 * 64 + continuationBits b1)) :: utf8Units rest1
            else none :: utf8Units (b1 :: rest1)
        | [] => [none]
      else if 0xE0 ≤ b0 && b0 ≤ 0xEF then
        match rest0 with
        | b1 :: rest1 =>
            if isContinuation (secondOfThree b0).1 (secondOfThree b0).2 b1 then
              match rest1 with
              | b2 :: rest2 =>
                  if isContinuation 0x80 0xBF b2 then
                    some (Char.ofNat (b0.toNat % 16 * 4096 + continuationBits b1 * 64
                      + continuationBits b2)) :: utf8Units rest2
                  else none :: utf8Units (b2 :: rest2)
              | [] => [none]
            else none :: utf8Units (b1 :: rest1)
        | [] => [none]
      else if 0xF0 ≤ b0 && b0 ≤ 0xF4 then
        match rest0 with
        | b1 :: rest1 =>
            if isContinuation (secondOfFour b0).1 (secondOfFour b0).2 b1 then
              match rest1 with
              | b2 :: rest2 =>
                  if isContinuation 0x80 0xBF b2 then
                    match rest2 with
                    | b3 :: rest3 =>
                        if isContinuation 0x80 0xBF b3 then
                          some (Char.ofNat (b0.toNat % 8 * 262144 + continuationBits b1 * 4096
                            + continuationBits b2 * 64 + continuationBits b3)) :: utf8Units rest3
                        else none :: utf8Units (b3 :: rest3)
                    | [] => [none]
                  else none :: utf8Units (b2 :: rest2)
              | [] => [none]
            else none :: utf8Units (b1 :: rest1)
        | [] => [none]
      else none :: utf8Units rest0

/-- All members, when none is missing. -/
def allPresent {α : Type} : List (Option α) → Option (List α)
  | [] => some []
  | none :: _ => none
  | some a :: rest => (allPresent rest).map (a :: ·)

/-- The characters of bytes in UTF-8. -/
def chars? (bytes : Bytes) : Option (List Char) := allPresent (utf8Units bytes)

/-- The text of bytes in UTF-8. -/
def text? (bytes : Bytes) : Option String := (chars? bytes).map String.ofList

/-- The text of any bytes, with U+FFFD for each ill-formed part. -/
def lossyText (bytes : Bytes) : String :=
  String.ofList ((utf8Units bytes).map (·.getD (Char.ofNat 0xFFFD)))

/-- The characters in UTF-8. -/
def utf8OfChars (cs : List Char) : Bytes := cs.flatMap String.utf8EncodeChar

/-- The text in UTF-8. -/
def utf8 (s : String) : Bytes := utf8OfChars s.toList

/-- The digit of a number below sixteen, in small letters. -/
def hexDigit (n : Nat) : Char :=
  if n < 10 then Char.ofNat (48 + n) else Char.ofNat (87 + n)

/-- Two hexadecimal digits per byte. -/
def hexText (bytes : Bytes) : String :=
  String.ofList (bytes.flatMap fun b => [hexDigit (b.toNat / 16), hexDigit (b.toNat % 16)])

/-- The value of a hexadecimal digit, in small or capital letters. -/
def hexValue? (c : Char) : Option Nat :=
  if '0' ≤ c && c ≤ '9' then some (c.toNat - 48)
  else if 'a' ≤ c && c ≤ 'f' then some (c.toNat - 87)
  else if 'A' ≤ c && c ≤ 'F' then some (c.toNat - 55)
  else none

/-- The bytes of pairs of hexadecimal digits.  Reading ends where there are no more. -/
def ofHexDigits : List Char → Bytes
  | a :: b :: rest =>
      match hexValue? a, hexValue? b with
      | some high, some low => UInt8.ofNat (16 * high + low) :: ofHexDigits rest
      | _, _ => []
  | _ => []

/-- A number below `256 ^ count` as `count` bytes, the lowest first. -/
def littleEndian : Nat → Nat → Bytes
  | 0, _ => []
  | count + 1, n => UInt8.ofNat n :: littleEndian count (n / 256)

/-- The number that bytes stand for, the lowest first. -/
def ofLittleEndian : Bytes → Nat
  | [] => 0
  | b :: rest => b.toNat + 256 * ofLittleEndian rest

@[simp] theorem littleEndian_length (count n : Nat) : (littleEndian count n).length = count := by
  induction count generalizing n with
  | zero => rfl
  | succ count ih => simp [littleEndian, ih]

theorem ofLittleEndian_littleEndian (count n : Nat) (h : n < Nat.pow 256 count) :
    ofLittleEndian (littleEndian count n) = n := by
  induction count generalizing n with
  | zero =>
      have hn : n = 0 := Nat.lt_one_iff.1 h
      rw [hn]
      rfl
  | succ count ih =>
      have hbelow : n < Nat.pow 256 count * 256 := h
      have hn : n / 256 < Nat.pow 256 count := (Nat.div_lt_iff_lt_mul (by decide)).2 hbelow
      simp only [littleEndian, ofLittleEndian, ih _ hn, UInt8.toNat_ofNat']
      omega

/-- A field between the bytes before it and those behind it. -/
theorem take_drop_field {before field : Bytes} {start length : Nat} (hstart : before.length = start)
    (hlength : field.length = length) (behind : Bytes) :
    ((before ++ (field ++ behind)).drop start).take length = field := by
  subst hstart hlength
  rw [List.drop_left, List.take_left]

/-- Bytewise order, a proper start before what it starts. -/
def Bytes.before : Bytes → Bytes → Bool
  | [], [] => false
  | [], _ :: _ => true
  | _ :: _, [] => false
  | a :: as, b :: bs => a < b || (a == b && Bytes.before as bs)

/-- The bytes end with the given ones. -/
def Bytes.endsWith (bytes tail : Bytes) : Bool := tail.reverse.isPrefixOf bytes.reverse

end PluginHost
