import PluginHost.Bytes

/-!
# Inflating

A deflated stream is a sequence of blocks: stored bytes, or symbols in a fixed or a transmitted
code.  A code is given by the number of its words of each length and its symbols in order
(`SymbolCode`), and a word is found bit by bit.  `inflate` gives what the blocks stand for, how the
stream ended, and the bytes behind it.
-/

namespace PluginHost.Archive

/-- Bits in the order in which they are read. -/
abbrev Bits := List Bool

/-- The bits of a byte, the lowest first. -/
def bitsOfByte (b : UInt8) : Bits :=
  let n := b.toNat
  [n.testBit 0, n.testBit 1, n.testBit 2, n.testBit 3, n.testBit 4, n.testBit 5, n.testBit 6,
    n.testBit 7]

/-- How a deflated stream ends. -/
inductive StreamEnd where
  /-- Its last block is complete. -/
  | complete
  /-- The input ends within it. -/
  | cutOff
  /-- It does not follow the format. -/
  | corrupt
  deriving DecidableEq, Repr

/-- A result, or why there is none. -/
abbrev BitReader (α : Type) := StateT Bits (Except StreamEnd) α

namespace BitReader

/-- The next bit. -/
def bit : BitReader Bool
  | b :: rest => .ok (b, rest)
  | [] => .error .cutOff

/-- A number of bits, the lowest first. -/
def number : Nat → BitReader Nat
  | 0 => pure 0
  | n + 1 => do
      let low ← bit
      let high ← number n
      pure (low.toNat + 2 * high)

/-- A number of numbers. -/
def numbers (width : Nat) : Nat → BitReader (List Nat)
  | 0 => pure []
  | count + 1 => do
      let n ← number width
      pure (n :: (← numbers width count))

end BitReader

open BitReader

/-! ## Codes -/

/-- A code: how many of its words have each length from one on, and its symbols in the order of
their words. -/
structure SymbolCode where
  counts : List Nat
  symbols : Array Nat

/-- The longest word of a code. -/
def maxWordLength : Nat := 15

/-- The code in which the words of the symbols have the given lengths.  Symbols of length zero
have no word. -/
def SymbolCode.ofLengths (lengths : List Nat) : SymbolCode where
  counts := (List.range maxWordLength).map fun i => lengths.count (i + 1)
  symbols := ((List.range maxWordLength).flatMap fun i =>
    (lengths.zipIdx.filter (·.1 == i + 1)).map (·.2)).toArray

/-- The words use up all bit sequences, or there is at most one word. -/
def SymbolCode.isComplete (code : SymbolCode) : Bool :=
  code.symbols.size ≤ 1 ||
    (code.counts.zipIdx.map fun (n, i) => n * Nat.pow 2 (maxWordLength - 1 - i)).foldl (· + ·) 0 ==
      Nat.pow 2 maxWordLength

/-- Looks for the word that the next bits start with.  `first` is the first word of the length at
hand, `word` the bits so far and `index` the place of the symbol of `first`. -/
def SymbolCode.find (symbols : Array Nat) : List Nat → Nat → Nat → Nat → BitReader Nat
  | [], _, _, _ => throw .corrupt
  | count :: counts, first, word, index => do
      let b ← bit
      let word := word + b.toNat
      if word < first + count then
        match symbols[index + (word - first)]? with
        | some s => pure s
        | none => throw .corrupt
      else find symbols counts ((first + count) * 2) (word * 2) (index + count)

/-- The next symbol. -/
def SymbolCode.next (code : SymbolCode) : BitReader Nat := SymbolCode.find code.symbols code.counts 0 0 0

/-! ## Blocks -/

/-- The shortest copy of each length symbol, and how many bits add to it. -/
def lengthBases : List (Nat × Nat) := [
  (3, 0), (4, 0), (5, 0), (6, 0), (7, 0), (8, 0), (9, 0), (10, 0), (11, 1), (13, 1), (15, 1),
  (17, 1), (19, 2), (23, 2), (27, 2), (31, 2), (35, 3), (43, 3), (51, 3), (59, 3), (67, 4),
  (83, 4), (99, 4), (115, 4), (131, 5), (163, 5), (195, 5), (227, 5), (258, 0)]

/-- The nearest distance of each distance symbol, and how many bits add to it. -/
def distanceBases : List (Nat × Nat) := [
  (1, 0), (2, 0), (3, 0), (4, 0), (5, 1), (7, 1), (9, 2), (13, 2), (17, 3), (25, 3), (33, 4),
  (49, 4), (65, 5), (97, 5), (129, 6), (193, 6), (257, 7), (385, 7), (513, 8), (769, 8),
  (1025, 9), (1537, 9), (2049, 10), (3073, 10), (4097, 11), (6145, 11), (8193, 12), (12289, 12),
  (16385, 13), (24577, 13)]

/-- A number given by a symbol and the bits behind it. -/
def extended (bases : List (Nat × Nat)) (symbol : Nat) : BitReader Nat :=
  match bases[symbol]? with
  | some (base, width) => do pure (base + (← number width))
  | none => throw .corrupt

/-- Appends a number of bytes that stand a distance back. -/
def copyBack (distance : Nat) : Nat → Array UInt8 → Array UInt8
  | 0, out => out
  | n + 1, out => copyBack distance n (out.push (out.getD (out.size - distance) 0))

/-- What has been inflated, and how it went on. -/
abbrev Progress := Array UInt8 × Except StreamEnd Bits

/-- The symbols of a block, up to the one that ends it.  The number bounds how many. -/
def symbolsOf (literals distances : SymbolCode) : Nat → Array UInt8 → Bits → Progress
  | 0, out, _ => (out, .error .corrupt)
  | fuel + 1, out, bits =>
      match literals.next bits with
      | .error e => (out, .error e)
      | .ok (symbol, bits) =>
          if symbol < 256 then symbolsOf literals distances fuel (out.push (UInt8.ofNat symbol)) bits
          else if symbol == 256 then (out, .ok bits)
          else
            match (do
              let length ← extended lengthBases (symbol - 257)
              let distance ← extended distanceBases (← distances.next)
              pure (length, distance) : BitReader (Nat × Nat)) bits with
            | .error e => (out, .error e)
            | .ok ((length, distance), bits) =>
                if distance > out.size then (out, .error .corrupt)
                else symbolsOf literals distances fuel (copyBack distance length out) bits

/-- The lengths of the words of the fixed code. -/
def fixedLengths : List Nat :=
  List.replicate 144 8 ++ List.replicate 112 9 ++ List.replicate 24 7 ++ List.replicate 8 8

/-- The fixed codes of literals and distances. -/
def fixedCodes : SymbolCode × SymbolCode :=
  (.ofLengths fixedLengths, .ofLengths (List.replicate 30 5))

/-- The order in which the lengths of the code of lengths are given. -/
def lengthOrder : List Nat := [16, 17, 18, 0, 8, 7, 9, 6, 10, 5, 11, 4, 12, 3, 13, 2, 14, 1, 15]

/-- Lengths written with repetitions, in reverse.  The number bounds how many symbols are read. -/
def repeatedLengths (code : SymbolCode) (total : Nat) : Nat → List Nat → BitReader (List Nat)
  | 0, _ => throw .corrupt
  | fuel + 1, lengths => do
      if lengths.length == total then pure lengths
      else if lengths.length > total then throw .corrupt
      else
        let symbol ← code.next
        if symbol < 16 then repeatedLengths code total fuel (symbol :: lengths)
        else if symbol == 16 then
          match lengths with
          | [] => throw .corrupt
          | last :: _ =>
              let n ← number 2
              repeatedLengths code total fuel (List.replicate (n + 3) last ++ lengths)
        else if symbol == 17 then
          let n ← number 3
          repeatedLengths code total fuel (List.replicate (n + 3) 0 ++ lengths)
        else
          let n ← number 7
          repeatedLengths code total fuel (List.replicate (n + 11) 0 ++ lengths)

/-- The codes that a block transmits. -/
def transmittedCodes : BitReader (SymbolCode × SymbolCode) := do
  let literals := (← number 5) + 257
  let distances := (← number 5) + 1
  let count := (← number 4) + 4
  if literals > 286 || distances > 30 then throw .corrupt
  let given ← numbers 3 count
  let lengths := (List.range 19).map fun symbol =>
    match lengthOrder.idxOf? symbol with
    | some i => given.getD i 0
    | none => 0
  let code := SymbolCode.ofLengths lengths
  if !code.isComplete then throw .corrupt
  let reversed ← repeatedLengths code (literals + distances) (literals + distances + 1) []
  let all := reversed.reverse
  let literalCode := SymbolCode.ofLengths (all.take literals)
  let distanceCode := SymbolCode.ofLengths (all.drop literals)
  if literalCode.isComplete && distanceCode.isComplete then pure (literalCode, distanceCode)
  else throw .corrupt

/-- The bits from the next byte on. -/
def fromNextByte (bits : Bits) : Bits := bits.drop (bits.length % 8)

/-- A number of stored bytes. -/
def storedBytes : Nat → Array UInt8 → Bits → Progress
  | 0, out, bits => (out, .ok bits)
  | n + 1, out, bits =>
      match number 8 bits with
      | .error e => (out, .error e)
      | .ok (b, bits) => storedBytes n (out.push (UInt8.ofNat b)) bits

/-- A block of stored bytes. -/
def storedBlock (out : Array UInt8) (bits : Bits) : Progress :=
  match (do
    let length ← number 16
    let check ← number 16
    if length + check == 65535 then pure length else throw .corrupt : BitReader Nat)
      (fromNextByte bits) with
  | .error e => (out, .error e)
  | .ok (length, bits) => storedBytes length out bits

/-- One block. -/
def blockOf (kind : Nat) (out : Array UInt8) (bits : Bits) : Progress :=
  if kind == 0 then storedBlock out bits
  else if kind == 1 then symbolsOf fixedCodes.1 fixedCodes.2 (bits.length + 1) out bits
  else if kind == 2 then
    match transmittedCodes bits with
    | .error e => (out, .error e)
    | .ok ((literals, distances), bits) => symbolsOf literals distances (bits.length + 1) out bits
  else (out, .error .corrupt)

/-- Blocks up to the last one.  The number bounds how many. -/
def blocksOf : Nat → Array UInt8 → Bits → Progress
  | 0, out, _ => (out, .error .corrupt)
  | fuel + 1, out, bits =>
      match (do pure ((← bit), (← number 2)) : BitReader (Bool × Nat)) bits with
      | .error e => (out, .error e)
      | .ok ((last, kind), bits) =>
          match blockOf kind out bits with
          | (out, .error e) => (out, .error e)
          | (out, .ok bits) => if last then (out, .ok bits) else blocksOf fuel out bits

/-- A stream that has been inflated. -/
structure Inflated where
  data : Bytes
  outcome : StreamEnd
  rest : Bytes
  deriving DecidableEq, Repr

/-- How much is inflated before anything of it is handed out. -/
def windowSize : Nat := 32768

/-- Inflates a stream.  Of a window in which the stream turns out to be corrupt nothing is handed
out. -/
def inflate (input : Bytes) : Inflated :=
  match blocksOf (8 * input.length + 1) #[] (input.flatMap bitsOfByte) with
  | (out, .ok bits) => ⟨out.toList, .complete, input.drop (input.length - bits.length / 8)⟩
  | (out, .error .corrupt) => ⟨out.toList.take (out.size / windowSize * windowSize), .corrupt, []⟩
  | (out, .error e) => ⟨out.toList, e, []⟩

/-- The stored blocks of bytes; the number bounds how many. -/
def storedBlocks : Nat → Bytes → Bytes
  | 0, _ => []
  | fuel + 1, data =>
      let part := data.take 65535
      let rest := data.drop 65535
      (if rest.isEmpty then 1 else 0) :: littleEndian 2 part.length
        ++ littleEndian 2 (65535 - part.length) ++ part
        ++ (if rest.isEmpty then [] else storedBlocks fuel rest)

/-- Bytes as a stream of stored blocks. -/
def deflateStored (data : Bytes) : Bytes := storedBlocks (data.length / 65535 + 1) data

end PluginHost.Archive
