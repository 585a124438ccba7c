import PluginHost.Archive.Inflate

/-!
# Stored blocks inflated

Bytes that are deflated as stored blocks are inflated to themselves (`inflate_deflateStored`).  The
bits of whole bytes are read as the number that the bytes stand for (`number_bytes`), a block is read
from the bits of its bytes (`storedBlock_bitsOf`), and so are the blocks one behind the other
(`blocksOf_storedBlocks`).
-/

namespace PluginHost.Archive

open BitReader

/-- The bits of bytes in the order in which they are read. -/
def bitsOf (bytes : Bytes) : Bits := bytes.flatMap bitsOfByte

theorem bitsOf_append (as bs : Bytes) : bitsOf (as ++ bs) = bitsOf as ++ bitsOf bs := by
  simp [bitsOf]

theorem length_bitsOf (bytes : Bytes) : (bitsOf bytes).length = 8 * bytes.length := by
  induction bytes with
  | nil => rfl
  | cons b bytes ih =>
      have hbyte : (bitsOfByte b).length = 8 := rfl
      rw [bitsOf, List.flatMap_cons, List.length_append, hbyte, List.length_cons]
      rw [bitsOf] at ih
      omega

theorem number_cons (n : Nat) (b : Bool) (rest : Bits) :
    number (n + 1) (b :: rest) =
      (number n rest).map fun p => (b.toNat + 2 * p.1, p.2) := by
  show (do let high ← number n; pure (b.toNat + 2 * high) : BitReader Nat) rest = _
  cases h : number n rest with
  | error e =>
      show Except.bind (number n rest) _ = _
      rw [h]
      rfl
  | ok p =>
      show Except.bind (number n rest) _ = _
      rw [h]
      rfl

/-- The first eight bits of a number are those of its lowest byte. -/
theorem number_byte (n : Nat) (b : UInt8) (rest : Bits) :
    number (n + 8) (bitsOfByte b ++ rest) =
      (number n rest).map fun p => (b.toNat + 256 * p.1, p.2) := by
  simp only [bitsOfByte, List.cons_append, List.nil_append, number_cons]
  cases number n rest with
  | error e => rfl
  | ok p =>
      have hbound := b.toNat_lt
      simp only [Except.map, Nat.toNat_testBit, Except.ok.injEq, Prod.mk.injEq, and_true]
      omega

theorem number_bytes (bytes : Bytes) (rest : Bits) :
    number (8 * bytes.length) (bitsOf bytes ++ rest) = .ok (ofLittleEndian bytes, rest) := by
  induction bytes with
  | nil => rfl
  | cons b bytes ih =>
      rw [bitsOf, List.flatMap_cons, List.append_assoc, List.length_cons, Nat.mul_add, number_byte]
      rw [bitsOf] at ih
      rw [ih]
      rfl

/-- A number that is written in two bytes is read back. -/
theorem number_littleEndian {n : Nat} (h : n < 65536) (rest : Bits) :
    number 16 (bitsOf (littleEndian 2 n) ++ rest) = .ok (n, rest) := by
  have hread := number_bytes (littleEndian 2 n) rest
  rw [littleEndian_length, ofLittleEndian_littleEndian 2 n h] at hread
  exact hread

theorem storedBytes_bitsOf (bytes : Bytes) (out : Array UInt8) (rest : Bits) :
    storedBytes bytes.length out (bitsOf bytes ++ rest) = (out ++ bytes.toArray, .ok rest) := by
  induction bytes generalizing out with
  | nil => simp [storedBytes, bitsOf]
  | cons b bytes ih =>
      have hread : number 8 (bitsOf (b :: bytes) ++ rest) = .ok (b.toNat, bitsOf bytes ++ rest) := by
        rw [bitsOf, List.flatMap_cons, List.append_assoc]
        exact number_bytes [b] _
      rw [List.length_cons, storedBytes, hread]
      dsimp only
      rw [ih, UInt8.ofNat_toNat]
      simp

/-- A stored block is read behind the three bits that tell its kind. -/
theorem storedBlock_bitsOf {part : Bytes} (hpart : part.length ≤ 65535) (out : Array UInt8)
    (five : Bits) (hfive : five.length = 5) (more : Bytes) :
    storedBlock out (five ++ bitsOf (littleEndian 2 part.length
        ++ littleEndian 2 (65535 - part.length) ++ part ++ more)) =
      (out ++ part.toArray, .ok (bitsOf more)) := by
  have hnext : ∀ bytes, fromNextByte (five ++ bitsOf bytes) = bitsOf bytes := by
    intro bytes
    rw [fromNextByte, List.length_append, hfive, length_bitsOf, Nat.add_mul_mod_self_left]
    exact List.drop_left' hfive
  unfold storedBlock
  rw [hnext, bitsOf_append, bitsOf_append, bitsOf_append, List.append_assoc, List.append_assoc]
  simp only [bind, StateT.bind, number_littleEndian (show part.length < 65536 by omega),
    number_littleEndian (show 65535 - part.length < 65536 by omega), Except.bind]
  rw [if_pos (by simpa using Nat.add_sub_cancel' hpart)]
  exact storedBytes_bitsOf part out _

/-- The first bits of a block tell whether it is the last, and of what kind it is. -/
theorem blocksOf_head (isLast : Bool) (fuel : Nat) (out : Array UInt8) (more : Bytes) :
    ∃ five : Bits, five.length = 5 ∧
      blocksOf (fuel + 1) out (bitsOf ((if isLast then 1 else 0) :: more)) =
        match storedBlock out (five ++ bitsOf more) with
        | (out, .error e) => (out, .error e)
        | (out, .ok bits) => if isLast then (out, .ok bits) else blocksOf fuel out bits := by
  refine ⟨[false, false, false, false, false], rfl, ?_⟩
  cases isLast <;> rfl

/-- Stored blocks are read one behind the other, as long as there are enough of them, and nothing of
what stands behind them is read. -/
theorem blocksOf_storedBlocks {fuel : Nat} {data : Bytes} (hfuel : data.length / 65535 < fuel)
    {steps : Nat} (hsteps : fuel ≤ steps) (out : Array UInt8) (behind : Bytes) :
    blocksOf steps out (bitsOf (storedBlocks fuel data ++ behind)) =
      (out ++ data.toArray, .ok (bitsOf behind)) := by
  induction fuel generalizing data steps out with
  | zero => omega
  | succ fuel ih =>
      obtain ⟨steps, rfl⟩ : ∃ n, steps = n + 1 := ⟨steps - 1, by omega⟩
      have hpart : (data.take 65535).length ≤ 65535 := by
        rw [List.length_take]
        exact Nat.min_le_left _ _
      obtain ⟨five, hfive, hhead⟩ := blocksOf_head (data.drop 65535).isEmpty steps out
        (littleEndian 2 (data.take 65535).length ++ littleEndian 2 (65535 - (data.take 65535).length)
          ++ data.take 65535
          ++ ((if (data.drop 65535).isEmpty then [] else storedBlocks fuel (data.drop 65535))
            ++ behind))
      have hblocks : storedBlocks (fuel + 1) data ++ behind =
          (if (data.drop 65535).isEmpty then 1 else 0) ::
            (littleEndian 2 (data.take 65535).length
              ++ littleEndian 2 (65535 - (data.take 65535).length) ++ data.take 65535
              ++ ((if (data.drop 65535).isEmpty then [] else storedBlocks fuel (data.drop 65535))
                ++ behind)) := by
        simp only [storedBlocks, List.cons_append, List.append_assoc]
      rw [hblocks, hhead, storedBlock_bitsOf hpart out five hfive]
      dsimp only
      by_cases hlast : data.drop 65535 = []
      · have hwhole : data.take 65535 = data := by
          conv => rhs; rw [← List.take_append_drop 65535 data, hlast, List.append_nil]
        simp only [hlast, List.isEmpty_nil, if_true, hwhole, List.nil_append]
      · have hmore : (data.drop 65535).isEmpty = false := by simpa using hlast
        have hlength : 65535 < data.length :=
          Nat.lt_of_not_le fun hshort => hlast (List.drop_eq_nil_of_le hshort)
        have hrest : (data.drop 65535).length / 65535 < fuel := by
          rw [List.length_drop]
          omega
        simp only [hmore, Bool.false_eq_true, if_false]
        have hjoin : (data.take 65535).toArray ++ (data.drop 65535).toArray = data.toArray := by
          simp
        rw [ih hrest (by omega), Array.append_assoc, hjoin]

/-- Deflating does not lose bytes. -/
theorem length_le_storedBlocks {fuel : Nat} {data : Bytes} (hfuel : data.length / 65535 < fuel) :
    data.length ≤ (storedBlocks fuel data).length := by
  induction fuel generalizing data with
  | zero => omega
  | succ fuel ih =>
      simp only [storedBlocks, List.cons_append, List.length_cons, List.length_append,
        littleEndian_length, List.length_take]
      split
      · rename_i hlast
        have hshort : data.length ≤ 65535 := by simpa using hlast
        omega
      · rename_i hmore
        have hlong : 65535 < data.length := by simpa using hmore
        have hrest : (data.drop 65535).length / 65535 < fuel := by
          rw [List.length_drop]
          omega
        have hle := ih hrest
        rw [List.length_drop] at hle
        omega

theorem length_le_deflateStored (data : Bytes) : data.length ≤ (deflateStored data).length :=
  length_le_storedBlocks (Nat.lt_succ_self _)

/-- Bytes that are deflated as stored blocks are inflated to themselves, and what stands behind them is
left. -/
theorem inflate_deflateStored (data behind : Bytes) :
    inflate (deflateStored data ++ behind) = ⟨data, .complete, behind⟩ := by
  have hlength := length_le_deflateStored data
  have hsteps : data.length / 65535 + 1 ≤ 8 * (deflateStored data ++ behind).length + 1 := by
    rw [List.length_append]
    omega
  have hblocks := blocksOf_storedBlocks (Nat.lt_succ_self (data.length / 65535)) hsteps #[] behind
  rw [← deflateStored] at hblocks
  unfold inflate
  rw [← bitsOf, hblocks]
  dsimp only
  rw [length_bitsOf, Nat.mul_div_cancel_left _ (by decide : 0 < 8), List.length_append,
    Nat.add_sub_cancel, List.drop_left]
  simp

end PluginHost.Archive
