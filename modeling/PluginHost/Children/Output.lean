import PluginHost.Bytes

/-!
# The output of a plugin

The first line that a plugin writes is its handshake; everything behind it is passed on.  The output
arrives in pieces through a pipe, and a reader takes it out through a buffer.  It reads up to a
newline first (`Reader.readLine`) and then passes on what comes (`Reader.passOn`), beginning with
what it has already read ahead.  `Reader.rest` is all that is still to come, and no byte of it is lost
or doubled on the way (`Reader.readLine_cases`, `Reader.passOn_eq`).

`Reader.split` is what a reader does until the output ends.  `FirstLine.feed` is what it does while
one piece arrives, up to where it waits for the next.
-/

namespace PluginHost.Children

/-- The first line of an output, as far as it has arrived. -/
structure FirstLine where
  bytes : Bytes := []
  isComplete : Bool := false
  deriving DecidableEq, Repr

/-- The bytes up to a newline and with it, and what stands behind it, if there is a newline. -/
def FirstLine.cut : Bytes → Option (Bytes × Bytes)
  | [] => none
  | b :: rest =>
      if b == 10 then some ([b], rest)
      else (cut rest).map fun (line, behind) => (b :: line, behind)

/-- Behind bytes without a newline, a newline is found as it would be found without them. -/
theorem FirstLine.cut_append_of_none {front : Bytes} (hfront : cut front = none) (bytes : Bytes) :
    cut (front ++ bytes) = (cut bytes).map fun (line, behind) => (front ++ line, behind) := by
  induction front with
  | nil => simp
  | cons b front ih =>
      rw [cut] at hfront
      split at hfront
      · cases hfront
      · rename_i hb
        rw [List.cons_append, cut, if_neg hb, ih (Option.map_eq_none_iff.1 hfront), Option.map_map]
        rfl

/-- The first newline stays the first one, whatever comes behind. -/
theorem FirstLine.cut_append_of_some {front line behind : Bytes}
    (hfront : cut front = some (line, behind)) (bytes : Bytes) :
    cut (front ++ bytes) = some (line, behind ++ bytes) := by
  induction front generalizing line with
  | nil => cases hfront
  | cons b front ih =>
      rw [cut] at hfront
      split at hfront
      · rename_i hb
        cases hfront
        rw [List.cons_append, cut, if_pos hb]
      · rename_i hb
        obtain ⟨⟨line', behind'⟩, hcut, heq⟩ := Option.map_eq_some_iff.1 hfront
        cases heq
        rw [List.cons_append, cut, if_neg hb, ih hcut]
        rfl

theorem FirstLine.cut_eq_none_iff {bytes : Bytes} : cut bytes = none ↔ (10 : UInt8) ∉ bytes := by
  induction bytes with
  | nil => simp [cut]
  | cons b bytes ih =>
      rw [cut]
      split
      · rename_i hb
        simp [eq_of_beq hb]
      · rename_i hb
        rw [Option.map_eq_none_iff, ih, List.mem_cons, not_or, iff_and_self]
        rintro - heq
        exact hb (by simp [← heq])

/-- A newline is found at the end of a line that holds no other. -/
theorem FirstLine.cut_line {line : Bytes} (h : (10 : UInt8) ∉ line) (rest : Bytes) :
    cut (line ++ 10 :: rest) = some (line ++ [10], rest) := by
  rw [cut_append_of_none (cut_eq_none_iff.2 h)]
  rfl

/-! ## Reading from a pipe -/

/-- One read of at most `size` bytes from the pieces that wait in a pipe: what it gives, and the
pieces that wait then.  It gives nothing when nothing waits. -/
def readPipe (size : Nat) : List Bytes → Bytes × List Bytes
  | [] => ([], [])
  | [] :: pieces => readPipe size pieces
  | piece :: pieces =>
      if piece.length ≤ size then (piece, pieces)
      else (piece.take size, piece.drop size :: pieces)

/-- How much a reader reads ahead at most. -/
def readAheadSize : Nat := 8192

/-- How much is passed on at once at most. -/
def passOnSize : Nat := 8192

/-- A reader: what it has read ahead, and the pieces that wait in its pipe. -/
structure Reader where
  ahead : Bytes := []
  pipe : List Bytes

theorem readPipe_append (size : Nat) (pieces : List Bytes) :
    (readPipe size pieces).1 ++ (readPipe size pieces).2.flatten = pieces.flatten := by
  fun_induction readPipe size pieces with
  | case1 => rfl
  | case2 pieces ih => simpa using ih
  | case3 piece pieces hne hfits => rfl
  | case4 piece pieces hne hlong => simp [← List.append_assoc]

/-- A read that asks for something gives nothing only at the end. -/
theorem flatten_of_readPipe_nil {size : Nat} (hsize : 0 < size) {pieces : List Bytes}
    (h : (readPipe size pieces).1 = []) : pieces.flatten = [] := by
  fun_induction readPipe size pieces with
  | case1 => rfl
  | case2 pieces ih => simpa using ih h
  | case3 piece pieces hne hfits => exact absurd h hne
  | case4 piece pieces hne hlong =>
      rw [List.take_eq_nil_iff] at h
      rcases h with rfl | h
      · contradiction
      · exact absurd h hne

namespace Reader

/-- All that is still to come. -/
def rest (r : Reader) : Bytes := r.ahead ++ r.pipe.flatten

/-- Reads ahead, unless there is something left in the buffer. -/
def fill (r : Reader) : Reader :=
  if r.ahead.isEmpty then
    let (ahead, pipe) := readPipe readAheadSize r.pipe
    { ahead, pipe }
  else r

/-- Reads at most `size` bytes.  The buffer is passed over if it is empty and would not hold more
than is asked for. -/
def read (size : Nat) (r : Reader) : Bytes × Reader :=
  if r.ahead.isEmpty && readAheadSize ≤ size then
    let (bytes, pipe) := readPipe size r.pipe
    (bytes, { pipe })
  else (r.fill.ahead.take size, { r.fill with ahead := r.fill.ahead.drop size })

theorem rest_fill (r : Reader) : r.fill.rest = r.rest := by
  unfold fill
  split
  · rename_i hempty
    rw [List.isEmpty_iff] at hempty
    simp only [rest, hempty, readPipe_append, List.nil_append]
  · rfl

theorem rest_of_fill_nil {r : Reader} (h : r.fill.ahead = []) : r.rest = [] := by
  unfold fill at h
  split at h
  · rename_i hempty
    rw [List.isEmpty_iff] at hempty
    rw [rest, hempty, List.nil_append]
    exact flatten_of_readPipe_nil (by decide) h
  · rename_i hne
    exact absurd (List.isEmpty_iff.2 h) hne

theorem read_append (size : Nat) (r : Reader) :
    (r.read size).1 ++ (r.read size).2.rest = r.rest := by
  unfold read
  split
  · rename_i hdirect
    rw [Bool.and_eq_true, List.isEmpty_iff] at hdirect
    simp only [rest, hdirect.1, List.nil_append, readPipe_append]
  · simp only [rest]
    rw [← List.append_assoc, List.take_append_drop]
    exact rest_fill r

theorem rest_of_read_nil {size : Nat} (hsize : 0 < size) {r : Reader} (h : (r.read size).1 = []) :
    r.rest = [] := by
  unfold read at h
  split at h
  · rename_i hdirect
    rw [Bool.and_eq_true, List.isEmpty_iff] at hdirect
    rw [rest, hdirect.1, List.nil_append]
    exact flatten_of_readPipe_nil hsize h
  · rw [List.take_eq_nil_iff] at h
    rcases h with rfl | h
    · contradiction
    · exact rest_of_fill_nil h

/-- Reads up to a newline and with it, or to the end, behind the start of a line. -/
def readLine (line : Bytes) (r : Reader) : FirstLine × Reader :=
  match _ : r.fill.ahead with
  | [] => (⟨line, false⟩, r.fill)
  | b :: bytes =>
      match FirstLine.cut (b :: bytes) with
      | some (front, behind) => (⟨line ++ front, true⟩, { ahead := behind, pipe := r.fill.pipe })
      | none => readLine (line ++ b :: bytes) { pipe := r.fill.pipe }
termination_by r.rest.length
decreasing_by
  rename_i h
  have hrest : r.rest = b :: bytes ++ r.fill.pipe.flatten := by rw [← rest_fill r, rest, h]
  rw [hrest, List.length_append, List.length_cons]
  simp only [rest, List.nil_append]
  omega

/-- Passes on all that comes until the end. -/
def passOn (r : Reader) : Bytes :=
  match _ : r.read passOnSize with
  | ([], _) => []
  | (b :: bytes, after) => b :: bytes ++ passOn after
termination_by r.rest.length
decreasing_by
  rename_i h
  have happend : b :: bytes ++ after.rest = r.rest := by rw [← read_append passOnSize r, h]
  simp only [← happend, List.length_append, List.length_cons]
  omega

theorem passOn_eq (r : Reader) : r.passOn = r.rest := by
  fun_induction passOn r with
  | case1 r after h =>
      have hsize : 0 < passOnSize := by decide
      exact (rest_of_read_nil hsize (by rw [h])).symm
  | case2 r b bytes after h ih =>
      have happend := read_append passOnSize r
      rw [h] at happend
      rw [ih, ← happend]

/-- A line is read up to the first newline, if there is one, and what stands behind it is then still
to come; otherwise all is read. -/
theorem readLine_cases (line : Bytes) (r : Reader) :
    (∃ front behind after, FirstLine.cut r.rest = some (front, behind) ∧
      r.readLine line = (⟨line ++ front, true⟩, after) ∧ after.rest = behind) ∨
    (∃ after, FirstLine.cut r.rest = none ∧
      r.readLine line = (⟨line ++ r.rest, false⟩, after) ∧ after.rest = []) := by
  fun_induction readLine line r with
  | case1 line r h =>
      have hrest := rest_of_fill_nil h
      refine .inr ⟨r.fill, ?_, ?_, (rest_fill r).trans hrest⟩
      · rw [hrest]
        rfl
      · rw [hrest, List.append_nil]
  | case2 line r b bytes h front behind hcut =>
      refine .inl ⟨front, _, _, ?_, rfl, rfl⟩
      rw [← rest_fill r, rest, h]
      exact FirstLine.cut_append_of_some hcut _
  | case3 line r b bytes h hcut ih =>
      have hrest : r.rest = (b :: bytes) ++ r.fill.pipe.flatten := by
        rw [← rest_fill r, rest, h]
      have hpipe : rest { pipe := r.fill.pipe } = r.fill.pipe.flatten := List.nil_append _
      rw [hpipe] at ih
      rw [hrest, FirstLine.cut_append_of_none hcut]
      rcases ih with ⟨front, behind, after, hfound, hline, hbehind⟩ | ⟨after, hnone, hline, hbehind⟩
      · refine .inl ⟨b :: bytes ++ front, behind, after, ?_, ?_, hbehind⟩
        · rw [hfound]
          rfl
        · rw [hline, List.append_assoc]
      · refine .inr ⟨after, ?_, ?_, hbehind⟩
        · rw [hnone]
          rfl
        · rw [hline, List.append_assoc]

/-- What a reader makes of an output that arrives in pieces, until it ends: the first line, unless
nothing arrives, and what is passed on. -/
def split (pieces : List Bytes) : Option Bytes × Bytes :=
  let (line, r) := readLine [] { pipe := pieces }
  (if line.bytes.isEmpty then none else some line.bytes, r.passOn)

end Reader

namespace FirstLine

/-- Takes in a piece of the output: what is passed on, and the first line as far as it has come. -/
def feed (f : FirstLine) (piece : Bytes) : Bytes × FirstLine :=
  if f.isComplete then (Reader.passOn { pipe := [piece] }, f)
  else
    let (line, r) := Reader.readLine f.bytes { pipe := [piece] }
    (if line.isComplete then r.passOn else [], line)

/-- Once the line is complete, a piece is passed on; until then it belongs to the line up to a
newline, and is passed on behind it. -/
theorem feed_eq (f : FirstLine) (piece : Bytes) :
    f.feed piece =
      if f.isComplete then (piece, f)
      else
        match cut piece with
        | some (front, behind) => (behind, ⟨f.bytes ++ front, true⟩)
        | none => ([], ⟨f.bytes ++ piece, false⟩) := by
  have hpiece : Reader.rest { pipe := [piece] } = piece := by simp [Reader.rest]
  unfold feed
  split
  · rw [Reader.passOn_eq, hpiece]
  · have hcases := Reader.readLine_cases f.bytes { pipe := [piece] }
    rw [hpiece] at hcases
    rcases hcases with ⟨front, behind, after, hcut, hline, hbehind⟩ | ⟨after, hcut, hline, hbehind⟩
    · rw [hcut, hline]
      simp [Reader.passOn_eq, hbehind]
    · rw [hcut, hline]
      rfl

end FirstLine

end PluginHost.Children
