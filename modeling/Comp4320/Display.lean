import Comp4320.Cpp
import Mathlib.Data.List.Basic

/-!
# The hexadecimal dumps

Every program of the three labs prints the bytes it receives in rows of ten, by two loops that share
one index: the outer loop prints a label, the inner loop prints bytes and advances the index, and
the outer loop goes on from where the inner one has stopped.

A byte is printed with `%2x`. The argument is a `char`, which is promoted to an `int` on the way,
and `%x` takes the `int` for unsigned: a byte from 128 on is printed with eight digits. So the
layout of a dump is right for every buffer, and the cells are right for the buffers of bytes below
128.

## What is left out

That `currentByte` is an `int`: a length is never negative.

## Main definitions

* `Display.Piece`, `Piece.render` — what is printed
* `Display.innerLoop`, `outerLoop` — the two loops
* `Lab1.ServerUDP.display`, `Lab1.displayBuffer`, `Lab2.ServerUDP.display`, `Lab3.display` — the
  dumps
* `Display.Faithful` — what a dump should be

## Main results

* `Display.outerLoop_eq` — the rows of a dump
* `Display.layout_rowsFrom` — every byte is in one row, and every row is where it should be
* `Display.faithful_iff` — the buffers whose dump is what it should be
* `Display.printed_eq` — the text that is printed for them
-/

namespace Comp4320

namespace Display

/-! ### The loops -/

/-- One `puts` or `printf` of a dump. -/
inductive Piece
  /-- The heading, or the empty lines behind the last row. -/
  | text (s : String)
  /-- `printf("%3d: ", currentByte)`. -/
  | label (currentByte : ℕ)
  /-- `printf("%2x ", Buffer[currentByte])`. -/
  | cell (c : UInt8)
  /-- `printf("\n")`. -/
  | newline
  deriving DecidableEq, Repr

/-- A number in base `b`, filled up with blanks to `w` characters. -/
def numeral (w b n : ℕ) : List Char :=
  let digits := Nat.toDigits b n
  List.replicate (w - digits.length) ' ' ++ digits

/-- `%2x` of a `char`: it is promoted to an `int`, and the `int` is taken for unsigned. -/
def cellText (c : UInt8) : List Char := numeral 2 16 (UInt32.ofInt (signedChar c)).toNat

/-- The characters that are printed. -/
def Piece.render : Piece → List Char
  | .text s => s.toList
  | .label currentByte => numeral 3 10 currentByte ++ [':', ' ']
  | .cell c => cellText c ++ [' ']
  | .newline => ['\n']

/-- The inner loop: what it prints, and `currentByte` afterwards. -/
def innerLoop (Buffer : Memory) (length currentByte column : ℕ) : List Piece × ℕ :=
  if currentByte < length ∧ column < 10 then
    let (out, next) := innerLoop Buffer length (currentByte + 1) (column + 1)
    (.cell (Buffer currentByte) :: out, next)
  else ([], currentByte)
termination_by 10 - column

variable {Buffer : Memory} {length c column : ℕ}

/-- **The inner loop prints a part of the buffer**: what is left of it, and of the row. -/
theorem innerLoop_eq : innerLoop Buffer length c column
    = ((Buffer.load c (min (10 - column) (length - c))).map .cell,
        c + min (10 - column) (length - c)) := by
  induction c, column using innerLoop.induct Buffer length with
  | case1 c column h out next heq ih =>
    have hcut : min (10 - column) (length - c)
        = min (10 - (column + 1)) (length - (c + 1)) + 1 := by omega
    rw [innerLoop, if_pos h, ih, hcut, Memory.load_succ, List.map_cons,
      Nat.add_right_comm c 1, Nat.add_assoc c]
  | case2 c column h =>
    rw [innerLoop, if_neg h, show min (10 - column) (length - c) = 0 by omega]
    rfl

/-- The outer loop. -/
def outerLoop (Buffer : Memory) (length currentByte : ℕ) : List Piece :=
  if currentByte < length then
    let row := innerLoop Buffer length currentByte 0
    .label currentByte :: row.1 ++ .newline :: outerLoop Buffer length row.2
  else []
termination_by length - currentByte
decreasing_by
  rw [innerLoop_eq]
  omega

/-- A dump: the heading, the rows, and two empty lines. -/
def dump (heading : String) (Buffer : Memory) (length : ℕ) : List Piece :=
  .text heading :: outerLoop Buffer length 0 ++ [.text "\n\n"]

/-- The argument of the first `puts` or `printf`. -/
def heading : String := "\n>>>>>>>>>>>> Content in hexadecimal <<<<<<<<<<<\n"

/-- What `puts` prints. -/
def puts (s : String) : String := s ++ "\n"

end Display

open Display

/-- `display` of `LAB_1/udp-client-server/ServerUDP.cpp`. -/
def Lab1.ServerUDP.display : Memory → ℕ → List Piece := dump (puts heading)

/-- `displayBuffer` of `LAB_1/UDPServerDisplay.c` and of `LAB_1/TCPServerDisplay.c`. -/
def Lab1.displayBuffer : Memory → ℕ → List Piece := dump heading

/-- `display` of `LAB_2/ServerUDP.cpp`. -/
def Lab2.ServerUDP.display : Memory → ℕ → List Piece := dump (puts heading)

/-- `display` of `LAB_3/ChatClient.c`. -/
def Lab3.display : Memory → ℕ → List Piece := dump (puts heading)

namespace Display

/-- The routines that dump a buffer. -/
inductive Routine
  | lab1ServerUDP
  | lab1ServerDisplay
  | lab2ServerUDP
  | lab3ChatClient
  deriving DecidableEq, Repr

/-- What a routine prints. -/
def Routine.output : Routine → Memory → ℕ → List Piece
  | .lab1ServerUDP => Lab1.ServerUDP.display
  | .lab1ServerDisplay => Lab1.displayBuffer
  | .lab2ServerUDP => Lab2.ServerUDP.display
  | .lab3ChatClient => Lab3.display

/-! ### What a dump should be -/

/-- A row of a dump. -/
structure Row where
  label : ℕ
  bytes : List UInt8

/-- What is printed for a row. -/
def Row.pieces (row : Row) : List Piece := .label row.label :: row.bytes.map .cell ++ [.newline]

/-- The bytes of the buffer, each once and in order, in rows of ten, of which only the last may be
shorter; each row is labelled with the index of its first byte. -/
structure Layout (rows : List Row) (Buffer : Memory) (length : ℕ) : Prop where
  bytes : rows.flatMap Row.bytes = Buffer.load 0 length
  label : ∀ (i : ℕ) row, rows[i]? = some row →
    row.label = 10 * i ∧ row.bytes = Buffer.load row.label row.bytes.length
  size : ∀ (i : ℕ) row, rows[i]? = some row →
    row.bytes ≠ [] ∧ row.bytes.length ≤ 10 ∧ (i + 1 < rows.length → row.bytes.length = 10)

/-- The cells of a dump. -/
def cells (out : List Piece) : List (List Char) :=
  out.filterMap fun
    | .cell c => some (cellText c)
    | _ => none

/-- A dump is laid out in rows, its cells are the hexadecimal numerals of the bytes, they determine
the bytes, and none has more than two digits. -/
structure Faithful (output : Memory → ℕ → List Piece) (Buffer : Memory) (length : ℕ) : Prop where
  rows : ∃ head rows, output Buffer length
    = .text head :: rows.flatMap Row.pieces ++ [.text "\n\n"] ∧ Layout rows Buffer length
  numerals : cells (output Buffer length)
    = (Buffer.load 0 length).map fun b => numeral 2 16 b.toNat
  determined : ∀ Buffer' : Memory, cells (output Buffer' length) = cells (output Buffer length) →
    Buffer'.load 0 length = Buffer.load 0 length
  digits : ∀ text ∈ cells (output Buffer length), text.length ≤ 2

/-! ### The layout -/

/-- The rows from index `c` on. -/
def rowsFrom (Buffer : Memory) (length c : ℕ) : List Row :=
  if c < length then
    ⟨c, Buffer.load c (min 10 (length - c))⟩ :: rowsFrom Buffer length (c + 10)
  else []
termination_by length - c

theorem rowsFrom_of_lt (h : c < length) : rowsFrom Buffer length c
    = ⟨c, Buffer.load c (min 10 (length - c))⟩ :: rowsFrom Buffer length (c + 10) := by
  rw [rowsFrom, if_pos h]

theorem rowsFrom_of_le (h : length ≤ c) : rowsFrom Buffer length c = [] := by
  rw [rowsFrom, if_neg (by omega)]

/-- **The outer loop prints rows.** -/
theorem outerLoop_eq : outerLoop Buffer length c
    = (rowsFrom Buffer length c).flatMap Row.pieces := by
  induction c using rowsFrom.induct length with
  | case1 c h ih =>
    have hnext : outerLoop Buffer length (c + min 10 (length - c))
        = outerLoop Buffer length (c + 10) := by
      rcases Nat.le_total 10 (length - c) with hten | hten
      · rw [Nat.min_eq_left hten]
      · rw [outerLoop, if_neg (by omega), outerLoop, if_neg (by omega)]
    rw [outerLoop, if_pos h, rowsFrom_of_lt h, List.flatMap_cons, Row.pieces]
    dsimp only
    rw [innerLoop_eq, Nat.sub_zero, hnext, ih, List.cons_append, List.append_assoc,
      List.singleton_append]
    rfl
  | case2 c h =>
    rw [outerLoop, if_neg h, rowsFrom_of_le (by omega)]
    rfl

/-- Every byte is in one row. -/
theorem bytes_rowsFrom :
    (rowsFrom Buffer length c).flatMap Row.bytes = Buffer.load c (length - c) := by
  induction c using rowsFrom.induct length with
  | case1 c h ih =>
    rw [rowsFrom_of_lt h, List.flatMap_cons, ih]
    rcases Nat.le_total 10 (length - c) with hten | hten
    · rw [Nat.min_eq_left hten, ← Memory.load_add, show 10 + (length - (c + 10)) = length - c by
        omega]
    · rw [Nat.min_eq_right hten, show length - (c + 10) = 0 by omega]
      exact List.append_nil _
  | case2 c h =>
    rw [rowsFrom_of_le (by omega), show length - c = 0 by omega]
    rfl

/-- Where a row is, and how long it is. -/
theorem getElem?_rowsFrom {i : ℕ} {row : Row} (h : (rowsFrom Buffer length c)[i]? = some row) :
    row = ⟨c + 10 * i, Buffer.load (c + 10 * i) (min 10 (length - (c + 10 * i)))⟩ ∧
      c + 10 * i < length := by
  induction c using rowsFrom.induct length generalizing i with
  | case1 c hlt ih =>
    rw [rowsFrom_of_lt hlt] at h
    cases i with
    | zero => exact ⟨(Option.some.inj h).symm, hlt⟩
    | succ i =>
      rw [List.getElem?_cons_succ] at h
      have hrow := ih h
      rwa [show c + 10 + 10 * i = c + 10 * (i + 1) by omega] at hrow
  | case2 c hge =>
    rw [rowsFrom_of_le (by omega)] at h
    cases h

/-- **Every byte is in one row, and every row is where it should be.** -/
theorem layout_rowsFrom (Buffer : Memory) (length : ℕ) :
    Layout (rowsFrom Buffer length 0) Buffer length := by
  refine ⟨bytes_rowsFrom, fun i row h => ?_, fun i row h => ?_⟩
  · obtain ⟨rfl, -⟩ := getElem?_rowsFrom h
    rw [Memory.length_load]
    exact ⟨Nat.zero_add _, rfl⟩
  · obtain ⟨rfl, hlt⟩ := getElem?_rowsFrom h
    rw [Memory.length_load]
    refine ⟨?_, Nat.min_le_left .., fun hnext => ?_⟩
    · rw [← List.length_pos_iff, Memory.length_load]
      omega
    · -- there is a row behind it, which begins ten bytes further on
      have hnext' := getElem?_rowsFrom (List.getElem?_eq_getElem hnext)
      omega

/-! ### The cells -/

theorem cells_append (out out' : List Piece) : cells (out ++ out') = cells out ++ cells out' :=
  List.filterMap_append ..

theorem cells_pieces (row : Row) : cells row.pieces = row.bytes.map cellText := by
  have hbytes : cells (row.bytes.map .cell) = row.bytes.map cellText := by
    rw [cells, List.filterMap_map]
    exact congrFun List.filterMap_eq_map' row.bytes
  rw [Row.pieces, cells_append]
  exact (List.append_nil _).trans hbytes

theorem cells_flatMap_pieces (rows : List Row) :
    cells (rows.flatMap Row.pieces) = (rows.flatMap Row.bytes).map cellText := by
  induction rows with
  | nil => rfl
  | cons row rows ih =>
    rw [List.flatMap_cons, cells_append, cells_pieces, ih, List.flatMap_cons, List.map_append]

/-- **The cells of a dump are those of the bytes**, each once and in order. -/
theorem cells_dump (heading : String) (Buffer : Memory) (length : ℕ) :
    cells (dump heading Buffer length) = (Buffer.load 0 length).map cellText := by
  have hrows : cells (outerLoop Buffer length 0) = (Buffer.load 0 length).map cellText := by
    rw [outerLoop_eq, cells_flatMap_pieces, bytes_rowsFrom]
    rfl
  rw [dump, cells_append]
  exact (List.append_nil _).trans hrows

/-- What is read back from a cell. -/
def readCell (text : List Char) : ℕ :=
  text.foldl (fun n d =>
    16 * n + if d = ' ' then 0 else if d.isDigit then d.toNat - 48 else d.toNat - 87) 0

/-- **A cell determines its byte**: the sign only puts more digits before it. -/
theorem readCell_cellText (c : UInt8) : UInt8.ofNat (readCell (cellText c)) = c :=
  forall_byte (P := fun c => UInt8.ofNat (readCell (cellText c)) = c) (by decide +kernel) c

theorem cellText_injective : Function.Injective cellText := by
  intro c c' h
  rw [← readCell_cellText c, h, readCell_cellText]

/-- A byte below 128 is printed as it should be. -/
theorem cellText_of_lt {c : UInt8} (h : c.toNat < 128) : cellText c = numeral 2 16 c.toNat := by
  have hpromoted : (UInt32.ofInt c.toNat).toNat = c.toNat := by
    rw [UInt32.ofInt, UInt32.toNat_ofNat']
    omega
  rw [cellText, signedChar_of_lt h, hpromoted]

/-- **Any other byte is printed with eight digits.** -/
theorem length_cellText (c : UInt8) :
    (cellText c).length = if c.toNat < 128 then 2 else 8 :=
  forall_byte (P := fun c => (cellText c).length = if c.toNat < 128 then 2 else 8)
    (by decide +kernel) c

/-! ### Faithful dumps -/

/-- Every routine prints the same dump, under its own heading. -/
theorem Routine.output_eq (r : Routine) : ∃ head, r.output = dump head := by
  cases r <;> exact ⟨_, rfl⟩

/-- **A dump is faithful exactly if every byte of the buffer is below 128.** -/
theorem faithful_iff (r : Routine) (Buffer : Memory) (length : ℕ) :
    Faithful r.output Buffer length ↔ ∀ b ∈ Buffer.load 0 length, b.toNat < 128 := by
  obtain ⟨head, houtput⟩ := r.output_eq
  have hcells := cells_dump head
  rw [houtput]
  constructor
  · intro h b hb
    have hshort := h.digits (cellText b) (by rw [hcells]; exact List.mem_map_of_mem hb)
    by_contra hlarge
    rw [length_cellText, if_neg hlarge] at hshort
    exact absurd hshort (by decide)
  · intro h
    refine ⟨⟨head, rowsFrom Buffer length 0, by rw [dump, outerLoop_eq],
      layout_rowsFrom Buffer length⟩, ?_, fun Buffer' heq => ?_, fun text htext => ?_⟩
    · rw [hcells]
      exact List.map_congr_left fun b hb => cellText_of_lt (h b hb)
    · rw [hcells, hcells] at heq
      exact cellText_injective.list_map heq
    · rw [hcells] at htext
      obtain ⟨b, hb, rfl⟩ := List.mem_map.mp htext
      exact Nat.le_of_eq ((length_cellText b).trans (if_pos (h b hb)))

/-- The text of a row. -/
def Row.text (row : Row) : List Char :=
  numeral 3 10 row.label ++ [':', ' ']
    ++ (row.bytes.flatMap fun b => numeral 2 16 b.toNat ++ [' ']) ++ ['\n']

theorem render_pieces {row : Row} (h : ∀ b ∈ row.bytes, b.toNat < 128) :
    row.pieces.flatMap Piece.render = row.text := by
  have hcells : (row.bytes.map Piece.cell).flatMap Piece.render
      = row.bytes.flatMap fun b => numeral 2 16 b.toNat ++ [' '] := by
    rw [List.flatMap_map]
    refine List.flatMap_congr fun b hb => ?_
    rw [Piece.render, cellText_of_lt (h b hb)]
  rw [Row.pieces, Row.text, List.flatMap_append, List.flatMap_cons, hcells]
  rfl

/-- **The text that is printed for bytes below 128.** -/
theorem printed_eq (head : String) (h : ∀ b ∈ Buffer.load 0 length, b.toNat < 128) :
    (dump head Buffer length).flatMap Piece.render = head.toList
      ++ (rowsFrom Buffer length 0).flatMap Row.text ++ ['\n', '\n'] := by
  have hrows : ((rowsFrom Buffer length 0).flatMap Row.pieces).flatMap Piece.render
      = (rowsFrom Buffer length 0).flatMap Row.text := by
    rw [List.flatMap_assoc]
    refine List.flatMap_congr fun row hrow => render_pieces fun b hb => h b ?_
    have hall : (rowsFrom Buffer length 0).flatMap Row.bytes = Buffer.load 0 length :=
      bytes_rowsFrom
    rw [← hall]
    exact List.mem_flatMap.mpr ⟨row, hrow, hb⟩
  rw [dump, List.flatMap_append, List.flatMap_cons, outerLoop_eq, hrows]
  rfl

/-- A buffer of the one byte `0x80`. -/
theorem not_faithful_high_byte :
    ¬ Faithful Lab2.ServerUDP.display (.ofList [0x80]) 1 := by
  intro h
  have hshort := h.digits (cellText 0x80) (by
    rw [Lab2.ServerUDP.display, cells_dump]
    exact List.mem_map_of_mem List.mem_cons_self)
  rw [length_cellText] at hshort
  exact absurd hshort (by decide)

end Display

end Comp4320
