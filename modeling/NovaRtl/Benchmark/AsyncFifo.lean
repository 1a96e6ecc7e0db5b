import Mathlib.Data.List.Range
import Mathlib.Logic.Function.Basic
import NovaRtl.Clocks.Gray
import NovaRtl.Clocks.TwoDomains

/-!
# The asynchronous queue

`benchmark/rtl/cdc/cdc_async_fifo.sv` with its two `cdc_gray_sync`, for `ADDRESS_WIDTH = k + 2`. Each
pointer is a counter of one bit more than an address, and crosses into the other domain as a Gray
code through two registers, so each side compares its own pointer with an earlier one of the other.

## Main definitions

* `Tracks` — the counts of which the registers have the last bits, and their order.
* `held` — the words between the pointers.
-/

namespace NovaRtl.Benchmark.AsyncFifo

open TwoDomains Gray

variable {w k : ℕ}

/-! ## The registers -/

/-- The registers of `write_clock`, among them those of `u_read_pointer_sync`. -/
structure WriteSide (w k : ℕ) where
  memory : BitVec (k + 2) → BitVec w
  writeBinary : BitVec (k + 3)
  writeGray : BitVec (k + 3)
  full : Bool
  readFirstStage : BitVec (k + 3)
  readGrayAtWrite : BitVec (k + 3)

/-- The registers of `read_clock`, among them those of `u_write_pointer_sync`. -/
structure ReadSide (w k : ℕ) where
  readBinary : BitVec (k + 3)
  readGray : BitVec (k + 3)
  readData : BitVec w
  readValid : Bool
  empty : Bool
  writeFirstStage : BitVec (k + 3)
  writeGrayAtRead : BitVec (k + 3)

structure WriteInput (w : ℕ) where
  writeData : BitVec w
  writeEnable : Bool

structure ReadInput where
  readEnable : Bool

abbrev Registers (w k : ℕ) := WriteSide w k × ReadSide w k

def accepts (s : WriteSide w k) (input : WriteInput w) : Bool := input.writeEnable && !s.full

def acceptsRead (r : ReadSide w k) (input : ReadInput) : Bool := input.readEnable && !r.empty

/-- The bits of a pointer that address the memory. -/
def address (pointer : BitVec (k + 3)) : BitVec (k + 2) := pointer.setWidth (k + 2)

def writeEdge (s : WriteSide w k) (r : ReadSide w k) (input : WriteInput w) : WriteSide w k :=
  let next := s.writeBinary + BitVec.ofNat (k + 3) (accepts s input).toNat
  { memory :=
      if accepts s input then Function.update s.memory (address s.writeBinary) input.writeData
      else s.memory
    writeBinary := next
    writeGray := gray next
    full := gray next == flipTop s.readGrayAtWrite
    readFirstStage := r.readGray
    readGrayAtWrite := s.readFirstStage }

def readEdge (s : WriteSide w k) (r : ReadSide w k) (input : ReadInput) : ReadSide w k :=
  let next := r.readBinary + BitVec.ofNat (k + 3) (acceptsRead r input).toNat
  { readBinary := next
    readGray := gray next
    readData := if acceptsRead r input then s.memory (address r.readBinary) else r.readData
    readValid := acceptsRead r input
    empty := gray next == r.writeGrayAtRead
    writeFirstStage := s.writeGray
    writeGrayAtRead := r.writeFirstStage }

def cdcAsyncFifo (w k : ℕ) :
    Circuit (WriteSide w k) (ReadSide w k) (WriteInput w) ReadInput where
  left := writeEdge
  right := readEdge

/-- After reset of both sides; the memory is not reset. -/
def reset (memory : BitVec (k + 2) → BitVec w) : Registers w k :=
  (⟨memory, 0, 0, false, 0, 0⟩, ⟨0, 0, 0, false, true, 0, 0⟩)

abbrev Edge (w : ℕ) := TwoDomains.Edge (WriteInput w) ReadInput

/-- The word that is accepted at an edge. -/
def accepted (q : Registers w k) (edge : Edge w) : List (BitVec w) :=
  match edge.left? with
  | some input => if accepts q.1 input then [input.writeData] else []
  | none => []

/-- What the outputs of the read side show after an edge of its clock. -/
def delivered (q : Registers w k) (edge : Edge w) : List (BitVec w) :=
  match edge.right? with
  | some input =>
    let r := readEdge q.1 q.2 input
    if r.readValid then [r.readData] else []
  | none => []

/-- The addresses from the read pointer up to the write pointer. -/
def unread (q : Registers w k) : List (BitVec (k + 2)) :=
  (List.range (q.1.writeBinary - q.2.readBinary).toNat).map fun i =>
    address (q.2.readBinary + BitVec.ofNat (k + 3) i)

/-- The words that are not yet read, the oldest first. -/
def held (q : Registers w k) : List (BitVec w) := (unread q).map q.1.memory

/-! ## Counts -/

/-- How many words were written and read, and what each side has seen of the other. -/
structure Counts where
  written : ℕ
  read : ℕ
  readFirst : ℕ
  readSeen : ℕ
  writtenFirst : ℕ
  writtenSeen : ℕ

/-- The number of words that fit. -/
abbrev depth (k : ℕ) : ℕ := 2 ^ (k + 2)

structure Tracks (q : Registers w k) (c : Counts) : Prop where
  writeBinary_eq : q.1.writeBinary = BitVec.ofNat (k + 3) c.written
  writeGray_eq : q.1.writeGray = gray (BitVec.ofNat (k + 3) c.written)
  readFirst_eq : q.1.readFirstStage = gray (BitVec.ofNat (k + 3) c.readFirst)
  readSeen_eq : q.1.readGrayAtWrite = gray (BitVec.ofNat (k + 3) c.readSeen)
  readBinary_eq : q.2.readBinary = BitVec.ofNat (k + 3) c.read
  readGray_eq : q.2.readGray = gray (BitVec.ofNat (k + 3) c.read)
  writtenFirst_eq : q.2.writeFirstStage = gray (BitVec.ofNat (k + 3) c.writtenFirst)
  writtenSeen_eq : q.2.writeGrayAtRead = gray (BitVec.ofNat (k + 3) c.writtenSeen)
  readSeen_le : c.readSeen ≤ c.readFirst
  readFirst_le : c.readFirst ≤ c.read
  read_le : c.read ≤ c.writtenSeen
  writtenSeen_le : c.writtenSeen ≤ c.writtenFirst
  writtenFirst_le : c.writtenFirst ≤ c.written
  written_le : c.written ≤ c.readSeen + depth k
  lt_of_not_full : q.1.full = false → c.written < c.readSeen + depth k
  lt_of_not_empty : q.2.empty = false → c.read < c.writtenSeen

def noCounts : Counts := ⟨0, 0, 0, 0, 0, 0⟩

theorem tracks_reset (memory : BitVec (k + 2) → BitVec w) : Tracks (reset memory) noCounts := by
  have hpos : 0 < depth k := Nat.two_pow_pos _
  constructor <;> simp [reset, noCounts, hpos]

/-- What the counts are after an edge. -/
def Counts.next (c : Counts) (q : Registers w k) (edge : Edge w) : Counts where
  written := c.written + (accepted q edge).length
  read := c.read + (delivered q edge).length
  readFirst := if edge.left?.isSome then c.read else c.readFirst
  readSeen := if edge.left?.isSome then c.readFirst else c.readSeen
  writtenFirst := if edge.right?.isSome then c.written else c.writtenFirst
  writtenSeen := if edge.right?.isSome then c.writtenFirst else c.writtenSeen

section Edges

variable {q : Registers w k} {c : Counts} {input : WriteInput w} {input' : ReadInput}

theorem turn_eq : 2 ^ (k + 3) = depth k + depth k := by
  rw [depth, Nat.pow_succ, Nat.mul_two]

theorem Tracks.written_lt (h : Tracks q c) (haccept : accepts q.1 input = true) :
    c.written < c.readSeen + depth k := by
  simp only [accepts, Bool.and_eq_true, Bool.not_eq_true'] at haccept
  exact h.lt_of_not_full haccept.2

theorem Tracks.read_lt (h : Tracks q c) (haccept : acceptsRead q.2 input' = true) :
    c.read < c.writtenSeen := by
  simp only [acceptsRead, Bool.and_eq_true, Bool.not_eq_true'] at haccept
  exact h.lt_of_not_empty haccept.2

/-- The write side after an edge of its clock. -/
theorem Tracks.writeEdge (h : Tracks q c) (input : WriteInput w) :
    let n := c.written + (accepts q.1 input).toNat
    let s := writeEdge q.1 q.2 input
    s.writeBinary = BitVec.ofNat (k + 3) n ∧ s.writeGray = gray (BitVec.ofNat (k + 3) n) ∧
      n ≤ c.readSeen + depth k ∧ (s.full = false → n < c.readSeen + depth k) := by
  have hnext : q.1.writeBinary + BitVec.ofNat (k + 3) (accepts q.1 input).toNat =
      BitVec.ofNat (k + 3) (c.written + (accepts q.1 input).toNat) := by
    rw [h.writeBinary_eq, BitVec.ofNat_add_ofNat]
  have hbound : c.written + (accepts q.1 input).toNat ≤ c.readSeen + depth k := by
    cases haccept : accepts q.1 input
    · exact h.written_le
    · exact h.written_lt haccept
  have hseen : c.readSeen ≤ c.written + (accepts q.1 input).toNat := by
    have := h.readSeen_le
    have := h.readFirst_le
    have := h.read_le
    have := h.writtenSeen_le
    have := h.writtenFirst_le
    omega
  refine ⟨hnext, congrArg gray hnext, hbound, fun hfull => ?_⟩
  have hne : ¬ gray (BitVec.ofNat (k + 3) (c.written + (accepts q.1 input).toNat)) =
      flipTop (gray (BitVec.ofNat (k + 3) c.readSeen)) := by
    rw [← hnext, ← h.readSeen_eq]
    simpa [AsyncFifo.writeEdge] using hfull
  rw [gray_eq_flipTop_iff hseen hbound] at hne
  exact lt_of_le_of_ne hbound hne

/-- The read side after an edge of its clock. -/
theorem Tracks.readEdge (h : Tracks q c) (input : ReadInput) :
    let n := c.read + (acceptsRead q.2 input).toNat
    let r := readEdge q.1 q.2 input
    r.readBinary = BitVec.ofNat (k + 3) n ∧ r.readGray = gray (BitVec.ofNat (k + 3) n) ∧
      n ≤ c.writtenSeen ∧ (r.empty = true ↔ n = c.writtenSeen) := by
  have hnext : q.2.readBinary + BitVec.ofNat (k + 3) (acceptsRead q.2 input).toNat =
      BitVec.ofNat (k + 3) (c.read + (acceptsRead q.2 input).toNat) := by
    rw [h.readBinary_eq, BitVec.ofNat_add_ofNat]
  have hbound : c.read + (acceptsRead q.2 input).toNat ≤ c.writtenSeen := by
    cases haccept : acceptsRead q.2 input
    · exact h.read_le
    · exact h.read_lt haccept
  have hturn : c.writtenSeen < c.read + (acceptsRead q.2 input).toNat + 2 ^ (k + 3) := by
    have := h.writtenSeen_le
    have := h.writtenFirst_le
    have := h.written_le
    have := h.readSeen_le
    have := h.readFirst_le
    have hpos : 0 < depth k := Nat.two_pow_pos _
    rw [turn_eq]
    omega
  refine ⟨hnext, congrArg gray hnext, hbound, ?_⟩
  have hempty : (AsyncFifo.readEdge q.1 q.2 input).empty = true ↔
      gray (BitVec.ofNat (k + 3) c.writtenSeen) =
        gray (BitVec.ofNat (k + 3) (c.read + (acceptsRead q.2 input).toNat)) := by
    rw [← hnext, ← h.writtenSeen_eq, eq_comm (a := q.2.writeGrayAtRead)]
    exact beq_iff_eq
  rw [hempty, gray_injective.eq_iff, ofNat_inj hbound hturn, eq_comm]

theorem length_accepted (q : Registers w k) (input : WriteInput w) :
    (if accepts q.1 input then [input.writeData] else []).length =
      (accepts q.1 input).toNat := by
  cases accepts q.1 input <;> rfl

theorem length_delivered (q : Registers w k) (input : ReadInput) :
    (if (AsyncFifo.readEdge q.1 q.2 input).readValid then
        [(AsyncFifo.readEdge q.1 q.2 input).readData] else []).length =
      (acceptsRead q.2 input).toNat := by
  by_cases haccept : acceptsRead q.2 input = true
  · simp [AsyncFifo.readEdge, haccept]
  · simp [AsyncFifo.readEdge, haccept]

theorem Tracks.step (h : Tracks q c) (edge : Edge w) :
    Tracks ((cdcAsyncFifo w k).step q edge) (c.next q edge) := by
  have hseen := h.readSeen_le
  have hfirst := h.readFirst_le
  have hread := h.read_le
  have hwseen := h.writtenSeen_le
  have hwfirst := h.writtenFirst_le
  have hwritten := h.written_le
  cases edge with
  | left input =>
    obtain ⟨hbinary, hgray, hbound, hfull⟩ := h.writeEdge input
    have hlength := length_accepted q input
    constructor <;>
      simp only [Circuit.step, cdcAsyncFifo, Counts.next, accepted,
        delivered, Edge.left?, Edge.right?, hlength, List.length_nil, Nat.add_zero,
        Option.isSome_some, Option.isSome_none, if_true, Bool.false_eq_true, if_false]
    · exact hbinary
    · exact hgray
    · exact h.readGray_eq
    · exact h.readFirst_eq
    · exact h.readBinary_eq
    · exact h.readGray_eq
    · exact h.writtenFirst_eq
    · exact h.writtenSeen_eq
    · omega
    · omega
    · omega
    · omega
    · omega
    · omega
    · intro hfalse
      have := hfull hfalse
      omega
    · exact h.lt_of_not_empty
  | right input =>
    obtain ⟨hbinary, hgray, hbound, hempty⟩ := h.readEdge input
    have hlength := length_delivered q input
    constructor <;>
      simp only [Circuit.step, cdcAsyncFifo, Counts.next, accepted,
        delivered, Edge.left?, Edge.right?, hlength, List.length_nil, Nat.add_zero,
        Option.isSome_some, Option.isSome_none, if_true, Bool.false_eq_true, if_false]
    · exact h.writeBinary_eq
    · exact h.writeGray_eq
    · exact h.readFirst_eq
    · exact h.readSeen_eq
    · exact hbinary
    · exact hgray
    · exact h.writeGray_eq
    · exact h.writtenFirst_eq
    · omega
    · omega
    · omega
    · omega
    · omega
    · omega
    · exact h.lt_of_not_full
    · intro hfalse
      have hne := mt hempty.mpr (by rw [hfalse]; decide)
      omega
  | both input input' =>
    obtain ⟨hbinary, hgray, hbound, hfull⟩ := h.writeEdge input
    obtain ⟨hbinary', hgray', hbound', hempty⟩ := h.readEdge input'
    have hlength := length_accepted q input
    have hlength' := length_delivered q input'
    constructor <;>
      simp only [Circuit.step, cdcAsyncFifo, Counts.next, accepted,
        delivered, Edge.left?, Edge.right?, hlength, hlength', Option.isSome_some,
        if_true]
    · exact hbinary
    · exact hgray
    · exact h.readGray_eq
    · exact h.readFirst_eq
    · exact hbinary'
    · exact hgray'
    · exact h.writeGray_eq
    · exact h.writtenFirst_eq
    · omega
    · omega
    · omega
    · omega
    · omega
    · omega
    · intro hfalse
      have := hfull hfalse
      omega
    · intro hfalse
      have hne := mt hempty.mpr (by rw [hfalse]; decide)
      omega

end Edges

/-! ## The words -/

section Words

variable {q : Registers w k} {c : Counts}

theorem address_ofNat (n : ℕ) :
    address (BitVec.ofNat (k + 3) n) = BitVec.ofNat (k + 2) n :=
  BitVec.setWidth_ofNat_of_le (Nat.le_succ _) n

theorem Tracks.read_le_written (h : Tracks q c) : c.read ≤ c.written :=
  h.read_le.trans (h.writtenSeen_le.trans h.writtenFirst_le)

theorem Tracks.written_le_read (h : Tracks q c) : c.written ≤ c.read + depth k := by
  have hwritten := h.written_le
  have hseen := h.readSeen_le
  have hfirst := h.readFirst_le
  omega

/-- The addresses of the words from count `a` up to count `b`. -/
def addresses (k a b : ℕ) : List (BitVec (k + 2)) :=
  (List.range' a (b - a)).map (BitVec.ofNat (k + 2))

theorem addresses_append_one {a b : ℕ} (hle : a ≤ b) :
    addresses k a (b + 1) = addresses k a b ++ [BitVec.ofNat (k + 2) b] := by
  have hlength : b + 1 - a = b - a + 1 := by omega
  have hlast : a + 1 * (b - a) = b := by omega
  rw [addresses, hlength, List.range'_concat, List.map_append, hlast]
  rfl

theorem addresses_cons {a b : ℕ} (hlt : a < b) :
    addresses k a b = BitVec.ofNat (k + 2) a :: addresses k (a + 1) b := by
  have hlength : b - a = b - (a + 1) + 1 := by omega
  rw [addresses, hlength, List.range'_succ]
  rfl

/-- As long as a word fits, its address is not that of another. -/
theorem not_mem_addresses {a b : ℕ} (hlt : b < a + depth k) :
    BitVec.ofNat (k + 2) b ∉ addresses k a b := by
  intro hmem
  obtain ⟨i, hi, heq⟩ := List.mem_map.mp hmem
  rw [List.mem_range'_1] at hi
  have hturn : b < i + 2 ^ (k + 2) := by
    rw [depth] at hlt
    omega
  have hsame := (ofNat_inj (w := k + 2) (by omega : i ≤ b) hturn).mp heq.symm
  omega

theorem Tracks.unread_eq (h : Tracks q c) : unread q = addresses k c.read c.written := by
  have hle := h.read_le_written
  have hbound := h.written_le_read
  have hpos : 0 < depth k := Nat.two_pow_pos _
  have hcount : (q.1.writeBinary - q.2.readBinary).toNat = c.written - c.read := by
    have hsum : q.1.writeBinary = BitVec.ofNat (k + 3) (c.written - c.read) + q.2.readBinary := by
      rw [h.writeBinary_eq, h.readBinary_eq, BitVec.ofNat_add_ofNat, Nat.sub_add_cancel hle]
    have hlt : c.written - c.read < 2 ^ (k + 3) := by
      rw [turn_eq]
      omega
    rw [hsum, BitVec.add_sub_cancel, BitVec.toNat_ofNat, Nat.mod_eq_of_lt hlt]
  rw [unread, addresses, hcount, List.range'_eq_map_range, List.map_map]
  refine List.map_congr_left fun i _ => ?_
  rw [h.readBinary_eq, BitVec.ofNat_add_ofNat, address_ofNat]
  rfl

/-- What an edge does to the memory. -/
theorem accepted_cases (q : Registers w k) (edge : Edge w) :
    accepted q edge = [] ∧ ((cdcAsyncFifo w k).step q edge).1.memory = q.1.memory ∨
      ∃ data, accepted q edge = [data] ∧ q.1.full = false ∧
        ((cdcAsyncFifo w k).step q edge).1.memory =
          Function.update q.1.memory (address q.1.writeBinary) data := by
  cases edge with
  | right input => exact .inl ⟨rfl, rfl⟩
  | left input | both input _ =>
    by_cases haccept : accepts q.1 input = true
    · refine .inr ⟨input.writeData, ?_, ?_, ?_⟩
      · simp [accepted, Edge.left?, haccept]
      · simp only [accepts, Bool.and_eq_true, Bool.not_eq_true'] at haccept
        exact haccept.2
      · simp [Circuit.step, cdcAsyncFifo, Edge.left?, AsyncFifo.writeEdge, haccept]
    · refine .inl ⟨?_, ?_⟩
      · simp [accepted, Edge.left?, haccept]
      · simp [Circuit.step, cdcAsyncFifo, Edge.left?, AsyncFifo.writeEdge, haccept]

theorem delivered_cases (q : Registers w k) (edge : Edge w) :
    delivered q edge = [] ∨
      delivered q edge = [q.1.memory (address q.2.readBinary)] ∧ q.2.empty = false := by
  cases edge with
  | left input => exact .inl rfl
  | right input | both _ input =>
    by_cases haccept : acceptsRead q.2 input = true
    · refine .inr ⟨?_, ?_⟩
      · simp [delivered, Edge.right?, AsyncFifo.readEdge, haccept]
      · simp only [acceptsRead, Bool.and_eq_true, Bool.not_eq_true'] at haccept
        exact haccept.2
    · exact .inl (by simp [delivered, Edge.right?, AsyncFifo.readEdge, haccept])

/-- The words from count `a` up to count `b`. -/
def words (memory : BitVec (k + 2) → BitVec w) (a b : ℕ) : List (BitVec w) :=
  (addresses k a b).map memory

theorem Tracks.held_eq (h : Tracks q c) : held q = words q.1.memory c.read c.written := by
  rw [held, h.unread_eq, words]

theorem Tracks.fits_of_not_full (h : Tracks q c) (hfull : q.1.full = false) :
    c.written < c.read + depth k := by
  have hlt := h.lt_of_not_full hfull
  have hseen := h.readSeen_le
  have hfirst := h.readFirst_le
  omega

theorem Tracks.words_accepted (h : Tracks q c) (edge : Edge w) :
    words ((cdcAsyncFifo w k).step q edge).1.memory c.read (c.next q edge).written =
      words q.1.memory c.read c.written ++ accepted q edge := by
  rcases accepted_cases q edge with ⟨hnone, hmemory⟩ | ⟨data, hone, hfull, hmemory⟩
  · rw [Counts.next, hnone, hmemory]
    simp
  · have hfree := not_mem_addresses (h.fits_of_not_full hfull)
    rw [Counts.next, hone, hmemory, words, words, List.length_singleton,
      addresses_append_one h.read_le_written, List.map_append, h.writeBinary_eq, address_ofNat,
      List.map_singleton, Function.update_self]
    congr 1
    refine List.map_congr_left fun slot hslot => ?_
    rw [Function.update_of_ne (ne_of_mem_of_not_mem hslot hfree)]

theorem Tracks.words_delivered (h : Tracks q c) (edge : Edge w) :
    words ((cdcAsyncFifo w k).step q edge).1.memory c.read (c.next q edge).written =
      delivered q edge ++ words ((cdcAsyncFifo w k).step q edge).1.memory
        (c.next q edge).read (c.next q edge).written := by
  rcases delivered_cases q edge with hnone | ⟨hone, hempty⟩
  · rw [Counts.next, hnone]
    simp
  · have hlt : c.read < c.written := by
      have hread := h.lt_of_not_empty hempty
      have hseen := h.writtenSeen_le
      have hfirst := h.writtenFirst_le
      omega
    have hlt' : c.read < (c.next q edge).written := by
      simp only [Counts.next]
      omega
    -- the word that is read is not the one that is written
    have hsame : ((cdcAsyncFifo w k).step q edge).1.memory (BitVec.ofNat (k + 2) c.read) =
        q.1.memory (BitVec.ofNat (k + 2) c.read) := by
      have hwords := h.words_accepted edge
      rw [words, words, addresses_cons hlt, addresses_cons hlt'] at hwords
      exact (List.cons.inj hwords).1
    have hnext : (c.next q edge).read = c.read + 1 := by
      rw [Counts.next, hone, List.length_singleton]
    rw [hone, h.readBinary_eq, address_ofNat, ← hsame, hnext, words, words, addresses_cons hlt']
    rfl

theorem Tracks.queue_step (h : Tracks q c) (edge : Edge w) :
    held q ++ accepted q edge =
      delivered q edge ++ held ((cdcAsyncFifo w k).step q edge) := by
  rw [h.held_eq, (h.step edge).held_eq, ← h.words_accepted edge, h.words_delivered edge]

end Words

/-! ## Progress -/

section Progress

variable {q : Registers w k} {c : Counts} {total : ℕ}

/-- If the read clock rises, a word is wanted. -/
def Wanted (edge : Edge w) : Prop := ∀ input ∈ edge.right?, input.readEnable = true

/-- The edges of the read clock until `total` words are read: until the last of them is seen, then
one for each. -/
def remaining (q : Registers w k) (c : Counts) (total : ℕ) : ℕ :=
  (total - c.read) +
    if c.writtenFirst < total then 3
    else if c.writtenSeen < total then 2
    else if q.2.empty ∧ c.read < total then 1
    else 0

theorem remaining_le (h : Tracks q c) (hle : total ≤ c.written) :
    remaining q c total ≤ (held q).length + 3 := by
  have hlength : (held q).length = c.written - c.read := by
    simp [h.held_eq, words, addresses]
  unfold remaining
  split_ifs <;> omega

theorem remaining_step (h : Tracks q c) (hle : total ≤ c.written) (hread : c.read < total)
    {edge : Edge w} (hwanted : Wanted edge) :
    remaining ((cdcAsyncFifo w k).step q edge) (c.next q edge) total +
      (if edge.right?.isSome then 1 else 0) ≤ remaining q c total := by
  have hseen := h.read_le
  cases edge with
  | left input =>
    simp [remaining, Counts.next, delivered, Edge.right?, Edge.left?, Circuit.step, cdcAsyncFifo]
  | right input | both _ input =>
    obtain ⟨-, -, -, hempty⟩ := h.readEdge input
    have henable := hwanted input rfl
    have haccept : acceptsRead q.2 input = !q.2.empty := by simp [acceptsRead, henable]
    have hlength := length_delivered q input
    simp only [remaining, Counts.next, delivered, Edge.right?, Circuit.step, cdcAsyncFifo, hlength,
      Option.isSome_some, if_true, hempty, haccept]
    cases q.2.empty <;>
      simp only [Bool.not_true, Bool.not_false, Bool.toNat_true, Bool.toNat_false, Nat.add_zero,
        true_and, Bool.false_eq_true, false_and, if_false]
    · split_ifs <;> omega
    · split_ifs <;> omega

end Progress

/-! ## A run -/

section Run

variable {q : Registers w k} {c : Counts}

abbrev readEdges (edges : List (Edge w)) : ℕ := edges.countP fun edge => edge.right?.isSome

theorem Tracks.run (h : Tracks q c) (edges : List (Edge w)) :
    ∃ c', Tracks ((cdcAsyncFifo w k).run q edges) c' ∧
      c'.written = c.written + ((cdcAsyncFifo w k).observed accepted q edges).length ∧
      c'.read = c.read + ((cdcAsyncFifo w k).observed delivered q edges).length := by
  induction edges generalizing q c with
  | nil => exact ⟨c, h, rfl, rfl⟩
  | cons edge edges ih =>
    obtain ⟨c', htracks, hwritten, hread⟩ := ih (h.step edge)
    refine ⟨c', htracks, ?_, ?_⟩
    · rw [hwritten, Circuit.observed, List.length_append, ← Nat.add_assoc]
      rfl
    · rw [hread, Circuit.observed, List.length_append, ← Nat.add_assoc]
      rfl

theorem Tracks.progress (h : Tracks q c) {total : ℕ} (hle : total ≤ c.written)
    {more : List (Edge w)} (hwanted : ∀ edge ∈ more, Wanted edge)
    (hmore : remaining q c total ≤ readEdges more) :
    total ≤ c.read + ((cdcAsyncFifo w k).observed delivered q more).length := by
  induction more generalizing q c with
  | nil =>
    simp only [remaining, readEdges, List.countP_nil] at hmore
    omega
  | cons edge more ih =>
    by_cases hread : c.read < total
    · have hstep := remaining_step h hle hread (hwanted edge List.mem_cons_self)
      have hwritten : total ≤ (c.next q edge).written := by
        simp only [Counts.next]
        omega
      have hrest := ih (h.step edge) hwritten
        (fun later hlater => hwanted later (List.mem_cons_of_mem _ hlater)) (by
          simp only [readEdges, List.countP_cons] at hmore ⊢
          omega)
      rw [Circuit.observed, List.length_append, ← Nat.add_assoc]
      exact hrest
    · omega

variable (memory : BitVec (k + 2) → BitVec w)

/-- The writes that are accepted and the words that are delivered after reset. -/
abbrev allAccepted (edges : List (Edge w)) : List (BitVec w) :=
  (cdcAsyncFifo w k).observed accepted (reset memory) edges

abbrev allDelivered (edges : List (Edge w)) : List (BitVec w) :=
  (cdcAsyncFifo w k).observed delivered (reset memory) edges

theorem allAccepted_append (edges more : List (Edge w)) :
    allAccepted memory (edges ++ more) = allAccepted memory edges ++
      (cdcAsyncFifo w k).observed accepted ((cdcAsyncFifo w k).run (reset memory) edges) more :=
  Circuit.observed_append _ _ _

theorem allDelivered_append (edges more : List (Edge w)) :
    allDelivered memory (edges ++ more) = allDelivered memory edges ++
      (cdcAsyncFifo w k).observed delivered ((cdcAsyncFifo w k).run (reset memory) edges) more :=
  Circuit.observed_append _ _ _

theorem tracks_run (edges : List (Edge w)) :
    ∃ c, Tracks ((cdcAsyncFifo w k).run (reset memory) edges) c ∧
      c.written = (allAccepted memory edges).length ∧
      c.read = (allDelivered memory edges).length := by
  obtain ⟨c, htracks, hwritten, hread⟩ := (tracks_reset memory).run edges
  exact ⟨c, htracks, hwritten.trans (Nat.zero_add _), hread.trans (Nat.zero_add _)⟩

theorem accepted_eq (edges : List (Edge w)) :
    allAccepted memory edges =
      allDelivered memory edges ++ held ((cdcAsyncFifo w k).run (reset memory) edges) := by
  have hkeeps (q : Registers w k) (edge : Edge w) (h : ∃ c, Tracks q c) :
      ∃ c, Tracks ((cdcAsyncFifo w k).step q edge) c :=
    let ⟨_, htracks⟩ := h
    ⟨_, htracks.step edge⟩
  have hqueue := Circuit.run_conserves hkeeps (fun _ edge ⟨_, h⟩ => h.queue_step edge)
    ⟨_, tracks_reset memory⟩ edges
  rwa [show held (reset memory) = [] by simp [held, unread, reset], List.nil_append] at hqueue

/-- After any edges of the two clocks, whatever the memory was at reset: the accepted writes were
delivered in order, each once, but for those held, which are at most `2 ^ ADDRESS_WIDTH`. No write
goes to the address of an unread word, no read is accepted when none is held, and what is held is
delivered when the reader asks for it. -/
theorem queue_delivers (w k : ℕ) (memory : BitVec (k + 2) → BitVec w) (edges : List (Edge w)) :
    let q := (cdcAsyncFifo w k).run (reset memory) edges
    allAccepted memory edges = allDelivered memory edges ++ held q ∧
      (held q).length ≤ 2 ^ (k + 2) ∧
      (∀ edge, accepted q edge ≠ [] → address q.1.writeBinary ∉ unread q) ∧
      (∀ edge, delivered q edge ≠ [] → held q ≠ []) ∧
      (∀ more, (∀ edge ∈ more, Wanted edge) → (held q).length + 3 ≤ readEdges more →
        allAccepted memory edges <+: allDelivered memory (edges ++ more)) := by
  intro q
  obtain ⟨c, htracks, hwritten, hread⟩ := tracks_run memory edges
  have hlength : (held q).length = c.written - c.read := by
    simp [htracks.held_eq, words, addresses, q]
  refine ⟨accepted_eq memory edges, ?_, ?_, ?_, ?_⟩
  · have hbound := htracks.written_le_read
    rw [hlength]
    exact Nat.sub_le_iff_le_add'.mpr hbound
  · intro edge haccept
    rw [htracks.unread_eq, htracks.writeBinary_eq, address_ofNat]
    rcases accepted_cases q edge with ⟨hnone, -⟩ | ⟨data, -, hfull, -⟩
    · exact absurd hnone haccept
    · exact not_mem_addresses (htracks.fits_of_not_full hfull)
  · intro edge hdeliver
    rcases delivered_cases q edge with hnone | ⟨-, hempty⟩
    · exact absurd hnone hdeliver
    · have hlt := htracks.lt_of_not_empty hempty
      have hseen := htracks.writtenSeen_le
      have hfirst := htracks.writtenFirst_le
      rw [← List.length_pos_iff, hlength]
      omega
  · intro more hwanted hmore
    have hprogress := htracks.progress le_rfl hwanted ((remaining_le htracks le_rfl).trans hmore)
    have hall : allAccepted memory edges <+: allAccepted memory (edges ++ more) :=
      allAccepted_append memory edges more ▸ List.prefix_append _ _
    have hsome : allDelivered memory (edges ++ more) <+: allAccepted memory (edges ++ more) :=
      accepted_eq memory (edges ++ more) ▸ List.prefix_append _ _
    refine List.prefix_of_prefix_length_le hall hsome ?_
    rw [allDelivered_append, List.length_append, ← hwritten, ← hread]
    exact hprogress

end Run

end NovaRtl.Benchmark.AsyncFifo
