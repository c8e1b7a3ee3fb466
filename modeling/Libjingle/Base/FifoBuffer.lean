import Libjingle.Lib.Circular

/-! `talk_base::FifoBuffer`: a circular byte buffer that can also be read and
written at an offset. Sizes are `size_t`, so sums are taken modulo `2 ^ 64`.
Fresh allocations hold whatever bytes the heap held, given as an argument. -/

namespace Libjingle

inductive StreamState
  | closed
  | opening
  | opened
  deriving DecidableEq, Repr

inductive StreamResult
  | error
  | success
  | block
  | eos
  deriving DecidableEq, Repr

/-- One more than the largest `size_t`. -/
def sizeModulus : Nat := 2 ^ 64

/-- No object is larger than this, so `new char[size]` throws beyond it. -/
def maxAllocation : Nat := 2 ^ 63

theorem sizeModulus_pos : 0 < sizeModulus := by decide

def sizeAdd (a b : Nat) : Nat := (a + b) % sizeModulus

def sizeSub (a b : Nat) : Nat := (a + sizeModulus - b) % sizeModulus

structure FifoBuffer where
  state : StreamState
  buffer : Nat → UInt8
  bufferLength : Nat
  dataLength : Nat
  readPosition : Nat

/-- A range of cells touched by a `memcpy`, in an allocation of `size` cells. -/
structure Access where
  start : Nat
  len : Nat
  size : Nat
  deriving DecidableEq, Repr

def Access.InBounds (a : Access) : Prop := a.start + a.len ≤ a.size

instance (a : Access) : Decidable a.InBounds := inferInstanceAs (Decidable (_ ≤ _))

namespace FifoBuffer

/-- The constructor; `heap` is what the new allocation contains. -/
def new (heap : Nat → UInt8) (size : Nat) : FifoBuffer where
  state := .opened
  buffer := heap
  bufferLength := size
  dataLength := 0
  readPosition := 0

def getBuffered (f : FifoBuffer) : Nat := f.dataLength

def getWriteRemaining (f : FifoBuffer) : Nat := f.bufferLength - f.dataLength

def close (f : FifoBuffer) : FifoBuffer := { f with state := .closed }

/-- The two pieces `ReadOffsetLocked` copies out of the buffer. -/
def readPieces (f : FifoBuffer) (bytes offset : Nat) : List Access :=
  let available := f.dataLength - offset
  let readPosition := (f.readPosition + offset) % f.bufferLength
  let copy := min bytes available
  let tailCopy := min copy (f.bufferLength - readPosition)
  [⟨readPosition, tailCopy, f.bufferLength⟩, ⟨0, copy - tailCopy, f.bufferLength⟩]

def load (f : FifoBuffer) (pieces : List Access) : List UInt8 :=
  pieces.flatMap fun a => Circular.slice f.buffer a.start a.len

/-- The result and the bytes copied; `*bytes_read` is their number. -/
def readOffsetLocked (f : FifoBuffer) (bytes offset : Nat) : StreamResult × List UInt8 :=
  if offset ≥ f.dataLength then
    (if f.state ≠ .closed then .block else .eos, [])
  else
    (.success, f.load (f.readPieces bytes offset))

/-- The two pieces `WriteOffsetLocked` copies into the buffer. -/
def writePieces (f : FifoBuffer) (bytes offset : Nat) : List Access :=
  let available := sizeSub (f.bufferLength - f.dataLength) offset
  let writePosition := sizeAdd (f.readPosition + f.dataLength) offset % f.bufferLength
  let copy := min bytes available
  let tailCopy := min copy (f.bufferLength - writePosition)
  [⟨writePosition, tailCopy, f.bufferLength⟩, ⟨0, copy - tailCopy, f.bufferLength⟩]

/-- Copies `src` piece by piece, each piece taking the next of its bytes. -/
def store (mem : Nat → UInt8) : List Access → List UInt8 → Nat → UInt8
  | [], _ => mem
  | a :: rest, src => store (Circular.blit mem a.start (src.take a.len)) rest (src.drop a.len)

def writeOffsetLocked (f : FifoBuffer) (data : List UInt8) (offset : Nat) :
    StreamResult × Nat × FifoBuffer :=
  if f.state = .closed then (.eos, 0, f)
  else if sizeAdd f.dataLength offset ≥ f.bufferLength then (.block, 0, f)
  else
    let copy := min data.length (sizeSub (f.bufferLength - f.dataLength) offset)
    (.success, copy,
      { f with buffer := store f.buffer (f.writePieces data.length offset) data })

def readOffset (f : FifoBuffer) (bytes offset : Nat) : StreamResult × List UInt8 :=
  f.readOffsetLocked bytes offset

def writeOffset (f : FifoBuffer) (data : List UInt8) (offset : Nat) :
    StreamResult × Nat × FifoBuffer :=
  f.writeOffsetLocked data offset

def read (f : FifoBuffer) (bytes : Nat) : StreamResult × List UInt8 × FifoBuffer :=
  match f.readOffsetLocked bytes 0 with
  | (.success, data) =>
    (.success, data,
      { f with
        readPosition := (f.readPosition + data.length) % f.bufferLength
        dataLength := f.dataLength - data.length })
  | (result, data) => (result, data, f)

def write (f : FifoBuffer) (data : List UInt8) : StreamResult × Nat × FifoBuffer :=
  match f.writeOffsetLocked data 0 with
  | (.success, copy, f') => (.success, copy, { f' with dataLength := f'.dataLength + copy })
  | (result, copy, f') => (result, copy, f')

/-- Where the pointer returned by `GetReadData` points, and the size stored. -/
def getReadData (f : FifoBuffer) : Access where
  start := f.readPosition
  len := if f.readPosition + f.dataLength ≤ f.bufferLength then f.dataLength
    else f.bufferLength - f.readPosition
  size := f.bufferLength

def consumeReadData (f : FifoBuffer) (size : Nat) : FifoBuffer :=
  { f with
    readPosition := (f.readPosition + size) % f.bufferLength
    dataLength := f.dataLength - size }

/-- Where the returned pointer points with the size stored, or a null pointer
for a closed stream; an empty buffer starts over at its first cell. -/
def getWriteBuffer (f : FifoBuffer) : Option Access × FifoBuffer :=
  if f.state = .closed then (none, f)
  else
    let f := if f.dataLength = 0 then { f with readPosition := 0 } else f
    let writePosition := (f.readPosition + f.dataLength) % f.bufferLength
    (some {
      start := writePosition
      len := if writePosition > f.readPosition ∨ f.dataLength = 0 then
          f.bufferLength - writePosition
        else f.readPosition - writePosition
      size := f.bufferLength }, f)

def consumeWriteBuffer (f : FifoBuffer) (size : Nat) : FifoBuffer :=
  { f with dataLength := f.dataLength + size }

/-- What `SetCapacity` copies out of the old allocation. -/
def movePieces (f : FifoBuffer) : List Access :=
  let copy := f.dataLength
  let tailCopy := min copy (f.bufferLength - f.readPosition)
  [⟨f.readPosition, tailCopy, f.bufferLength⟩, ⟨0, copy - tailCopy, f.bufferLength⟩]

/-- `SetCapacity`; `heap` is what the new allocation contains. -/
def setCapacity (heap : Nat → UInt8) (f : FifoBuffer) (size : Nat) : Bool × FifoBuffer :=
  if f.dataLength > size then (false, f)
  else if size ≠ f.bufferLength then
    (true, { f with
      buffer := Circular.blit heap 0 (f.load f.movePieces)
      readPosition := 0
      bufferLength := size })
  else (true, f)

/-- The buffer cell `k` places after the read position. -/
def cell (f : FifoBuffer) (k : Nat) : UInt8 :=
  Circular.cell f.buffer f.bufferLength f.readPosition k

def readable (f : FifoBuffer) : List UInt8 :=
  Circular.view f.buffer f.bufferLength f.readPosition f.dataLength

structure Wf (f : FifoBuffer) : Prop where
  state_ne : f.state ≠ .closed
  length_le : f.dataLength ≤ f.bufferLength
  alloc_le : f.bufferLength ≤ maxAllocation
  position_lt : f.readPosition < max 1 f.bufferLength

theorem new_wf (heap : Nat → UInt8) {size : Nat} (h : size ≤ maxAllocation) :
    (new heap size).Wf :=
  ⟨by simp [new], by simp [new], h, by simp only [new]; omega⟩

@[simp] theorem length_readable (f : FifoBuffer) : f.readable.length = f.dataLength := by
  simp [readable]

theorem getElem_readable {f : FifoBuffer} {i : Nat} (h : i < f.readable.length) :
    f.readable[i] = f.cell i := by
  simp [readable, cell]

@[simp] theorem new_readable (heap : Nat → UInt8) (size : Nat) : (new heap size).readable = [] :=
  rfl

theorem readable_congr {f g : FifoBuffer} (hlen : f.dataLength = g.dataLength)
    (h : ∀ k < f.dataLength, f.cell k = g.cell k) : f.readable = g.readable := by
  simp only [readable]
  rw [← hlen]
  exact Circular.view_congr h

section Reading

variable {f : FifoBuffer}

theorem load_readPieces (hf : f.Wf) (bytes : Nat) {offset : Nat} (h : offset < f.dataLength) :
    f.load (f.readPieces bytes offset) = (f.readable.drop offset).take bytes := by
  have hcap : 0 < f.bufferLength := by have := hf.length_le; omega
  have hp : (f.readPosition + offset) % f.bufferLength < f.bufferLength := Nat.mod_lt _ hcap
  have hn : min bytes (f.dataLength - offset) ≤ f.bufferLength := by
    have := hf.length_le
    omega
  have hs := Circular.slice_split f.buffer hp hn
  simp only [load, readPieces, List.flatMap_cons, List.flatMap_nil, List.append_nil, hs,
    readable, Circular.view_drop]
  rcases Nat.le_total bytes (f.dataLength - offset) with hle | hle
  · rw [Nat.min_eq_left hle, Circular.view_take hle]
  · rw [Nat.min_eq_right hle, List.take_of_length_le (by simpa using hle)]

theorem readOffset_success (hf : f.Wf) (bytes : Nat) {offset : Nat} (h : offset < f.dataLength) :
    f.readOffset bytes offset = (.success, (f.readable.drop offset).take bytes) := by
  simp [readOffset, readOffsetLocked, show ¬ offset ≥ f.dataLength by omega, load_readPieces hf bytes h]

theorem readOffset_block (hf : f.Wf) (bytes : Nat) {offset : Nat} (h : f.dataLength ≤ offset) :
    f.readOffset bytes offset = (.block, []) := by
  simp [readOffset, readOffsetLocked, h, hf.state_ne]

theorem readPieces_inBounds (hf : f.Wf) (bytes : Nat) {offset : Nat} (h : offset < f.dataLength) :
    ∀ a ∈ f.readPieces bytes offset, a.InBounds := by
  have hcap : 0 < f.bufferLength := by have := hf.length_le; omega
  have hp : (f.readPosition + offset) % f.bufferLength < f.bufferLength := Nat.mod_lt _ hcap
  have hl := hf.length_le
  simp only [readPieces, List.mem_cons, List.not_mem_nil, or_false, Access.InBounds,
    forall_eq_or_imp, forall_eq]
  omega

theorem consumeReadData_cell (f : FifoBuffer) (size k : Nat) :
    (f.consumeReadData size).cell k = f.cell (size + k) :=
  Circular.cell_advance _ _ _ _ _

theorem consumeReadData_readable (f : FifoBuffer) (size : Nat) :
    (f.consumeReadData size).readable = f.readable.drop size := by
  simp only [consumeReadData, readable, Circular.view_drop]

theorem consumeReadData_wf (hf : f.Wf) (hpos : 0 < f.bufferLength) (size : Nat) :
    (f.consumeReadData size).Wf where
  state_ne := hf.state_ne
  length_le := by
    have := hf.length_le
    simp only [consumeReadData]
    omega
  alloc_le := hf.alloc_le
  position_lt := by
    have := Nat.mod_lt (f.readPosition + size) hpos
    simp only [consumeReadData]
    omega

/-- A read that finds data is `ReadOffset` at the front followed by
`ConsumeReadData` of what it copied. -/
theorem read_success (hf : f.Wf) (bytes : Nat) (h : 0 < f.dataLength) :
    f.read bytes =
      (.success, f.readable.take bytes, f.consumeReadData (min bytes f.dataLength)) := by
  have hr : f.readOffsetLocked bytes 0 = (.success, (f.readable.drop 0).take bytes) :=
    readOffset_success hf bytes h
  simp [read, hr, consumeReadData]

theorem read_block (hf : f.Wf) (bytes : Nat) (h : f.dataLength = 0) :
    f.read bytes = (.block, [], f) := by
  have hr : f.readOffsetLocked bytes 0 = (.block, []) := readOffset_block hf bytes (by omega)
  simp [read, hr]

end Reading

section Writing

variable {f : FifoBuffer}

/-- The bound test of `WriteOffsetLocked` adds two sizes. It decides as meant
unless the sum passes `2 ^ 64` and comes out below the capacity again. -/
def NoWrap (f : FifoBuffer) (offset : Nat) : Prop :=
  f.dataLength + offset < f.bufferLength ∨ f.bufferLength ≤ sizeAdd f.dataLength offset

theorem sizeAdd_of_lt {a b : Nat} (h : a + b < sizeModulus) : sizeAdd a b = a + b :=
  Nat.mod_eq_of_lt h

theorem sizeSub_of_le {a b : Nat} (ha : a < sizeModulus) (h : b ≤ a) : sizeSub a b = a - b := by
  rw [sizeSub, show a + sizeModulus - b = a - b + sizeModulus by omega, Nat.add_mod_right,
    Nat.mod_eq_of_lt (by omega)]

theorem Wf.lt_modulus (hf : f.Wf) : 2 * f.bufferLength ≤ sizeModulus := by
  have := hf.alloc_le
  simp only [maxAllocation, sizeModulus] at *
  omega

theorem writePieces_eq (hf : f.Wf) (bytes : Nat) {offset : Nat}
    (h : f.dataLength + offset < f.bufferLength) :
    let w := (f.readPosition + (f.dataLength + offset)) % f.bufferLength
    let n := min bytes (f.bufferLength - (f.dataLength + offset))
    f.writePieces bytes offset =
      [⟨w, min n (f.bufferLength - w), f.bufferLength⟩,
       ⟨0, n - min n (f.bufferLength - w), f.bufferLength⟩] := by
  have hm := hf.lt_modulus
  have hp := hf.position_lt
  have hs : sizeSub (f.bufferLength - f.dataLength) offset =
      f.bufferLength - (f.dataLength + offset) := by
    rw [sizeSub_of_le (by omega) (by omega)]
    omega
  have ha : sizeAdd (f.readPosition + f.dataLength) offset =
      f.readPosition + (f.dataLength + offset) := by
    rw [sizeAdd_of_lt (by omega), Nat.add_assoc]
  simp only [writePieces, hs, ha]

theorem writePieces_inBounds (hf : f.Wf) (bytes : Nat) {offset : Nat}
    (h : f.dataLength + offset < f.bufferLength) :
    ∀ a ∈ f.writePieces bytes offset, a.InBounds := by
  have hw : (f.readPosition + (f.dataLength + offset)) % f.bufferLength < f.bufferLength :=
    Nat.mod_lt _ (by omega)
  rw [writePieces_eq hf _ h]
  simp only [List.mem_cons, List.not_mem_nil, or_false, Access.InBounds, forall_eq_or_imp,
    forall_eq]
  omega

theorem writeOffset_success (hf : f.Wf) (data : List UInt8) {offset : Nat}
    (h : f.dataLength + offset < f.bufferLength) :
    f.writeOffset data offset =
      (.success, min data.length (f.bufferLength - (f.dataLength + offset)),
        { f with buffer := store f.buffer (f.writePieces data.length offset) data }) := by
  have hm := hf.lt_modulus
  have ha : sizeAdd f.dataLength offset = f.dataLength + offset := sizeAdd_of_lt (by omega)
  have hs : sizeSub (f.bufferLength - f.dataLength) offset =
      f.bufferLength - (f.dataLength + offset) := by
    rw [sizeSub_of_le (by omega) (by omega)]
    omega
  simp only [writeOffset, writeOffsetLocked, hf.state_ne, if_false, ha, hs,
    show ¬ f.dataLength + offset ≥ f.bufferLength by omega]

theorem writeOffset_block (hf : f.Wf) (data : List UInt8) {offset : Nat}
    (h : f.bufferLength ≤ sizeAdd f.dataLength offset) :
    f.writeOffset data offset = (.block, 0, f) := by
  simp [writeOffset, writeOffsetLocked, hf.state_ne, h]

/-- On the window, `WriteOffset` is one block copy at its offset behind the
readable bytes. -/
theorem writeOffset_cell (hf : f.Wf) (data : List UInt8) {offset k : Nat}
    (h : f.dataLength + offset < f.bufferLength) (hk : k < f.bufferLength) :
    (f.writeOffset data offset).2.2.cell k =
      Circular.blit f.cell (f.dataLength + offset)
        (data.take (f.bufferLength - (f.dataLength + offset))) k := by
  have hw : (f.readPosition + (f.dataLength + offset)) % f.bufferLength < f.bufferLength :=
    Nat.mod_lt _ (by omega)
  let src := data.take (f.bufferLength - (f.dataLength + offset))
  have hlen : src.length = min data.length (f.bufferLength - (f.dataLength + offset)) := by
    simp only [src, List.length_take]
    omega
  have hb := Circular.cell_blit_split f.buffer f.readPosition src (by omega)
    (show f.dataLength + offset + src.length ≤ f.bufferLength by omega) hk
  rw [writeOffset_success hf _ h]
  simp only [cell]
  rw [writePieces_eq hf _ h]
  simp only [store]
  generalize (f.readPosition + (f.dataLength + offset)) % f.bufferLength = w at hw hb ⊢
  have ht : src.take (f.bufferLength - w) = data.take (min (min data.length
      (f.bufferLength - (f.dataLength + offset))) (f.bufferLength - w)) := by
    simp only [src, List.take_take]
    rw [List.take_eq_take_iff]
    omega
  have hd : src.drop (f.bufferLength - w) = (data.drop (min (min data.length
      (f.bufferLength - (f.dataLength + offset))) (f.bufferLength - w))).take
        (min data.length (f.bufferLength - (f.dataLength + offset)) -
          min (min data.length (f.bufferLength - (f.dataLength + offset)))
            (f.bufferLength - w)) := by
    apply List.ext_getElem
    · simp only [src, List.length_drop, List.length_take]
      omega
    · intro i hi hj
      simp only [src, List.length_drop, List.length_take] at hi
      simp only [src, List.getElem_drop, List.getElem_take]
      congr 1
      omega
  rw [ht, hd] at hb
  exact hb

theorem writeOffset_wf (hf : f.Wf) (data : List UInt8) (offset : Nat) :
    (f.writeOffset data offset).2.2.Wf := by
  simp only [writeOffset, writeOffsetLocked]
  split
  · exact hf
  · split
    · exact hf
    · exact ⟨hf.state_ne, hf.length_le, hf.alloc_le, hf.position_lt⟩

@[simp] theorem writeOffset_lengths (f : FifoBuffer) (data : List UInt8) (offset : Nat) :
    (f.writeOffset data offset).2.2.dataLength = f.dataLength ∧
      (f.writeOffset data offset).2.2.bufferLength = f.bufferLength := by
  simp only [writeOffset, writeOffsetLocked]
  split
  · exact ⟨rfl, rfl⟩
  · split <;> exact ⟨rfl, rfl⟩

theorem consumeWriteBuffer_readable (f : FifoBuffer) (n : Nat) :
    (f.consumeWriteBuffer n).readable =
      f.readable ++ (List.range n).map fun i => f.cell (f.dataLength + i) := by
  simp only [consumeWriteBuffer, readable, Circular.view_append]
  congr 1
  apply List.map_congr_left
  intro i _
  exact Circular.cell_advance _ _ _ _ _

theorem consumeWriteBuffer_wf (hf : f.Wf) {n : Nat}
    (h : n ≤ f.bufferLength - f.dataLength) : (f.consumeWriteBuffer n).Wf where
  state_ne := hf.state_ne
  length_le := by
    have := hf.length_le
    simp only [consumeWriteBuffer]
    omega
  alloc_le := hf.alloc_le
  position_lt := hf.position_lt

theorem write_success (hf : f.Wf) (data : List UInt8)
    (h : f.dataLength < f.bufferLength) :
    f.write data = (.success, min data.length (f.bufferLength - f.dataLength),
      (f.writeOffset data 0).2.2.consumeWriteBuffer
        (min data.length (f.bufferLength - f.dataLength))) := by
  have hw : f.writeOffsetLocked data 0 = _ := writeOffset_success hf data
    (show f.dataLength + 0 < _ by omega)
  simp only [write, writeOffset, hw, consumeWriteBuffer, Nat.add_zero]

theorem write_block (hf : f.Wf) (data : List UInt8)
    (h : f.dataLength = f.bufferLength) : f.write data = (.block, 0, f) := by
  have hm := hf.lt_modulus
  have ha : sizeAdd f.dataLength 0 = f.dataLength := by
    rw [sizeAdd, Nat.add_zero, Nat.mod_eq_of_lt]
    have := sizeModulus_pos
    omega
  have hw : f.writeOffsetLocked data 0 = _ := writeOffset_block hf data (by omega)
  simp only [write, hw]

theorem writeOffset_readable (hf : f.Wf) (data : List UInt8) {offset : Nat}
    (h : f.dataLength + offset < f.bufferLength) :
    (f.writeOffset data offset).2.2.readable = f.readable := by
  have hl := hf.length_le
  have hd : (f.writeOffset data offset).2.2.dataLength = f.dataLength := by
    rw [writeOffset_success hf _ h]
  refine readable_congr hd fun k hk => ?_
  rw [hd] at hk
  rw [writeOffset_cell hf _ h (by omega), Circular.blit_of_lt (by omega)]

theorem write_readable (hf : f.Wf) (data : List UInt8) (h : f.dataLength < f.bufferLength) :
    (f.write data).2.2.readable = f.readable ++ data.take (f.bufferLength - f.dataLength) := by
  have hfit : f.dataLength + 0 < f.bufferLength := h
  have hl := hf.length_le
  rw [write_success hf data h, consumeWriteBuffer_readable, writeOffset_readable hf data hfit]
  congr 1
  apply List.ext_getElem
  · simp only [List.length_map, List.length_range, List.length_take]
    omega
  · intro i hi hj
    simp only [List.length_map, List.length_range] at hi
    have hd : (f.writeOffset data 0).2.2.dataLength = f.dataLength := by
      rw [writeOffset_success hf data hfit]
    simp only [List.getElem_map, List.getElem_range, hd]
    rw [writeOffset_cell hf data hfit (by omega), Circular.blit_inside (by omega)
      (by simp only [List.length_take]; omega)]
    simp [Nat.add_sub_cancel_left]

theorem write_fits (hf : f.Wf) {data : List UInt8}
    (h : data.length ≤ f.bufferLength - f.dataLength) :
    (f.write data).2.1 = data.length ∧ (f.write data).2.2.readable = f.readable ++ data ∧
      (f.write data).2.2.Wf ∧ (f.write data).2.2.dataLength = f.dataLength + data.length ∧
      (f.write data).2.2.bufferLength = f.bufferLength := by
  have hl := hf.length_le
  by_cases hfull : f.dataLength = f.bufferLength
  · have hnil : data = [] := List.eq_nil_of_length_eq_zero (by omega)
    rw [write_block hf data hfull, hnil]
    exact ⟨rfl, by simp, hf, rfl, rfl⟩
  · have hlt : f.dataLength < f.bufferLength := by omega
    have hread := write_readable hf data hlt
    have hso := writeOffset_success hf data (show f.dataLength + 0 < f.bufferLength from hlt)
    have hmin : min data.length (f.bufferLength - f.dataLength) = data.length := by omega
    rw [List.take_of_length_le h] at hread
    rw [write_success hf data hlt, hmin] at hread ⊢
    refine ⟨rfl, hread, consumeWriteBuffer_wf (writeOffset_wf hf data 0) ?_, ?_, ?_⟩
    · rw [hso]
      exact h
    · simp only [consumeWriteBuffer, hso]
    · simp only [consumeWriteBuffer, hso]

end Writing

end FifoBuffer

end Libjingle
