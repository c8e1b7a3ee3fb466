import Libjingle.Base.FifoBuffer
import Libjingle.Lib.StagedQueue

/-! The circular buffer behaves as a queue with a staging area, over any
sequence of its operations. -/

namespace Libjingle

/-- Calls of the buffer. `getWriteBuffer data` also stores `data` through the
returned pointer; `setCapacity` is given the contents of the new allocation. -/
inductive FifoOp
  | write (data : List UInt8)
  | read (bytes : Nat)
  | readOffset (bytes offset : Nat)
  | writeOffset (data : List UInt8) (offset : Nat)
  | consumeWriteBuffer (size : Nat)
  | consumeReadData (size : Nat)
  | getReadData
  | getWriteBuffer (data : List UInt8)
  | setCapacity (heap : Nat → UInt8) (size : Nat)

def FifoOp.abstract : FifoOp → StagedQueue.Op UInt8
  | .write data => .append data
  | .read bytes => .take bytes
  | .readOffset bytes offset => .slice bytes offset
  | .writeOffset data offset => .place data offset
  | .consumeWriteBuffer size => .commit size
  | .consumeReadData size => .discard size
  | .getReadData => .peek
  | .getWriteBuffer data => .fill data
  | .setCapacity _ size => .resize size

namespace FifoBuffer

def elementsOf : StreamResult × List UInt8 → StagedQueue.Output UInt8
  | (.success, data) => .elements (some data)
  | _ => .elements none

def countOf (result : StreamResult) (n : Nat) : StagedQueue.Output UInt8 :=
  if result = .success then .count (some n) else .count none

/-- The memory after the caller stored `data` from the start of a range. -/
def fillRange (f : FifoBuffer) (a : Access) (data : List UInt8) : FifoBuffer :=
  { f with buffer := Circular.blit f.buffer a.start data }

def step (f : FifoBuffer) : FifoOp → StagedQueue.Output UInt8 × FifoBuffer
  | .write data => let r := f.write data; (countOf r.1 r.2.1, r.2.2)
  | .read bytes => let r := f.read bytes; (elementsOf (r.1, r.2.1), r.2.2)
  | .readOffset bytes offset => (elementsOf (f.readOffset bytes offset), f)
  | .writeOffset data offset => let r := f.writeOffset data offset; (countOf r.1 r.2.1, r.2.2)
  | .consumeWriteBuffer size => (.done, f.consumeWriteBuffer size)
  | .consumeReadData size => (.done, f.consumeReadData size)
  | .getReadData => (.elements (some (f.load [f.getReadData])), f)
  | .getWriteBuffer data =>
    match f.getWriteBuffer with
    | (some a, f') => (.room a.len, f'.fillRange a data)
    | (none, f') => (.room 0, f')
  | .setCapacity heap size => let r := f.setCapacity heap size; (.resized r.1, r.2)

def accesses (f : FifoBuffer) : FifoOp → List Access
  | .write data =>
    if (f.writeOffset data 0).1 = .success then f.writePieces data.length 0 else []
  | .read bytes => if (f.readOffset bytes 0).1 = .success then f.readPieces bytes 0 else []
  | .readOffset bytes offset =>
    if (f.readOffset bytes offset).1 = .success then f.readPieces bytes offset else []
  | .writeOffset data offset =>
    if (f.writeOffset data offset).1 = .success then f.writePieces data.length offset else []
  | .consumeWriteBuffer _ => []
  | .consumeReadData _ => []
  | .getReadData => [f.getReadData]
  | .getWriteBuffer _ => f.getWriteBuffer.1.toList
  | .setCapacity _ size =>
    if f.dataLength ≤ size ∧ size ≠ f.bufferLength then
      f.movePieces ++ [⟨0, f.dataLength, size⟩]
    else []

/-- The bounds a caller keeps: those the `Consume` calls assert, the size that
came with a write pointer, `size_t` offsets and allocatable capacities. -/
def Legal (f : FifoBuffer) : FifoOp → Prop
  | .readOffset _ offset => offset < sizeModulus
  | .writeOffset _ offset => offset < sizeModulus
  | .consumeWriteBuffer size => size ≤ f.bufferLength - f.dataLength
  | .consumeReadData size => size ≤ f.dataLength
  | .getWriteBuffer data => ∃ a, f.getWriteBuffer.1 = some a ∧ data.length ≤ a.len
  | .setCapacity _ size => size ≤ maxAllocation
  | _ => True

/-- No offset makes the bound test of `WriteOffsetLocked` wrap around, and no
position is taken modulo a zero capacity. -/
def Exact (f : FifoBuffer) : FifoOp → Prop
  | .writeOffset _ offset => f.NoWrap offset
  | .consumeReadData _ => 0 < f.bufferLength
  | .getWriteBuffer _ => 0 < f.bufferLength
  | _ => True

def AllLegal (f : FifoBuffer) : List FifoOp → Prop
  | [] => True
  | op :: rest => f.Legal op ∧ (f.step op).2.AllLegal rest

def Admissible (f : FifoBuffer) : List FifoOp → Prop
  | [] => True
  | op :: rest => f.Legal op ∧ f.Exact op ∧ (f.step op).2.Admissible rest

def run (f : FifoBuffer) : List FifoOp → FifoBuffer
  | [] => f
  | op :: rest => (f.step op).2.run rest

def trace (f : FifoBuffer) : List FifoOp → List (StagedQueue.Op UInt8 × StagedQueue.Output UInt8)
  | [] => []
  | op :: rest => (op.abstract, (f.step op).1) :: (f.step op).2.trace rest

def allAccesses (f : FifoBuffer) : List FifoOp → List Access
  | [] => []
  | op :: rest => f.accesses op ++ (f.step op).2.allAccesses rest

structure Represents (f : FifoBuffer) (q : StagedQueue UInt8) : Prop where
  wf : f.Wf
  capacity_eq : q.capacity = f.bufferLength
  items_eq : q.items = f.readable
  staged_eq : ∀ o b, q.staged o = some b → f.cell (f.dataLength + o) = b

theorem Represents.staged_lt {f : FifoBuffer} {q : StagedQueue UInt8} (h : f.Represents q)
    {o : Nat} {b : UInt8} (hb : q.staged o = some b) : f.dataLength + o < f.bufferLength := by
  have := q.staged_lt o b hb
  rw [h.items_eq, h.capacity_eq, length_readable] at this
  exact this

theorem Represents.free_eq {f : FifoBuffer} {q : StagedQueue UInt8} (h : f.Represents q) :
    q.free = f.bufferLength - f.dataLength := by
  rw [StagedQueue.free, h.capacity_eq, h.items_eq, length_readable]

/-- What one call must establish: the matching queue step, the relation
afterwards and accesses inside the allocation. -/
def Simulates (f : FifoBuffer) (q : StagedQueue UInt8) (op : FifoOp) : Prop :=
  ∃ q', q.Step op.abstract (f.step op).1 q' ∧ (f.step op).2.Represents q' ∧
    ∀ a ∈ f.accesses op, a.InBounds

theorem Simulates.intro {f : FifoBuffer} {q : StagedQueue UInt8} {op : FifoOp} (f' : FifoBuffer)
    (staged : Nat → Option UInt8) (hf' : (f.step op).2 = f') (hwf : f'.Wf)
    (hst : ∀ o b, staged o = some b →
      f'.dataLength + o < f'.bufferLength ∧ f'.cell (f'.dataLength + o) = b)
    (hstep : ∀ q' : StagedQueue UInt8, q'.capacity = f'.bufferLength →
      q'.items = f'.readable → q'.staged = staged → q.Step op.abstract (f.step op).1 q')
    (hacc : ∀ a ∈ f.accesses op, a.InBounds) : f.Simulates q op := by
  let q' : StagedQueue UInt8 := {
    capacity := f'.bufferLength
    items := f'.readable
    staged := staged
    items_le := by simpa using hwf.length_le
    staged_lt := fun o b hb => by simpa using (hst o b hb).1 }
  refine ⟨q', hstep q' rfl rfl rfl, ?_, hacc⟩
  rw [hf']
  exact ⟨hwf, rfl, rfl, fun o b hb => (hst o b hb).2⟩

section Steps

variable {f : FifoBuffer} {q : StagedQueue UInt8}

theorem staged_after_write (h : f.Represents q) (data : List UInt8) {offset : Nat}
    (hfit : f.dataLength + offset < f.bufferLength) {o : Nat} {b : UInt8}
    (hb : StagedQueue.overlay q.staged
      (data.take (f.bufferLength - (f.dataLength + offset))) offset o = some b) :
    f.dataLength + o < f.bufferLength ∧
      (f.writeOffset data offset).2.2.cell (f.dataLength + o) = b := by
  have hlen : (data.take (f.bufferLength - (f.dataLength + offset))).length ≤
      f.bufferLength - (f.dataLength + offset) := List.length_take_le _ _
  by_cases hlt : o < offset
  · rw [StagedQueue.overlay_of_lt hlt] at hb
    have hs := h.staged_lt hb
    refine ⟨hs, ?_⟩
    rw [writeOffset_cell h.wf data hfit hs, Circular.blit_of_lt (by omega), h.staged_eq o b hb]
  · by_cases hin : o - offset < (data.take (f.bufferLength - (f.dataLength + offset))).length
    · rw [StagedQueue.overlay_inside (by omega) hin, Option.some.injEq] at hb
      refine ⟨by omega, ?_⟩
      rw [writeOffset_cell h.wf data hfit (by omega), Circular.blit_inside (by omega) (by omega), ← hb]
      congr 1
      omega
    · rw [StagedQueue.overlay_of_ge (by omega)] at hb
      have hs := h.staged_lt hb
      refine ⟨hs, ?_⟩
      rw [writeOffset_cell h.wf data hfit hs, Circular.blit_of_ge (by omega), h.staged_eq o b hb]

theorem simulates_writeOffset (h : f.Represents q) {data : List UInt8} {offset : Nat}
    (hw : f.NoWrap offset) : f.Simulates q (.writeOffset data offset) := by
  have hfree := h.free_eq
  rcases hw with hfit | hwrap
  · have he := writeOffset_success h.wf data hfit
    have hst := fun o b (hb : StagedQueue.overlay q.staged _ offset o = some b) =>
      staged_after_write h data hfit hb
    have hr := writeOffset_readable h.wf data hfit
    have hd : (f.writeOffset data offset).2.2.dataLength = f.dataLength := by rw [he]
    have hc : (f.writeOffset data offset).2.2.bufferLength = f.bufferLength := by rw [he]
    refine .intro ((f.writeOffset data offset).2.2) (StagedQueue.overlay q.staged
        (data.take (f.bufferLength - (f.dataLength + offset))) offset) rfl
      (writeOffset_wf h.wf data offset) ?_ ?_ ?_
    · intro o b hb
      rw [hd, hc]
      exact hst o b hb
    · intro q' hcap hitems hstaged
      have hlt : ¬ q.free ≤ offset := by omega
      simp only [FifoOp.abstract, StagedQueue.Step, hlt, if_false, step, hcap, hitems, hstaged,
        hr, hc, h.capacity_eq, h.items_eq, true_and]
      rw [hfree, Nat.sub_sub, he]
      exact ⟨by simp [countOf], rfl⟩
    · simp only [accesses, he, if_true]
      exact writePieces_inBounds h.wf _ hfit
  · have he := writeOffset_block h.wf data hwrap
    have hblock : q.free ≤ offset := by
      by_contra hlt
      have hm := h.wf.lt_modulus
      have hadd : sizeAdd f.dataLength offset = f.dataLength + offset := sizeAdd_of_lt (by omega)
      omega
    refine ⟨q, ?_, by simpa [step, he] using h, by simp [accesses, he]⟩
    simp [FifoOp.abstract, StagedQueue.Step, hblock, step, he, countOf]

theorem simulates_write (h : f.Represents q) (data : List UInt8) :
    f.Simulates q (.write data) := by
  have hfree := h.free_eq
  have hl := h.wf.length_le
  have hm := h.wf.lt_modulus
  by_cases hfull : f.dataLength = f.bufferLength
  · have he := write_block h.wf data hfull
    have hb := writeOffset_block h.wf data (show _ ≤ sizeAdd f.dataLength 0 by
      have := sizeModulus_pos
      rw [sizeAdd_of_lt (by omega)]
      omega)
    refine ⟨q, ?_, by simpa [step, he] using h, by simp [accesses, hb]⟩
    simp [FifoOp.abstract, StagedQueue.Step, show q.free = 0 by omega, step, he, countOf]
  · have hfit : f.dataLength + 0 < f.bufferLength := by omega
    have he := write_success h.wf data (by omega)
    have hso := writeOffset_success h.wf data hfit
    let g := (f.writeOffset data 0).2.2
    let n := min data.length (f.bufferLength - f.dataLength)
    have hgd : g.dataLength = f.dataLength := by simp only [g, hso]
    have hgc : g.bufferLength = f.bufferLength := by simp only [g, hso]
    have hwf : (g.consumeWriteBuffer n).Wf :=
      consumeWriteBuffer_wf (writeOffset_wf h.wf data 0) (by
        change n ≤ g.bufferLength - g.dataLength
        omega)
    refine .intro (g.consumeWriteBuffer n) (fun o => q.staged (n + o))
      (by simp only [step, he]; rfl) hwf ?_ ?_ ?_
    · intro o b hb
      have hs := h.staged_lt hb
      change g.dataLength + n + o < g.bufferLength ∧ g.cell (g.dataLength + n + o) = b
      refine ⟨by omega, ?_⟩
      rw [hgd, writeOffset_cell h.wf data hfit (by omega), Circular.blit_of_ge (by
        simp only [List.length_take, n]; omega), ← h.staged_eq _ b hb, Nat.add_assoc]
    · intro q' hcap hitems hstaged
      have hread := write_readable h.wf data (by omega)
      rw [he] at hread
      have hz : ¬ q.free = 0 := by omega
      simp only [FifoOp.abstract, StagedQueue.Step, hz, if_false, step, he]
      rw [hfree, h.items_eq, h.capacity_eq, hcap, hitems, hstaged]
      exact ⟨by simp [countOf], hgc, hread, rfl⟩
    · simp only [accesses, hso, if_true]
      exact writePieces_inBounds h.wf _ hfit

theorem simulates_readOffset (h : f.Represents q) (bytes offset : Nat) :
    f.Simulates q (.readOffset bytes offset) := by
  refine ⟨q, ⟨rfl, ?_⟩, h, ?_⟩
  · rw [h.items_eq, length_readable]
    by_cases hlt : offset < f.dataLength
    · simp [step, readOffset_success h.wf bytes hlt, elementsOf, hlt]
    · simp [step, readOffset_block h.wf bytes (by omega : f.dataLength ≤ offset),
        elementsOf, hlt]
  · simp only [accesses]
    by_cases hlt : offset < f.dataLength
    · rw [readOffset_success h.wf bytes hlt, if_pos rfl]
      exact readPieces_inBounds h.wf _ hlt
    · simp [readOffset_block h.wf bytes (by omega : f.dataLength ≤ offset)]

/-- Dropping bytes from the front leaves what is staged at its distance from
the end. -/
theorem staged_after_consume (h : f.Represents q) {n : Nat} (hn : n ≤ f.dataLength) {o : Nat}
    {b : UInt8} (hb : q.staged o = some b) :
    f.dataLength - n + o < f.bufferLength ∧
      (f.consumeReadData n).cell (f.dataLength - n + o) = b := by
  have hs := h.staged_lt hb
  refine ⟨by omega, ?_⟩
  rw [consumeReadData_cell, ← h.staged_eq o b hb]
  congr 1
  omega

theorem simulates_consumeReadData (h : f.Represents q) {n : Nat} (hn : n ≤ f.dataLength)
    (hpos : 0 < f.bufferLength) : f.Simulates q (.consumeReadData n) := by
  refine .intro (f.consumeReadData n) q.staged rfl (consumeReadData_wf h.wf hpos n)
    (fun o b hb => staged_after_consume h hn hb) ?_ (by simp [accesses])
  intro q' hcap hitems hstaged
  refine ⟨rfl, ?_, ?_, hstaged⟩
  · rw [hcap, h.capacity_eq]
    rfl
  · rw [hitems, h.items_eq, consumeReadData_readable]

theorem simulates_read (h : f.Represents q) (bytes : Nat) : f.Simulates q (.read bytes) := by
  by_cases hz : f.dataLength = 0
  · have hnil : q.items = [] := by
      rw [h.items_eq, ← List.length_eq_zero_iff, length_readable, hz]
    refine ⟨q, ?_, by simpa [step, read_block h.wf bytes hz] using h, ?_⟩
    · simp [FifoOp.abstract, StagedQueue.Step, hnil, step, read_block h.wf bytes hz, elementsOf]
    · simp [accesses, readOffset_block h.wf bytes (show f.dataLength ≤ 0 by omega)]
  · have hpos : 0 < f.dataLength := by omega
    have hcap : 0 < f.bufferLength := by have := h.wf.length_le; omega
    have hr := read_success h.wf bytes hpos
    have hne : ¬ q.items = [] := by
      rw [h.items_eq, ← List.length_eq_zero_iff, length_readable]
      exact hz
    refine .intro (f.consumeReadData (min bytes f.dataLength)) q.staged
      (by simp only [step, hr]) (consumeReadData_wf h.wf hcap _)
      (fun o b hb => staged_after_consume h (Nat.min_le_right _ _) hb) ?_ ?_
    · intro q' hcap hitems hstaged
      simp only [FifoOp.abstract, StagedQueue.Step, hne, if_false, step, hr]
      refine ⟨by rw [h.items_eq]; rfl, ?_, ?_, hstaged⟩
      · rw [hcap, h.capacity_eq]
        rfl
      · rw [hitems, h.items_eq, consumeReadData_readable]
        rcases Nat.le_total bytes f.dataLength with hle | hle
        · rw [Nat.min_eq_left hle]
        · rw [Nat.min_eq_right hle, List.drop_of_length_le (by simp),
            List.drop_of_length_le (by simpa using hle)]
    · simp only [accesses, readOffset_success h.wf bytes hpos, if_true]
      exact readPieces_inBounds h.wf _ hpos

theorem simulates_consumeWriteBuffer (h : f.Represents q) {n : Nat}
    (hn : n ≤ f.bufferLength - f.dataLength) : f.Simulates q (.consumeWriteBuffer n) := by
  refine .intro (f.consumeWriteBuffer n) (fun o => q.staged (n + o)) rfl
    (consumeWriteBuffer_wf h.wf hn) ?_ ?_ (by simp [accesses])
  · intro o b hb
    have hs := h.staged_lt hb
    change f.dataLength + n + o < f.bufferLength ∧ f.cell (f.dataLength + n + o) = b
    rw [Nat.add_assoc]
    exact ⟨hs, h.staged_eq _ b hb⟩
  · intro q' hcap hitems hstaged
    refine ⟨rfl, ?_, ?_, hstaged⟩
    · rw [hcap, h.capacity_eq]
      rfl
    · refine ⟨(List.range n).map fun i => f.cell (f.dataLength + i), by simp, ?_, ?_⟩
      · rw [hitems, h.items_eq, consumeWriteBuffer_readable]
      · intro i b hi hb
        rw [List.getElem?_map, List.getElem?_range hi, ← h.staged_eq i b hb]
        rfl

theorem load_getReadData (hf : f.Wf) :
    f.load [f.getReadData] = f.readable.take f.getReadData.len ∧
      f.getReadData.len ≤ f.dataLength ∧ (0 < f.dataLength → 0 < f.getReadData.len) := by
  have hp := hf.position_lt
  have hl := hf.length_le
  have hlen : f.getReadData.len = min f.dataLength (f.bufferLength - f.readPosition) := by
    simp only [getReadData]
    split <;> omega
  refine ⟨?_, by omega, by omega⟩
  simp only [load, List.flatMap_cons, List.flatMap_nil, List.append_nil]
  apply List.ext_getElem
  · simp [hlen]
  · intro i hi hj
    simp only [Circular.length_slice] at hi
    rw [List.getElem_take, getElem_readable]
    have hlt : f.readPosition + i < f.bufferLength := by omega
    simp [Circular.slice, getReadData, cell, Circular.cell, Nat.mod_eq_of_lt hlt]

theorem simulates_getReadData (h : f.Represents q) : f.Simulates q .getReadData := by
  obtain ⟨hload, hle, hpos⟩ := load_getReadData h.wf
  refine ⟨q, ⟨rfl, f.getReadData.len, ?_, ?_⟩, h, ?_⟩
  · simp only [step, hload, h.items_eq]
  · intro hne
    apply hpos
    rw [h.items_eq, ← List.length_pos_iff, length_readable] at hne
    exact hne
  · have hp := h.wf.position_lt
    have hl := h.wf.length_le
    simp only [accesses, List.mem_singleton, Access.InBounds, forall_eq, getReadData]
    split <;> omega

/-- An empty buffer moved to its first cell, which is where the block handed out
starts. -/
def rewound (f : FifoBuffer) : FifoBuffer :=
  if f.dataLength = 0 then { f with readPosition := 0 } else f

theorem rewound_wf (hf : f.Wf) : f.rewound.Wf := by
  rw [rewound]
  split
  · exact ⟨hf.state_ne, hf.length_le, hf.alloc_le, by simp only; omega⟩
  · exact hf

theorem rewound_readable (f : FifoBuffer) : f.rewound.readable = f.readable := by
  rw [rewound]
  split
  · rename_i hz
    simp [readable, hz]
  · rfl

/-- The block handed out lies behind the readable bytes and ends with the free
space or with the memory. -/
theorem getWriteBuffer_block (hf : f.Wf) (hpos : 0 < f.bufferLength) :
    ∃ a, f.getWriteBuffer = (some a, f.rewound) ∧
      a.start = (f.rewound.readPosition + f.dataLength) % f.bufferLength ∧
      a.start + a.len ≤ f.bufferLength ∧ a.size = f.bufferLength ∧
      a.len ≤ f.bufferLength - f.dataLength ∧ (f.dataLength < f.bufferLength → 0 < a.len) := by
  have hp := hf.position_lt
  have hl := hf.length_le
  simp only [getWriteBuffer, hf.state_ne, if_false, rewound]
  by_cases hz : f.dataLength = 0
  · refine ⟨_, by simp only [hz, if_true]; rfl, ?_⟩
    simp [hz]
  · refine ⟨_, by simp only [hz, if_false]; rfl, ?_⟩
    simp only [hz, if_false, or_false, true_and]
    by_cases hlt : f.readPosition + f.dataLength < f.bufferLength
    · rw [Nat.mod_eq_of_lt hlt, if_pos (by omega)]
      omega
    · rw [Nat.mod_eq_sub_mod (by omega), Nat.mod_eq_of_lt (by omega), if_neg (by omega)]
      omega

theorem fillRange_cell {a : Access} (data : List UInt8)
    (hstart : a.start = (f.readPosition + f.dataLength) % f.bufferLength)
    (hend : a.start + data.length ≤ f.bufferLength)
    (hfit : f.dataLength + data.length ≤ f.bufferLength) {k : Nat} (hk : k < f.bufferLength) :
    (f.fillRange a data).cell k = Circular.blit f.cell f.dataLength data k := by
  have hb := Circular.cell_blit_split f.buffer f.readPosition data (by omega) hfit hk
  rw [← hstart, List.take_of_length_le (by omega), List.drop_of_length_le (by omega),
    Circular.blit_nil] at hb
  exact hb

theorem simulates_getWriteBuffer (h : f.Represents q) {data : List UInt8}
    (hlegal : f.Legal (.getWriteBuffer data)) (hpos : 0 < f.bufferLength) :
    f.Simulates q (.getWriteBuffer data) := by
  obtain ⟨a, hget, hstart, hend, hsize, hle, hroom⟩ := getWriteBuffer_block h.wf hpos
  have hdata : data.length ≤ a.len := by
    obtain ⟨a', ha', hlen⟩ := hlegal
    rw [hget] at ha'
    rw [Option.some.injEq] at ha'
    rwa [ha']
  have hwf := rewound_wf h.wf
  have hl := h.wf.length_le
  have hd : f.rewound.dataLength = f.dataLength := by rw [rewound]; split <;> rfl
  have hc : f.rewound.bufferLength = f.bufferLength := by rw [rewound]; split <;> rfl
  have hcell : ∀ k < f.bufferLength, (f.rewound.fillRange a data).cell k =
      Circular.blit f.rewound.cell f.dataLength data k := by
    intro k hk
    have := fillRange_cell (f := f.rewound) (a := a) data (by rw [hstart, hd, hc])
      (by omega) (by omega) (by omega : k < f.rewound.bufferLength)
    rwa [hd] at this
  have hread : (f.rewound.fillRange a data).readable = f.readable := by
    rw [← rewound_readable f]
    refine readable_congr rfl fun k hk => ?_
    change k < f.rewound.dataLength at hk
    rw [hcell k (by omega), Circular.blit_of_lt (by omega)]
  have hstep : f.step (.getWriteBuffer data) = (.room a.len, f.rewound.fillRange a data) := by
    simp only [step, hget]
  refine .intro (f.rewound.fillRange a data)
    (StagedQueue.overlay (if q.items = [] then fun _ => none else q.staged) data 0)
    (by rw [hstep]) ⟨hwf.state_ne, hwf.length_le, hwf.alloc_le, hwf.position_lt⟩ ?_ ?_ ?_
  · intro o b hb
    change f.rewound.dataLength + o < f.rewound.bufferLength ∧
      (f.rewound.fillRange a data).cell (f.rewound.dataLength + o) = b
    rw [hd, hc]
    by_cases hin : o < data.length
    · rw [StagedQueue.overlay_inside (Nat.zero_le _) (by omega), Option.some.injEq] at hb
      refine ⟨by omega, ?_⟩
      rw [hcell _ (by omega), Circular.blit_inside (by omega) (by omega), ← hb]
      congr 1
      omega
    · rw [StagedQueue.overlay_of_ge (by omega)] at hb
      split at hb
      · simp at hb
      · rename_i hne
        have hs := h.staged_lt hb
        have hz : ¬ f.dataLength = 0 := by
          rwa [h.items_eq, ← List.length_eq_zero_iff, length_readable] at hne
        refine ⟨hs, ?_⟩
        rw [hcell _ hs, Circular.blit_of_ge (by omega), rewound, if_neg hz, h.staged_eq o b hb]
  · intro q' hcap hitems hstaged
    refine ⟨a.len, by rw [hstep], ?_, ?_, ?_, ?_, hstaged⟩
    · rw [h.free_eq]
      exact hle
    · rw [h.free_eq]
      exact fun hfree => hroom (by omega)
    · rw [hcap, h.capacity_eq, ← hc]
      rfl
    · rw [hitems, hread, h.items_eq]
  · simp only [accesses, hget, Option.toList_some, List.mem_singleton, forall_eq, Access.InBounds]
    omega

theorem setCapacity_success (hf : f.Wf) (heap : Nat → UInt8) {size : Nat}
    (hle : f.dataLength ≤ size) (hne : size ≠ f.bufferLength) (hmax : size ≤ maxAllocation) :
    (f.setCapacity heap size).2.readable = f.readable ∧
      (f.setCapacity heap size).2.Wf := by
  have hl := hf.length_le
  have hload : f.load f.movePieces = f.readable := by
    rcases Nat.eq_zero_or_pos f.bufferLength with hz | hpos
    · have hd : f.dataLength = 0 := by omega
      simp [load, movePieces, readable, hd]
    · have hp : f.readPosition < f.bufferLength := by have := hf.position_lt; omega
      have hs := Circular.slice_split f.buffer hp hl
      simpa [load, movePieces, readable] using hs
  have hlt : ¬ f.dataLength > size := by omega
  simp only [setCapacity, hlt, if_false, ne_eq, hne, not_false_eq_true, if_true]
  refine ⟨?_, hf.state_ne, hle, hmax, by simp only; omega⟩
  apply List.ext_getElem
  · simp
  · intro i hi hj
    simp only [length_readable] at hi hj
    rw [getElem_readable]
    simp only [cell, Circular.cell, Nat.zero_add]
    rw [Nat.mod_eq_of_lt (by omega), Circular.blit_inside (by omega) (by simp [hload]; omega)]
    simp [hload]

theorem setCapacity_keeps (hf : f.Wf) (heap : Nat → UInt8) {size : Nat}
    (hmax : size ≤ maxAllocation) :
    (f.setCapacity heap size).2.readable = f.readable ∧ (f.setCapacity heap size).2.Wf ∧
      (f.setCapacity heap size).2.dataLength = f.dataLength ∧
      ((f.setCapacity heap size).2.bufferLength = f.bufferLength ∨
        (f.setCapacity heap size).2.bufferLength = size) := by
  by_cases hgt : f.dataLength > size
  · simp [setCapacity, hgt, hf]
  · by_cases hne : size = f.bufferLength
    · have he : f.setCapacity heap size = (true, f) := by
        rw [setCapacity, if_neg hgt, if_neg (by simpa using hne)]
      rw [he]
      exact ⟨rfl, hf, rfl, .inl rfl⟩
    · obtain ⟨hread, hwf⟩ := setCapacity_success hf heap (Nat.not_lt.mp hgt) hne hmax
      refine ⟨hread, hwf, ?_, .inr ?_⟩ <;> simp [setCapacity, hgt, hne]

theorem setCapacity_true {f : FifoBuffer} {heap : Nat → UInt8} {size : Nat}
    (h : (f.setCapacity heap size).1 = true) :
    f.dataLength ≤ size ∧ (f.setCapacity heap size).2.bufferLength = size := by
  simp only [setCapacity] at h ⊢
  split at h
  · cases h
  · rename_i hgt
    rw [if_neg hgt]
    refine ⟨Nat.not_lt.mp hgt, ?_⟩
    split
    · rfl
    · rename_i heq
      exact (not_not.mp heq).symm

theorem movePieces_inBounds (hf : f.Wf) : ∀ a ∈ f.movePieces, a.InBounds := by
  have hl := hf.length_le
  have hp := hf.position_lt
  simp only [movePieces, List.mem_cons, List.not_mem_nil, or_false, Access.InBounds,
    forall_eq_or_imp, forall_eq]
  omega

theorem simulates_setCapacity (h : f.Represents q) (heap : Nat → UInt8) {size : Nat}
    (hmax : size ≤ maxAllocation) : f.Simulates q (.setCapacity heap size) := by
  have hlen : q.items.length = f.dataLength := by rw [h.items_eq, length_readable]
  by_cases hle : f.dataLength ≤ size
  · have hlt : ¬ size < q.items.length := by omega
    have hgt : ¬ f.dataLength > size := by omega
    by_cases hne : size = f.bufferLength
    · have he : f.setCapacity heap size = (true, f) := by
        rw [setCapacity, if_neg hgt, if_neg (by simpa using hne)]
      refine ⟨q, ?_, by simpa only [step, he] using h, by simp [accesses, hne]⟩
      simp only [FifoOp.abstract, StagedQueue.Step, if_neg hlt, step, he, h.capacity_eq,
        if_pos hne, true_and, and_true]
      exact hne.symm
    · obtain ⟨hread, hwf⟩ := setCapacity_success h.wf heap hle hne hmax
      have hres : (f.setCapacity heap size).1 = true ∧
          (f.setCapacity heap size).2.bufferLength = size := by
        simp only [setCapacity, if_neg hgt, ne_eq, hne, not_false_eq_true, if_true, and_self]
      refine .intro (f.setCapacity heap size).2 (fun _ => none) rfl hwf (by simp) ?_ ?_
      · intro q' hcap hitems hstaged
        simp only [FifoOp.abstract, StagedQueue.Step, hlt, if_false, step, hres.1, true_and]
        refine ⟨hcap.trans hres.2, ?_, ?_⟩
        · rw [hitems, hread, h.items_eq]
        · rw [hstaged, h.capacity_eq, if_neg hne]
      · simp only [accesses, hle, hne, ne_eq, not_false_eq_true, and_self, if_true,
          List.mem_append, List.mem_singleton]
        rintro a (ha | rfl)
        · exact movePieces_inBounds h.wf a ha
        · simpa [Access.InBounds] using hle
  · have he : f.setCapacity heap size = (false, f) := by
      simp [setCapacity, show f.dataLength > size by omega]
    refine ⟨q, ?_, by simpa [step, he] using h, by simp [accesses, hle]⟩
    simp [FifoOp.abstract, StagedQueue.Step, show size < q.items.length by omega, step, he]

theorem simulates (h : f.Represents q) {op : FifoOp} (hl : f.Legal op) (he : f.Exact op) :
    f.Simulates q op := by
  cases op with
  | write data => exact simulates_write h data
  | read bytes => exact simulates_read h bytes
  | readOffset bytes offset => exact simulates_readOffset h bytes offset
  | writeOffset data offset => exact simulates_writeOffset h he
  | consumeWriteBuffer size => exact simulates_consumeWriteBuffer h hl
  | consumeReadData size => exact simulates_consumeReadData h hl he
  | getReadData => exact simulates_getReadData h
  | getWriteBuffer data => exact simulates_getWriteBuffer h hl he
  | setCapacity heap size => exact simulates_setCapacity h heap hl

end Steps

section Runs

theorem admissible_append {f : FifoBuffer} {xs ys : List FifoOp} :
    f.Admissible (xs ++ ys) ↔ f.Admissible xs ∧ (f.run xs).Admissible ys := by
  induction xs generalizing f with
  | nil => simp [Admissible, run]
  | cons op rest ih => simp only [List.cons_append, Admissible, run, ih, and_assoc]

theorem run_append (f : FifoBuffer) (xs ys : List FifoOp) :
    f.run (xs ++ ys) = (f.run xs).run ys := by
  induction xs generalizing f with
  | nil => rfl
  | cons op rest ih => exact ih _

theorem map_fst_trace (f : FifoBuffer) (ops : List FifoOp) :
    (f.trace ops).map Prod.fst = ops.map FifoOp.abstract := by
  induction ops generalizing f with
  | nil => rfl
  | cons op rest ih => simp only [trace, List.map_cons, ih]

theorem simulates_run {f : FifoBuffer} {q : StagedQueue UInt8} (h : f.Represents q)
    {ops : List FifoOp} (ha : f.Admissible ops) :
    ∃ q', q.Run (f.trace ops) q' ∧ (f.run ops).Represents q' ∧
      ∀ a ∈ f.allAccesses ops, a.InBounds := by
  induction ops generalizing f q with
  | nil => exact ⟨q, .nil q, h, by simp [allAccesses]⟩
  | cons op rest ih =>
    obtain ⟨hl, he, hrest⟩ := ha
    obtain ⟨q₁, hstep, h₁, hacc⟩ := simulates h hl he
    obtain ⟨q₂, hrun, h₂, haccs⟩ := ih h₁ hrest
    refine ⟨q₂, .cons hstep hrun, h₂, fun a hmem => ?_⟩
    rcases List.mem_append.mp hmem with hmem | hmem
    · exact hacc a hmem
    · exact haccs a hmem

theorem new_represents (heap : Nat → UInt8) {size : Nat} (h : size ≤ maxAllocation) :
    (new heap size).Represents (.empty UInt8 size) :=
  ⟨new_wf heap h, rfl, rfl, by simp [StagedQueue.empty]⟩

/-- A byte that `WriteOffset` placed is the byte a later commit exposes, when
only reads and in-order writes short of it came between. -/
theorem staged_exposed {f : FifoBuffer} {q : StagedQueue UInt8} (h : f.Represents q)
    {data : List UInt8} {offset n i : Nat} {mid : List FifoOp}
    (ha : f.Admissible (.writeOffset data offset :: mid ++ [.consumeWriteBuffer n]))
    (hi : i < (f.writeOffset data offset).2.1)
    (hs : StagedQueue.ShortOf (offset + i) (mid.map FifoOp.abstract))
    (hn : offset + i - StagedQueue.committed (mid.map FifoOp.abstract) < n) :
    (f.run (.writeOffset data offset :: mid ++ [.consumeWriteBuffer n])).readable[
      (f.run (.writeOffset data offset :: mid)).readable.length +
        (offset + i - StagedQueue.committed (mid.map FifoOp.abstract))]? = data[i]? := by
  obtain ⟨hmid, hlast⟩ := admissible_append.mp ha
  obtain ⟨hl, he, hrest⟩ := hmid
  obtain ⟨q₁, hstep, h₁, -⟩ := simulates h hl he
  obtain ⟨q₂, hrun, h₂, -⟩ := simulates_run h₁ hrest
  obtain ⟨q₃, hcommit, h₃, -⟩ := simulates h₂ hlast.1 hlast.2.1
  rcases he with hfit | hwrap
  · have hwo := writeOffset_success h.wf data hfit
    rw [hwo] at hi
    simp only [Nat.lt_min] at hi
    have hfree := h.free_eq
    simp only [FifoOp.abstract, StagedQueue.Step, show ¬ q.free ≤ offset by omega, if_false]
      at hstep
    have hlen : i < (data.take (q.free - offset)).length := by
      rw [List.length_take]
      omega
    have hb : q₁.staged (offset + i) = some (data.take (q.free - offset))[i] := by
      rw [hstep.2.2.2, StagedQueue.overlay_inside (Nat.le_add_right _ _) (by omega)]
      simp only [Nat.add_sub_cancel_left]
    obtain ⟨-, hst⟩ := hrun.staged_of_shortOf hb (by rwa [map_fst_trace])
    rw [map_fst_trace] at hst
    have hout := hcommit.commit_exposes hst hn
    rw [h₂.items_eq, h₃.items_eq] at hout
    rw [run_append]
    refine hout.trans ?_
    rw [List.getElem_take, List.getElem?_eq_getElem]
  · rw [writeOffset_block h.wf data hwrap] at hi
    exact absurd hi (Nat.not_lt_zero _)

/-- Every run of a fresh buffer is a run of the queue with a staging area that
starts empty: it answers the same, holds the same bytes, stays inside its
allocations and exposes staged bytes as they were placed. -/
theorem refines_staged_queue (heap : Nat → UInt8) {size : Nat}
    (hmax : size ≤ maxAllocation) (ops : List FifoOp) (ha : (new heap size).Admissible ops) :
    (∃ q, (StagedQueue.empty UInt8 size).Run ((new heap size).trace ops) q ∧
      ((new heap size).run ops).readable = q.items ∧
      ((new heap size).run ops).Represents q) ∧
    (∀ a ∈ (new heap size).allAccesses ops, a.InBounds) ∧
    ∀ before data offset mid n after i,
      ops = before ++ (.writeOffset data offset :: mid ++ [.consumeWriteBuffer n]) ++ after →
      i < (((new heap size).run before).writeOffset data offset).2.1 →
      StagedQueue.ShortOf (offset + i) (mid.map FifoOp.abstract) →
      offset + i - StagedQueue.committed (mid.map FifoOp.abstract) < n →
      ((new heap size).run
          (before ++ (.writeOffset data offset :: mid ++ [.consumeWriteBuffer n]))).readable[
        ((new heap size).run (before ++ .writeOffset data offset :: mid)).readable.length +
          (offset + i - StagedQueue.committed (mid.map FifoOp.abstract))]? = data[i]? := by
  obtain ⟨q, hrun, hq, hacc⟩ := simulates_run (new_represents heap hmax) ha
  refine ⟨⟨q, hrun, hq.items_eq.symm, hq⟩, hacc, ?_⟩
  rintro before data offset mid n after i rfl hi hs hn
  obtain ⟨hbefore, hrest⟩ := admissible_append.mp (admissible_append.mp ha).1
  obtain ⟨q₀, -, h₀, -⟩ := simulates_run (new_represents heap hmax) hbefore
  rw [run_append _ before, run_append _ before]
  exact staged_exposed h₀ hrest hi hs hn

theorem refines_staged_queue_wrapped :
    (∃ q, (StagedQueue.empty UInt8 4).Run ((new (fun _ => 0) 4).trace
        [.write [1, 2, 3], .read 2, .writeOffset [9, 8] 1, .consumeWriteBuffer 2]) q ∧
      ((new (fun _ => 0) 4).run
        [.write [1, 2, 3], .read 2, .writeOffset [9, 8] 1, .consumeWriteBuffer 2]).readable =
        q.items) ∧
    ((new (fun _ => 0) 4).run
      [.write [1, 2, 3], .read 2, .writeOffset [9, 8] 1, .consumeWriteBuffer 2]).readable[2]? =
        some 9 := by
  obtain ⟨⟨q, hrun, hread, -⟩, -, hexposed⟩ := refines_staged_queue (fun _ => 0)
    (by decide : 4 ≤ maxAllocation)
    [.write [1, 2, 3], .read 2, .writeOffset [9, 8] 1, .consumeWriteBuffer 2]
    ⟨trivial, trivial, trivial, trivial, (by decide : (1 : Nat) < sizeModulus),
      .inl (by decide), (by decide : (2 : Nat) ≤ 3), trivial, trivial⟩
  refine ⟨⟨q, hrun, hread⟩, ?_⟩
  exact hexposed [.write [1, 2, 3], .read 2] [9, 8] 1 [] 2 [] 0 rfl (by decide) trivial (by decide)

/-- An offset just below `2 ^ 64` passes the bound test and overwrites a byte
that is waiting to be read. -/
theorem wrapping_offset_overwrites :
    (new (fun _ => 0) 16).AllLegal
      [.write [0, 1, 2, 3, 4, 5, 6, 7], .writeOffset [88] (2 ^ 64 - 4)] ∧
    ((new (fun _ => 0) 16).run
      [.write [0, 1, 2, 3, 4, 5, 6, 7], .writeOffset [88] (2 ^ 64 - 4)]).readable =
        [0, 1, 2, 3, 88, 5, 6, 7] ∧
    ¬ ∃ q, (StagedQueue.empty UInt8 16).Run ((new (fun _ => 0) 16).trace
        [.write [0, 1, 2, 3, 4, 5, 6, 7], .writeOffset [88] (2 ^ 64 - 4)]) q ∧
      ((new (fun _ => 0) 16).run
        [.write [0, 1, 2, 3, 4, 5, 6, 7], .writeOffset [88] (2 ^ 64 - 4)]).readable = q.items := by
  have hread : ((new (fun _ => 0) 16).run
      [.write [0, 1, 2, 3, 4, 5, 6, 7], .writeOffset [88] (2 ^ 64 - 4)]).readable =
        [0, 1, 2, 3, 88, 5, 6, 7] := by decide +kernel
  refine ⟨⟨trivial, (by decide : 2 ^ 64 - 4 < sizeModulus), trivial⟩, hread, ?_⟩
  rintro ⟨q, hrun, hq⟩
  cases hrun with
  | cons hwrite hrest =>
    cases hrest with
    | cons hplace hnil =>
      cases hnil
      have hfirst : (StagedQueue.empty UInt8 16).free = 16 := rfl
      simp only [FifoOp.abstract, StagedQueue.Step, hfirst] at hwrite hplace
      obtain ⟨-, -, hwritten, -⟩ := hwrite
      have hkept : q.items = [0, 1, 2, 3, 4, 5, 6, 7] := by
        split at hplace
        · rw [hplace.2, hwritten]
          rfl
        · rw [hplace.2.2.1, hwritten]
          rfl
      rw [hread, hkept] at hq
      exact absurd hq (by decide)

end Runs

end FifoBuffer

end Libjingle
