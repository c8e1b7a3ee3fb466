import Mathlib.Logic.Relation
import Libjingle.Base.FifoBuffer

/-! `Flow`: bytes go from a source to a sink through a buffer. What could not be written stays
in the buffer, and the next call goes on with it. -/

namespace Libjingle

/-- A stream to read from. A read that succeeds gives some bytes and not more than asked for,
and the end is reported again once it was. -/
structure Source (σ : Type) where
  read : σ → Nat → StreamResult × List UInt8 × σ
  read_pos : ∀ s n data t, read s n = (.success, data, t) → 0 < data.length
  read_le : ∀ s n data t, read s n = (.success, data, t) → data.length ≤ n
  read_eos : ∀ s n data t, read s n = (.eos, data, t) → ∀ m, (read t m).1 = .eos

structure Sink (κ : Type) where
  write : κ → List UInt8 → StreamResult × Nat × κ
  write_pos : ∀ s data n t, write s data = (.success, n, t) → 0 < n
  write_le : ∀ s data n t, write s data = (.success, n, t) → n ≤ data.length

/-- The streams, the buffer and `*data_len`, which is not there for a null pointer, with the
bytes that went in and out so far. -/
structure Pump (σ κ : Type) where
  source : σ
  sink : κ
  buffer : Nat → UInt8
  dataLen : Option Nat
  bytesRead : List UInt8 := []
  bytesWritten : List UInt8 := []

namespace Pump

variable {σ κ : Type}

/-- Before the first call nothing is carried. -/
def start (source : σ) (sink : κ) (buffer : Nat → UInt8) : Pump σ κ :=
  { source, sink, buffer, dataLen := some 0 }

def setDataLen (p : Pump σ κ) (n : Nat) : Pump σ κ := { p with dataLen := p.dataLen.map fun _ => n }

/-- Reads until the buffer is full, the end of the stream, or an error. A full buffer counts as
a success. -/
def readLoop (source : Source σ) (bufferLen : Nat) (p : Pump σ κ) (readPos : Nat) :
    StreamResult × Nat × Pump σ κ :=
  if readPos < bufferLen then
    match _h : source.read p.source (bufferLen - readPos) with
    | (.success, data, s) =>
        readLoop source bufferLen
          { p with
            source := s
            buffer := Circular.blit p.buffer readPos data
            bytesRead := p.bytesRead ++ data } (readPos + data.length)
    | (result, _, s) => (result, readPos, { p with source := s })
  else (.success, readPos, p)
termination_by bufferLen - readPos
decreasing_by
  have hpos := source.read_pos _ _ _ _ _h
  omega

/-- Writes until the buffer is empty, or an error. -/
def writeLoop (sink : Sink κ) (p : Pump σ κ) (writePos readPos : Nat) :
    StreamResult × Nat × Pump σ κ :=
  if writePos < readPos then
    let data := Circular.slice p.buffer writePos (readPos - writePos)
    match _h : sink.write p.sink data with
    | (.success, count, s) =>
        writeLoop sink
          { p with sink := s, bytesWritten := p.bytesWritten ++ data.take count }
          (writePos + count) readPos
    | (result, _, s) => (result, writePos, { p with sink := s })
  else (.success, writePos, p)
termination_by readPos - writePos
decreasing_by
  have hpos := sink.write_pos _ _ _ _ _h
  omega

def carry (p : Pump σ κ) (writePos readPos : Nat) : Pump σ κ :=
  { p with
    buffer := if p.dataLen.isSome ∧ 0 < writePos then
      Circular.blit p.buffer 0 (Circular.slice p.buffer writePos (readPos - writePos))
    else p.buffer }.setDataLen (readPos - writePos)

/-- The outer loop, with a bound on its turns. -/
def flowFrom (source : Source σ) (sink : Sink κ) (bufferLen : Nat) :
    Nat → Pump σ κ → Nat → Option (StreamResult × Pump σ κ)
  | 0, _, _ => none
  | fuel + 1, p, readPos =>
    let (result, readPos, p) := readLoop source bufferLen p readPos
    if result = .error ∨ result = .block then some (result, p.setDataLen readPos)
    else
      let (written, writePos, p) := writeLoop sink p 0 readPos
      if written ≠ .success then some (written, p.carry writePos readPos)
      else if result = .eos then some (.success, p.setDataLen 0)
      else flowFrom source sink bufferLen fuel p 0

def flow (source : Source σ) (sink : Sink κ) (bufferLen fuel : Nat) (p : Pump σ κ) :
    Option (StreamResult × Pump σ κ) :=
  flowFrom source sink bufferLen fuel p (p.dataLen.getD 0)

/-- A call of `Flow` that returns. -/
def Call (source : Source σ) (sink : Sink κ) (bufferLen : Nat) (p : Pump σ κ)
    (result : StreamResult) (q : Pump σ κ) : Prop :=
  ∃ fuel, flow source sink bufferLen fuel p = some (result, q)

/-- The bytes read are those written and those in the buffer between the positions. -/
def Holds (p : Pump σ κ) (writePos readPos : Nat) : Prop :=
  p.bytesRead = p.bytesWritten ++ Circular.slice p.buffer writePos (readPos - writePos)

/-- The source will only report its end. -/
def Ended (source : Source σ) (p : Pump σ κ) : Prop := ∀ n, (source.read p.source n).1 = .eos

section Loops

variable {source : Source σ} {sink : Sink κ} {bufferLen : Nat} {p : Pump σ κ}

/-- What the reading loop leaves. -/
structure AfterRead (source : Source σ) (bufferLen : Nat) (p : Pump σ κ)
    (r : StreamResult × Nat × Pump σ κ) : Prop where
  holds : r.2.2.Holds 0 r.2.1
  le : r.2.1 ≤ bufferLen
  dataLen : r.2.2.dataLen = p.dataLen
  ended : r.1 = .eos → r.2.2.Ended source

theorem readLoop_spec {readPos : Nat} (hp : p.Holds 0 readPos) (hle : readPos ≤ bufferLen) :
    AfterRead source bufferLen p (readLoop source bufferLen p readPos) := by
  fun_induction readLoop source bufferLen p readPos with
  | case1 p readPos hlt data s hread ih =>
    have hlen := source.read_le _ _ _ _ hread
    have hslice : Circular.slice (Circular.blit p.buffer readPos data) 0
        (readPos + data.length - 0) =
          Circular.slice p.buffer 0 (readPos - 0) ++ data := by
      rw [Nat.sub_zero, Nat.sub_zero, Circular.slice_append, Circular.slice_blit_of_le _ _ (by omega),
        Nat.zero_add, Circular.slice_blit]
    have hholds : p.bytesRead ++ data = p.bytesWritten ++
        Circular.slice (Circular.blit p.buffer readPos data) 0 (readPos + data.length - 0) := by
      rw [hslice, ← List.append_assoc, ← hp]
    have hafter := ih hholds (by omega)
    exact ⟨hafter.holds, hafter.le, hafter.dataLen, hafter.ended⟩
  | case2 p readPos hlt result data s hne hread =>
    refine ⟨hp, hle, rfl, ?_⟩
    rintro rfl
    exact source.read_eos _ _ _ _ hread
  | case3 p readPos hlt => exact ⟨hp, hle, rfl, by simp⟩

/-- What the writing loop leaves. -/
structure AfterWrite (p : Pump σ κ) (readPos : Nat) (r : StreamResult × Nat × Pump σ κ) :
    Prop where
  holds : r.2.2.Holds r.2.1 readPos
  le : r.2.1 ≤ readPos
  dataLen : r.2.2.dataLen = p.dataLen
  source : r.2.2.source = p.source
  all : r.1 = .success → r.2.1 = readPos

theorem writeLoop_spec (sink : Sink κ) {writePos readPos : Nat} (hp : p.Holds writePos readPos)
    (hle : writePos ≤ readPos) : AfterWrite p readPos (writeLoop sink p writePos readPos) := by
  fun_induction writeLoop sink p writePos readPos with
  | case1 p writePos hlt data count s hwrite ih =>
    have hcount : count ≤ readPos - writePos := by
      simpa [data] using sink.write_le _ _ _ _ hwrite
    have hsplit : data = data.take count ++
        Circular.slice p.buffer (writePos + count) (readPos - (writePos + count)) := by
      have hsum : readPos - writePos = count + (readPos - (writePos + count)) := by omega
      have hfirst : data.take count = Circular.slice p.buffer writePos count := by
        rw [Circular.slice_take, Nat.min_eq_left hcount]
      rw [hfirst, ← Circular.slice_append, ← hsum]
    have hholds : p.bytesRead = (p.bytesWritten ++ data.take count) ++
        Circular.slice p.buffer (writePos + count) (readPos - (writePos + count)) := by
      rw [List.append_assoc, ← hsplit]
      exact hp
    have hafter := ih hholds (by omega)
    exact ⟨hafter.holds, hafter.le, hafter.dataLen, hafter.source, hafter.all⟩
  | case2 p writePos hlt data result count s hne hwrite =>
    refine ⟨hp, hle, rfl, rfl, ?_⟩
    rintro rfl
    exact (hne rfl).elim
  | case3 p writePos hlt => exact ⟨hp, hle, rfl, rfl, fun _ => Nat.le_antisymm hle (Nat.not_lt.mp hlt)⟩

theorem Holds.empty {readPos : Nat} (hp : p.Holds readPos readPos) :
    p.bytesRead = p.bytesWritten := by
  simpa [Holds] using hp

theorem holds_self {n : Nat} (h : p.bytesRead = p.bytesWritten) : p.Holds n n := by
  simpa [Holds] using h

theorem dataLen_setDataLen (h : p.dataLen.isSome = true) (n : Nat) :
    (p.setDataLen n).dataLen = some n := by
  obtain ⟨m, hm⟩ := Option.isSome_iff_exists.mp h
  simp [setDataLen, hm]

theorem carry_holds {writePos readPos : Nat} (hp : p.Holds writePos readPos)
    (hdata : p.dataLen.isSome = true) :
    (p.carry writePos readPos).Holds 0 (readPos - writePos) := by
  rcases Nat.eq_zero_or_pos writePos with rfl | hpos
  · simpa [Holds, carry, setDataLen] using hp
  · have hfront := Circular.slice_blit p.buffer 0
      (Circular.slice p.buffer writePos (readPos - writePos))
    rw [Circular.length_slice] at hfront
    simpa [Holds, carry, setDataLen, hdata, hpos, hfront] using hp

theorem readLoop_size (bufferLen : Nat) {size : σ → Nat}
    (hsize : ∀ s n data t, source.read s n = (.success, data, t) → size t + data.length ≤ size s)
    (p : Pump σ κ) (readPos : Nat) :
    (readLoop source bufferLen p readPos).1 ≠ .success ∨
      (bufferLen ≤ (readLoop source bufferLen p readPos).2.1 ∧
        size (readLoop source bufferLen p readPos).2.2.source +
          (readLoop source bufferLen p readPos).2.1 ≤ size p.source + readPos) := by
  fun_induction readLoop source bufferLen p readPos with
  | case1 p readPos hlt data s hread ih =>
    have hless := hsize _ _ _ _ hread
    refine ih.imp_right fun ⟨hfull, hsum⟩ => ⟨hfull, ?_⟩
    simp only at hsum
    omega
  | case2 p readPos hlt result data s hne hread => exact .inl fun h => hne h
  | case3 p readPos hlt => exact .inr ⟨Nat.not_lt.mp hlt, Nat.le_refl _⟩

theorem flowFrom_isSome (hpos : 0 < bufferLen) {size : σ → Nat}
    (hsize : ∀ s n data t, source.read s n = (.success, data, t) → size t + data.length ≤ size s)
    {fuel readPos : Nat} (hle : readPos ≤ bufferLen)
    (hfuel : size p.source + (if readPos < bufferLen then 0 else 1) < fuel)
    (hp : p.Holds 0 readPos) :
    (flowFrom source sink bufferLen fuel p readPos).isSome = true := by
  induction fuel generalizing p readPos with
  | zero => omega
  | succ fuel ih =>
    have hread : AfterRead source bufferLen p (readLoop source bufferLen p readPos) :=
      readLoop_spec hp hle
    have hless := readLoop_size bufferLen hsize p readPos
    rw [flowFrom]
    generalize readLoop source bufferLen p readPos = r at hread hless ⊢
    obtain ⟨read, filled, p₁⟩ := r
    obtain ⟨hholds, hfit, hlen, hended⟩ := hread
    have hwrite := writeLoop_spec sink hholds (Nat.zero_le _)
    simp only at hless hwrite ⊢
    split_ifs with hstop hwritten heos
    · rfl
    · rfl
    · rfl
    · have hsame := (hwrite.all (not_not.mp hwritten) ▸ hwrite.holds).empty
      apply ih (Nat.zero_le _) _ (holds_self hsame)
      have hsource := hwrite.source
      have hfull : read = .success := by
        cases read <;> simp_all
      obtain ⟨hfull, hsum⟩ := hless.resolve_left (not_not.mpr hfull)
      rw [if_pos hpos, hsource]
      split_ifs at hfuel with hlt <;> omega

/-- What a call that passes `*data_len` leaves: the carried bytes fit the buffer, and after a
success there are none and the source has ended. -/
structure AfterCall (source : Source σ) (bufferLen : Nat) (result : StreamResult)
    (q : Pump σ κ) : Prop where
  carried : ∃ n, q.dataLen = some n ∧ n ≤ bufferLen ∧ q.Holds 0 n
  success : result = .success → q.Ended source ∧ q.bytesWritten = q.bytesRead

theorem flowFrom_spec {fuel readPos : Nat} {result : StreamResult} {q : Pump σ κ}
    (hp : p.Holds 0 readPos) (hle : readPos ≤ bufferLen) (hdata : p.dataLen.isSome = true)
    (h : flowFrom source sink bufferLen fuel p readPos = some (result, q)) :
    AfterCall source bufferLen result q := by
  induction fuel generalizing p readPos with
  | zero => cases h
  | succ fuel ih =>
    have hread : AfterRead source bufferLen p (readLoop source bufferLen p readPos) :=
      readLoop_spec hp hle
    rw [flowFrom] at h
    generalize readLoop source bufferLen p readPos = r at hread h
    obtain ⟨read, filled, p₁⟩ := r
    obtain ⟨hholds, hfit, hlen, hended⟩ := hread
    have hwrite := writeLoop_spec sink hholds (Nat.zero_le _)
    simp only at h hwrite
    split_ifs at h with hstop hwritten heos
    · cases h
      have hsome : p₁.dataLen.isSome = true := hlen ▸ hdata
      refine ⟨⟨filled, dataLen_setDataLen hsome filled, hfit, hholds⟩, ?_⟩
      rintro rfl
      simp at hstop
    · cases h
      have hsome : (writeLoop sink p₁ 0 filled).2.2.dataLen.isSome = true :=
        (hwrite.dataLen.trans hlen) ▸ hdata
      refine ⟨⟨_, dataLen_setDataLen hsome _, (Nat.sub_le _ _).trans hfit,
        carry_holds hwrite.holds hsome⟩, fun h => absurd h hwritten⟩
    · cases h
      have hsome : (writeLoop sink p₁ 0 filled).2.2.dataLen.isSome = true :=
        (hwrite.dataLen.trans hlen) ▸ hdata
      have hall := hwrite.all (not_not.mp hwritten)
      have hsame := (hall ▸ hwrite.holds).empty
      refine ⟨⟨0, dataLen_setDataLen hsome 0, Nat.zero_le _, holds_self hsame⟩,
        fun _ => ⟨?_, hsame.symm⟩⟩
      intro n
      have hsource : ((writeLoop sink p₁ 0 filled).2.2.setDataLen 0).source = p₁.source := hwrite.source
      rw [hsource]
      exact hended heos n
    · have hall := hwrite.all (not_not.mp hwritten)
      have hsame := (hall ▸ hwrite.holds).empty
      exact ih (holds_self hsame) (Nat.zero_le _) ((hwrite.dataLen.trans hlen) ▸ hdata) h

theorem call_spec {result : StreamResult} {q : Pump σ κ}
    (hp : ∃ n, p.dataLen = some n ∧ n ≤ bufferLen ∧ p.Holds 0 n)
    (h : Call source sink bufferLen p result q) : AfterCall source bufferLen result q := by
  obtain ⟨n, hn, hle, hholds⟩ := hp
  obtain ⟨fuel, hflow⟩ := h
  rw [flow, hn] at hflow
  exact flowFrom_spec hholds hle (by rw [hn]; rfl) hflow

end Loops

/-- The states between calls that pass back the buffer and `*data_len`. -/
def Reached (source : Source σ) (sink : Sink κ) (bufferLen : Nat) (s : σ) (k : κ)
    (buffer : Nat → UInt8) : Pump σ κ → Prop :=
  Relation.ReflTransGen (fun p q => ∃ result, Call source sink bufferLen p result q)
    (start s k buffer)

/-- In any sequence of calls, what was written and what the buffer carries are what was read. -/
theorem flow_conserves (source : Source σ) (sink : Sink κ) (bufferLen : Nat) (s : σ) (k : κ)
    (buffer : Nat → UInt8) {p : Pump σ κ} (hp : Reached source sink bufferLen s k buffer p) :
    (∃ n, p.dataLen = some n ∧ n ≤ bufferLen ∧
      p.bytesWritten ++ Circular.slice p.buffer 0 n = p.bytesRead) ∧
    ∀ q, Call source sink bufferLen p .success q →
      q.Ended source ∧ q.bytesWritten = q.bytesRead := by
  have hcarried : ∃ n, p.dataLen = some n ∧ n ≤ bufferLen ∧ p.Holds 0 n := by
    induction hp with
    | refl => exact ⟨0, rfl, Nat.zero_le _, rfl⟩
    | tail _ hcall ih =>
      obtain ⟨result, hcall⟩ := hcall
      exact (call_spec ih hcall).carried
  refine ⟨?_, fun q hq => (call_spec hcarried hq).success rfl⟩
  obtain ⟨n, hn, hle, hholds⟩ := hcarried
  exact ⟨n, hn, hle, hholds.symm⟩

theorem flow_returns (source : Source σ) (sink : Sink κ) {bufferLen : Nat} (hpos : 0 < bufferLen)
    {size : σ → Nat}
    (hsize : ∀ s n data t, source.read s n = (.success, data, t) → size t + data.length ≤ size s)
    {s : σ} {k : κ} {buffer : Nat → UInt8} {p : Pump σ κ}
    (hp : Reached source sink bufferLen s k buffer p) :
    ∃ result q, Call source sink bufferLen p result q := by
  obtain ⟨⟨n, hn, hle, hholds⟩, -⟩ := flow_conserves source sink bufferLen s k buffer hp
  have hsome : (flowFrom source sink bufferLen (size p.source + 2) p n).isSome = true :=
    flowFrom_isSome hpos hsize hle (by split_ifs <;> omega) hholds.symm
  obtain ⟨r, hr⟩ := Option.isSome_iff_exists.mp hsome
  exact ⟨r.1, r.2, size p.source + 2, by rw [flow, hn]; exact hr⟩

def memory : Source (List UInt8) where
  read s n :=
    if s = [] then (.eos, [], s) else if n = 0 then (.block, [], s)
    else (.success, s.take n, s.drop n)
  read_pos s n data t h := by
    grind [List.length_pos_iff]
  read_le s n data t h := by grind
  read_eos s n data t h m := by grind

def bounded : Sink Nat where
  write room data :=
    if min room data.length = 0 then (.block, 0, room)
    else (.success, min room data.length, room - min room data.length)
  write_pos s data n t h := by grind
  write_le s data n t h := by grind

theorem flow_conserves_bounded :
    ∃ result q, Call memory bounded 2 (start [1, 2, 3] 1 fun _ => 0) result q ∧
      ∃ n, q.dataLen = some n ∧ n ≤ 2 ∧
        q.bytesWritten ++ Circular.slice q.buffer 0 n = q.bytesRead := by
  have hsize : ∀ s n data t, memory.read s n = (.success, data, t) →
      t.length + data.length ≤ s.length := by
    intro s n data t h
    simp only [memory] at h
    grind
  obtain ⟨result, q, hcall⟩ := flow_returns memory bounded (by omega) hsize
    (.refl : Reached memory bounded 2 [1, 2, 3] 1 (fun _ => 0) _)
  have hreached : Reached memory bounded 2 [1, 2, 3] 1 (fun _ => 0) q :=
    .tail .refl ⟨result, hcall⟩
  exact ⟨result, q, hcall, (flow_conserves memory bounded 2 [1, 2, 3] 1 _ hreached).1⟩

end Pump

end Libjingle
