import Libjingle.Base.ByteBufferMemory
import Libjingle.Lib.ReplayQueue

/-! Sequences of calls on one `ByteBuffer`, and the queue of bytes it is. A
position that `GetReadPosition` returned is kept with the buffer as it was at
that call. -/

namespace Libjingle

namespace ByteBuffer

inductive Op
  | readUInt8 (val : Option UInt8)
  | readUInt16 (val : Option UInt16)
  | readUInt24 (val : Option UInt32)
  | readUInt32 (val : Option UInt32)
  | readUInt64 (val : Option UInt64)
  | readString (val : Option (List UInt8)) (len : Nat)
  | readBytes (len : Nat)
  | writeUInt8 (val : UInt8)
  | writeUInt16 (val : UInt16)
  | writeUInt24 (val : UInt32)
  | writeUInt32 (val : UInt32)
  | writeUInt64 (val : UInt64)
  | writeString (val : List UInt8)
  | writeBytes (val : List UInt8)
  /-- The caller stores `fill`, or what of it fits, through the pointer. -/
  | reserveWriteBuffer (len : Nat) (fill : List UInt8)
  | resize (size : Nat)
  | consume (size : Nat)
  | clear
  | getReadPosition
  /-- The position that the given earlier call returned. -/
  | setReadPosition (index : Nat)

inductive Output
  | done
  | result (ok : Bool)
  | number (ok : Bool) (val : Option Nat)
  | bytes (ok : Bool) (val : Option (List UInt8))
  | reserved (start : Nat)
  | position (position : ReadPosition)
  deriving DecidableEq, Repr

/-- A buffer with the number of its moves and all that was ever written to it. -/
structure History where
  buffer : Memory
  moves : Nat
  log : List UInt8

/-- `b` follows, with its last `n` bytes new. -/
def History.next (h : History) (b : Memory) (n : Nat) : History where
  buffer := b
  moves := if b.version = h.buffer.version then h.moves else h.moves + 1
  log := h.log ++ Circular.slice b.bytes (b.end_ - n) n

def History.queue (h : History) : ReplayQueue UInt8 :=
  ⟨h.buffer.kept, h.buffer.start, h.moves, h.log⟩

structure Session extends History where
  remembered : List (ReadPosition × History)

theorem ofNat_succ_ne (n : Nat) : Int32.ofNat n + 1 ≠ Int32.ofNat n := by
  rw [Ne, Int32.add_eq_left]
  decide

theorem dvd_of_ofNat_eq {m n : Nat} (h : Int32.ofNat m = Int32.ofNat n) : 2 ^ 32 ∣ n - m := by
  have hbits : UInt32.ofNat m = UInt32.ofNat n := congrArg Int32.toUInt32 h
  have hmod : m % 4294967296 = n % 4294967296 := congrArg UInt32.toNat hbits
  exact Nat.dvd_of_mod_eq_zero (by omega)

namespace History

/-- The offsets are in order, and the version has counted the moves. -/
structure Sound (h : History) : Prop where
  inBounds : h.buffer.InBounds
  version : h.buffer.version = Int32.ofNat h.moves

theorem Sound.valid {h : History} (hs : h.Sound) : h.queue.Valid := by
  have hlen : h.buffer.kept.length = h.buffer.end_ := Memory.length_kept _
  exact Nat.le_trans hs.inBounds.start_le (Nat.le_of_eq hlen.symm)

structure Progress (h h' : History) : Prop where
  sound : h'.Sound
  byteOrder : h'.buffer.byteOrder = h.buffer.byteOrder
  steps : Relation.ReflTransGen ReplayQueue.Step h.queue h'.queue

@[simp] theorem next_self (h : History) : h.next h.buffer 0 = h := by
  simp [next]

theorem moves_same {h : History} {b : Memory} {n : Nat} (hv : b.version = h.buffer.version) :
    (h.next b n).moves = h.moves := if_pos hv

theorem moves_succ {h : History} (hs : h.Sound) {b : Memory} {n : Nat}
    (hv : b.version = h.buffer.version + 1) : (h.next b n).moves = h.moves + 1 := by
  rw [hs.version] at hv
  exact if_neg (by rw [hv, hs.version]; exact ofNat_succ_ne _)

theorem log_next {h : History} {b : Memory} {kept data : List UInt8}
    (hkept : b.kept = kept ++ data) : (h.next b data.length).log = h.log ++ data := by
  have hend : b.end_ = kept.length + data.length := by
    rw [← Memory.length_kept, hkept, List.length_append]
  have hlast : Circular.slice b.bytes kept.length data.length = data := by
    have hdrop : b.kept.drop kept.length = data := by rw [hkept, List.drop_left]
    rwa [Memory.kept, Circular.slice_drop, Nat.zero_add, hend, Nat.add_sub_cancel_left] at hdrop
  rw [next, hend, Nat.add_sub_cancel, hlast]

theorem log_next_zero (h : History) (b : Memory) : (h.next b 0).log = h.log :=
  List.append_nil _

theorem Sound.seek {h : History} (hs : h.Sound) {k : Nat} (hk : k ≤ h.buffer.end_) :
    Progress h (h.next { h.buffer with start := k } 0) := by
  have hmoves : (h.next { h.buffer with start := k } 0).moves = h.moves := moves_same rfl
  have hlen : h.buffer.kept.length = h.buffer.end_ := Memory.length_kept _
  refine ⟨⟨⟨hk, hs.inBounds.end_le, hs.inBounds.size_le⟩, ?_⟩, rfl, .single ?_⟩
  · rw [hmoves]
    exact hs.version
  · have hseek := ReplayQueue.Step.seek h.queue k (Nat.le_trans hk (Nat.le_of_eq hlen.symm))
    rwa [show (h.next { h.buffer with start := k } 0).queue = { h.queue with read := k } by
      simp only [queue, log_next_zero, hmoves]
      rfl]

theorem Sound.moved {h : History} (hs : h.Sound) {b : Memory} (hb : b.InBounds) {n : Nat}
    (hkept : b.kept = h.buffer.unread.take n) (hstart : b.start = 0)
    (hversion : b.version = h.buffer.version + 1) (horder : b.byteOrder = h.buffer.byteOrder) :
    Progress h (h.next b 0) := by
  have hmoves : (h.next b 0).moves = h.moves + 1 := moves_succ hs hversion
  refine ⟨⟨hb, ?_⟩, horder, .single ?_⟩
  · rw [hmoves, Int32.ofNat_add, ← hs.version]
    exact hversion
  · have hmove := ReplayQueue.Step.move h.queue n
    rwa [show (h.next b 0).queue = h.queue.move n by
      simp only [queue, log_next_zero, hmoves, ReplayQueue.move]
      simp only [next, hkept, hstart]
      rfl]

theorem Sound.appended {h : History} (hs : h.Sound) {len : Nat} {mid b : Memory}
    (hmid : h.buffer.MakesRoom len mid) (hb : b.InBounds) {data : List UInt8}
    (hkept : b.kept = mid.kept ++ data) (hstart : b.start = mid.start)
    (hversion : b.version = mid.version) (horder : b.byteOrder = mid.byteOrder) :
    Progress h (h.next b data.length) := by
  have hlog : (h.next b data.length).log = h.log ++ data := log_next hkept
  rcases hmid.moved with rfl | ⟨hall, hzero, hnew⟩
  · have hmoves : (h.next b data.length).moves = h.moves := moves_same hversion
    refine ⟨⟨hb, ?_⟩, horder, .single ?_⟩
    · rw [hmoves, ← hs.version]
      exact hversion
    · have hpush := ReplayQueue.Step.push h.queue data
      rwa [show (h.next b data.length).queue = h.queue.push data by
        simp only [queue, hlog, hmoves, ReplayQueue.push]
        simp only [next, hkept, hstart]]
  · have hmoves : (h.next b data.length).moves = h.moves + 1 := moves_succ hs (hversion.trans hnew)
    refine ⟨⟨hb, ?_⟩, horder.trans hmid.byteOrder, ?_⟩
    · rw [hmoves, Int32.ofNat_add, ← hs.version]
      exact hversion.trans hnew
    · have hmove := ReplayQueue.Step.move h.queue h.queue.unread.length
      have hpush := ReplayQueue.Step.push (h.queue.move h.queue.unread.length) data
      have hqueue : (h.next b data.length).queue =
          (h.queue.move h.queue.unread.length).push data := by
        simp only [queue, hlog, hmoves, ReplayQueue.push, ReplayQueue.move, List.take_length]
        simp only [next, hkept, hstart, hall, hzero]
        rfl
      rw [hqueue]
      exact (Relation.ReflTransGen.single hmove).tail hpush

end History

namespace Session

def init (b : Memory) : Session := ⟨⟨b, 0, b.kept⟩, []⟩

def next (s : Session) (b : Memory) (n : Nat) : Session :=
  { s with toHistory := s.toHistory.next b n }

def number {α : Type} (s : Session) (toNat : α → Nat) (r : Bool × Option α × Memory) :
    Output × Session :=
  (.number r.1 (r.2.1.map toNat), s.next r.2.2 0)

def wrote (s : Session) (n : Nat) (b : Memory) : Output × Session := (.done, s.next b n)

/-- One call. There is no result when the allocation of a larger buffer throws. -/
def step (isHostBigEndian : Bool) (heap : Nat → UInt8) (s : Session) :
    Op → Option (Output × Session)
  | .readUInt8 val => some (s.number UInt8.toNat (s.buffer.readUInt8 val))
  | .readUInt16 val => some (s.number UInt16.toNat (s.buffer.readUInt16 isHostBigEndian val))
  | .readUInt24 val => some (s.number UInt32.toNat (s.buffer.readUInt24 isHostBigEndian val))
  | .readUInt32 val => some (s.number UInt32.toNat (s.buffer.readUInt32 isHostBigEndian val))
  | .readUInt64 val => some (s.number UInt64.toNat (s.buffer.readUInt64 isHostBigEndian val))
  | .readString val len =>
    let r := s.buffer.readString val len
    some (.bytes r.1 r.2.1, s.next r.2.2 0)
  | .readBytes len =>
    let r := s.buffer.readBytes len
    some (.bytes r.1.isSome r.1, s.next r.2 0)
  | .writeUInt8 val => (s.buffer.writeUInt8 heap val).map (s.wrote 1)
  | .writeUInt16 val => (s.buffer.writeUInt16 isHostBigEndian heap val).map (s.wrote 2)
  | .writeUInt24 val => (s.buffer.writeUInt24 isHostBigEndian heap val).map (s.wrote 3)
  | .writeUInt32 val => (s.buffer.writeUInt32 isHostBigEndian heap val).map (s.wrote 4)
  | .writeUInt64 val => (s.buffer.writeUInt64 isHostBigEndian heap val).map (s.wrote 8)
  | .writeString val => (s.buffer.writeString heap val).map (s.wrote val.length)
  | .writeBytes val => (s.buffer.writeBytes heap val).map (s.wrote val.length)
  | .reserveWriteBuffer len fill =>
    (s.buffer.reserveWriteBuffer heap len).map fun reserved =>
      let b := reserved.2
      (.reserved reserved.1,
        s.next { b with bytes := Circular.blit b.bytes reserved.1 (fill.take len) } len)
  | .resize size => (s.buffer.resize heap size).map (s.wrote 0)
  | .consume size =>
    let r := s.buffer.consume size
    some (.result r.1, s.next r.2 0)
  | .clear => some (s.wrote 0 s.buffer.clear)
  | .getReadPosition =>
    let position := s.buffer.getReadPosition
    some (.position position,
      { s with remembered := s.remembered ++ [(position, s.toHistory)] })
  | .setReadPosition index =>
    s.remembered[index]?.map fun remembered =>
      let r := s.buffer.setReadPosition remembered.1
      (.result r.1, s.next r.2 0)

/-! What the calls are for: the unread bytes are a queue. -/

def Adds (s s' : Session) (data : List UInt8) : Prop :=
  s'.buffer.unread = s.buffer.unread ++ data ∧ s'.log = s.log ++ data

def Keeps (s s' : Session) (unread : List UInt8) : Prop :=
  s'.buffer.unread = unread ∧ s'.log = s.log

/-- An integer of `k` bytes is read into a variable, or the call fails. -/
def ReadsNumber (isHostBigEndian : Bool) (k : Nat) (val : Option Nat) (s : Session)
    (out : Output) (s' : Session) : Prop :=
  (val ≠ none ∧ ∃ n < 256 ^ k, out = .number true (some n) ∧
    s.buffer.unread = s.buffer.inOrder isHostBigEndian k n ++ s'.buffer.unread ∧
    s'.log = s.log) ∨
  ((val = none ∨ s.buffer.unread.length < k) ∧ out = .number false val ∧ s' = s)

/-- The unread bytes of `r` are in `h` where they were, and were not moved. -/
def InPlace (r h : History) : Prop :=
  r.moves = h.moves ∧ r.buffer.end_ ≤ h.buffer.end_ ∧
    ∀ i, r.buffer.start ≤ i → i < r.buffer.end_ → h.buffer.bytes i = r.buffer.bytes i

def IsQueue (isHostBigEndian : Bool) (s : Session) (op : Op) (out : Output) (s' : Session) :
    Prop :=
  let put := s.buffer.inOrder isHostBigEndian
  let unread := s.buffer.unread
  match op with
  | .readUInt8 val => ReadsNumber isHostBigEndian 1 (val.map UInt8.toNat) s out s'
  | .readUInt16 val => ReadsNumber isHostBigEndian 2 (val.map UInt16.toNat) s out s'
  | .readUInt24 val => ReadsNumber isHostBigEndian 3 (val.map UInt32.toNat) s out s'
  | .readUInt32 val => ReadsNumber isHostBigEndian 4 (val.map UInt32.toNat) s out s'
  | .readUInt64 val => ReadsNumber isHostBigEndian 8 (val.map UInt64.toNat) s out s'
  | .readString val len =>
    (∃ old, val = some old ∧ len ≤ unread.length ∧
      out = .bytes true (some (old ++ unread.take len)) ∧ Keeps s s' (unread.drop len)) ∨
    ((val = none ∨ unread.length < len) ∧ out = .bytes false val ∧ s' = s)
  | .readBytes len =>
    (len ≤ unread.length ∧ out = .bytes true (some (unread.take len)) ∧
      Keeps s s' (unread.drop len)) ∨
    (unread.length < len ∧ out = .bytes false none ∧ s' = s)
  | .writeUInt8 val => out = .done ∧ Adds s s' (put 1 val.toNat)
  | .writeUInt16 val => out = .done ∧ Adds s s' (put 2 val.toNat)
  | .writeUInt24 val => out = .done ∧ Adds s s' (put 3 val.toNat)
  | .writeUInt32 val => out = .done ∧ Adds s s' (put 4 val.toNat)
  | .writeUInt64 val => out = .done ∧ Adds s s' (put 8 val.toNat)
  | .writeString val => out = .done ∧ Adds s s' val
  | .writeBytes val => out = .done ∧ Adds s s' val
  | .reserveWriteBuffer len fill =>
    out = .reserved (s'.buffer.end_ - len) ∧
      ∃ data, data.length = len ∧ fill.take len <+: data ∧ Adds s s' data
  | .resize size => out = .done ∧ Keeps s s' (unread.take size)
  | .consume size =>
    (size ≤ unread.length ∧ out = .result true ∧ Keeps s s' (unread.drop size)) ∨
    (unread.length < size ∧ out = .result false ∧ s' = s)
  | .clear => out = .done ∧ Keeps s s' []
  | .getReadPosition =>
    s'.toHistory = s.toHistory ∧ ∃ position, out = .position position ∧
      s'.remembered = s.remembered ++ [(position, s.toHistory)]
  | .setReadPosition index =>
    ∃ r, s.remembered[index]? = some r ∧
      ((out = .result true ∧ InPlace r.2 s.toHistory ∧
          ∃ since, s.log = r.2.log ++ since ∧ Keeps s s' (r.2.buffer.unread ++ since)) ∨
        (out = .result false ∧ r.2.moves < s.moves ∧ s' = s))

/-- The sizes that a call adds do not pass `2 ^ 64`, and a position that it
restores was not invalidated exactly `2 ^ 32` times, or a multiple of that. -/
def Fits (s : Session) : Op → Prop
  | .writeString val => s.buffer.unread.length + val.length < sizeModulus
  | .writeBytes val => s.buffer.unread.length + val.length < sizeModulus
  | .reserveWriteBuffer len _ => s.buffer.unread.length + len < sizeModulus
  | .setReadPosition index =>
    ∀ r, s.remembered[index]? = some r → 2 ^ 32 ∣ s.moves - r.2.moves → s.moves = r.2.moves
  | _ => True

abbrev Reached (isHostBigEndian : Bool) : Session → Session → Prop :=
  Relation.ReflTransGen fun s s' =>
    ∃ heap op out, s.Fits op ∧ s.step isHostBigEndian heap op = some (out, s')

section Calls

variable {isHostBigEndian : Bool} {heap : Nat → UInt8} {s : Session}

theorem refl_progress (hs : s.toHistory.Sound) :
    History.Progress s.toHistory (s.next s.buffer 0).toHistory := by
  have hself : (s.next s.buffer 0).toHistory = s.toHistory := History.next_self _
  exact ⟨hself ▸ hs, rfl, hself ▸ .refl⟩

theorem next_self (s : Session) : s.next s.buffer 0 = s := by
  simp [next]

theorem taken (hs : s.toHistory.Sound) {len : Nat} (hlen : len ≤ s.buffer.unread.length) :
    let s' := s.next { s.buffer with start := s.buffer.start + len } 0
    s.Keeps s' (s.buffer.unread.drop len) ∧ History.Progress s.toHistory s'.toHistory :=
  ⟨⟨Memory.unread_seek _ _, History.log_next_zero _ _⟩,
    hs.seek (hs.inBounds.advance hlen).2⟩

theorem number_isQueue (hs : s.toHistory.Sound) {α : Type} {toNat : α → Nat}
    {decode : List UInt8 → α} {k : Nat}
    (hdecode : ∀ v, v.length = k → toNat (decode v) < 256 ^ k ∧
      s.buffer.inOrder isHostBigEndian k (toNat (decode v)) = v) (val : Option α) :
    let r := s.number toNat (Memory.readInto decode k s.buffer val)
    ReadsNumber isHostBigEndian k (val.map toNat) s r.1 r.2 ∧
      History.Progress s.toHistory r.2.toHistory := by
  cases val with
  | none => exact ⟨.inr ⟨.inl rfl, rfl, next_self s⟩, refl_progress hs⟩
  | some old =>
    by_cases hlen : k ≤ s.buffer.unread.length
    · obtain ⟨⟨hunread, hlog⟩, hprogress⟩ := taken hs hlen
      have htake : (s.buffer.unread.take k).length = k := by
        rw [List.length_take]
        omega
      obtain ⟨hlt, hbytes⟩ := hdecode _ htake
      simp only [number, Memory.readInto, hs.inBounds.readBytes_eq, if_pos hlen]
      refine ⟨.inl ⟨Option.some_ne_none _, _, hlt, rfl, ?_, hlog⟩, hprogress⟩
      rw [hbytes, hunread]
      exact (List.take_append_drop _ _).symm
    · simp only [number, Memory.readInto, hs.inBounds.readBytes_eq, if_neg hlen]
      exact ⟨.inr ⟨.inr (Nat.lt_of_not_le hlen), rfl, next_self s⟩, refl_progress hs⟩

theorem readString_isQueue (hs : s.toHistory.Sound) (val : Option (List UInt8)) (len : Nat) :
    let r := s.buffer.readString val len
    s.IsQueue isHostBigEndian (.readString val len) (.bytes r.1 r.2.1) (s.next r.2.2 0) ∧
      History.Progress s.toHistory (s.next r.2.2 0).toHistory := by
  cases val with
  | none => exact ⟨.inr ⟨.inl rfl, rfl, next_self s⟩, refl_progress hs⟩
  | some old =>
    simp only [Memory.readString, hs.inBounds.length_eq]
    by_cases hlen : len ≤ s.buffer.unread.length
    · obtain ⟨hkeeps, hprogress⟩ := taken hs hlen
      rw [if_neg (Nat.not_lt.mpr hlen), (hs.inBounds.advance hlen).1,
        Memory.slice_unread hlen]
      exact ⟨.inl ⟨old, rfl, hlen, rfl, hkeeps⟩, hprogress⟩
    · rw [if_pos (Nat.lt_of_not_le hlen)]
      exact ⟨.inr ⟨.inr (Nat.lt_of_not_le hlen), rfl, next_self s⟩, refl_progress hs⟩

theorem readBytes_isQueue (hs : s.toHistory.Sound) (len : Nat) :
    let r := s.buffer.readBytes len
    s.IsQueue isHostBigEndian (.readBytes len) (.bytes r.1.isSome r.1) (s.next r.2 0) ∧
      History.Progress s.toHistory (s.next r.2 0).toHistory := by
  rw [hs.inBounds.readBytes_eq]
  by_cases hlen : len ≤ s.buffer.unread.length
  · obtain ⟨hkeeps, hprogress⟩ := taken hs hlen
    rw [if_pos hlen]
    exact ⟨.inl ⟨hlen, rfl, hkeeps⟩, hprogress⟩
  · rw [if_neg hlen]
    exact ⟨.inr ⟨Nat.lt_of_not_le hlen, rfl, next_self s⟩, refl_progress hs⟩

theorem consume_isQueue (hs : s.toHistory.Sound) (size : Nat) :
    let r := s.buffer.consume size
    s.IsQueue isHostBigEndian (.consume size) (.result r.1) (s.next r.2 0) ∧
      History.Progress s.toHistory (s.next r.2 0).toHistory := by
  simp only [Memory.consume, hs.inBounds.length_eq]
  by_cases hlen : size ≤ s.buffer.unread.length
  · obtain ⟨hkeeps, hprogress⟩ := taken hs hlen
    rw [if_neg (Nat.not_lt.mpr hlen), (hs.inBounds.advance hlen).1]
    exact ⟨.inl ⟨hlen, rfl, hkeeps⟩, hprogress⟩
  · rw [if_pos (Nat.lt_of_not_le hlen)]
    exact ⟨.inr ⟨Nat.lt_of_not_le hlen, rfl, next_self s⟩, refl_progress hs⟩

theorem wrote_adds (hs : s.toHistory.Sound) {val : List UInt8} {n : Nat}
    (hlen : s.buffer.unread.length + val.length < sizeModulus) (hn : val.length = n)
    {r : Output × Session} (hw : (s.buffer.writeBytes heap val).map (s.wrote n) = some r) :
    (r.1 = .done ∧ s.Adds r.2 val) ∧ History.Progress s.toHistory r.2.toHistory := by
  subst hn
  obtain ⟨b, hb, rfl⟩ := Option.map_eq_some_iff.mp hw
  obtain ⟨mid, hmid, hin, hkept, hstart, hversion, horder⟩ := hs.inBounds.writeBytes_eq hlen hb
  exact ⟨⟨rfl, hmid.unread_append hkept hstart, History.log_next hkept⟩,
    hs.appended hmid hin hkept hstart hversion horder⟩

theorem wrote_number (hs : s.toHistory.Sound) {val data : List UInt8} {n : Nat}
    (hval : val = data) (hn : data.length = n) (hsmall : n ≤ 8) {r : Output × Session}
    (hw : (s.buffer.writeBytes heap val).map (s.wrote n) = some r) :
    (r.1 = .done ∧ s.Adds r.2 data) ∧ History.Progress s.toHistory r.2.toHistory := by
  subst hval
  have hend := hs.inBounds.end_le
  have halloc := hs.inBounds.size_le
  refine wrote_adds hs ?_ hn hw
  simp only [Memory.length_unread, sizeModulus, maxAllocation] at *
  omega

theorem reserve_isQueue (hs : s.toHistory.Sound) {len : Nat} {fill : List UInt8}
    (hlen : s.buffer.unread.length + len < sizeModulus) {r : Output × Session}
    (hr : s.step isHostBigEndian heap (.reserveWriteBuffer len fill) = some r) :
    s.IsQueue isHostBigEndian (.reserveWriteBuffer len fill) r.1 r.2 ∧
      History.Progress s.toHistory r.2.toHistory := by
  obtain ⟨reserved, hb, rfl⟩ := Option.map_eq_some_iff.mp hr
  obtain ⟨mid, hmid, rfl⟩ := hs.inBounds.reserveWriteBuffer_eq hlen hb
  obtain ⟨hin, hkept⟩ := hmid.kept_append (fill.take len)
  have hdata : (Circular.slice (Circular.blit mid.bytes mid.end_ (fill.take len)) mid.end_
      len).length = len := Circular.length_slice _ _ _
  have hprogress := hs.appended hmid hin hkept rfl rfl rfl
  have hlog := History.log_next (h := s.toHistory) hkept
  rw [hdata] at hprogress hlog
  refine ⟨⟨congrArg Output.reserved (Nat.add_sub_cancel _ _).symm, _, hdata, ?_,
    hmid.unread_append hkept rfl, hlog⟩, hprogress⟩
  have hfill : (fill.take len).length ≤ len := List.length_take_le _ _
  have htake := Circular.slice_take (Circular.blit mid.bytes mid.end_ (fill.take len)) mid.end_ len
    (fill.take len).length
  rw [Nat.min_eq_left hfill, Circular.slice_blit] at htake
  have hprefix := List.take_prefix (fill.take len).length
    (Circular.slice (Circular.blit mid.bytes mid.end_ (fill.take len)) mid.end_ len)
  rwa [htake] at hprefix

theorem resize_isQueue (hs : s.toHistory.Sound) {size : Nat} {r : Output × Session}
    (hr : s.step isHostBigEndian heap (.resize size) = some r) :
    s.IsQueue isHostBigEndian (.resize size) r.1 r.2 ∧
      History.Progress s.toHistory r.2.toHistory := by
  obtain ⟨b, hb, rfl⟩ := Option.map_eq_some_iff.mp hr
  obtain ⟨hin, hkept, hstart, hversion, horder, -⟩ := hs.inBounds.resize_eq hb
  refine ⟨⟨rfl, ?_, History.log_next_zero _ _⟩, hs.moved hin hkept hstart hversion horder⟩
  simp only [wrote, next, History.next]
  rw [Memory.unread, hkept, hstart, List.drop_zero]

theorem clear_isQueue (hs : s.toHistory.Sound) :
    s.IsQueue isHostBigEndian .clear .done (s.next s.buffer.clear 0) ∧
      History.Progress s.toHistory (s.next s.buffer.clear 0).toHistory := by
  have hin : s.buffer.clear.InBounds := ⟨Nat.le_refl _, Nat.zero_le _, hs.inBounds.size_le⟩
  exact ⟨⟨rfl, rfl, History.log_next_zero _ _⟩, hs.moved (n := 0) hin rfl rfl rfl rfl⟩

end Calls

/-- Every remembered position belongs to a state from which calls led here. -/
structure Inv (s : Session) : Prop where
  sound : s.toHistory.Sound
  remembered : ∀ r ∈ s.remembered, r.1 = r.2.buffer.getReadPosition ∧ r.2.Sound ∧
    Relation.ReflTransGen ReplayQueue.Step r.2.queue s.queue

theorem init_inv {heap : Nat → UInt8} {bytes : Option (List UInt8)} {len : Nat}
    {byteOrder : ByteOrder} {b : Memory} (h : Memory.construct heap bytes len byteOrder = some b) :
    (init b).Inv := by
  have hversion : b.version = 0 := by
    rw [Memory.construct] at h
    split at h
    · cases h
    · obtain rfl := Option.some.inj h
      rfl
  exact ⟨⟨Memory.construct_inBounds h, hversion⟩, fun _ hr => absurd hr List.not_mem_nil⟩

theorem Inv.of_progress {s s' : Session} (h : s.Inv) (hr : s'.remembered = s.remembered)
    (hp : History.Progress s.toHistory s'.toHistory) : s'.Inv := by
  refine ⟨hp.sound, fun r hmem => ?_⟩
  rw [hr] at hmem
  obtain ⟨hposition, hsound, hsteps⟩ := h.remembered r hmem
  exact ⟨hposition, hsound, hsteps.trans hp.steps⟩

theorem Inv.remember {s : Session} (h : s.Inv) :
    ({ s with remembered :=
        s.remembered ++ [(s.buffer.getReadPosition, s.toHistory)] } : Session).Inv := by
  refine ⟨h.sound, fun r hmem => ?_⟩
  rcases List.mem_append.mp hmem with hold | hnew
  · exact h.remembered r hold
  · obtain rfl := List.mem_singleton.mp hnew
    exact ⟨rfl, h.sound, .refl⟩

/-- A position of the same version belongs to the same epoch, and the bytes
kept then are still the first ones. -/
theorem Inv.setReadPosition_isQueue {isHostBigEndian : Bool} {s : Session} (h : s.Inv)
    {index : Nat} (hfits : s.Fits (.setReadPosition index)) {r : ReadPosition × History}
    (hr : s.remembered[index]? = some r) :
    let set := s.buffer.setReadPosition r.1
    s.IsQueue isHostBigEndian (.setReadPosition index) (.result set.1) (s.next set.2 0) ∧
      History.Progress s.toHistory (s.next set.2 0).toHistory := by
  obtain ⟨hposition, hsound, hsteps⟩ := h.remembered r (List.mem_of_getElem? hr)
  have hlater := ReplayQueue.later_of_steps hsteps
  have hversion : r.1.version = r.2.buffer.version := congrArg ReadPosition.version hposition
  have hstart : r.1.start = r.2.buffer.start := congrArg ReadPosition.start hposition
  simp only [Memory.setReadPosition]
  by_cases hsame : r.1.version = s.buffer.version
  · have hmoves : r.2.moves = s.moves := by
      have hcount : Int32.ofNat r.2.moves = Int32.ofNat s.moves := by
        rw [← hsound.version, ← h.sound.version, ← hversion]
        exact hsame
      exact (hfits r hr (dvd_of_ofNat_eq hcount)).symm
    obtain ⟨since, hkept, hlog, hunread⟩ := hlater.replay hsound.valid hmoves
    have hend : r.2.buffer.end_ ≤ s.buffer.end_ := by
      rw [← Memory.length_kept r.2.buffer, ← Memory.length_kept s.buffer]
      exact (congrArg List.length hkept).symm ▸ by simp [History.queue]
    have hin : r.1.start ≤ s.buffer.end_ := by
      rw [hstart]
      exact Nat.le_trans hsound.inBounds.start_le hend
    rw [if_neg (not_not.mpr hsame)]
    refine ⟨⟨r, hr, .inl ⟨rfl, ⟨hmoves, hend, fun i _ hi => ?_⟩, since, hlog, ?_,
      History.log_next_zero _ _⟩⟩, h.sound.seek hin⟩
    · exact Memory.bytes_eq_of_kept hkept hi
    · have hread : s.buffer.kept.drop r.1.start = r.2.buffer.unread ++ since := by
        rw [hstart]
        exact hunread
      exact hread
  · have hmoves : r.2.moves < s.moves := by
      refine Nat.lt_of_le_of_ne hlater.epoch_le fun heq => hsame ?_
      rw [hversion, hsound.version, heq, h.sound.version]
    rw [if_pos hsame]
    exact ⟨⟨r, hr, .inr ⟨rfl, hmoves, next_self s⟩⟩, refl_progress h.sound⟩

theorem ofNat8 {b : Memory} {isHostBigEndian : Bool} (v : List UInt8) (h : v.length = 1) :
    (v.headD 0).toNat < 256 ^ 1 ∧ b.inOrder isHostBigEndian 1 (v.headD 0).toNat = v := by
  obtain ⟨x, rfl⟩ := List.length_eq_one_iff.mp h
  refine ⟨x.toNat_lt, ?_⟩
  cases horder : b.byteOrder <;> cases isHostBigEndian <;>
    simp [Memory.inOrder, horder, hostBytes, BigEndian.encode]

theorem next_remembered (s : Session) (b : Memory) (n : Nat) :
    (s.next b n).remembered = s.remembered := rfl

theorem wrote_remembered {s : Session} {n : Nat} {b : Option Memory} {r : Output × Session}
    (h : b.map (s.wrote n) = some r) : r.2.remembered = s.remembered := by
  obtain ⟨b, -, rfl⟩ := Option.map_eq_some_iff.mp h
  rfl

theorem Inv.done {isHostBigEndian : Bool} {s : Session} (h : s.Inv) {op : Op}
    {r : Output × Session} (hr : r.2.remembered = s.remembered)
    (hp : s.IsQueue isHostBigEndian op r.1 r.2 ∧ History.Progress s.toHistory r.2.toHistory) :
    s.IsQueue isHostBigEndian op r.1 r.2 ∧ r.2.Inv ∧
      r.2.buffer.byteOrder = s.buffer.byteOrder :=
  ⟨hp.1, h.of_progress hr hp.2, hp.2.byteOrder⟩

theorem Inv.step {isHostBigEndian : Bool} {heap : Nat → UInt8} {s : Session} (h : s.Inv)
    {op : Op} (hfits : s.Fits op) {r : Output × Session}
    (hr : s.step isHostBigEndian heap op = some r) :
    s.IsQueue isHostBigEndian op r.1 r.2 ∧ r.2.Inv ∧
      r.2.buffer.byteOrder = s.buffer.byteOrder := by
  have hs := h.sound
  cases op with
  | readUInt8 val =>
    obtain rfl := Option.some.inj hr
    exact h.done (next_remembered _ _ _) (number_isQueue hs ofNat8 val)
  | readUInt16 val =>
    obtain rfl := Option.some.inj hr
    refine h.done (next_remembered _ _ _) (number_isQueue hs (fun v hv => ?_) val)
    have hload := s.buffer.inOrder_loaded isHostBigEndian hv
    rwa [UInt16.toNat_ofNat_of_lt' hload.1]
  | readUInt24 val =>
    obtain rfl := Option.some.inj hr
    refine h.done (next_remembered _ _ _) (number_isQueue hs (fun v hv => ?_) val)
    have hload := s.buffer.inOrder_loaded24 isHostBigEndian hv
    rwa [UInt32.toNat_ofNat_of_lt' (Nat.lt_trans hload.1 (by decide))]
  | readUInt32 val =>
    obtain rfl := Option.some.inj hr
    refine h.done (next_remembered _ _ _) (number_isQueue hs (fun v hv => ?_) val)
    have hload := s.buffer.inOrder_loaded isHostBigEndian hv
    rwa [UInt32.toNat_ofNat_of_lt' hload.1]
  | readUInt64 val =>
    obtain rfl := Option.some.inj hr
    refine h.done (next_remembered _ _ _) (number_isQueue hs (fun v hv => ?_) val)
    have hload := s.buffer.inOrder_loaded isHostBigEndian hv
    rwa [UInt64.toNat_ofNat_of_lt' hload.1]
  | readString val len =>
    obtain rfl := Option.some.inj hr
    exact h.done (next_remembered _ _ _) (readString_isQueue hs val len)
  | readBytes len =>
    obtain rfl := Option.some.inj hr
    exact h.done (next_remembered _ _ _) (readBytes_isQueue hs len)
  | writeUInt8 val =>
    have hbyte : s.buffer.inOrder isHostBigEndian 1 val.toNat = [val] := (ofNat8 [val] rfl).2
    have hlen := s.buffer.length_inOrder isHostBigEndian 1 val.toNat
    exact h.done (wrote_remembered hr) (wrote_number hs hbyte.symm hlen (by decide) hr)
  | writeUInt16 val =>
    have hbytes := s.buffer.stored_eq isHostBigEndian 2 val.toNat
    have hlen := s.buffer.length_inOrder isHostBigEndian 2 val.toNat
    exact h.done (wrote_remembered hr) (wrote_number hs hbytes hlen (by decide) hr)
  | writeUInt24 val =>
    have hbytes := s.buffer.stored24_eq isHostBigEndian val.toNat
    have hlen := s.buffer.length_inOrder isHostBigEndian 3 val.toNat
    exact h.done (wrote_remembered hr) (wrote_number hs hbytes hlen (by decide) hr)
  | writeUInt32 val =>
    have hbytes := s.buffer.stored_eq isHostBigEndian 4 val.toNat
    have hlen := s.buffer.length_inOrder isHostBigEndian 4 val.toNat
    exact h.done (wrote_remembered hr) (wrote_number hs hbytes hlen (by decide) hr)
  | writeUInt64 val =>
    have hbytes := s.buffer.stored_eq isHostBigEndian 8 val.toNat
    have hlen := s.buffer.length_inOrder isHostBigEndian 8 val.toNat
    exact h.done (wrote_remembered hr) (wrote_number hs hbytes hlen (by decide) hr)
  | writeString val => exact h.done (wrote_remembered hr) (wrote_adds hs hfits rfl hr)
  | writeBytes val => exact h.done (wrote_remembered hr) (wrote_adds hs hfits rfl hr)
  | reserveWriteBuffer len fill =>
    have hrem : r.2.remembered = s.remembered := by
      obtain ⟨reserved, -, rfl⟩ := Option.map_eq_some_iff.mp hr
      rfl
    exact h.done hrem (reserve_isQueue hs hfits hr)
  | resize size => exact h.done (wrote_remembered hr) (resize_isQueue hs hr)
  | consume size =>
    obtain rfl := Option.some.inj hr
    exact h.done (next_remembered _ _ _) (consume_isQueue hs size)
  | clear =>
    obtain rfl := Option.some.inj hr
    exact h.done (next_remembered _ _ _) (clear_isQueue hs)
  | getReadPosition =>
    obtain rfl := Option.some.inj hr
    exact ⟨⟨rfl, _, rfl, rfl⟩, h.remember, rfl⟩
  | setReadPosition index =>
    obtain ⟨remembered, hget, rfl⟩ := Option.map_eq_some_iff.mp hr
    exact h.done (next_remembered _ _ _) (h.setReadPosition_isQueue hfits hget)

theorem Inv.reached {isHostBigEndian : Bool} {s s' : Session} (h : s.Inv)
    (hs : Reached isHostBigEndian s s') : s'.Inv := by
  induction hs with
  | refl => exact h
  | tail _ hlast ih =>
    obtain ⟨heap, op, out, hfits, hstep⟩ := hlast
    exact (ih.step hfits hstep).2.1

/-- In every run a `ByteBuffer` is the queue of its unread bytes. -/
theorem reached_isQueue {isHostBigEndian : Bool} {heap : Nat → UInt8}
    {bytes : Option (List UInt8)} {len : Nat} {byteOrder : ByteOrder} {b : Memory}
    (h : Memory.construct heap bytes len byteOrder = some b) {s : Session}
    (hs : Reached isHostBigEndian (init b) s) :
    s.buffer.InBounds ∧ ∀ heap' op out s', s.Fits op →
      s.step isHostBigEndian heap' op = some (out, s') →
        s'.buffer.InBounds ∧ s'.buffer.byteOrder = s.buffer.byteOrder ∧
          s.IsQueue isHostBigEndian op out s' := by
  have hinv := (init_inv h).reached hs
  refine ⟨hinv.sound.inBounds, fun heap' op out s' hfits hstep => ?_⟩
  obtain ⟨hqueue, hnext, horder⟩ := hinv.step hfits hstep
  exact ⟨hnext.sound.inBounds, horder, hqueue⟩

theorem clears_reached (isHostBigEndian : Bool) (s : Session) (n : Nat) :
    ∃ t, Reached isHostBigEndian s t ∧ t.remembered = s.remembered ∧
      t.buffer.version = s.buffer.version + Int32.ofNat n ∧
        (0 < n → t.buffer.start = 0 ∧ t.buffer.end_ = 0) := by
  induction n with
  | zero => exact ⟨s, .refl, rfl, (Int32.add_zero _).symm, nofun⟩
  | succ n ih =>
    obtain ⟨t, hreached, hremembered, hversion, -⟩ := ih
    refine ⟨t.next t.buffer.clear 0, hreached.tail ⟨fun _ => 0, .clear, .done, trivial, rfl⟩,
      hremembered, ?_, fun _ => ⟨rfl, rfl⟩⟩
    rw [Int32.ofNat_add, ← Int32.add_assoc, ← hversion]
    rfl

def oneByte : Memory := ⟨Circular.blit (fun _ => 0) 0 [97], 1, 0, 1, 0, .network⟩

theorem oneByte_construct :
    Memory.construct (fun _ => 0) (some [97]) 1 .network = some oneByte := rfl

def oneRead : Session := (init oneByte).next { oneByte with start := 1 } 0

def oneMarked : Session :=
  { oneRead with remembered := [(oneRead.buffer.getReadPosition, oneRead.toHistory)] }

theorem oneMarked_reached : Reached false (init oneByte) oneMarked := by
  have hread : (init oneByte).step false (fun _ => 0) (.consume 1) = some (.result true, oneRead) :=
    rfl
  have hmarked : oneRead.step false (fun _ => 0) .getReadPosition =
      some (.position ⟨1, 0⟩, oneMarked) := rfl
  have hfirst : Reached false (init oneByte) oneRead :=
    .single ⟨fun _ => 0, .consume 1, .result true, trivial, hread⟩
  exact hfirst.tail ⟨fun _ => 0, .getReadPosition, .position ⟨1, 0⟩, trivial, hmarked⟩

theorem reached_isQueue_marked : (Memory.construct (fun _ => 0) (some [97]) 1 .network =
      some oneByte) ∧ ∃ s', oneMarked.step false (fun _ => 0) (.setReadPosition 0) =
        some (.result true, s') ∧ s'.buffer.InBounds ∧
          oneMarked.IsQueue false (.setReadPosition 0) (.result true) s' := by
  have hset : ∃ s', oneMarked.step false (fun _ => 0) (.setReadPosition 0) =
      some (.result true, s') := ⟨_, rfl⟩
  obtain ⟨s', hstep⟩ := hset
  have hfits : oneMarked.Fits (.setReadPosition 0) := by
    intro r hr _
    obtain rfl := Option.some.inj hr
    rfl
  have h := (reached_isQueue oneByte_construct oneMarked_reached).2 _ _ _ _ hfits hstep
  exact ⟨rfl, s', hstep, h.1, h.2.2⟩

/-- After `2 ^ 32` calls of `Clear` a stale position is restored and passes the
end; and a reservation whose size wraps takes back what was written. -/
theorem stale_position_restored :
    (∃ s s', Reached false (init oneByte) s ∧
      s.step false (fun _ => 0) (.setReadPosition 0) = some (.result true, s') ∧
        ¬ s'.buffer.start ≤ s'.buffer.end_) ∧
    ∃ s', (init oneByte).step false (fun _ => 0) (.reserveWriteBuffer (2 ^ 64 - 1) []) =
      some (.reserved 1, s') ∧ (init oneByte).buffer.unread = [97] ∧ s'.buffer.unread = [] := by
  constructor
  · obtain ⟨t, hreached, hremembered, hversion, hcleared⟩ :=
      clears_reached false oneMarked (2 ^ 32)
    obtain ⟨-, hend⟩ := hcleared (by decide)
    have hzero : t.buffer.version = 0 := by
      rw [hversion]
      rfl
    have hset : t.buffer.setReadPosition oneRead.buffer.getReadPosition =
        (true, { t.buffer with start := 1 }) := by
      have hposition : oneRead.buffer.getReadPosition = ⟨1, 0⟩ := rfl
      simp [Memory.setReadPosition, hposition, hzero]
    have hget : t.remembered[0]? =
        some (oneRead.buffer.getReadPosition, oneRead.toHistory) := by
      rw [hremembered]
      rfl
    refine ⟨t, t.next { t.buffer with start := 1 } 0, oneMarked_reached.trans hreached, ?_, ?_⟩
    · simp only [step, hget, Option.map_some, hset]
    · simp [next, History.next, hend]
  · have hreserve : oneByte.reserveWriteBuffer (fun _ => 0) (2 ^ 64 - 1) =
        some (1, { oneByte with end_ := 0 }) := by
      simp [Memory.reserveWriteBuffer, Memory.length, Memory.capacity, sizeAdd, sizeSub,
        sizeModulus, oneByte]
    refine ⟨(init oneByte).next { oneByte with
      end_ := 0
      bytes := Circular.blit oneByte.bytes 1 [] } (2 ^ 64 - 1), ?_, rfl, rfl⟩
    simp only [step, init, hreserve, Option.map_some, List.take_nil]

end Session

end ByteBuffer

end Libjingle
