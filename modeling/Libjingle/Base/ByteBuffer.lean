import Libjingle.Base.ByteOrder

/-! `talk_base::ByteBuffer` in network order, as the bytes that are still to be
read. A read that asks for more than is there fails and takes nothing. -/

namespace Libjingle

abbrev ByteBuffer := List UInt8

namespace ByteBuffer

def readBytes (buf : ByteBuffer) (len : Nat) : Option (List UInt8 × ByteBuffer) :=
  if len > buf.length then none else some (buf.take len, buf.drop len)

/-- A number of `len` bytes. -/
def readNumber {α : Type} (decode : List UInt8 → α) (len : Nat) (buf : ByteBuffer) :
    Option (α × ByteBuffer) :=
  (readBytes buf len).map fun read => (decode read.1, read.2)

def readUInt8 : ByteBuffer → Option (UInt8 × ByteBuffer) := readNumber (·.headD 0) 1

def readUInt16 : ByteBuffer → Option (UInt16 × ByteBuffer) := readNumber bytesToShort 2

def readUInt32 : ByteBuffer → Option (UInt32 × ByteBuffer) := readNumber bytesToLong 4

def readUInt64 : ByteBuffer → Option (UInt64 × ByteBuffer) := readNumber bytesToLongLong 8

def consume (buf : ByteBuffer) (size : Nat) : Option ByteBuffer :=
  if size > buf.length then none else some (buf.drop size)

theorem readBytes_append {bytes : List UInt8} {len : Nat} (h : bytes.length = len)
    (rest : List UInt8) : readBytes (bytes ++ rest) len = some (bytes, rest) := by
  subst h
  simp [readBytes]

theorem readBytes_eq_some {buf rest bytes : List UInt8} {len : Nat} :
    readBytes buf len = some (bytes, rest) ↔ buf = bytes ++ rest ∧ bytes.length = len := by
  constructor
  · intro h
    simp only [readBytes] at h
    split at h
    · cases h
    · rename_i hle
      obtain ⟨rfl, rfl⟩ := Prod.mk.inj (Option.some.inj h)
      exact ⟨(List.take_append_drop _ _).symm, by rw [List.length_take]; omega⟩
  · rintro ⟨rfl, hlen⟩
    exact readBytes_append hlen rest

theorem readNumber_eq_some {α : Type} {decode : List UInt8 → α} {encode : α → List UInt8}
    {len : Nat} (hlen : ∀ val, (encode val).length = len) (hdecode : ∀ val, decode (encode val) = val)
    (hencode : ∀ bytes, bytes.length = len → encode (decode bytes) = bytes)
    {buf rest : List UInt8} {val : α} :
    readNumber decode len buf = some (val, rest) ↔ buf = encode val ++ rest := by
  constructor
  · intro h
    simp only [readNumber, Option.map_eq_some_iff, Prod.exists, Prod.mk.injEq] at h
    obtain ⟨bytes, rest', hread, rfl, rfl⟩ := h
    obtain ⟨rfl, hbytes⟩ := readBytes_eq_some.mp hread
    rw [hencode bytes hbytes]
  · rintro rfl
    rw [readNumber, readBytes_append (hlen val), Option.map_some, hdecode]

theorem readUInt8_eq_some {buf rest : List UInt8} {val : UInt8} :
    readUInt8 buf = some (val, rest) ↔ buf = val :: rest := by
  have hencode : ∀ bytes : List UInt8, bytes.length = 1 → [bytes.headD 0] = bytes := by
    intro bytes h
    obtain ⟨b, rfl⟩ := List.length_eq_one_iff.mp h
    rfl
  have hlen : ∀ b : UInt8, [b].length = 1 := fun _ => rfl
  have hdecode : ∀ b : UInt8, [b].headD 0 = b := fun _ => rfl
  exact readNumber_eq_some hlen hdecode hencode

theorem readUInt16_eq_some {buf rest : List UInt8} {val : UInt16} :
    readUInt16 buf = some (val, rest) ↔ buf = shortToBytes val ++ rest :=
  readNumber_eq_some length_shortToBytes bytesToShort_shortToBytes
    fun _ => shortToBytes_bytesToShort

theorem readUInt32_eq_some {buf rest : List UInt8} {val : UInt32} :
    readUInt32 buf = some (val, rest) ↔ buf = longToBytes val ++ rest :=
  readNumber_eq_some length_longToBytes bytesToLong_longToBytes fun _ => longToBytes_bytesToLong

theorem readUInt64_eq_some {buf rest : List UInt8} {val : UInt64} :
    readUInt64 buf = some (val, rest) ↔ buf = longLongToBytes val ++ rest :=
  readNumber_eq_some length_longLongToBytes bytesToLongLong_longLongToBytes
    fun _ => longLongToBytes_bytesToLongLong

@[simp] theorem readUInt8_cons (val : UInt8) (rest : List UInt8) :
    readUInt8 (val :: rest) = some (val, rest) := readUInt8_eq_some.mpr rfl

@[simp] theorem readUInt16_append (val : UInt16) (rest : List UInt8) :
    readUInt16 (shortToBytes val ++ rest) = some (val, rest) := readUInt16_eq_some.mpr rfl

@[simp] theorem readUInt32_append (val : UInt32) (rest : List UInt8) :
    readUInt32 (longToBytes val ++ rest) = some (val, rest) := readUInt32_eq_some.mpr rfl

@[simp] theorem readUInt64_append (val : UInt64) (rest : List UInt8) :
    readUInt64 (longLongToBytes val ++ rest) = some (val, rest) := readUInt64_eq_some.mpr rfl

theorem consume_eq_some {buf rest : List UInt8} {size : Nat} :
    consume buf size = some rest ↔ ∃ skipped, buf = skipped ++ rest ∧ skipped.length = size := by
  constructor
  · intro h
    simp only [consume] at h
    split at h
    · cases h
    · rename_i hle
      obtain rfl := Option.some.inj h
      exact ⟨buf.take size, (List.take_append_drop _ _).symm, by rw [List.length_take]; omega⟩
  · rintro ⟨skipped, rfl, rfl⟩
    simp [consume]

/-- A reader that takes `n` bytes, and whose result depends on no others. -/
def Takes {α : Type} (f : ByteBuffer → Option (α × ByteBuffer)) (n : Nat) : Prop :=
  ∀ buf val rest, f buf = some (val, rest) → ∃ body, buf = body ++ rest ∧ body.length = n ∧
    ∀ rest', f (body ++ rest') = some (val, rest')

theorem takes_readBytes (len : Nat) : Takes (readBytes · len) len := by
  intro buf bytes rest h
  obtain ⟨hbuf, hlen⟩ := readBytes_eq_some.mp h
  exact ⟨bytes, hbuf, hlen, fun rest' => readBytes_append hlen rest'⟩

theorem takes_readNumber {α : Type} (decode : List UInt8 → α) (len : Nat) :
    Takes (readNumber decode len) len := by
  intro buf val rest h
  simp only [readNumber, Option.map_eq_some_iff, Prod.exists, Prod.mk.injEq] at h
  obtain ⟨bytes, rest₁, hread, rfl, rfl⟩ := h
  obtain ⟨hbuf, hlen⟩ := readBytes_eq_some.mp hread
  refine ⟨bytes, hbuf, hlen, fun rest' => ?_⟩
  rw [readNumber, readBytes_append hlen, Option.map_some]

theorem takes_pure {α : Type} (val : α) : Takes (fun buf => some (val, buf)) 0 := by
  rintro buf _ _ h
  obtain ⟨rfl, rfl⟩ := Prod.mk.inj (Option.some.inj h)
  exact ⟨[], rfl, rfl, fun _ => rfl⟩

theorem takes_none {α : Type} (n : Nat) : Takes (fun _ => (none : Option (α × ByteBuffer))) n := by
  rintro buf _ _ ⟨⟩

theorem Takes.bind {α β : Type} {f : ByteBuffer → Option (α × ByteBuffer)}
    {g : α → ByteBuffer → Option (β × ByteBuffer)} {n k : Nat} (hf : Takes f n)
    (hg : ∀ val, Takes (g val) k) : Takes (fun buf => (f buf).bind fun read => g read.1 read.2) (n + k) := by
  intro buf val rest h
  obtain ⟨⟨mid, buf₁⟩, hmid, hval⟩ := Option.bind_eq_some_iff.mp h
  obtain ⟨body₁, rfl, hlen₁, htake₁⟩ := hf _ _ _ hmid
  obtain ⟨body₂, rfl, hlen₂, htake₂⟩ := hg mid _ _ _ hval
  refine ⟨body₁ ++ body₂, (List.append_assoc _ _ _).symm, ?_, fun rest' => ?_⟩
  · rw [List.length_append, hlen₁, hlen₂]
  · simp only [List.append_assoc, htake₁, Option.bind_some, htake₂]

theorem Takes.ite {α : Type} {f g : ByteBuffer → Option (α × ByteBuffer)} {n : Nat} (c : Prop)
    [Decidable c] (hf : c → Takes f n) (hg : ¬ c → Takes g n) :
    Takes (fun buf => if c then f buf else g buf) n := by
  by_cases hc : c
  · simpa only [hc, if_true] using hf hc
  · simpa only [hc, if_false] using hg hc

end ByteBuffer

end Libjingle
