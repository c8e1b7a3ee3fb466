import Libjingle.Base.ByteOrder
import Libjingle.Lib.BlockHash
import Mathlib.Data.Fintype.Basic
import Mathlib.Tactic.FinCases
import Mathlib.Tactic.IntervalCases

/-! The SHA-1 message digest. -/

namespace Libjingle.Digest

open BlockHash

def sha1DigestSize : Nat := 20

def rol (value bits : UInt32) : UInt32 := value <<< bits ||| value >>> (32 - bits)

/-- The working variables, and the block as the words of the machine. -/
structure SHA1Work where
  r : Vector UInt32 5
  l : Vector UInt32 16

inductive SHA1Macro
  | r0 | r1 | r2 | r3 | r4
  deriving DecidableEq

/-- One use of a macro: the variables it is given and its number. -/
structure SHA1Step where
  kind : SHA1Macro
  v : Fin 5
  w : Fin 5
  x : Fin 5
  y : Fin 5
  z : Fin 5
  i : Nat
  deriving DecidableEq

def slot (i : Nat) : Fin 16 := Fin.ofNat 16 (i &&& 15)

/-- The word with its bytes the other way round. -/
def blk0 (word : UInt32) : UInt32 := (rol word 24 &&& 0xFF00FF00) ||| (rol word 8 &&& 0x00FF00FF)

/-- The word that `blk` leaves in the block. -/
def blk (l : Vector UInt32 16) (i : Nat) : UInt32 :=
  rol (l[slot (i + 13)] ^^^ l[slot (i + 8)] ^^^ l[slot (i + 2)] ^^^ l[slot i]) 1

def SHA1Macro.apply (w x y : UInt32) : SHA1Macro → UInt32
  | r0 | r1 => (w &&& (x ^^^ y)) ^^^ y
  | r2 | r4 => w ^^^ x ^^^ y
  | r3 => ((w ||| x) &&& y) ||| (w &&& x)

def SHA1Macro.constant : SHA1Macro → UInt32
  | r0 | r1 => 0x5A827999
  | r2 => 0x6ED9EBA1
  | r3 => 0x8F1BBCDC
  | r4 => 0xCA62C1D6

def sha1Step (s : SHA1Work) (t : SHA1Step) : SHA1Work :=
  let word := if t.kind = .r0 then blk0 s.l[slot t.i] else blk s.l t.i
  let z := s.r[t.z] + (t.kind.apply s.r[t.w] s.r[t.x] s.r[t.y] + word + t.kind.constant +
    rol s.r[t.v] 5)
  { r := (s.r.set t.z z).set t.w (rol s.r[t.w] 30), l := s.l.set (slot t.i) word }

namespace Variable5

abbrev a : Fin 5 := 0
abbrev b : Fin 5 := 1
abbrev c : Fin 5 := 2
abbrev d : Fin 5 := 3
abbrev e : Fin 5 := 4

end Variable5

open Variable5 in
/-- The body of `SHA1Transform`. -/
def sha1Steps : List SHA1Step := [
  ⟨.r0, a, b, c, d, e, 0⟩, ⟨.r0, e, a, b, c, d, 1⟩, ⟨.r0, d, e, a, b, c, 2⟩, ⟨.r0, c, d, e, a, b, 3⟩,
  ⟨.r0, b, c, d, e, a, 4⟩, ⟨.r0, a, b, c, d, e, 5⟩, ⟨.r0, e, a, b, c, d, 6⟩, ⟨.r0, d, e, a, b, c, 7⟩,
  ⟨.r0, c, d, e, a, b, 8⟩, ⟨.r0, b, c, d, e, a, 9⟩, ⟨.r0, a, b, c, d, e, 10⟩, ⟨.r0, e, a, b, c, d, 11⟩,
  ⟨.r0, d, e, a, b, c, 12⟩, ⟨.r0, c, d, e, a, b, 13⟩, ⟨.r0, b, c, d, e, a, 14⟩, ⟨.r0, a, b, c, d, e, 15⟩,
  ⟨.r1, e, a, b, c, d, 16⟩, ⟨.r1, d, e, a, b, c, 17⟩, ⟨.r1, c, d, e, a, b, 18⟩, ⟨.r1, b, c, d, e, a, 19⟩,
  ⟨.r2, a, b, c, d, e, 20⟩, ⟨.r2, e, a, b, c, d, 21⟩, ⟨.r2, d, e, a, b, c, 22⟩, ⟨.r2, c, d, e, a, b, 23⟩,
  ⟨.r2, b, c, d, e, a, 24⟩, ⟨.r2, a, b, c, d, e, 25⟩, ⟨.r2, e, a, b, c, d, 26⟩, ⟨.r2, d, e, a, b, c, 27⟩,
  ⟨.r2, c, d, e, a, b, 28⟩, ⟨.r2, b, c, d, e, a, 29⟩, ⟨.r2, a, b, c, d, e, 30⟩, ⟨.r2, e, a, b, c, d, 31⟩,
  ⟨.r2, d, e, a, b, c, 32⟩, ⟨.r2, c, d, e, a, b, 33⟩, ⟨.r2, b, c, d, e, a, 34⟩, ⟨.r2, a, b, c, d, e, 35⟩,
  ⟨.r2, e, a, b, c, d, 36⟩, ⟨.r2, d, e, a, b, c, 37⟩, ⟨.r2, c, d, e, a, b, 38⟩, ⟨.r2, b, c, d, e, a, 39⟩,
  ⟨.r3, a, b, c, d, e, 40⟩, ⟨.r3, e, a, b, c, d, 41⟩, ⟨.r3, d, e, a, b, c, 42⟩, ⟨.r3, c, d, e, a, b, 43⟩,
  ⟨.r3, b, c, d, e, a, 44⟩, ⟨.r3, a, b, c, d, e, 45⟩, ⟨.r3, e, a, b, c, d, 46⟩, ⟨.r3, d, e, a, b, c, 47⟩,
  ⟨.r3, c, d, e, a, b, 48⟩, ⟨.r3, b, c, d, e, a, 49⟩, ⟨.r3, a, b, c, d, e, 50⟩, ⟨.r3, e, a, b, c, d, 51⟩,
  ⟨.r3, d, e, a, b, c, 52⟩, ⟨.r3, c, d, e, a, b, 53⟩, ⟨.r3, b, c, d, e, a, 54⟩, ⟨.r3, a, b, c, d, e, 55⟩,
  ⟨.r3, e, a, b, c, d, 56⟩, ⟨.r3, d, e, a, b, c, 57⟩, ⟨.r3, c, d, e, a, b, 58⟩, ⟨.r3, b, c, d, e, a, 59⟩,
  ⟨.r4, a, b, c, d, e, 60⟩, ⟨.r4, e, a, b, c, d, 61⟩, ⟨.r4, d, e, a, b, c, 62⟩, ⟨.r4, c, d, e, a, b, 63⟩,
  ⟨.r4, b, c, d, e, a, 64⟩, ⟨.r4, a, b, c, d, e, 65⟩, ⟨.r4, e, a, b, c, d, 66⟩, ⟨.r4, d, e, a, b, c, 67⟩,
  ⟨.r4, c, d, e, a, b, 68⟩, ⟨.r4, b, c, d, e, a, 69⟩, ⟨.r4, a, b, c, d, e, 70⟩, ⟨.r4, e, a, b, c, d, 71⟩,
  ⟨.r4, d, e, a, b, c, 72⟩, ⟨.r4, c, d, e, a, b, 73⟩, ⟨.r4, b, c, d, e, a, 74⟩, ⟨.r4, a, b, c, d, e, 75⟩,
  ⟨.r4, e, a, b, c, d, 76⟩, ⟨.r4, d, e, a, b, c, 77⟩, ⟨.r4, c, d, e, a, b, 78⟩, ⟨.r4, b, c, d, e, a, 79⟩]

/-- A word of the block as the machine has it, least significant byte first. -/
def nativeWord (workspace : List UInt8) (i : Nat) : UInt32 :=
  UInt32.ofNat (BigEndian.decode ((workspace.drop (4 * i)).take 4).reverse)

def sha1Transform (state : Vector UInt32 5) (buffer : List UInt8) : Vector UInt32 5 :=
  let workspace := buffer.take 64
  let l := Vector.ofFn fun i : Fin 16 => nativeWord workspace i
  state.zipWith (· + ·) (sha1Steps.foldl sha1Step { r := state, l }).r

structure SHA1Context where
  state : Vector UInt32 5
  count0 : UInt32
  count1 : UInt32
  buffer : List UInt8

/-- `memory` is what the buffer held before. -/
def sha1Init (memory : List UInt8) : SHA1Context where
  state := #v[0x67452301, 0xEFCDAB89, 0x98BADCFE, 0x10325476, 0xC3D2E1F0]
  count0 := 0
  count1 := 0
  buffer := memory

/-- The loop over whole blocks, and what is left after them. -/
def sha1Blocks (state : Vector UInt32 5) (data : List UInt8) : (Vector UInt32 5) × List UInt8 :=
  if 64 ≤ data.length then sha1Blocks (sha1Transform state data) (data.drop 64)
  else (state, data)
termination_by data.length
decreasing_by
  simp only [List.length_drop]
  omega

def sha1Update (context : SHA1Context) (data : List UInt8) : SHA1Context :=
  let inputLen := data.length
  let index := ((context.count0 >>> 3) &&& 63).toNat
  let bits := UInt32.ofNat (inputLen <<< 3)
  let count0 := context.count0 + bits
  let count1 := if count0 < bits then context.count1 + 1 else context.count1
  let count1 := count1 + UInt32.ofNat (inputLen >>> 29)
  if index + inputLen > 63 then
    let i := 64 - index
    let buffer := overwrite context.buffer index (data.take i)
    let (state, rest) := sha1Blocks (sha1Transform context.state buffer) (data.drop i)
    { state, count0, count1, buffer := overwrite buffer 0 rest }
  else { context with count0, count1, buffer := overwrite context.buffer index data }

/-- The zero bytes of the padding, written one by one. -/
def sha1Pad : Nat → SHA1Context → SHA1Context
  | 0, context => context
  | fuel + 1, context =>
    if context.count0 &&& 504 ≠ 448 then sha1Pad fuel (sha1Update context [0]) else context

/-- The byte of a word in a place of its big-endian form. -/
def byteOf (word : UInt32) (i : Nat) : UInt8 :=
  ((word >>> UInt32.ofNat ((3 - (i &&& 3)) * 8)) &&& 255).toUInt8

/-- The digest. The context is wiped. -/
def sha1Final (context : SHA1Context) : List UInt8 :=
  let finalcount := (List.range 8).map fun i =>
    byteOf (if i ≥ 4 then context.count0 else context.count1) i
  let context := sha1Update context [0x80]
  let context := sha1Pad 64 context
  let context := sha1Update context finalcount
  (List.range sha1DigestSize).map fun i => byteOf context.state[Fin.ofNat 5 (i >>> 2)] i

/-! The algorithm in the terms of FIPS 180-1. -/

section Standard

def sha1Function (t : Nat) (b c d : UInt32) : UInt32 :=
  if t < 20 then (b &&& c) ||| (~~~b &&& d)
  else if t < 40 then b ^^^ c ^^^ d
  else if t < 60 then (b &&& c) ||| (b &&& d) ||| (c &&& d)
  else b ^^^ c ^^^ d

def sha1Constant (t : Nat) : UInt32 :=
  if t < 20 then 0x5A827999 else if t < 40 then 0x6ED9EBA1 else if t < 60 then 0x8F1BBCDC
  else 0xCA62C1D6

/-- The words that the rounds take from a block. -/
def sha1Word (block : List UInt8) (t : Nat) : UInt32 :=
  if t < 16 then getBE32 block (4 * t)
  else rol (sha1Word block (t - 3) ^^^ sha1Word block (t - 8) ^^^ sha1Word block (t - 14) ^^^
    sha1Word block (t - 16)) 1

def sha1Round (block : List UInt8) (v : Vector UInt32 5) (t : Nat) : Vector UInt32 5 :=
  let temp := rol v[0] 5 + sha1Function t v[1] v[2] v[3] + v[4] + sha1Word block t + sha1Constant t
  #v[temp, v[0], rol v[1] 30, v[2], v[3]]

def sha1Compress (h : Vector UInt32 5) (block : List UInt8) : Vector UInt32 5 :=
  h.zipWith (· + ·) ((List.range 80).foldl (sha1Round block) h)

/-- The SHA-1 digest of a message. -/
def sha1 (message : List UInt8) : List UInt8 :=
  let n := message.length
  let padded := message ++ padding 64 8 n ++ BigEndian.encode 8 (8 * n)
  let h := absorb sha1Compress 64
    #v[0x67452301, 0xEFCDAB89, 0x98BADCFE, 0x10325476, 0xC3D2E1F0] padded
  h.toList.flatMap longToBytes

end Standard

/-! The macros on sixteen words are the rounds of the standard on eighty. -/

section Transform

theorem choose_eq (w x y : UInt32) : (w &&& (x ^^^ y)) ^^^ y = (w &&& x) ||| (~~~w &&& y) := by
  apply UInt32.eq_of_toBitVec_eq
  ext i
  simp only [UInt32.toBitVec_xor, UInt32.toBitVec_and, UInt32.toBitVec_or, UInt32.toBitVec_not,
    BitVec.getElem_xor, BitVec.getElem_and, BitVec.getElem_or, BitVec.getElem_not]
  cases w.toBitVec[i] <;> cases x.toBitVec[i] <;> cases y.toBitVec[i] <;> rfl

theorem majority_eq (w x y : UInt32) :
    ((w ||| x) &&& y) ||| (w &&& x) = (w &&& x) ||| (w &&& y) ||| (x &&& y) := by
  apply UInt32.eq_of_toBitVec_eq
  ext i
  simp only [UInt32.toBitVec_and, UInt32.toBitVec_or, BitVec.getElem_and, BitVec.getElem_or]
  cases w.toBitVec[i] <;> cases x.toBitVec[i] <;> cases y.toBitVec[i] <;> rfl

theorem toBitVec_word (b0 b1 b2 b3 : UInt8) :
    (UInt32.ofNat (BigEndian.decode [b0, b1, b2, b3])).toBitVec =
      b0.toBitVec ++ b1.toBitVec ++ b2.toBitVec ++ b3.toBitVec := by
  apply BitVec.eq_of_toNat_eq
  have h0 := b0.toNat_lt
  have h1 := b1.toNat_lt
  have h2 := b2.toNat_lt
  have h3 := b3.toNat_lt
  simp only [BitVec.toNat_append, UInt8.toNat_toBitVec, UInt32.toNat_toBitVec]
  rw [← Nat.shiftLeft_add_eq_or_of_lt (by omega : b1.toNat < 2 ^ 8),
    ← Nat.shiftLeft_add_eq_or_of_lt (by omega : b2.toNat < 2 ^ 8),
    ← Nat.shiftLeft_add_eq_or_of_lt (by omega : b3.toNat < 2 ^ 8)]
  simp only [BigEndian.decode, UInt32.toNat_ofNat', Nat.shiftLeft_eq, List.length_cons,
    List.length_nil]
  omega

theorem getLsbD_word (b0 b1 b2 b3 : UInt8) {i : Nat} (hi : i < 32) :
    (UInt32.ofNat (BigEndian.decode [b0, b1, b2, b3])).toBitVec.getLsbD i =
      (if i < 8 then b3 else if i < 16 then b2 else if i < 24 then b1 else b0).toBitVec.getLsbD
        (i % 8) := by
  rw [toBitVec_word]
  show (b0.toBitVec ++ b1.toBitVec ++ b2.toBitVec ++ b3.toBitVec).getLsbD i = _
  simp only [BitVec.getLsbD_append]
  split_ifs <;> first | omega | (congr 1; omega)

theorem blk0_word (b0 b1 b2 b3 : UInt8) :
    blk0 (UInt32.ofNat (BigEndian.decode [b3, b2, b1, b0])) =
      UInt32.ofNat (BigEndian.decode [b0, b1, b2, b3]) := by
  apply UInt32.eq_of_toBitVec_eq
  apply BitVec.eq_of_getLsbD_eq
  intro i hi
  have hword := fun j => getLsbD_word b3 b2 b1 b0 (i := j)
  simp only [blk0, rol, UInt32.toBitVec_or, UInt32.toBitVec_and, UInt32.toBitVec_shiftLeft,
    UInt32.toBitVec_shiftRight, getLsbD_word b0 b1 b2 b3 hi]
  generalize (UInt32.ofNat (BigEndian.decode [b3, b2, b1, b0])).toBitVec = word at hword
  interval_cases i <;> simp [-BitVec.getLsbD_eq_getElem, hword]

theorem blk0_nativeWord {block : List UInt8} {i : Nat} (hlen : block.length = 64) (hi : i < 16) :
    blk0 (nativeWord block i) = getBE32 block (4 * i) := by
  have hword : ((block.drop (4 * i)).take 4).length = 4 := by
    simp only [List.length_take, List.length_drop]
    omega
  obtain ⟨b0, b1, b2, b3, hbytes⟩ := List.length_eq_four.mp hword
  rw [nativeWord, getBE32, bytesToLong, hbytes]
  exact blk0_word b0 b1 b2 b3

def sha1Kind (t : Nat) : SHA1Macro :=
  if t < 16 then .r0 else if t < 20 then .r1 else if t < 40 then .r2 else if t < 60 then .r3
  else .r4

theorem apply_sha1Kind (t : Nat) (b c d : UInt32) :
    (sha1Kind t).apply b c d = sha1Function t b c d := by
  unfold sha1Kind sha1Function
  split_ifs <;> first | omega | rfl | exact choose_eq b c d | exact majority_eq b c d

theorem constant_sha1Kind (t : Nat) : (sha1Kind t).constant = sha1Constant t := by
  unfold sha1Kind sha1Constant
  split_ifs <;> first | omega | rfl

theorem sha1Kind_eq_r0 (t : Nat) : sha1Kind t = .r0 ↔ t < 16 := by
  unfold sha1Kind
  split_ifs <;> simp <;> omega

/-- The use of a macro in a round: the variables take turns. -/
def sha1StepAt (t : Nat) : SHA1Step where
  kind := sha1Kind t
  v := 0 - Fin.ofNat 5 t
  w := 1 - Fin.ofNat 5 t
  x := 2 - Fin.ofNat 5 t
  y := 3 - Fin.ofNat 5 t
  z := 4 - Fin.ofNat 5 t
  i := t

theorem sha1Steps_eq : sha1Steps = (List.range 80).map sha1StepAt := by decide

theorem slot_eq (i : Nat) : slot i = Fin.ofNat 16 i := by
  apply Fin.ext
  have hmask : i &&& 15 = i % 16 := Nat.and_two_pow_sub_one_eq_mod i 4
  simp [slot, hmask]

theorem slot_inj {i j : Nat} (h : i < j) (hj : j < i + 16) : slot j ≠ slot i := by
  rw [slot_eq, slot_eq]
  intro heq
  have hval := congrArg Fin.val heq
  simp only [Fin.ofNat] at hval
  omega

/-- The sixteen words of the block in a round: the last ones of the standard, and those of the
block that have not been taken yet. -/
structure Window (block : List UInt8) (t : Nat) (l : Vector UInt32 16) : Prop where
  taken : ∀ i, i < t → t ≤ i + 16 → l[slot i] = sha1Word block i
  waiting : ∀ i, t ≤ i → i < 16 → l[slot i] = nativeWord block i

theorem Window.word {block : List UInt8} {t : Nat} {l : Vector UInt32 16} (h : Window block t l)
    (hlen : block.length = 64) :
    (if sha1Kind t = .r0 then blk0 l[slot t] else blk l t) = sha1Word block t := by
  rw [sha1Word]
  by_cases ht : t < 16
  · rw [if_pos ((sha1Kind_eq_r0 t).mpr ht), if_pos ht, h.waiting t (Nat.le_refl t) ht,
      blk0_nativeWord hlen ht]
  · have hback : ∀ d < 16, slot (t + (16 - d)) = slot (t - d) := fun d hd => by
      rw [slot_eq, slot_eq]
      apply Fin.ext
      simp only [Fin.ofNat]
      omega
    have hlast : slot t = slot (t - 16) := by
      rw [slot_eq, slot_eq]
      apply Fin.ext
      simp only [Fin.ofNat]
      omega
    have h3 := h.taken (t - 3) (by omega) (by omega)
    have h8 := h.taken (t - 8) (by omega) (by omega)
    have h14 := h.taken (t - 14) (by omega) (by omega)
    have h16 := h.taken (t - 16) (by omega) (by omega)
    rw [if_neg (mt (sha1Kind_eq_r0 t).mp ht), if_neg ht, ← h3, ← h8, ← h14, ← h16]
    simp only [blk, hlast, ← hback 3 (by decide), ← hback 8 (by decide), ← hback 14 (by decide)]

theorem Window.step {block : List UInt8} {t : Nat} {l : Vector UInt32 16} (h : Window block t l) :
    Window block (t + 1) (l.set (slot t) (sha1Word block t)) := by
  have hother : ∀ i, slot i ≠ slot t →
      (l.set (slot t) (sha1Word block t))[slot i] = l[slot i] := fun i hi =>
    Vector.getElem_set_ne _ _ fun heq => hi (Fin.ext heq).symm
  refine ⟨fun i hi hti => ?_, fun i hi hi16 => ?_⟩
  · by_cases heq : i = t
    · subst heq
      exact Vector.getElem_set_self _
    · rw [hother i (slot_inj (by omega) (by omega)).symm]
      exact h.taken i (by omega) (by omega)
  · rw [hother i (slot_inj (by omega) (by omega))]
    exact h.waiting i (by omega) hi16

/-- What a round writes, in terms of the parts that the variables play. -/
def sha1Write (block : List UInt8) (v : Vector UInt32 5) (t : Nat) : Vector UInt32 5 :=
  let z := v[4] + (sha1Function t v[1] v[2] v[3] + sha1Word block t + sha1Constant t + rol v[0] 5)
  (v.set 4 z).set 1 (rol v[1] 30)

theorem shift_sha1Write (block : List UInt8) (v : Vector UInt32 5) (t : Nat) :
    shift (sha1Write block v t) = sha1Round block v t := by
  apply vector_ext
  intro j
  rw [getElem_shift]
  fin_cases j
  · show (sha1Write block v t)[4] = rol v[0] 5 + sha1Function t v[1] v[2] v[3] + v[4] +
      sha1Word block t + sha1Constant t
    simp only [sha1Write]
    rw [Vector.getElem_set_ne _ _ (by decide), Vector.getElem_set_self]
    ac_rfl
  · show (sha1Write block v t)[0] = v[0]
    simp [sha1Write]
  · show (sha1Write block v t)[1] = rol v[1] 30
    simp [sha1Write]
  · show (sha1Write block v t)[2] = v[2]
    simp [sha1Write]
  · show (sha1Write block v t)[3] = v[3]
    simp [sha1Write]

theorem parts_sha1Step {block : List UInt8} {t : Nat} {s : SHA1Work} (h : Window block t s.l)
    (hlen : block.length = 64) :
    parts (t + 1) (sha1Step s (sha1StepAt t)).r = sha1Round block (parts t s.r) t ∧
      Window block (t + 1) (sha1Step s (sha1StepAt t)).l := by
  have hword := h.word hlen
  have hl : (sha1Step s (sha1StepAt t)).l = s.l.set (slot t) (sha1Word block t) := by
    rw [← hword]
    rfl
  have hr : parts t (sha1Step s (sha1StepAt t)).r = sha1Write block (parts t s.r) t := by
    rw [sha1Write, ← hword, ← apply_sha1Kind, ← constant_sha1Kind]
    simp only [sha1Step, sha1StepAt, parts_set, ← getElem_parts]
    rfl
  refine ⟨?_, hl ▸ h.step⟩
  rw [parts_succ, hr, shift_sha1Write]

theorem parts_sha1Steps {h : Vector UInt32 5} {block : List UInt8} (hlen : block.length = 64)
    (m : Nat) :
    let s := (List.range m).foldl (fun s t => sha1Step s (sha1StepAt t))
      { r := h, l := Vector.ofFn fun i : Fin 16 => nativeWord block i }
    parts m s.r = (List.range m).foldl (sha1Round block) h ∧ Window block m s.l := by
  induction m with
  | zero =>
    refine ⟨parts_of_dvd (Nat.dvd_zero 5), fun i hi => absurd hi (Nat.not_lt_zero i), fun i _ hi => ?_⟩
    simp [slot_eq, Fin.ofNat, Nat.mod_eq_of_lt hi]
  | succ m ih =>
    obtain ⟨hr, hl⟩ := ih
    have hstep := parts_sha1Step hl hlen
    rw [hr] at hstep
    simpa only [List.range_succ, List.foldl_append, List.foldl_cons, List.foldl_nil] using hstep

theorem sha1Transform_eq {h : Vector UInt32 5} {block : List UInt8} (hlen : block.length = 64) :
    sha1Transform h block = sha1Compress h block := by
  have hsteps := (parts_sha1Steps (h := h) hlen 80).1
  rw [parts_of_dvd (by decide)] at hsteps
  rw [sha1Transform, sha1Compress, ← hsteps, sha1Steps_eq, List.foldl_map,
    List.take_of_length_le (Nat.le_of_eq hlen)]

theorem sha1Transform_take (h : Vector UInt32 5) (data : List UInt8) :
    sha1Transform h data = sha1Transform h (data.take 64) := by
  simp only [sha1Transform, List.take_take, Nat.min_self]

end Transform

/-! The context after a message, in whatever pieces the message came. -/

section Context

variable {context : SHA1Context} {message : List UInt8}

def sha1Start : Vector UInt32 5 :=
  #v[0x67452301, 0xEFCDAB89, 0x98BADCFE, 0x10325476, 0xC3D2E1F0]

structure SHA1Context.Hashed (context : SHA1Context) (message : List UInt8) : Prop where
  holds : Holds sha1Transform 64 sha1Start context.state context.buffer message
  counts : Counts context.count0 context.count1 message.length

theorem hashed_sha1Init {memory : List UInt8} (h : memory.length = 64) :
    (sha1Init memory).Hashed [] :=
  ⟨Holds.empty (by decide) h, counts_zero⟩

theorem holds_sha1Blocks {state : Vector UInt32 5} {buffer : List UInt8} (data : List UInt8)
    (h : Holds sha1Transform 64 sha1Start state buffer message)
    (haligned : message.length % 64 = 0) :
    Holds sha1Transform 64 sha1Start (sha1Blocks state data).1
      (overwrite buffer 0 (sha1Blocks state data).2) (message ++ data) := by
  induction state, data using sha1Blocks.induct generalizing message with
  | case1 state data hlen ih =>
    have hsize := h.size
    have htake : (data.take 64).length = 64 := by
      simp only [List.length_take]
      omega
    have hblock := h.complete (by decide) (data.take 64) (by omega) hsize
    rw [haligned, List.take_zero, List.nil_append, ← sha1Transform_take] at hblock
    have hmod : (message ++ data.take 64).length % 64 = 0 := by
      simp only [List.length_append, htake]
      omega
    have hrest := ih hblock hmod
    rw [List.append_assoc, List.take_append_drop] at hrest
    rw [sha1Blocks, if_pos hlen]
    exact hrest
  | case2 state data hlen =>
    have hfill := h.fill data (by omega)
    rw [haligned] at hfill
    rw [sha1Blocks, if_neg hlen]
    exact hfill

theorem hashed_sha1Update (h : context.Hashed message) (data : List UInt8) :
    (sha1Update context data).Hashed (message ++ data) := by
  have hadded : (UInt32.ofNat (data.length <<< 3)).toNat = 8 * data.length % 2 ^ 32 := by
    rw [UInt32.toNat_ofNat', Nat.shiftLeft_eq]
    omega
  have hcarry : context.count0 + UInt32.ofNat (data.length <<< 3) <
      UInt32.ofNat (data.length <<< 3) ↔
      2 ^ 32 ≤ context.count0.toNat + (UInt32.ofNat (data.length <<< 3)).toNat := by
    have hlow := context.count0.toNat_lt
    have hlt := (UInt32.ofNat (data.length <<< 3)).toNat_lt
    rw [UInt32.lt_iff_toNat_lt, UInt32.toNat_add]
    omega
  have hcounts := h.counts.add hadded hcarry
  rw [← List.length_append] at hcounts
  have hmod : message.length % 64 < 64 := Nat.mod_lt _ (by decide)
  have hsize := h.holds.size
  unfold sha1Update
  simp only [h.counts.waiting]
  by_cases hfull : message.length % 64 + data.length > 63
  · rw [if_pos hfull]
    have htake : (data.take (64 - message.length % 64)).length = 64 - message.length % 64 := by
      simp only [List.length_take]
      omega
    have hlength : (overwrite context.buffer (message.length % 64)
        (data.take (64 - message.length % 64))).length = 64 := by
      rw [length_overwrite (by omega), hsize]
    have hblock := h.holds.complete (by decide) (data.take (64 - message.length % 64))
      (by omega) hlength
    rw [← overwrite_full (by omega)] at hblock
    have haligned : (message ++ data.take (64 - message.length % 64)).length % 64 = 0 := by
      simp only [List.length_append, htake]
      omega
    have hrest := holds_sha1Blocks (data.drop (64 - message.length % 64)) hblock haligned
    rw [List.append_assoc, List.take_append_drop] at hrest
    exact ⟨hrest, hcounts⟩
  · rw [if_neg hfull]
    exact ⟨h.holds.fill _ (by omega), hcounts⟩

theorem and_504 (x : Nat) : x &&& 504 = x / 8 % 64 * 8 := by
  have h504 : (504 : Nat) = (2 ^ 6 - 1) * 2 ^ 3 := rfl
  have hmod : x / 8 % 64 * 8 = x / 2 ^ 3 % 2 ^ 6 * 2 ^ 3 := rfl
  apply Nat.eq_of_testBit_eq
  intro i
  rw [h504, hmod, Nat.testBit_and, Nat.testBit_mul_two_pow, Nat.testBit_mul_two_pow,
    Nat.testBit_two_pow_sub_one, Nat.testBit_mod_two_pow, Nat.testBit_div_two_pow]
  by_cases hi : 3 ≤ i
  · simp [hi, Bool.and_comm]
  · simp [hi]

theorem count_masked (h : context.Hashed message) :
    context.count0 &&& 504 ≠ 448 ↔ message.length % 64 ≠ 56 := by
  have hcounts := h.counts
  have hlow := context.count0.toNat_lt
  rw [Ne, ← UInt32.toNat_inj, UInt32.toNat_and]
  have h504 : (504 : UInt32).toNat = 504 := rfl
  have h448 : (448 : UInt32).toNat = 448 := rfl
  rw [h504, h448, and_504]
  simp only [Counts] at hcounts
  omega

theorem hashed_sha1Pad {fuel : Nat} (h : context.Hashed message)
    (hfuel : (120 - message.length % 64) % 64 < fuel) :
    (sha1Pad fuel context).Hashed
      (message ++ List.replicate ((120 - message.length % 64) % 64) 0) := by
  induction fuel generalizing context message with
  | zero => exact absurd hfuel (Nat.not_lt_zero _)
  | succ fuel ih =>
    rw [sha1Pad]
    by_cases hmore : context.count0 &&& 504 ≠ 448
    · have hne := (count_masked h).mp hmore
      have hlen : (message ++ [0]).length = message.length + 1 := by simp
      have hnext := ih (hashed_sha1Update h [0]) (by rw [hlen]; omega)
      have hzeros : (120 - message.length % 64) % 64 = (120 - (message.length + 1) % 64) % 64 + 1 := by
        omega
      rw [if_pos hmore, hzeros, List.replicate_succ]
      rw [hlen, List.append_assoc, List.singleton_append] at hnext
      exact hnext
    · have heq : message.length % 64 = 56 := by
        by_contra hne
        exact hmore ((count_masked h).mpr hne)
      have hzero : (120 - message.length % 64) % 64 = 0 := by omega
      rw [if_neg hmore, hzero, List.replicate_zero, List.append_nil]
      exact h

theorem byteOf_eq (word : UInt32) {i : Nat} (hi : i < 4) :
    byteOf word i = UInt8.ofNat (word.toNat / 256 ^ (3 - i)) := by
  have hmask : ∀ m : Nat, m &&& 255 = m % 256 := fun m => Nat.and_two_pow_sub_one_eq_mod m 8
  rw [← UInt8.toNat_inj]
  interval_cases i <;> simp [byteOf, hmask, Nat.shiftRight_eq_div_pow]

theorem byteOf_mod (word : UInt32) (i : Nat) : byteOf word i = byteOf word (i % 4) := by
  have hmask : ∀ m : Nat, m &&& 3 = m % 4 := fun m => Nat.and_two_pow_sub_one_eq_mod m 2
  rw [byteOf, byteOf, hmask, hmask, Nat.mod_mod]

theorem longToBytes_eq (word : UInt32) :
    longToBytes word = [byteOf word 0, byteOf word 1, byteOf word 2, byteOf word 3] := by
  simp [longToBytes, BigEndian.encode, byteOf_eq]

theorem bytes_of_words (state : Vector UInt32 5) :
    (List.range sha1DigestSize).map (fun i => byteOf state[Fin.ofNat 5 (i >>> 2)] i) =
      state.toList.flatMap longToBytes := by
  have hmod : (fun i => byteOf state[Fin.ofNat 5 (i >>> 2)] i) =
      fun i => byteOf state[Fin.ofNat 5 (i >>> 2)] (i % 4) := funext fun i => byteOf_mod _ i
  rw [hmod]
  obtain ⟨⟨l⟩, hl⟩ := state
  match l, hl with
  | [a, b, c, d, e], _ =>
    simp only [Vector.toList, List.flatMap_cons, List.flatMap_nil, longToBytes_eq]
    rfl

theorem sha1Final_eq (h : context.Hashed message) : sha1Final context = sha1 message := by
  have hcount : (List.range 8).map (fun i =>
      byteOf (if i ≥ 4 then context.count0 else context.count1) i) =
      BigEndian.encode 8 (8 * message.length) := by
    have hmod : (fun i => byteOf (if i ≥ 4 then context.count0 else context.count1) i) =
        fun i => byteOf (if i ≥ 4 then context.count0 else context.count1) (i % 4) :=
      funext fun i => byteOf_mod _ i
    have hwords : longToBytes context.count1 ++ longToBytes context.count0 =
        BigEndian.encode 8 (8 * message.length) := h.counts.encode
    rw [← hwords, longToBytes_eq, longToBytes_eq, hmod]
    rfl
  have hlen : (message ++ [(0x80 : UInt8)]).length = message.length + 1 := by simp
  have hone := hashed_sha1Update h [0x80]
  have hpad : (sha1Pad 64 (sha1Update context [0x80])).Hashed _ :=
    hashed_sha1Pad hone (Nat.mod_lt _ (by decide))
  have hlast := (hashed_sha1Update hpad (BigEndian.encode 8 (8 * message.length))).holds.state
  have hpadding : message ++ [0x80] ++
      List.replicate ((120 - (message ++ [(0x80 : UInt8)]).length % 64) % 64) 0 =
      message ++ padding 64 8 message.length := by
    rw [hlen, padding, List.append_assoc, List.singleton_append]
    congr 3
    omega
  rw [hpadding] at hlast
  have hcongr := absorb_congr (s := sha1Start)
    (l := message ++ padding 64 8 message.length ++ BigEndian.encode 8 (8 * message.length))
    fun s b hb => sha1Transform_eq (h := s) hb
  unfold sha1Final sha1
  simp only [hcount, bytes_of_words]
  rw [hlast, hcongr]
  rfl

end Context

end Libjingle.Digest
