import Libjingle.Lib.BigEndian
import Libjingle.Lib.BlockHash
import Mathlib.Data.Fin.VecNotation
import Mathlib.Data.Fintype.Basic
import Mathlib.Tactic.FinCases

/-! The MD5 message digest, on a machine that stores words with the least significant byte
first. -/

namespace Libjingle.Digest

open BlockHash

def rotate (x s : UInt32) : UInt32 := x <<< s ||| x >>> (32 - s)

def getLE32 (data : List UInt8) (pos : Nat) : UInt32 :=
  UInt32.ofNat (BigEndian.decode ((data.drop pos).take 4).reverse)

def wordBytes (v : UInt32) : List UInt8 := (BigEndian.encode 4 v.toNat).reverse

def f1 (x y z : UInt32) : UInt32 := z ^^^ (x &&& (y ^^^ z))
def f2 (x y z : UInt32) : UInt32 := f1 z x y
def f3 (x y z : UInt32) : UInt32 := x ^^^ y ^^^ z
def f4 (x y z : UInt32) : UInt32 := y ^^^ (x ||| ~~~z)

inductive MD5Function
  | f1 | f2 | f3 | f4
  deriving DecidableEq

def MD5Function.apply : MD5Function → UInt32 → UInt32 → UInt32 → UInt32
  | f1 => Digest.f1
  | f2 => Digest.f2
  | f3 => Digest.f3
  | f4 => Digest.f4

/-- One use of the macro `MD5STEP`: `w`, `x`, `y` and `z` are the variables it is given, then
come the place of the data, the constant that is added to it, and the shift. -/
structure MD5Step where
  f : MD5Function
  w : Fin 4
  x : Fin 4
  y : Fin 4
  z : Fin 4
  index : Nat
  constant : UInt32
  s : UInt32
  deriving DecidableEq

def md5Step (words : Nat → UInt32) (r : Vector UInt32 4) (t : MD5Step) : Vector UInt32 4 :=
  let data := words t.index + t.constant
  let w := r[t.w] + (t.f.apply r[t.x] r[t.y] r[t.z] + data)
  r.set t.w (rotate w t.s + r[t.x])

namespace Variable4

abbrev a : Fin 4 := 0
abbrev b : Fin 4 := 1
abbrev c : Fin 4 := 2
abbrev d : Fin 4 := 3

end Variable4

open Variable4 in
/-- The body of `MD5Transform`. -/
def md5Steps : List MD5Step := [
  ⟨.f1, a, b, c, d, 0, 0xd76aa478, 7⟩, ⟨.f1, d, a, b, c, 1, 0xe8c7b756, 12⟩,
  ⟨.f1, c, d, a, b, 2, 0x242070db, 17⟩, ⟨.f1, b, c, d, a, 3, 0xc1bdceee, 22⟩,
  ⟨.f1, a, b, c, d, 4, 0xf57c0faf, 7⟩, ⟨.f1, d, a, b, c, 5, 0x4787c62a, 12⟩,
  ⟨.f1, c, d, a, b, 6, 0xa8304613, 17⟩, ⟨.f1, b, c, d, a, 7, 0xfd469501, 22⟩,
  ⟨.f1, a, b, c, d, 8, 0x698098d8, 7⟩, ⟨.f1, d, a, b, c, 9, 0x8b44f7af, 12⟩,
  ⟨.f1, c, d, a, b, 10, 0xffff5bb1, 17⟩, ⟨.f1, b, c, d, a, 11, 0x895cd7be, 22⟩,
  ⟨.f1, a, b, c, d, 12, 0x6b901122, 7⟩, ⟨.f1, d, a, b, c, 13, 0xfd987193, 12⟩,
  ⟨.f1, c, d, a, b, 14, 0xa679438e, 17⟩, ⟨.f1, b, c, d, a, 15, 0x49b40821, 22⟩,
  ⟨.f2, a, b, c, d, 1, 0xf61e2562, 5⟩, ⟨.f2, d, a, b, c, 6, 0xc040b340, 9⟩,
  ⟨.f2, c, d, a, b, 11, 0x265e5a51, 14⟩, ⟨.f2, b, c, d, a, 0, 0xe9b6c7aa, 20⟩,
  ⟨.f2, a, b, c, d, 5, 0xd62f105d, 5⟩, ⟨.f2, d, a, b, c, 10, 0x02441453, 9⟩,
  ⟨.f2, c, d, a, b, 15, 0xd8a1e681, 14⟩, ⟨.f2, b, c, d, a, 4, 0xe7d3fbc8, 20⟩,
  ⟨.f2, a, b, c, d, 9, 0x21e1cde6, 5⟩, ⟨.f2, d, a, b, c, 14, 0xc33707d6, 9⟩,
  ⟨.f2, c, d, a, b, 3, 0xf4d50d87, 14⟩, ⟨.f2, b, c, d, a, 8, 0x455a14ed, 20⟩,
  ⟨.f2, a, b, c, d, 13, 0xa9e3e905, 5⟩, ⟨.f2, d, a, b, c, 2, 0xfcefa3f8, 9⟩,
  ⟨.f2, c, d, a, b, 7, 0x676f02d9, 14⟩, ⟨.f2, b, c, d, a, 12, 0x8d2a4c8a, 20⟩,
  ⟨.f3, a, b, c, d, 5, 0xfffa3942, 4⟩, ⟨.f3, d, a, b, c, 8, 0x8771f681, 11⟩,
  ⟨.f3, c, d, a, b, 11, 0x6d9d6122, 16⟩, ⟨.f3, b, c, d, a, 14, 0xfde5380c, 23⟩,
  ⟨.f3, a, b, c, d, 1, 0xa4beea44, 4⟩, ⟨.f3, d, a, b, c, 4, 0x4bdecfa9, 11⟩,
  ⟨.f3, c, d, a, b, 7, 0xf6bb4b60, 16⟩, ⟨.f3, b, c, d, a, 10, 0xbebfbc70, 23⟩,
  ⟨.f3, a, b, c, d, 13, 0x289b7ec6, 4⟩, ⟨.f3, d, a, b, c, 0, 0xeaa127fa, 11⟩,
  ⟨.f3, c, d, a, b, 3, 0xd4ef3085, 16⟩, ⟨.f3, b, c, d, a, 6, 0x04881d05, 23⟩,
  ⟨.f3, a, b, c, d, 9, 0xd9d4d039, 4⟩, ⟨.f3, d, a, b, c, 12, 0xe6db99e5, 11⟩,
  ⟨.f3, c, d, a, b, 15, 0x1fa27cf8, 16⟩, ⟨.f3, b, c, d, a, 2, 0xc4ac5665, 23⟩,
  ⟨.f4, a, b, c, d, 0, 0xf4292244, 6⟩, ⟨.f4, d, a, b, c, 7, 0x432aff97, 10⟩,
  ⟨.f4, c, d, a, b, 14, 0xab9423a7, 15⟩, ⟨.f4, b, c, d, a, 5, 0xfc93a039, 21⟩,
  ⟨.f4, a, b, c, d, 12, 0x655b59c3, 6⟩, ⟨.f4, d, a, b, c, 3, 0x8f0ccc92, 10⟩,
  ⟨.f4, c, d, a, b, 10, 0xffeff47d, 15⟩, ⟨.f4, b, c, d, a, 1, 0x85845dd1, 21⟩,
  ⟨.f4, a, b, c, d, 8, 0x6fa87e4f, 6⟩, ⟨.f4, d, a, b, c, 15, 0xfe2ce6e0, 10⟩,
  ⟨.f4, c, d, a, b, 6, 0xa3014314, 15⟩, ⟨.f4, b, c, d, a, 13, 0x4e0811a1, 21⟩,
  ⟨.f4, a, b, c, d, 4, 0xf7537e82, 6⟩, ⟨.f4, d, a, b, c, 11, 0xbd3af235, 10⟩,
  ⟨.f4, c, d, a, b, 2, 0x2ad7d2bb, 15⟩, ⟨.f4, b, c, d, a, 9, 0xeb86d391, 21⟩]

def md5Transform (buf : Vector UInt32 4) (block : List UInt8) : Vector UInt32 4 :=
  let r := md5Steps.foldl (md5Step fun i => getLE32 block (4 * i)) buf
  buf.zipWith (· + ·) r

structure MD5Context where
  buf : Vector UInt32 4
  bits0 : UInt32
  bits1 : UInt32
  data : List UInt8

/-- `memory` is what the context held before. -/
def md5Init (memory : List UInt8) : MD5Context where
  buf := #v[0x67452301, 0xefcdab89, 0x98badcfe, 0x10325476]
  bits0 := 0
  bits1 := 0
  data := memory

/-- The loop over whole blocks, and what is left after them. -/
def md5Blocks (ctx : MD5Context) (buf : List UInt8) : MD5Context × List UInt8 :=
  if 64 ≤ buf.length then
    md5Blocks
      { ctx with
        data := overwrite ctx.data 0 (buf.take 64)
        buf := md5Transform ctx.buf (overwrite ctx.data 0 (buf.take 64)) }
      (buf.drop 64)
  else (ctx, buf)
termination_by buf.length
decreasing_by
  simp only [List.length_drop]
  omega

def md5Update (ctx : MD5Context) (buf : List UInt8) : MD5Context :=
  let len := buf.length
  let t := ctx.bits0
  let bits0 := t + UInt32.ofNat len <<< 3
  let bits1 := if bits0 < t then ctx.bits1 + 1 else ctx.bits1
  let ctx := { ctx with bits0, bits1 := bits1 + UInt32.ofNat (len >>> 29) }
  let t := ((t >>> 3) &&& 0x3f).toNat
  if t ≠ 0 ∧ len < 64 - t then { ctx with data := overwrite ctx.data t buf }
  else
    let (ctx, buf) :=
      if t ≠ 0 then
        let data := overwrite ctx.data t (buf.take (64 - t))
        ({ ctx with data, buf := md5Transform ctx.buf data }, buf.drop (64 - t))
      else (ctx, buf)
    let (ctx, buf) := md5Blocks ctx buf
    { ctx with data := overwrite ctx.data 0 buf }

/-- The digest. The context is wiped. -/
def md5Final (ctx : MD5Context) : List UInt8 :=
  let count := ((ctx.bits0 >>> 3) &&& 0x3F).toNat
  let data := overwrite ctx.data count [0x80]
  let p := count + 1
  let count := 64 - 1 - count
  let (buf, data) :=
    if count < 8 then
      (md5Transform ctx.buf (overwrite data p (List.replicate count 0)),
        overwrite (overwrite data p (List.replicate count 0)) 0 (List.replicate 56 0))
    else (ctx.buf, overwrite data p (List.replicate (count - 8) 0))
  let data := overwrite data 56 (wordBytes ctx.bits0)
  let data := overwrite data 60 (wordBytes ctx.bits1)
  (md5Transform buf data).toList.flatMap wordBytes

/-! The algorithm in the terms of RFC 1321. -/

section Standard

def md5F (x y z : UInt32) : UInt32 := (x &&& y) ||| (~~~x &&& z)
def md5G (x y z : UInt32) : UInt32 := (x &&& z) ||| (y &&& ~~~z)
def md5H (x y z : UInt32) : UInt32 := x ^^^ y ^^^ z
def md5I (x y z : UInt32) : UInt32 := y ^^^ (x ||| ~~~z)

def md5Function (i : Nat) : UInt32 → UInt32 → UInt32 → UInt32 :=
  if i < 16 then md5F else if i < 32 then md5G else if i < 48 then md5H else md5I

/-- The word of the block that a round takes. -/
def md5Index (i : Nat) : Nat :=
  if i < 16 then i
  else if i < 32 then (5 * i + 1) % 16
  else if i < 48 then (3 * i + 5) % 16
  else 7 * i % 16

def md5Shift (i : Nat) : UInt32 :=
  let amounts : List UInt32 :=
    if i < 16 then [7, 12, 17, 22]
    else if i < 32 then [5, 9, 14, 20]
    else if i < 48 then [4, 11, 16, 23]
    else [6, 10, 15, 21]
  amounts.getD (i % 4) 0

def md5Constants : List UInt32 := [
  0xd76aa478, 0xe8c7b756, 0x242070db, 0xc1bdceee, 0xf57c0faf, 0x4787c62a, 0xa8304613, 0xfd469501,
  0x698098d8, 0x8b44f7af, 0xffff5bb1, 0x895cd7be, 0x6b901122, 0xfd987193, 0xa679438e, 0x49b40821,
  0xf61e2562, 0xc040b340, 0x265e5a51, 0xe9b6c7aa, 0xd62f105d, 0x02441453, 0xd8a1e681, 0xe7d3fbc8,
  0x21e1cde6, 0xc33707d6, 0xf4d50d87, 0x455a14ed, 0xa9e3e905, 0xfcefa3f8, 0x676f02d9, 0x8d2a4c8a,
  0xfffa3942, 0x8771f681, 0x6d9d6122, 0xfde5380c, 0xa4beea44, 0x4bdecfa9, 0xf6bb4b60, 0xbebfbc70,
  0x289b7ec6, 0xeaa127fa, 0xd4ef3085, 0x04881d05, 0xd9d4d039, 0xe6db99e5, 0x1fa27cf8, 0xc4ac5665,
  0xf4292244, 0x432aff97, 0xab9423a7, 0xfc93a039, 0x655b59c3, 0x8f0ccc92, 0xffeff47d, 0x85845dd1,
  0x6fa87e4f, 0xfe2ce6e0, 0xa3014314, 0x4e0811a1, 0xf7537e82, 0xbd3af235, 0x2ad7d2bb, 0xeb86d391]

def md5Round (block : List UInt8) (v : Vector UInt32 4) (i : Nat) : Vector UInt32 4 :=
  let sum := v[0] + md5Function i v[1] v[2] v[3] + getLE32 block (4 * md5Index i) +
    md5Constants.getD i 0
  #v[v[3], v[1] + rotate sum (md5Shift i), v[1], v[2]]

def md5Compress (h : Vector UInt32 4) (block : List UInt8) : Vector UInt32 4 :=
  h.zipWith (· + ·) ((List.range 64).foldl (md5Round block) h)

/-- The MD5 digest of a message. -/
def md5 (message : List UInt8) : List UInt8 :=
  let n := message.length
  let padded := message ++ padding 64 8 n ++ (BigEndian.encode 8 (8 * n)).reverse
  let h := absorb md5Compress 64 #v[0x67452301, 0xefcdab89, 0x98badcfe, 0x10325476] padded
  h.toList.flatMap wordBytes

end Standard

/-! The macros are the rounds of the standard. -/

section Transform

theorem f1_eq (x y z : UInt32) : f1 x y z = md5F x y z := by
  apply UInt32.eq_of_toBitVec_eq
  ext i
  simp only [f1, md5F, UInt32.toBitVec_xor, UInt32.toBitVec_and, UInt32.toBitVec_or,
    UInt32.toBitVec_not, BitVec.getElem_xor, BitVec.getElem_and, BitVec.getElem_or,
    BitVec.getElem_not]
  cases x.toBitVec[i] <;> cases y.toBitVec[i] <;> cases z.toBitVec[i] <;> rfl

theorem f2_eq (x y z : UInt32) : f2 x y z = md5G x y z := by
  rw [f2, f1_eq, md5F, md5G, UInt32.and_comm z x, UInt32.and_comm (~~~z) y]

def md5Kind (i : Nat) : MD5Function :=
  if i < 16 then .f1 else if i < 32 then .f2 else if i < 48 then .f3 else .f4

theorem apply_md5Kind (i : Nat) : (md5Kind i).apply = md5Function i := by
  unfold md5Kind md5Function
  split_ifs <;> funext x y z
  · exact f1_eq x y z
  · exact f2_eq x y z
  · rfl
  · rfl

/-- The use of the macro in a round: the variables take turns. -/
def md5StepAt (i : Nat) : MD5Step where
  f := md5Kind i
  w := 0 - Fin.ofNat 4 i
  x := 1 - Fin.ofNat 4 i
  y := 2 - Fin.ofNat 4 i
  z := 3 - Fin.ofNat 4 i
  index := md5Index i
  constant := md5Constants.getD i 0
  s := md5Shift i

theorem md5Steps_eq : md5Steps = (List.range 64).map md5StepAt := by decide

/-- What a round writes, in terms of the parts that the variables play. -/
def md5Write (block : List UInt8) (v : Vector UInt32 4) (i : Nat) : Vector UInt32 4 :=
  let data := getLE32 block (4 * md5Index i) + md5Constants.getD i 0
  let w := v[0] + (md5Function i v[1] v[2] v[3] + data)
  v.set 0 (rotate w (md5Shift i) + v[1])

theorem parts_md5Step (block : List UInt8) (r : Vector UInt32 4) (i : Nat) :
    parts i (md5Step (fun i => getLE32 block (4 * i)) r (md5StepAt i)) =
      md5Write block (parts i r) i := by
  simp only [md5Step, md5StepAt, apply_md5Kind, parts_set, ← getElem_parts]
  rfl

theorem shift_md5Write (block : List UInt8) (v : Vector UInt32 4) (i : Nat) :
    shift (md5Write block v i) = md5Round block v i := by
  apply vector_ext
  intro j
  rw [getElem_shift]
  fin_cases j
  · show (md5Write block v i)[3] = v[3]
    simp [md5Write]
  · show (md5Write block v i)[0] = v[1] + rotate _ (md5Shift i)
    simp only [md5Write, Vector.getElem_set_self, UInt32.add_assoc]
    exact UInt32.add_comm _ _
  · show (md5Write block v i)[1] = v[1]
    simp [md5Write]
  · show (md5Write block v i)[2] = v[2]
    simp [md5Write]

theorem md5Transform_eq : md5Transform = md5Compress := by
  funext h block
  have hparts := parts_foldl (r := h) (parts_md5Step block) 64
  rw [parts_of_dvd (by decide)] at hparts
  simp only [shift_md5Write] at hparts
  unfold md5Transform md5Compress
  rw [md5Steps_eq, List.foldl_map, hparts]

end Transform

/-! The context after a message, in whatever pieces the message came. -/

section Context

variable {ctx : MD5Context} {message : List UInt8}

def md5Start : Vector UInt32 4 := #v[0x67452301, 0xefcdab89, 0x98badcfe, 0x10325476]

structure MD5Context.Hashed (ctx : MD5Context) (message : List UInt8) : Prop where
  holds : Holds md5Transform 64 md5Start ctx.buf ctx.data message
  counts : Counts ctx.bits0 ctx.bits1 message.length

theorem hashed_md5Init {memory : List UInt8} (h : memory.length = 64) :
    (md5Init memory).Hashed [] :=
  ⟨Holds.empty (by decide) h, counts_zero⟩

theorem holds_md5Blocks {buf : List UInt8} (h : Holds md5Transform 64 md5Start ctx.buf ctx.data message)
    (haligned : message.length % 64 = 0) :
    ∃ done rest, buf = done ++ rest ∧ (md5Blocks ctx buf).2 = rest ∧ rest.length < 64 ∧
      (message ++ done).length % 64 = 0 ∧
      Holds md5Transform 64 md5Start (md5Blocks ctx buf).1.buf (md5Blocks ctx buf).1.data
        (message ++ done) ∧
      (md5Blocks ctx buf).1.bits0 = ctx.bits0 ∧ (md5Blocks ctx buf).1.bits1 = ctx.bits1 := by
  induction ctx, buf using md5Blocks.induct generalizing message with
  | case1 ctx buf hlen ih =>
    have hsize := h.size
    have htake : (buf.take 64).length = 64 := by
      simp only [List.length_take]
      omega
    have hdata : overwrite ctx.data 0 (buf.take 64) =
        ctx.data.take (message.length % 64) ++ buf.take 64 := by
      rw [haligned]
      exact overwrite_full (by omega)
    have hlength : (overwrite ctx.data 0 (buf.take 64)).length = 64 := by
      rw [length_overwrite (by omega), hsize]
    have hblock : Holds md5Transform 64 md5Start
        (md5Transform ctx.buf (ctx.data.take (message.length % 64) ++ buf.take 64))
        (overwrite ctx.data 0 (buf.take 64)) (message ++ buf.take 64) :=
      h.complete (by decide) _ (by omega) hlength
    rw [← hdata] at hblock
    have hmod : (message ++ buf.take 64).length % 64 = 0 := by
      simp only [List.length_append, htake]
      omega
    obtain ⟨done, rest, hsplit, hrest, hshort, hmod', hholds, hbits⟩ := ih hblock hmod
    rw [md5Blocks, if_pos hlen]
    refine ⟨buf.take 64 ++ done, rest, ?_, hrest, hshort, ?_, ?_, hbits⟩
    · rw [List.append_assoc, ← hsplit, List.take_append_drop]
    · rw [← List.append_assoc]
      exact hmod'
    · rw [← List.append_assoc]
      exact hholds
  | case2 ctx buf hlen =>
    rw [md5Blocks, if_neg hlen]
    refine ⟨[], buf, rfl, rfl, by omega, ?_, ?_, rfl, rfl⟩
    · simpa using haligned
    · simpa using h

theorem hashed_md5Blocks {buf : List UInt8}
    (h : Holds md5Transform 64 md5Start ctx.buf ctx.data message)
    (haligned : message.length % 64 = 0)
    (hcounts : Counts ctx.bits0 ctx.bits1 (message ++ buf).length) :
    MD5Context.Hashed { (md5Blocks ctx buf).1 with
      data := overwrite (md5Blocks ctx buf).1.data 0 (md5Blocks ctx buf).2 } (message ++ buf) := by
  obtain ⟨done, rest, hsplit, hrest, hlt, hmod, hholds, hbits0, hbits1⟩ := holds_md5Blocks h haligned
  have hfill := hholds.fill _ (by omega : (message ++ done).length % 64 + rest.length < 64)
  rw [hmod, List.append_assoc, ← hsplit] at hfill
  rw [hrest]
  rw [← hbits0, ← hbits1] at hcounts
  exact ⟨hfill, hcounts⟩

theorem hashed_md5Update (h : ctx.Hashed message) (buf : List UInt8) :
    (md5Update ctx buf).Hashed (message ++ buf) := by
  have hadded : (UInt32.ofNat buf.length <<< 3).toNat = 8 * buf.length % 2 ^ 32 := by
    rw [UInt32.toNat_shiftLeft, UInt32.toNat_ofNat']
    have hthree : (3 : UInt32).toNat % 32 = 3 := rfl
    rw [hthree, Nat.shiftLeft_eq]
    omega
  have hcarry : ctx.bits0 + UInt32.ofNat buf.length <<< 3 < ctx.bits0 ↔
      2 ^ 32 ≤ ctx.bits0.toNat + (UInt32.ofNat buf.length <<< 3).toNat := by
    have hlow := ctx.bits0.toNat_lt
    have hlt := (UInt32.ofNat buf.length <<< 3).toNat_lt
    rw [UInt32.lt_iff_toNat_lt, UInt32.toNat_add]
    omega
  have hcounts := h.counts.add hadded hcarry
  rw [← List.length_append] at hcounts
  have hwaiting := h.counts.waiting
  have hmod : message.length % 64 < 64 := Nat.mod_lt _ (by decide)
  have hsize := h.holds.size
  unfold md5Update
  simp only [hwaiting]
  by_cases hshort : message.length % 64 ≠ 0 ∧ buf.length < 64 - message.length % 64
  · rw [if_pos hshort]
    exact ⟨h.holds.fill _ (by omega), hcounts⟩
  rw [if_neg hshort]
  by_cases hzero : message.length % 64 = 0
  · rw [if_neg (not_not.mpr hzero)]
    exact hashed_md5Blocks h.holds hzero hcounts
  · rw [if_pos hzero]
    have hle : 64 - message.length % 64 ≤ buf.length := by omega
    have htake : (buf.take (64 - message.length % 64)).length = 64 - message.length % 64 := by
      simp only [List.length_take]
      omega
    have hlength : (overwrite ctx.data (message.length % 64)
        (buf.take (64 - message.length % 64))).length = 64 := by
      rw [length_overwrite (by omega), hsize]
    have hblock : Holds md5Transform 64 md5Start
        (md5Transform ctx.buf (ctx.data.take (message.length % 64) ++
          buf.take (64 - message.length % 64)))
        (overwrite ctx.data (message.length % 64) (buf.take (64 - message.length % 64)))
        (message ++ buf.take (64 - message.length % 64)) :=
      h.holds.complete (by decide) _ (by omega) hlength
    rw [← overwrite_full (by omega)] at hblock
    have haligned : (message ++ buf.take (64 - message.length % 64)).length % 64 = 0 := by
      simp only [List.length_append, htake]
      omega
    have hwhole : message ++ buf =
        message ++ buf.take (64 - message.length % 64) ++ buf.drop (64 - message.length % 64) := by
      rw [List.append_assoc, List.take_append_drop]
    rw [hwhole] at hcounts ⊢
    exact hashed_md5Blocks hblock haligned hcounts

theorem absorb_last {buf : Vector UInt32 4} {data padded : List UInt8}
    (h : Holds md5Transform 64 md5Start buf data padded) (hmod : padded.length % 64 = 56)
    (bits0 bits1 : UInt32) :
    md5Transform buf (overwrite (overwrite data 56 (wordBytes bits0)) 60 (wordBytes bits1)) =
      absorb md5Transform 64 md5Start (padded ++ (wordBytes bits0 ++ wordBytes bits1)) := by
  have hlen : ∀ v, (wordBytes v).length = 4 := fun v => by simp [wordBytes]
  have hsize := h.size
  have hfirst := h.fill (wordBytes bits0) (by rw [hlen]; omega)
  have hmod' : (padded ++ wordBytes bits0).length % 64 = 60 := by
    rw [List.length_append, hlen]
    omega
  rw [hmod] at hfirst
  have hlast := hfirst.complete (by decide) (wordBytes bits1) (by rw [hlen]; omega) hsize
  have hfull := hfirst.size
  rw [hmod', ← overwrite_full (by rw [hlen]; omega), List.append_assoc] at hlast
  exact hlast.state

theorem length_padded (message : List UInt8) :
    (message ++ padding 64 8 message.length).length % 64 = 56 := by
  simp only [padding, List.length_append, List.length_cons, List.length_replicate]
  omega

theorem md5Final_eq (h : ctx.Hashed message) : md5Final ctx = md5 message := by
  have hmod : message.length % 64 < 64 := Nat.mod_lt _ (by decide)
  have hsize := h.holds.size
  have hcount : wordBytes ctx.bits0 ++ wordBytes ctx.bits1 =
      (BigEndian.encode 8 (8 * message.length)).reverse := by
    rw [← h.counts.encode, List.reverse_append]
    rfl
  unfold md5Final md5
  simp only [h.counts.waiting, ← md5Transform_eq, ← hcount]
  by_cases hlate : 64 - 1 - message.length % 64 < 8
  · simp only [if_pos hlate]
    have hzeros : (0x80 :: List.replicate (64 - 1 - message.length % 64) (0 : UInt8)).length =
        64 - message.length % 64 := by
      simp only [List.length_cons, List.length_replicate]
      omega
    have hblock : overwrite (overwrite ctx.data (message.length % 64) [0x80])
        (message.length % 64 + 1) (List.replicate (64 - 1 - message.length % 64) 0) =
        overwrite ctx.data (message.length % 64)
          (0x80 :: List.replicate (64 - 1 - message.length % 64) 0) :=
      overwrite_overwrite (by simp only [List.length_singleton]; omega)
    have hlength : (overwrite ctx.data (message.length % 64)
        (0x80 :: List.replicate (64 - 1 - message.length % 64) 0)).length = 64 := by
      rw [length_overwrite (by omega), hsize]
    have hfirst := h.holds.complete (by decide)
      (0x80 :: List.replicate (64 - 1 - message.length % 64) 0) (by omega) hlength
    rw [← overwrite_full (by omega)] at hfirst
    have hmod' : (message ++ 0x80 :: List.replicate (64 - 1 - message.length % 64) 0).length % 64 =
        0 := by
      rw [List.length_append, hzeros]
      omega
    have hsecond := hfirst.fill (List.replicate 56 0)
      (by simp only [hmod', List.length_replicate]; omega)
    rw [hmod', List.append_assoc, List.cons_append, List.replicate_append_replicate] at hsecond
    have hpadding : 0x80 :: List.replicate (64 - 1 - message.length % 64 + 56) 0 =
        padding 64 8 message.length := by
      rw [padding]
      congr 2
      omega
    rw [hpadding] at hsecond
    have hlast := absorb_last hsecond (length_padded message) ctx.bits0 ctx.bits1
    rw [hblock, hlast, List.append_assoc]
    rfl
  · simp only [if_neg hlate]
    have hfirst := h.holds.fill [0x80] (by simp only [List.length_singleton]; omega)
    have hmod' : (message ++ [0x80]).length % 64 = message.length % 64 + 1 := by
      simp only [List.length_append, List.length_singleton]
      omega
    have hsecond := hfirst.fill (List.replicate (64 - 1 - message.length % 64 - 8) 0)
      (by simp only [hmod', List.length_replicate]; omega)
    rw [hmod', List.append_assoc, List.singleton_append] at hsecond
    have hpadding : 0x80 :: List.replicate (64 - 1 - message.length % 64 - 8) 0 =
        padding 64 8 message.length := by
      rw [padding]
      congr 2
      omega
    rw [hpadding] at hsecond
    have hlast := absorb_last hsecond (length_padded message) ctx.bits0 ctx.bits1
    rw [hlast, List.append_assoc]
    rfl

end Context

end Libjingle.Digest
