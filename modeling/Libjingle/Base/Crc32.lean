import Libjingle.Lib.CyclicCode
import Libjingle.Stun.Integrity

/-! CRC-32 with a static table that the first call fills, and what the FINGERPRINT of a STUN
packet finds with it. -/

namespace Libjingle.Crc32

open CyclicCode Polynomial

def kCrc32Polynomial : UInt32 := 0xEDB88320

abbrev Table := Vector UInt32 256

/-- The static table as the program starts. -/
def kCrc32Table : Table := Vector.replicate 256 0

def crc32Bit (c : UInt32) : UInt32 :=
  if c &&& 1 ≠ 0 then kCrc32Polynomial ^^^ (c >>> 1) else c >>> 1

def ensureCrc32TableInited (table : Table) : Table :=
  if table[255] ≠ 0 then table
  else (List.finRange 256).foldl
    (fun table (i : Fin 256) => table.set i (crc32Bit^[8] (UInt32.ofNat i)) i.isLt) table

def crc32Byte (table : Table) (c : UInt32) (u : UInt8) : UInt32 :=
  table[Fin.ofNat 256 ((c ^^^ u.toUInt32) &&& 0xFF).toNat] ^^^ (c >>> 8)

/-- The checksum, and the table as the call leaves it. -/
def updateCrc32 (table : Table) (start : UInt32) (buf : List UInt8) : UInt32 × Table :=
  let table := ensureCrc32TableInited table
  let c := buf.foldl (crc32Byte table) (start ^^^ 0xFFFFFFFF)
  (c ^^^ 0xFFFFFFFF, table)

def computeCrc32 (table : Table) (buf : List UInt8) : UInt32 × Table := updateCrc32 table 0 buf

/-- Calls one after another, all on the one table. -/
def run : Table → List (UInt32 × List UInt8) → List UInt32 × Table
  | table, [] => ([], table)
  | table, (start, buf) :: rest =>
    let (c, table) := updateCrc32 table start buf
    let (cs, table) := run table rest
    (c :: cs, table)

/-! The code. -/

/-- The bits of a buffer as they go into the register. -/
def bits (buf : List UInt8) : List Bool :=
  buf.flatMap fun u => (List.range 8).map u.toBitVec.getLsbD

theorem length_bits (buf : List UInt8) : (bits buf).length = 8 * buf.length := by
  induction buf with
  | nil => rfl
  | cons u rest ih =>
    rw [bits, List.flatMap_cons, List.length_append, ← bits, ih]
    simp
    omega

theorem bits_append (buf buf' : List UInt8) : bits (buf ++ buf') = bits buf ++ bits buf' :=
  List.flatMap_append

theorem bits_injective : Function.Injective bits := by
  intro buf buf' h
  induction buf generalizing buf' with
  | nil =>
    have hlen := congrArg List.length h
    rw [length_bits, length_bits] at hlen
    exact (List.length_eq_zero_iff.mp (by simpa using hlen.symm)).symm
  | cons u rest ih =>
    cases buf' with
    | nil =>
      have hlen := congrArg List.length h
      rw [length_bits, length_bits] at hlen
      simp at hlen
    | cons u' rest' =>
      obtain ⟨hfirst, hrest⟩ := List.append_inj h (by simp)
      have hbyte : u = u' := by
        apply UInt8.eq_of_toBitVec_eq
        apply BitVec.eq_of_getLsbD_eq
        intro i hi
        have hbit := congrArg (·[i]?) hfirst
        simpa [hi] using hbit
      rw [hbyte, ih hrest]

theorem toBitVec_crc32Bit (c : UInt32) :
    (crc32Bit c).toBitVec = step kCrc32Polynomial.toBitVec c.toBitVec := by
  have hbit : c &&& 1 ≠ 0 ↔ c.toBitVec.getLsbD 0 = true := by
    rw [← UInt32.toBitVec_inj.ne, UInt32.toBitVec_and]
    show c.toBitVec &&& 1#32 ≠ 0#32 ↔ _
    rw [BitVec.and_one_eq_setWidth_ofBool_getLsbD]
    cases c.toBitVec.getLsbD 0 <;> simp
  unfold crc32Bit step
  by_cases h : c.toBitVec.getLsbD 0 = true
  · rw [if_pos (hbit.mpr h), if_pos h]
    simp
  · rw [if_neg (hbit.not.mpr h), if_neg h]
    simp

theorem toBitVec_iterate_crc32Bit (n : Nat) (c : UInt32) :
    (crc32Bit^[n] c).toBitVec = (step kCrc32Polynomial.toBitVec)^[n] c.toBitVec := by
  induction n generalizing c with
  | zero => rfl
  | succ n ih => rw [Function.iterate_succ_apply, ih, toBitVec_crc32Bit, ← Function.iterate_succ_apply]

/-- The table has been filled. -/
def Filled (table : Table) : Prop := ∀ i : Fin 256, table[i] = crc32Bit^[8] (UInt32.ofNat i)

theorem foldl_set_get {n : Nat} (f : Fin n → UInt32) (l : List (Fin n)) (table : Vector UInt32 n)
    (i : Nat) (hi : i < n) :
    (l.foldl (fun table i => table.set i (f i) i.isLt) table)[i] =
      if ⟨i, hi⟩ ∈ l then f ⟨i, hi⟩ else table[i] := by
  induction l generalizing table with
  | nil => simp
  | cons j rest ih =>
    rw [List.foldl_cons, ih]
    by_cases hj : j = ⟨i, hi⟩
    · subst hj
      simp
    · have hne : (j : Nat) ≠ i := fun h => hj (Fin.ext h)
      simp [Ne.symm hj, hne]

theorem filled_ensure {table : Table} (h : table = kCrc32Table ∨ Filled table) :
    Filled (ensureCrc32TableInited table) := by
  unfold ensureCrc32TableInited
  split_ifs with hlast
  · rcases h with h | h
    · subst h
      simp [kCrc32Table] at hlast
    · exact h
  · intro i
    rw [Fin.getElem_fin, foldl_set_get, if_pos (List.mem_finRange i)]

theorem toBitVec_crc32Byte {table : Table} (h : Filled table) (c : UInt32) (u : UInt8) :
    (crc32Byte table c u).toBitVec =
      (bits [u]).foldl (feed kCrc32Polynomial.toBitVec) c.toBitVec := by
  have hword : (word (bits [u]) : BitVec 32) = u.toUInt32.toBitVec := by
    apply BitVec.eq_of_getLsbD_eq
    intro i hi
    rw [getLsbD_word]
    by_cases h8 : i < 8
    · simp [bits, hi, h8, List.getD_eq_getElem?_getD]
    · have hzero : u.toBitVec.getLsbD i = false := BitVec.getLsbD_of_ge _ _ (by omega)
      simp [bits, hi, h8, List.getD_eq_getElem?_getD, hzero]
  have hlen : (bits [u]).length = 8 := by simp [length_bits]
  rw [foldl_feed (by omega), hword, hlen, iterate_step_eq 8]
  have hmove : (c ^^^ u.toUInt32).toBitVec >>> 8 = c.toBitVec >>> 8 := by
    apply BitVec.eq_of_getLsbD_eq
    intro i hi
    simp
  have hlow : ((c ^^^ u.toUInt32) &&& 0xFF).toBitVec =
      (c ^^^ u.toUInt32).toBitVec ^^^ ((c ^^^ u.toUInt32).toBitVec >>> 8) <<< 8 := by
    apply BitVec.eq_of_getLsbD_eq
    intro i hi
    have hmask : (255#32).getLsbD i = decide (i < 8) := by
      rw [BitVec.getLsbD_ofNat, show 255 = 2 ^ 8 - 1 by rfl, Nat.testBit_two_pow_sub_one]
      simp [hi]
    generalize c ^^^ u.toUInt32 = x
    rw [UInt32.toBitVec_and, BitVec.getLsbD_and, BitVec.getLsbD_xor, BitVec.getLsbD_shiftLeft,
      BitVec.getLsbD_ushiftRight]
    show (x.toBitVec.getLsbD i && (255#32).getLsbD i) = _
    rw [hmask]
    by_cases h8 : i < 8
    · simp [h8]
    · have hback : 8 + (i - 8) = i := by omega
      simp [h8, hi, hback]
  have hindex : ((c ^^^ u.toUInt32) &&& 0xFF).toNat < 256 := by
    rw [UInt32.toNat_and]
    exact Nat.lt_of_le_of_lt Nat.and_le_right (by decide)
  have hentry : UInt32.ofNat (Fin.ofNat 256 ((c ^^^ u.toUInt32) &&& 0xFF).toNat) =
      (c ^^^ u.toUInt32) &&& 0xFF := by
    rw [Fin.val_ofNat, Nat.mod_eq_of_lt hindex, UInt32.ofNat_toNat]
  rw [← UInt32.toBitVec_xor c, ← hlow, hmove, crc32Byte, h, hentry, ← toBitVec_iterate_crc32Bit]
  simp

theorem toBitVec_foldl_crc32Byte {table : Table} (h : Filled table) (c : UInt32) (buf : List UInt8) :
    (buf.foldl (crc32Byte table) c).toBitVec =
      (bits buf).foldl (feed kCrc32Polynomial.toBitVec) c.toBitVec := by
  induction buf generalizing c with
  | nil => rfl
  | cons u rest ih =>
    rw [List.foldl_cons, ih, toBitVec_crc32Byte h, ← List.foldl_append, ← bits_append,
      List.singleton_append]

/-! Runs. -/

/-- What the static table may be. -/
def Reached (table : Table) : Prop := table = kCrc32Table ∨ Filled table

/-- The checksum of a buffer that continues a checksum, on a register. -/
def crc32 (start : UInt32) (buf : List UInt8) : BitVec 32 :=
  (bits buf).foldl (feed kCrc32Polynomial.toBitVec) (~~~start.toBitVec)

theorem xor_ones (c : UInt32) : (c ^^^ 0xFFFFFFFF).toBitVec = ~~~c.toBitVec := by
  rw [UInt32.toBitVec_xor]
  exact BitVec.xor_allOnes

theorem updateCrc32_spec {table : Table} (h : Reached table) (start : UInt32) (buf : List UInt8) :
    ~~~(updateCrc32 table start buf).1.toBitVec = crc32 start buf ∧
      Filled (updateCrc32 table start buf).2 := by
  have hfilled := filled_ensure h
  refine ⟨?_, hfilled⟩
  show ~~~(buf.foldl (crc32Byte (ensureCrc32TableInited table)) (start ^^^ 0xFFFFFFFF) ^^^
    0xFFFFFFFF).toBitVec = _
  rw [xor_ones, BitVec.not_not, toBitVec_foldl_crc32Byte hfilled, xor_ones, crc32]

theorem filled_run {table : Table} (h : Filled table) (calls : List (UInt32 × List UInt8)) :
    Filled (run table calls).2 := by
  induction calls generalizing table with
  | nil => exact h
  | cons call rest ih =>
    rw [run]
    exact ih (updateCrc32_spec (.inr h) call.1 call.2).2

theorem reached_run (calls : List (UInt32 × List UInt8)) : Reached (run kCrc32Table calls).2 := by
  cases calls with
  | nil => exact .inl rfl
  | cons call rest =>
    rw [run]
    exact .inr (filled_run (updateCrc32_spec (.inl rfl) call.1 call.2).2 rest)

theorem crc32_append (c start : UInt32) (buf buf' : List UInt8)
    (h : ~~~c.toBitVec = crc32 start buf) : crc32 c buf' = crc32 start (buf ++ buf') := by
  rw [crc32, crc32, h, crc32, bits_append, List.foldl_append]

/-- The generator of the standard, x^32 + x^26 + ... + 1. -/
noncomputable def ieee : (ZMod 2)[X] :=
  X ^ 32 + X ^ 26 + X ^ 23 + X ^ 22 + X ^ 16 + X ^ 12 + X ^ 11 + X ^ 10 + X ^ 8 + X ^ 7 + X ^ 5 +
    X ^ 4 + X ^ 2 + X + 1

theorem generator_eq : generator kCrc32Polynomial.toBitVec = ieee := by
  have hbits : ∀ i < 32, kCrc32Polynomial.toBitVec.getLsbD i =
      decide (i ∈ [5, 8, 9, 15, 19, 20, 21, 23, 24, 26, 27, 29, 30, 31]) := by
    decide
  have hvalue : value kCrc32Polynomial.toBitVec = ∑ i ∈ Finset.range 32,
      if i ∈ [5, 8, 9, 15, 19, 20, 21, 23, 24, 26, 27, 29, 30, 31] then
        (X ^ (32 - 1 - i) : (ZMod 2)[X]) else 0 := by
    apply Finset.sum_congr rfl
    intro i hi
    rw [hbits i (Finset.mem_range.mp hi)]
    simp
  rw [generator, hvalue, ieee]
  simp only [Finset.sum_range_succ, Finset.sum_range_zero]
  simp
  ring

/-- A checksum made in pieces, after any other checksums, is that of the whole: the remainder of
the bits, with the start as the register before them. -/
theorem updateCrc32_chunks (calls : List (UInt32 × List UInt8)) (start : UInt32)
    (chunks : List (List UInt8)) :
    value (~~~(chunks.foldl (fun (state : UInt32 × Table) buf => updateCrc32 state.2 state.1 buf)
      (start, (run kCrc32Table calls).2)).1.toBitVec) =
      (X ^ (8 * chunks.flatten.length) * value (~~~start.toBitVec) +
        X ^ 32 * message (bits chunks.flatten)) %ₘ ieee := by
  have hchunks : ∀ (done : List UInt8) (c : UInt32) (table : Table), Reached table →
      ~~~c.toBitVec = crc32 start done →
      ~~~(chunks.foldl (fun (state : UInt32 × Table) buf => updateCrc32 state.2 state.1 buf)
        (c, table)).1.toBitVec = crc32 start (done ++ chunks.flatten) := by
    induction chunks with
    | nil =>
      intro done c table _ hc
      simpa using hc
    | cons buf rest ih =>
      intro done c table htable hc
      obtain ⟨hnext, hfilled⟩ := updateCrc32_spec htable c buf
      rw [crc32_append c start done buf hc] at hnext
      rw [List.foldl_cons, List.flatten_cons, ← List.append_assoc]
      exact ih _ _ _ (.inr hfilled) hnext
  rw [hchunks [] start _ (reached_run calls) rfl, List.nil_append, crc32, value_foldl (by decide),
    length_bits, generator_eq]

/-! A burst of four bytes. -/

theorem crc32_burst {start : UInt32} {pre w w' post : List UInt8} (hlen : w.length = w'.length)
    (hshort : w.length ≤ 4) (h : crc32 start (pre ++ w ++ post) = crc32 start (pre ++ w' ++ post)) :
    w = w' := by
  simp only [crc32, bits_append, List.foldl_append] at h
  have hw : 0 < 32 := by decide
  have htop : kCrc32Polynomial.toBitVec.getLsbD (32 - 1) = true := by decide
  apply bits_injective
  apply foldl_feed_injective hw htop
  · rw [length_bits, length_bits, hlen]
  · rw [length_bits]
    omega
  · exact foldl_feed_state hw htop h

theorem computeCrc32_burst {table : Table} (htable : Reached table) {pre w w' post : List UInt8}
    (hlen : w.length = w'.length) (hshort : w.length ≤ 4)
    (h : (computeCrc32 table (pre ++ w ++ post)).1 = (computeCrc32 table (pre ++ w' ++ post)).1) :
    w = w' := by
  have hsums : crc32 0 (pre ++ w ++ post) = crc32 0 (pre ++ w' ++ post) := by
    rw [← (updateCrc32_spec htable 0 _).1, ← (updateCrc32_spec htable 0 _).1]
    exact congrArg (fun c : UInt32 => ~~~c.toBitVec) h
  exact crc32_burst hlen hshort hsums

theorem getBE16_injective {data data' : List UInt8} {pos : Nat} (hpos : pos + 2 ≤ data.length)
    (hlen : data.length = data'.length) (h : getBE16 data pos = getBE16 data' pos) :
    (data.drop pos).take 2 = (data'.drop pos).take 2 := by
  have hbytes : ∀ d : List UInt8, d.length = data.length →
      shortToBytes (getBE16 d pos) = (d.drop pos).take 2 := fun d hd =>
    shortToBytes_bytesToShort (by simp; omega)
  rw [← hbytes data rfl, ← hbytes data' hlen.symm, h]

theorem getBE32_injective {data data' : List UInt8} {pos : Nat} (hpos : pos + 4 ≤ data.length)
    (hlen : data.length = data'.length) (h : getBE32 data pos = getBE32 data' pos) :
    (data.drop pos).take 4 = (data'.drop pos).take 4 := by
  have hbytes : ∀ d : List UInt8, d.length = data.length →
      longToBytes (getBE32 d pos) = (d.drop pos).take 4 := fun d hd =>
    longToBytes_bytesToLong (by simp; omega)
  rw [← hbytes data rfl, ← hbytes data' hlen.symm, h]

theorem split_fingerprint {data : List UInt8} {n : Nat} (h : data.length = n + 8) :
    data = data.take n ++ ((data.drop n).take 2 ++
      ((data.drop (n + 2)).take 2 ++ (data.drop (n + 4)).take 4)) := by
  have hvalue : (data.drop (n + 4)).take 4 = data.drop (n + 4) := by
    apply List.take_of_length_le
    simp
    omega
  have hlength : (data.drop (n + 2)).take 2 ++ data.drop (n + 4) = data.drop (n + 2) := by
    have hdrop : data.drop (n + 4) = (data.drop (n + 2)).drop 2 := by simp
    rw [hdrop, List.take_append_drop]
  have htype : (data.drop n).take 2 ++ data.drop (n + 2) = data.drop n := by
    have hdrop : data.drop (n + 2) = (data.drop n).drop 2 := by simp
    rw [hdrop, List.take_append_drop]
  rw [hvalue, hlength, htype, List.take_append_drop]

theorem validateFingerprint_facts {computeCrc32 : List UInt8 → UInt32} {data : List UInt8}
    (h : StunMessage.validateFingerprint computeCrc32 data = true) :
    ∃ n, data.length = n + 8 ∧ getBE16 data n = stunAttrFingerprint ∧ getBE16 data (n + 2) = 4 ∧
      getBE32 data (n + 4) ^^^ StunMessage.stunFingerprintXorValue = computeCrc32 (data.take n) := by
  unfold StunMessage.validateFingerprint at h
  by_cases hsize : data.length % 4 ≠ 0 ∨
      data.length < StunMessage.stunHeaderSize + (StunMessage.stunAttributeHeaderSize + 4)
  · simp [hsize] at h
  · simp only [hsize, if_false] at h
    have hshort : ¬ data.length < 28 := fun hlt => hsize (.inr hlt)
    split_ifs at h with _ hheader
    rw [not_or, not_not, not_not] at hheader
    exact ⟨data.length - 8, by omega, hheader.1, hheader.2, of_decide_eq_true h⟩

theorem take_burst {pre w post : List UInt8} {n : Nat} (h : pre.length ≤ n) :
    (pre ++ w ++ post).take n =
      pre ++ w.take (n - pre.length) ++ post.take (n - (pre.length + w.length)) := by
  rw [List.take_append, List.take_append, List.take_of_length_le h, List.length_append]

/-- A packet with a good FINGERPRINT has none after a burst in at most four of its bytes, wherever
they are. -/
theorem validateFingerprint_burst (calls : List (UInt32 × List UInt8)) (pre w w' post : List UInt8)
    (hlen : w.length = w'.length) (hshort : w.length ≤ 4) (hne : w ≠ w')
    (h : StunMessage.validateFingerprint (fun buf => (computeCrc32 (run kCrc32Table calls).2 buf).1)
      (pre ++ w ++ post) = true) :
    StunMessage.validateFingerprint (fun buf => (computeCrc32 (run kCrc32Table calls).2 buf).1)
      (pre ++ w' ++ post) = false := by
  have htable := reached_run calls
  rw [← Bool.not_eq_true]
  intro h'
  obtain ⟨n, hn, htype, hlength, hvalue⟩ := validateFingerprint_facts h
  obtain ⟨n', hn', htype', hlength', hvalue'⟩ := validateFingerprint_facts h'
  have hsame : (pre ++ w ++ post).length = (pre ++ w' ++ post).length := by
    simp [hlen]
  obtain rfl : n = n' := by omega
  have htypes := getBE16_injective (by omega) hsame (htype.trans htype'.symm)
  have hlengths := getBE16_injective (by omega) hsame (hlength.trans hlength'.symm)
  have hlist : (pre ++ w ++ post).length = pre.length + w.length + post.length := by
    simp
    omega
  -- either the burst ends before the value, and the checksums are equal, or the covered bytes are
  have hcover : (pre ++ w ++ post).take n = (pre ++ w' ++ post).take n ∧
      ((pre ++ w ++ post).drop (n + 4)).take 4 = ((pre ++ w' ++ post).drop (n + 4)).take 4 := by
    by_cases hend : pre.length + w.length ≤ n + 4
    · have hdrop : (pre ++ w ++ post).drop (n + 4) = (pre ++ w' ++ post).drop (n + 4) := by
        have htail : ∀ u : List UInt8, u.length = w.length →
            (pre ++ u ++ post).drop (n + 4) = post.drop (n + 4 - (pre.length + w.length)) := by
          intro u hu
          rw [List.drop_append, List.drop_eq_nil_of_le (by simp; omega), List.nil_append,
            List.length_append, hu]
        rw [htail w rfl, htail w' hlen.symm]
      refine ⟨?_, by rw [hdrop]⟩
      have hsums : (computeCrc32 (run kCrc32Table calls).2 ((pre ++ w ++ post).take n)).1 =
          (computeCrc32 (run kCrc32Table calls).2 ((pre ++ w' ++ post).take n)).1 := by
        rw [← hvalue, ← hvalue', getBE32, getBE32, hdrop]
      by_cases hpre : pre.length ≤ n
      · rw [take_burst hpre, take_burst hpre, ← hlen] at hsums ⊢
        have hpart := computeCrc32_burst htable (by simp [hlen]) (by simp; omega) hsums
        rw [hpart]
      · rw [List.append_assoc, List.append_assoc, List.take_append_of_le_length (by omega),
          List.take_append_of_le_length (by omega)]
    · have htake : (pre ++ w ++ post).take n = (pre ++ w' ++ post).take n := by
        rw [List.append_assoc, List.append_assoc, List.take_append_of_le_length (by omega),
          List.take_append_of_le_length (by omega)]
      refine ⟨htake, ?_⟩
      have hvalues : getBE32 (pre ++ w ++ post) (n + 4) = getBE32 (pre ++ w' ++ post) (n + 4) := by
        rw [htake] at hvalue
        exact (UInt32.xor_left_inj _).mp (hvalue.trans hvalue'.symm)
      exact getBE32_injective (by omega) hsame hvalues
  have hall : pre ++ w ++ post = pre ++ w' ++ post := by
    rw [split_fingerprint hn, split_fingerprint hn', hcover.1, htypes, hlengths, hcover.2]
  exact hne (List.append_cancel_left (List.append_cancel_right hall))

theorem validateFingerprint_burst_type :
    StunMessage.validateFingerprint (fun buf => (computeCrc32 (run kCrc32Table []).2 buf).1)
      ([] ++ [3] ++ (1 :: 0 :: 8 :: longToBytes stunMagicCookie ++ List.replicate 12 7 ++
        [128, 40, 0, 4] ++ longToBytes ((computeCrc32 (run kCrc32Table []).2
          (StunMessage.header 1 8 (List.replicate 12 7) ++ [])).1 ^^^
            StunMessage.stunFingerprintXorValue))) = false := by
  have hlast : StunMessage.validateFingerprint
      (fun buf => (computeCrc32 (run kCrc32Table []).2 buf).1)
      (StunMessage.header 1 8 (List.replicate 12 7) ++ ([] ++ ([128, 40, 0, 4] ++
        longToBytes ((computeCrc32 (run kCrc32Table []).2
          (StunMessage.header 1 8 (List.replicate 12 7) ++ [])).1 ^^^
            StunMessage.stunFingerprintXorValue)))) = true :=
    StunMessage.validateFingerprint_last rfl (by decide) rfl
  exact validateFingerprint_burst [] [] [0] [3] _ rfl (by decide) (by decide) hlast

end Libjingle.Crc32
