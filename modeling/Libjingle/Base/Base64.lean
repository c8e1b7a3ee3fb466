import Mathlib.Tactic.Common

/-! `Base64::Decode` with `DO_STRICT`: nothing but the characters of the table, padding where
it is needed, and no bits or characters left over. -/

namespace Libjingle

def base64Chars : List Char :=
  "ABCDEFGHIJKLMNOPQRSTUVWXYZabcdefghijklmnopqrstuvwxyz0123456789+/".toList

namespace Base64

inductive Symbol
  | bits (value : UInt8)
  | pad
  | illegal
  deriving DecidableEq, Repr

def decodeTable (c : Char) : Symbol :=
  if c ∈ base64Chars then .bits (UInt8.ofNat (base64Chars.idxOf c))
  else if c = '=' then .pad
  else .illegal

structure Quantum where
  bits : List UInt8
  padded : Bool
  rest : List Char
  deriving DecidableEq, Repr

/-- Illegal padding is rolled back. -/
def Quantum.finish (bits : List UInt8) (pads : Nat) (padStart rest : List Char) : Quantum where
  bits
  padded := bits.length + pads = 4
  rest := if bits.length + pads = 4 ∨ pads = 0 then rest else padStart

/-- `GetNextQuantum`, with what was found and where the padding started. -/
def getNextQuantum (bits : List UInt8) (pads : Nat) (padStart : List Char) : List Char → Quantum
  | [] => .finish bits pads padStart []
  | c :: rest =>
    if bits.length = 4 then .finish bits pads padStart (c :: rest)
    else match decodeTable c with
      | .illegal => .finish bits pads padStart (c :: rest)
      | .pad =>
        if bits.length < 2 ∨ 4 ≤ bits.length + pads then .finish bits pads padStart (c :: rest)
        else getNextQuantum bits (pads + 1) (if pads = 0 then c :: rest else padStart) rest
      | .bits value =>
        if 0 < pads then .finish bits pads padStart (c :: rest)
        else getNextQuantum (bits ++ [value]) pads padStart rest

def combine (bits : List UInt8) : List UInt8 :=
  let b0 := bits.getD 0 0
  let b1 := bits.getD 1 0
  let b2 := bits.getD 2 0
  let b3 := bits.getD 3 0
  [b0 <<< 2 ||| (b1 >>> 4) % 4, b1 <<< 4 ||| (b2 >>> 2) % 16, b2 <<< 6 ||| b3]

/-- A quantum that is not full is the last one, and none of its bits may be left over. -/
def decodeFrom : Nat → List Char → Option (List UInt8)
  | _, [] => some []
  | 0, _ => none
  | rounds + 1, data =>
    let q := getNextQuantum [] 0 [] data
    let bytes := (combine q.bits).take (q.bits.length - 1)
    if q.bits.length = 4 then (decodeFrom rounds q.rest).map (bytes ++ ·)
    else if (combine q.bits).getD (q.bits.length - 1) 0 = 0 ∧ q.padded = true ∧ q.rest = [] then
      some bytes
    else none

def decodeStrict (text : String) : Option (List UInt8) :=
  decodeFrom text.toList.length text.toList

theorem decodeTable_of_mem {c : Char} (h : c ∈ base64Chars) :
    ∃ value, decodeTable c = .bits value := ⟨_, if_pos h⟩

theorem getNextQuantum_full {a b c d : Char} (rest : List Char)
    (h : ∀ x ∈ [a, b, c, d], x ∈ base64Chars) :
    ∃ bits, getNextQuantum [] 0 [] (a :: b :: c :: d :: rest) = ⟨bits, true, rest⟩ ∧
      bits.length = 4 := by
  obtain ⟨va, ha⟩ := decodeTable_of_mem (h a (by simp))
  obtain ⟨vb, hb⟩ := decodeTable_of_mem (h b (by simp))
  obtain ⟨vc, hc⟩ := decodeTable_of_mem (h c (by simp))
  obtain ⟨vd, hd⟩ := decodeTable_of_mem (h d (by simp))
  have hend : getNextQuantum [va, vb, vc, vd] 0 [] rest = ⟨[va, vb, vc, vd], true, rest⟩ := by
    cases rest with
    | nil => rfl
    | cons x rest => simp [getNextQuantum, Quantum.finish]
  refine ⟨[va, vb, vc, vd], ?_, rfl⟩
  simp [getNextQuantum, ha, hb, hc, hd, hend]

theorem decodeFrom_ok {data : List Char} (h : ∀ x ∈ data, x ∈ base64Chars) {k rounds : Nat}
    (hlength : data.length = 4 * k) (hrounds : k ≤ rounds) :
    ∃ bytes, decodeFrom rounds data = some bytes ∧ bytes.length = 3 * k := by
  induction k generalizing data rounds with
  | zero =>
    obtain rfl := List.eq_nil_of_length_eq_zero hlength
    exact ⟨[], by cases rounds <;> rfl, rfl⟩
  | succ k ih =>
    obtain ⟨rounds, rfl⟩ : ∃ n, rounds = n + 1 := ⟨rounds - 1, by omega⟩
    match data, hlength with
    | a :: b :: c :: d :: rest, hlength =>
      have hrest : rest.length = 4 * k := by
        simp only [List.length_cons] at hlength
        omega
      have hmem : ∀ x ∈ rest, x ∈ base64Chars := fun x hx => h x (by simp [hx])
      obtain ⟨bytes, hbytes, hcount⟩ := ih hmem hrest (Nat.le_of_succ_le_succ hrounds)
      obtain ⟨bits, hquantum, hbits⟩ :=
        getNextQuantum_full rest fun x hx => h x (List.mem_append_left rest hx)
      refine ⟨(combine bits).take 3 ++ bytes, ?_, ?_⟩
      · unfold decodeFrom
        rw [hquantum]
        simp only [hbits, if_true, hbytes, Option.map_some]
      · simp only [List.length_append, List.length_take, combine, List.length_cons,
          List.length_nil, hcount]
        omega

theorem decodeStrict_ok {text : String} (h : ∀ x ∈ text.toList, x ∈ base64Chars) {k : Nat}
    (hlength : text.toList.length = 4 * k) :
    ∃ bytes, decodeStrict text = some bytes ∧ bytes.length = 3 * k :=
  decodeFrom_ok h hlength (by omega)

example : decodeStrict "AQI=" = some [1, 2] := by decide +kernel

end Base64

end Libjingle
