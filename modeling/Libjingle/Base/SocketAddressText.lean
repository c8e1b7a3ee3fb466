import Libjingle.Base.SocketAddress
import Libjingle.Base.Strtoul

/-! The text of an address: `SocketAddress::FromString` and `SocketAddress::ToString`. -/

namespace Libjingle

structure Inet where
  ntop4 : UInt32 → List UInt8
  ntop6 : In6Addr → List UInt8
  pton4 : List UInt8 → Option UInt32
  pton6 : List UInt8 → Option In6Addr

namespace Inet

variable (inet : Inet)

/-- `IPFromString`, which gets a C string. -/
def ipFromString (str : List UInt8) : Option IPAddress :=
  let text := str.takeWhile (· ≠ 0)
  match inet.pton4 text with
  | some addr => some (.inet addr)
  | none => (inet.pton6 text).map .inet6

/-- `IPAddress::ToString` -/
def ipToString : IPAddress → List UInt8
  | .unspec => []
  | .inet addr => inet.ntop4 addr
  | .inet6 addr => inet.ntop6 addr

end Inet

/-- An address that knows whether its hostname is the text of it. -/
structure TextAddress extends SocketAddress where
  literal : Bool
  deriving DecidableEq, Repr

/-- What `at` throws, or an assertion that fails. -/
inductive TextFault
  | outOfRange
  | assertion
  deriving DecidableEq, Repr

namespace TextAddress

section Text

variable (inet : Inet)

def setIP (hostname : List UInt8) (a : TextAddress) : TextAddress :=
  { a with
    hostname
    literal := (inet.ipFromString hostname).isSome
    ip := (inet.ipFromString hostname).getD .unspec }

def setPort (port : Int) (a : TextAddress) : Except TextFault TextAddress :=
  if 0 ≤ port ∧ port < 65536 then .ok { a with port := UInt16.ofNat port.toNat }
  else .error .assertion

/-- The number that a C string begins with, cut down to an `int`. -/
def portOf (text : List UInt8) : Int :=
  Int.bmod ((strtoul 10 (text ++ [0])).elim 0 fun r => r.1) (2 ^ 32)

/-- `rfind` of a string -/
def rfind (c : UInt8) (str : List UInt8) : Option Nat :=
  (str.reverse.idxOf? c).map fun i => str.length - 1 - i

/-- `find` of a string, from a position on -/
def findFrom (c : UInt8) (pos : Nat) (str : List UInt8) : Option Nat :=
  ((str.drop pos).idxOf? c).map (· + pos)

def setBoth (host text : List UInt8) (a : TextAddress) : Except TextFault (Bool × TextAddress) :=
  (setPort (portOf text) a).map fun a => (true, setIP inet host a)

def fromString (str : List UInt8) (a : TextAddress) : Except TextFault (Bool × TextAddress) :=
  match str with
  | [] => .error .outOfRange
  | first :: _ =>
    if first = 0x5B then
      match rfind 0x5D str with
      | none => .ok (true, a)
      | some closebracket =>
        match findFrom 0x3A closebracket str with
        | none => .ok (false, a)
        | some colon =>
          if closebracket < colon then
            setBoth inet ((str.drop 1).take (closebracket - 1)) (str.drop (colon + 1)) a
          else .ok (false, a)
    else
      match findFrom 0x3A 0 str with
      | none => .ok (false, a)
      | some pos => setBoth inet (str.take pos) (str.drop (pos + 1)) a

def hostAsURIString (a : TextAddress) : List UInt8 :=
  if !a.literal && a.hostname ≠ [] then a.hostname
  else match a.ip with
    | .inet6 _ => 0x5B :: inet.ipToString a.ip ++ [0x5D]
    | _ => inet.ipToString a.ip

def toString (a : TextAddress) : List UInt8 :=
  hostAsURIString inet a ++ 0x3A :: decimalBytes a.port.toNat

end Text

section Split

variable {c : UInt8} {pre rest str : List UInt8}

theorem idxOf?_first (h : c ∉ pre) : (pre ++ c :: rest).idxOf? c = some pre.length := by
  induction pre with
  | nil => simp [List.idxOf?_cons]
  | cons d pre ih =>
    have hd : d ≠ c := by
      rintro rfl
      exact h List.mem_cons_self
    simp [List.idxOf?_cons, hd, ih fun hc => h (List.mem_cons_of_mem _ hc)]

theorem findFrom_zero (h : c ∉ pre) : findFrom c 0 (pre ++ c :: rest) = some pre.length := by
  simp [findFrom, idxOf?_first h]

theorem findFrom_none {pos : Nat} (h : c ∉ str.drop pos) : findFrom c pos str = none := by
  simp [findFrom, List.idxOf?_eq_none_iff.mpr h]

theorem rfind_last (h : c ∉ rest) : rfind c (pre ++ c :: rest) = some pre.length := by
  have hfirst : (rest.reverse ++ c :: pre.reverse).idxOf? c = some rest.reverse.length :=
    idxOf?_first (by simpa using h)
  have hreverse : (pre ++ c :: rest).reverse = rest.reverse ++ c :: pre.reverse := by simp
  rw [rfind, hreverse, hfirst]
  simp

theorem rfind_none (h : c ∉ str) : rfind c str = none := by
  have hreverse : c ∉ str.reverse := by simpa using h
  simp [rfind, List.idxOf?_eq_none_iff.mpr hreverse]

theorem exists_last (h : c ∈ str) : ∃ pre rest, str = pre ++ c :: rest ∧ c ∉ rest := by
  obtain ⟨pre, rest, heq, hnot⟩ := List.eq_append_cons_of_mem (List.mem_reverse.mpr h)
  refine ⟨rest.reverse, pre.reverse, ?_, by simpa using hnot⟩
  rw [← List.reverse_reverse str, heq]
  simp

end Split

section Reads

variable {inet : Inet} {a : TextAddress} {host inner gap text str : List UInt8} {port : UInt16}

theorem fromString_host (hfirst : (host ++ 0x3A :: text).head? ≠ some 0x5B) (hcolon : 0x3A ∉ host) :
    fromString inet (host ++ 0x3A :: text) a = setBoth inet host text a := by
  have hfind : findFrom 0x3A 0 (host ++ 0x3A :: text) = some host.length := findFrom_zero hcolon
  cases hstr : host ++ 0x3A :: text with
  | nil => simp at hstr
  | cons first more =>
    have hne : first ≠ 0x5B := by
      rintro rfl
      simp [hstr] at hfirst
    rw [hstr] at hfind
    simp only [fromString, if_neg hne, hfind]
    rw [← hstr, List.take_left, show host.length + 1 = (host ++ [0x3A]).length by simp,
      show host ++ 0x3A :: text = (host ++ [0x3A]) ++ text by simp, List.drop_left]

theorem fromString_no_colon (hfirst : str.head? ≠ some 0x5B) (hne : str ≠ []) (hcolon : 0x3A ∉ str) :
    fromString inet str a = .ok (false, a) := by
  cases str with
  | nil => exact absurd rfl hne
  | cons first more =>
    have hbracket : first ≠ 0x5B := by
      rintro rfl
      simp at hfirst
    have hfind : findFrom 0x3A 0 (first :: more) = none := findFrom_none (by simpa using hcolon)
    simp [fromString, hbracket, hfind]

theorem fromString_open (h : 0x5D ∉ inner) :
    fromString inet (0x5B :: inner) a = .ok (true, a) := by
  have hnot : (0x5D : UInt8) ∉ 0x5B :: inner := by simp [h]
  simp [fromString, rfind_none hnot]

theorem drop_bracket (inner rest : List UInt8) :
    (0x5B :: (inner ++ 0x5D :: rest)).drop (inner.length + 1) = 0x5D :: rest := by simp

theorem fromString_no_port (hbracket : 0x5D ∉ gap) (hcolon : 0x3A ∉ gap) :
    fromString inet (0x5B :: (inner ++ 0x5D :: gap)) a = .ok (false, a) := by
  have hlast : rfind 0x5D ((0x5B :: inner) ++ 0x5D :: gap) = some (inner.length + 1) :=
    rfind_last hbracket
  have hnone : findFrom 0x3A (inner.length + 1) (0x5B :: (inner ++ 0x5D :: gap)) = none := by
    apply findFrom_none
    rw [drop_bracket]
    simp [hcolon]
  rw [List.cons_append] at hlast
  simp only [fromString, if_true, hlast, hnone]

theorem fromString_bracket (hgap : 0x5D ∉ gap) (hcolon : 0x3A ∉ gap) (htext : 0x5D ∉ text) :
    fromString inet (0x5B :: (inner ++ 0x5D :: (gap ++ 0x3A :: text))) a =
      setBoth inet inner text a := by
  have hrest : (0x5D : UInt8) ∉ gap ++ 0x3A :: text := by simp [hgap, htext]
  have hlast : rfind 0x5D ((0x5B :: inner) ++ 0x5D :: (gap ++ 0x3A :: text)) =
      some (inner.length + 1) := rfind_last hrest
  have hfirst : ((0x5D :: gap) ++ 0x3A :: text).idxOf? 0x3A = some (gap.length + 1) :=
    idxOf?_first (by simp [hcolon])
  have hfind : findFrom 0x3A (inner.length + 1)
      (0x5B :: (inner ++ 0x5D :: (gap ++ 0x3A :: text))) =
        some (gap.length + 1 + (inner.length + 1)) := by
    rw [findFrom, drop_bracket, ← List.cons_append, hfirst, Option.map_some]
  rw [List.cons_append] at hlast
  simp only [fromString, if_true, hlast, hfind]
  rw [if_pos (by omega)]
  have hhost : ((0x5B :: (inner ++ 0x5D :: (gap ++ 0x3A :: text))).drop 1).take
      (inner.length + 1 - 1) = inner := by simp
  have hport : (0x5B :: (inner ++ 0x5D :: (gap ++ 0x3A :: text))).drop
      (gap.length + 1 + (inner.length + 1) + 1) = text := by
    have hsplit : 0x5B :: (inner ++ 0x5D :: (gap ++ 0x3A :: text)) =
        (0x5B :: (inner ++ 0x5D :: (gap ++ [0x3A]))) ++ text := by simp
    have hlen : gap.length + 1 + (inner.length + 1) + 1 =
        (0x5B :: (inner ++ 0x5D :: (gap ++ [0x3A]))).length := by
      simp only [List.length_cons, List.length_append, List.length_nil]
      omega
    rw [hsplit, hlen, List.drop_left]
  rw [hhost, hport]

end Reads

end TextAddress

end Libjingle
