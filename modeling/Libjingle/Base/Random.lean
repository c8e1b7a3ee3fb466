import Libjingle.Base.Base64
import Libjingle.Lib.Fallible
import Mathlib.Data.List.GetD

/-! The random strings and ids of `helpers.cc`, for functions that draw them. -/

namespace Libjingle

/-- What the generator gives at each of its draws: bytes, if it does not fail, and ids. -/
structure RandomGenerator where
  generate : Nat → Nat → Option (List UInt8)
  length_generate : ∀ n len bytes, generate n len = some bytes → bytes.length = len
  id : Nat → UInt32

/-- Why a function returns nothing: it says so, it reads what is not there, or its loop over
the generator has not come to an end. -/
inductive Stop
  | null
  | missing
  | endless
  deriving DecidableEq, Repr

abbrev Draw := StateT Nat (Except Stop)

namespace Draw

variable {α β : Type}

def require (c : Bool) : Draw Unit := if c then pure () else throw .null

def orElse (x : Option α) (stop : Stop) : Draw α :=
  match x with
  | some a => pure a
  | none => throw stop

theorem bind_ok {x : Draw α} {f : α → Draw β} {n k : Nat} {b : β} :
    (x >>= f) n = .ok (b, k) ↔ ∃ a m, x n = .ok (a, m) ∧ f a m = .ok (b, k) := by
  refine Fallible.bind_ok.trans ⟨fun ⟨⟨a, m⟩, hx, hf⟩ => ⟨a, m, hx, hf⟩, ?_⟩
  exact fun ⟨a, m, hx, hf⟩ => ⟨(a, m), hx, hf⟩

theorem pure_ok {a b : α} {n k : Nat} : (pure a : Draw α) n = .ok (b, k) ↔ a = b ∧ n = k := by
  show Except.ok (a, n) = .ok (b, k) ↔ _
  simp

theorem throw_ok {stop : Stop} {n : Nat} {r : α × Nat} :
    ¬ (throw stop : Draw α) n = .ok r := nofun

theorem orElse_ok {x : Option α} {stop : Stop} {n k : Nat} {a : α} :
    orElse x stop n = .ok (a, k) ↔ x = some a ∧ n = k := by
  cases x with
  | none => exact ⟨fun h => absurd h throw_ok, fun h => nomatch h.1⟩
  | some b => exact pure_ok.trans (and_congr_left fun _ => Option.some_inj.symm)

end Draw

namespace RandomGenerator

variable (rng : RandomGenerator)

def ofBytes (bytes : List UInt8) : String :=
  String.ofList (bytes.map fun b => base64Chars.getD (b.toNat % 64) 'A')

/-- `CreateRandomString`, which can fail. -/
def createRandomString (len : Nat) : Draw (Option String) := fun n =>
  .ok ((rng.generate n len).map ofBytes, n + 1)

/-- `CreateRandomNonZeroId`, for so many rounds. -/
def createRandomNonZeroId : Nat → Draw UInt32
  | 0 => throw .endless
  | rounds + 1 => fun n =>
    if rng.id n = 0 then createRandomNonZeroId rounds (n + 1) else .ok (rng.id n, n + 1)

theorem mem_base64Chars_ofBytes {bytes : List UInt8} :
    ∀ c ∈ (ofBytes bytes).toList, c ∈ base64Chars := by
  intro c hc
  rw [ofBytes, String.toList_ofList] at hc
  obtain ⟨b, -, rfl⟩ := List.mem_map.mp hc
  have hlt : b.toNat % 64 < base64Chars.length := Nat.mod_lt _ (by decide)
  rw [List.getD_eq_getElem _ _ hlt]
  exact List.getElem_mem hlt

theorem decodeStrict_createRandomString {k n m : Nat} {text : String}
    (h : rng.createRandomString (4 * k) n = .ok (some text, m)) :
    ∃ bytes, Base64.decodeStrict text = some bytes ∧ bytes.length = 3 * k := by
  obtain ⟨hdraw, -⟩ := Prod.mk.inj (Except.ok.inj h)
  obtain ⟨bytes, hbytes, rfl⟩ := Option.map_eq_some_iff.mp hdraw
  have hlength := rng.length_generate _ _ _ hbytes
  refine Base64.decodeStrict_ok mem_base64Chars_ofBytes ?_
  rw [ofBytes, String.toList_ofList, List.length_map, hlength]

end RandomGenerator

end Libjingle
