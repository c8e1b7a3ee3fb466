import Libjingle.Base.TextCoders

/-! Bytes as pairs of digits, with a delimiter between them. -/

namespace Libjingle.Text

open Transcoder

section Loops

variable (delimiter : UInt8)

def hexEncodeLoop : List UInt8 → Nat → List UInt8 → Except Fault (Nat × List UInt8)
  | [], bufpos, buffer => .ok (bufpos, buffer)
  | ch :: rest, bufpos, buffer => do
    let buffer ← store [hexEncode (ch >>> 4 &&& 0xF), hexEncode (ch &&& 0xF)] bufpos buffer
    -- no delimiter comes after the last byte
    if delimiter ≠ 0 && rest ≠ [] then
      let buffer ← store [delimiter] (bufpos + 2) buffer
      hexEncodeLoop rest (bufpos + 3) buffer
    else hexEncodeLoop rest (bufpos + 2) buffer

def hexEncodeWithDelimiter (source buffer : List UInt8) : Except Fault (Nat × List UInt8) :=
  let needed := if delimiter ≠ 0 then source.length * 3 else source.length * 2 + 1
  if buffer.length = 0 then .ok (0, buffer)
  else if buffer.length < needed then .ok (0, buffer)
  else do
    let r ← hexEncodeLoop delimiter source 0 buffer
    let buffer ← store [0] r.1 r.2
    return (r.1, buffer)

def hexDecodeLoop : List UInt8 → Nat → List UInt8 → Except Fault (Nat × List UInt8)
  | [], bufpos, buffer => .ok (bufpos, buffer)
  | [_], _, buffer => .ok (0, buffer)
  | a :: b :: rest, bufpos, buffer =>
    match hexDecode a, hexDecode b with
    | some h1, some h2 =>
      match store [h1 <<< 4 ||| h2] bufpos buffer with
      | .error f => .error f
      | .ok buffer =>
        match rest with
        | c :: d :: more =>
          if delimiter ≠ 0 then
            if c ≠ delimiter then .ok (0, buffer)
            else hexDecodeLoop (d :: more) (bufpos + 1) buffer
          else hexDecodeLoop (c :: d :: more) (bufpos + 1) buffer
        | rest => hexDecodeLoop rest (bufpos + 1) buffer
    | _, _ => .ok (0, buffer)

def hexDecodeWithDelimiter (source buffer : List UInt8) : Except Fault (Nat × List UInt8) :=
  let needed := if delimiter ≠ 0 then (source.length + 1) / 3 else source.length / 2
  if buffer.length = 0 then .ok (0, buffer)
  else if buffer.length < needed then .ok (0, buffer)
  else hexDecodeLoop delimiter source 0 buffer

end Loops

def delimiters (delimiter : UInt8) : List UInt8 := if delimiter ≠ 0 then [delimiter] else []

def joined (delimiter : UInt8) (pairs : List (UInt8 × UInt8)) : List UInt8 :=
  (delimiters delimiter).intercalate (pairs.map fun p => [p.1, p.2])

def pairValue (digit : UInt8 → Option UInt8) (p : UInt8 × UInt8) : Option UInt8 :=
  (digit p.1).bind fun h1 => (digit p.2).map fun h2 => h1 <<< 4 ||| h2

def SpelledBytes (digit : UInt8 → Option UInt8) (delimiter : UInt8) (text out : List UInt8) : Prop :=
  ∃ pairs, pairs ≠ [] ∧ text = joined delimiter pairs ∧
    List.Forall₂ (fun p v => pairValue digit p = some v) pairs out

def digitPair (ch : UInt8) : UInt8 × UInt8 :=
  (hexEncode (ch >>> 4 &&& 0xF), hexEncode (ch &&& 0xF))

section Joined

variable {digit : UInt8 → Option UInt8} {delimiter : UInt8} {p q : UInt8 × UInt8}
  {pairs : List (UInt8 × UInt8)} {text out : List UInt8}

@[simp] theorem joined_nil : joined delimiter [] = [] := rfl

@[simp] theorem joined_single : joined delimiter [p] = [p.1, p.2] := by
  simp [joined, List.intercalate]

@[simp] theorem joined_cons : joined delimiter (p :: q :: pairs) =
    p.1 :: p.2 :: (delimiters delimiter ++ joined delimiter (q :: pairs)) := by
  simp [joined, List.intercalate]

theorem spelledBytes_iff : SpelledBytes digit delimiter text out ↔
    (∃ p v, text = [p.1, p.2] ∧ out = [v] ∧ pairValue digit p = some v) ∨
      ∃ p v rest more, text = p.1 :: p.2 :: (delimiters delimiter ++ rest) ∧ out = v :: more ∧
        pairValue digit p = some v ∧ SpelledBytes digit delimiter rest more := by
  constructor
  · rintro ⟨pairs, hne, rfl, hvalues⟩
    cases hvalues with
    | nil => exact absurd rfl hne
    | @cons p v pairs more hv hmore =>
      cases pairs with
      | nil =>
        cases hmore
        exact .inl ⟨p, v, joined_single, rfl, hv⟩
      | cons q pairs =>
        exact .inr ⟨p, v, _, more, joined_cons, rfl, hv, q :: pairs, by simp, rfl, hmore⟩
  · rintro (⟨p, v, rfl, rfl, hv⟩ | ⟨p, v, rest, more, rfl, rfl, hv, pairs, hne, rfl, hmore⟩)
    · exact ⟨[p], by simp, by simp, .cons hv .nil⟩
    · cases pairs with
      | nil => exact absurd rfl hne
      | cons q pairs => exact ⟨p :: q :: pairs, by simp, by simp, .cons hv hmore⟩

theorem SpelledBytes.two_le (h : SpelledBytes digit delimiter text out) : 2 ≤ text.length := by
  rcases spelledBytes_iff.mp h with ⟨p, v, rfl, -⟩ | ⟨p, v, rest, more, rfl, -⟩ <;> simp

theorem spelledBytes_two {a b : UInt8} : SpelledBytes digit delimiter [a, b] out ↔
    ∃ v, out = [v] ∧ pairValue digit (a, b) = some v := by
  rw [spelledBytes_iff]
  constructor
  · rintro (⟨p, v, htext, hout, hv⟩ | ⟨p, v, rest, more, htext, -, -, hrest⟩)
    · obtain ⟨rfl, rfl⟩ : a = p.1 ∧ b = p.2 := by simpa using htext
      exact ⟨v, hout, hv⟩
    · have hlen := congrArg List.length htext
      have hlong := hrest.two_le
      simp only [List.length_cons, List.length_append, List.length_nil] at hlen
      omega
  · rintro ⟨v, hout, hv⟩
    exact .inl ⟨(a, b), v, rfl, hout, hv⟩

theorem spelledBytes_cons {a b c : UInt8} {rest : List UInt8} :
    SpelledBytes digit delimiter (a :: b :: c :: rest) out ↔ ∃ v more after,
      c :: rest = delimiters delimiter ++ after ∧ out = v :: more ∧
        pairValue digit (a, b) = some v ∧ SpelledBytes digit delimiter after more := by
  rw [spelledBytes_iff]
  constructor
  · rintro (⟨p, v, htext, -⟩ | ⟨p, v, after, more, htext, hout, hv, hmore⟩)
    · simp at htext
    · simp only [List.cons.injEq] at htext
      obtain ⟨rfl, rfl, hafter⟩ := htext
      exact ⟨v, more, after, hafter, hout, hv, hmore⟩
  · rintro ⟨v, more, after, hafter, hout, hv, hmore⟩
    exact .inr ⟨(a, b), v, after, more, by rw [hafter], hout, hv, hmore⟩

end Joined

section Runs

variable {delimiter : UInt8} {source buffer out : List UInt8} {bufpos : Nat}

theorem length_joined (hne : source ≠ []) : (joined delimiter (source.map digitPair)).length + 1 =
    if delimiter ≠ 0 then source.length * 3 else source.length * 2 + 1 := by
  induction source with
  | nil => exact absurd rfl hne
  | cons ch rest ih =>
    cases rest with
    | nil =>
      simp only [List.map_cons, List.map_nil, joined_single, List.length_cons, List.length_nil]
      split <;> rfl
    | cons next rest =>
      have hrest := ih (by simp)
      simp only [List.map_cons, joined_cons, List.length_cons, List.length_append] at hrest ⊢
      split at hrest
      · next hd =>
        simp only [delimiters, hd, ne_eq, not_false_eq_true, if_true, List.length_singleton]
        omega
      · next hd =>
        simp only [delimiters, if_neg hd, List.length_nil]
        omega

theorem hexEncodeLoop_cons {ch : UInt8} {rest : List UInt8} (hrest : rest ≠ [])
    (hfit : bufpos + (2 + (delimiters delimiter).length) ≤ buffer.length) :
    ∃ stored, hexEncodeLoop delimiter (ch :: rest) bufpos buffer =
        hexEncodeLoop delimiter rest (bufpos + (2 + (delimiters delimiter).length)) stored ∧
      stored.length = buffer.length ∧
      stored.take (bufpos + (2 + (delimiters delimiter).length)) =
        buffer.take bufpos ++ ((digitPair ch).1 :: (digitPair ch).2 :: delimiters delimiter) := by
  have hpair : bufpos + [(digitPair ch).1, (digitPair ch).2].length ≤ buffer.length := by
    simp only [List.length_cons, List.length_nil]
    omega
  obtain ⟨stored, hstore⟩ := store_eq hpair
  have hlen := length_store hstore
  have htake := take_store hstore
  simp only [List.length_cons, List.length_nil] at htake
  simp only [digitPair] at hstore
  by_cases hd : delimiter = 0
  · refine ⟨stored, ?_, hlen, ?_⟩
    · simp [hexEncodeLoop, hstore, delimiters, hd, bind, Except.bind]
    · simpa [delimiters, hd] using htake
  · have hone : bufpos + 2 + [delimiter].length ≤ stored.length := by
      simp only [delimiters, ne_eq, hd, not_false_eq_true, if_true, List.length_singleton] at hfit ⊢
      omega
    obtain ⟨again, hagain⟩ := store_eq hone
    have htake' := take_store hagain
    refine ⟨again, ?_, (length_store hagain).trans hlen, ?_⟩
    · simp [hexEncodeLoop, hstore, hagain, delimiters, hd, hrest, bind, Except.bind]
    · simp only [delimiters, ne_eq, hd, not_false_eq_true, if_true, List.length_singleton] at htake' ⊢
      rw [← Nat.add_assoc, htake', htake]
      simp

theorem hexEncodeLoop_ok
    (hfit : bufpos + (joined delimiter (source.map digitPair)).length ≤ buffer.length) :
    ∃ b, hexEncodeLoop delimiter source bufpos buffer =
        .ok (bufpos + (joined delimiter (source.map digitPair)).length, b) ∧
      b.length = buffer.length ∧
      b.take (bufpos + (joined delimiter (source.map digitPair)).length) =
        buffer.take bufpos ++ joined delimiter (source.map digitPair) := by
  induction source generalizing bufpos buffer with
  | nil => exact ⟨buffer, rfl, rfl, by simp⟩
  | cons ch rest ih =>
    cases rest with
    | nil =>
      have hpair : bufpos + [(digitPair ch).1, (digitPair ch).2].length ≤ buffer.length := by
        simpa using hfit
      obtain ⟨stored, hstore⟩ := store_eq hpair
      have htake := take_store hstore
      simp only [digitPair] at hstore
      refine ⟨stored, ?_, length_store hstore, ?_⟩
      · simp [hexEncodeLoop, hstore, bind, Except.bind]
      · simpa using htake
    | cons next rest =>
      have hjoin : joined delimiter ((ch :: next :: rest).map digitPair) =
          ((digitPair ch).1 :: (digitPair ch).2 :: delimiters delimiter) ++
            joined delimiter ((next :: rest).map digitPair) := by
        simp
      have hlen : (joined delimiter ((ch :: next :: rest).map digitPair)).length =
          2 + (delimiters delimiter).length +
            (joined delimiter ((next :: rest).map digitPair)).length := by
        rw [hjoin, List.length_append, List.length_cons, List.length_cons]
        omega
      rw [hlen] at hfit ⊢
      have hfirst : bufpos + (2 + (delimiters delimiter).length) ≤ buffer.length := by omega
      obtain ⟨stored, hstep, hsize, htake⟩ := hexEncodeLoop_cons (List.cons_ne_nil next rest) hfirst
      obtain ⟨b, hb, hbsize, hwritten⟩ := ih (by rw [hsize, Nat.add_assoc]; exact hfit)
      refine ⟨b, ?_, hbsize.trans hsize, ?_⟩
      · rw [hstep, hb, Nat.add_assoc]
      · rw [← Nat.add_assoc, hwritten, htake, hjoin, List.append_assoc]

theorem hexEncode_ok (hsize : 0 < buffer.length)
    (hfit : (if delimiter ≠ 0 then source.length * 3 else source.length * 2 + 1) ≤ buffer.length) :
    ∃ b, hexEncodeWithDelimiter delimiter source buffer =
        .ok ((joined delimiter (source.map digitPair)).length, b) ∧
      (joined delimiter (source.map digitPair)).length < buffer.length ∧
      b.length = buffer.length ∧
      b[(joined delimiter (source.map digitPair)).length]? = some 0 ∧
      b.take (joined delimiter (source.map digitPair)).length =
        joined delimiter (source.map digitPair) := by
  have hlen : (joined delimiter (source.map digitPair)).length + 1 ≤ buffer.length := by
    by_cases hne : source = []
    · subst hne
      exact hsize
    · rw [length_joined hne]
      exact hfit
  have hstart : 0 + (joined delimiter (source.map digitPair)).length ≤ buffer.length := by omega
  obtain ⟨b, hloop, hbsize, htake⟩ := hexEncodeLoop_ok hstart
  rw [Nat.zero_add] at hloop htake
  have hend : (joined delimiter (source.map digitPair)).length + [(0 : UInt8)].length ≤ b.length := by
    rw [hbsize]
    exact hlen
  obtain ⟨stored, hstore⟩ := store_eq hend
  refine ⟨stored, ?_, by omega, (length_store hstore).trans hbsize, getElem?_store hstore, ?_⟩
  · rw [hexEncodeWithDelimiter]
    simp only [if_neg (show ¬ buffer.length = 0 by omega), if_neg (not_lt.mpr hfit), hloop, hstore,
      bind, Except.bind, pure, Except.pure]
  · rw [take_before hstore, htake]
    simp

theorem hexEncode_short
    (hfit : ¬ (if delimiter ≠ 0 then source.length * 3 else source.length * 2 + 1) ≤ buffer.length) :
    hexEncodeWithDelimiter delimiter source buffer = .ok (0, buffer) := by
  rw [hexEncodeWithDelimiter]
  split
  · rfl
  · exact if_pos (by omega)

def decodeNeeded (delimiter : UInt8) (srclen : Nat) : Nat :=
  if delimiter ≠ 0 then (srclen + 1) / 3 else srclen / 2

theorem decodeNeeded_add (delimiter : UInt8) (n : Nat) :
    decodeNeeded delimiter (n + 2 + (delimiters delimiter).length) = decodeNeeded delimiter n + 1 := by
  by_cases hd : delimiter = 0
  · simp only [decodeNeeded, delimiters, hd, ne_eq, not_true_eq_false, if_false, List.length_nil]
    omega
  · simp only [decodeNeeded, delimiters, hd, ne_eq, not_false_eq_true, if_true,
      List.length_singleton]
    omega

/-- What the loop makes of a text. -/
structure Decoded (delimiter : UInt8) (source : List UInt8) (bufpos : Nat) (buffer : List UInt8)
    (r : Nat × List UInt8) : Prop where
  size : r.2.length = buffer.length
  spelled : ∀ out, SpelledBytes hexDecode delimiter source out →
    r.1 = bufpos + out.length ∧ r.2.take r.1 = buffer.take bufpos ++ out
  refused : (¬ ∃ out, SpelledBytes hexDecode delimiter source out) → r.1 = 0

theorem hexDecodeLoop_pair {a b v : UInt8} {rest stored : List UInt8}
    (hv : pairValue hexDecode (a, b) = some v) (hstore : store [v] bufpos buffer = .ok stored) :
    hexDecodeLoop delimiter (a :: b :: rest) bufpos buffer = match rest with
      | c :: d :: more =>
        if delimiter ≠ 0 then
          if c ≠ delimiter then .ok (0, stored)
          else hexDecodeLoop delimiter (d :: more) (bufpos + 1) stored
        else hexDecodeLoop delimiter (c :: d :: more) (bufpos + 1) stored
      | rest => hexDecodeLoop delimiter rest (bufpos + 1) stored := by
  cases ha : hexDecode a with
  | none => simp [pairValue, ha] at hv
  | some h1 =>
    cases hb : hexDecode b with
    | none => simp [pairValue, ha, hb] at hv
    | some h2 =>
      simp only [pairValue, ha, hb, Option.bind_some, Option.map_some, Option.some.injEq] at hv
      subst hv
      rw [hexDecodeLoop]
      simp only [ha, hb, hstore]

theorem hexDecodeLoop_bad {a b : UInt8} {rest : List UInt8}
    (hv : pairValue hexDecode (a, b) = none) :
    hexDecodeLoop delimiter (a :: b :: rest) bufpos buffer = .ok (0, buffer) := by
  cases ha : hexDecode a with
  | none => simp [hexDecodeLoop, ha]
  | some h1 =>
    cases hb : hexDecode b with
    | none => simp [hexDecodeLoop, ha, hb]
    | some h2 => simp [pairValue, ha, hb] at hv

theorem Decoded.of_not_spelled {stored : List UInt8} (hsize : stored.length = buffer.length)
    (h : ¬ ∃ out, SpelledBytes hexDecode delimiter source out) :
    Decoded delimiter source bufpos buffer (0, stored) :=
  ⟨hsize, fun out hout => absurd ⟨out, hout⟩ h, fun _ => rfl⟩

theorem Decoded.cons {a b c v : UInt8} {rest after stored : List UInt8} {r : Nat × List UInt8}
    (hv : pairValue hexDecode (a, b) = some v) (hsplit : c :: rest = delimiters delimiter ++ after)
    (hstore : store [v] bufpos buffer = .ok stored)
    (h : Decoded delimiter after (bufpos + 1) stored r) :
    Decoded delimiter (a :: b :: c :: rest) bufpos buffer r := by
  constructor
  · exact h.size.trans (length_store hstore)
  · intro out hout
    obtain ⟨w, more, after', hsplit', rfl, hw, hmore⟩ := spelledBytes_cons.mp hout
    obtain rfl : after = after' := List.append_cancel_left (hsplit.symm.trans hsplit')
    obtain rfl : v = w := Option.some.inj (hv.symm.trans hw)
    obtain ⟨hpos, htake⟩ := h.spelled more hmore
    have hfirst := take_store hstore
    simp only [List.length_singleton] at hfirst
    constructor
    · rw [hpos, List.length_cons]
      omega
    · rw [htake, hfirst, List.append_assoc, List.singleton_append]
  · intro hnone
    apply h.refused
    rintro ⟨more, hmore⟩
    exact hnone ⟨v :: more, spelledBytes_cons.mpr ⟨v, more, after, hsplit, rfl, hv, hmore⟩⟩

theorem not_spelled_of_bad {a b : UInt8} {rest : List UInt8}
    (hv : pairValue hexDecode (a, b) = none) :
    ¬ ∃ out, SpelledBytes hexDecode delimiter (a :: b :: rest) out := by
  rintro ⟨out, hout⟩
  cases rest with
  | nil =>
    obtain ⟨v, -, hv'⟩ := spelledBytes_two.mp hout
    rw [hv] at hv'
    cases hv'
  | cons c rest =>
    obtain ⟨v, more, after, -, -, hv', -⟩ := spelledBytes_cons.mp hout
    rw [hv] at hv'
    cases hv'

theorem hexDecodeLoop_ok (hne : source ≠ [])
    (hfit : bufpos + decodeNeeded delimiter source.length ≤ buffer.length) :
    ∃ r, hexDecodeLoop delimiter source bufpos buffer = .ok r ∧
      Decoded delimiter source bufpos buffer r := by
  generalize hlen : source.length = n at hfit
  induction n using Nat.strong_induction_on generalizing source bufpos buffer with
  | _ n ih =>
    match source with
    | [] => exact absurd rfl hne
    | [c] =>
      refine ⟨_, rfl, .of_not_spelled rfl ?_⟩
      rintro ⟨out, hout⟩
      have hlong := hout.two_le
      simp at hlong
    | a :: b :: rest =>
      cases hv : pairValue hexDecode (a, b) with
      | none => exact ⟨_, hexDecodeLoop_bad hv, .of_not_spelled rfl (not_spelled_of_bad hv)⟩
      | some v =>
        simp only [List.length_cons] at hlen
        have hone : bufpos + [v].length ≤ buffer.length := by
          simp only [decodeNeeded] at hfit
          rw [List.length_singleton]
          split at hfit <;> omega
        obtain ⟨stored, hstore⟩ := store_eq hone
        have hsize := length_store hstore
        rw [hexDecodeLoop_pair hv hstore]
        match rest with
        | [] =>
          refine ⟨_, rfl, hsize, ?_, ?_⟩
          · intro out hout
            obtain ⟨w, rfl, hw⟩ := spelledBytes_two.mp hout
            obtain rfl : v = w := Option.some.inj (hv.symm.trans hw)
            exact ⟨rfl, by simpa using take_store hstore⟩
          · intro hnone
            exact absurd ⟨[v], spelledBytes_two.mpr ⟨v, rfl, hv⟩⟩ hnone
        | [c] =>
          refine ⟨_, rfl, .of_not_spelled hsize ?_⟩
          rintro ⟨out, hout⟩
          obtain ⟨w, more, after, hsplit, -, -, hmore⟩ := spelledBytes_cons.mp hout
          have hlong := hmore.two_le
          have hshort := congrArg List.length hsplit
          simp only [List.length_append, List.length_singleton] at hshort
          omega
        | c :: d :: more =>
          simp only [List.length_cons] at hlen
          have hgo : ∀ after, c :: d :: more = delimiters delimiter ++ after → after ≠ [] →
              ∃ r, hexDecodeLoop delimiter after (bufpos + 1) stored = .ok r ∧
                Decoded delimiter (a :: b :: c :: d :: more) bufpos buffer r := by
            intro after hsplit hafter
            have hcount := congrArg List.length hsplit
            simp only [List.length_append, List.length_cons] at hcount
            have hn : n = after.length + 2 + (delimiters delimiter).length := by omega
            rw [hn, decodeNeeded_add] at hfit
            have hleft : bufpos + 1 + decodeNeeded delimiter after.length ≤ stored.length := by
              omega
            obtain ⟨r, hr, hdecoded⟩ := ih after.length (by omega) hafter rfl hleft
            exact ⟨r, hr, hdecoded.cons hv hsplit hstore⟩
          by_cases hd : delimiter = 0
          · simp only [hd, ne_eq, not_true_eq_false, if_false]
            simpa [hd] using hgo (c :: d :: more) (by simp [delimiters, hd]) (by simp)
          · simp only [ne_eq, hd, not_false_eq_true, if_true]
            by_cases hc : c = delimiter
            · simp only [hc, not_true_eq_false, if_false]
              rw [hc] at hgo
              exact hgo (d :: more) (by simp [delimiters, hd]) (by simp)
            · simp only [hc, not_false_eq_true, if_true]
              refine ⟨_, rfl, .of_not_spelled hsize ?_⟩
              rintro ⟨out, hout⟩
              obtain ⟨w, more', after, hsplit, -⟩ := spelledBytes_cons.mp hout
              simp only [delimiters, ne_eq, hd, not_false_eq_true, if_true, List.cons_append] at hsplit
              exact hc (List.cons.inj hsplit).1

theorem hexDecode_ok (hsize : 0 < buffer.length) (hne : source ≠ [])
    (hfit : decodeNeeded delimiter source.length ≤ buffer.length) :
    ∃ r, hexDecodeWithDelimiter delimiter source buffer = .ok r ∧
      Decoded delimiter source 0 buffer r := by
  have hstart : 0 + decodeNeeded delimiter source.length ≤ buffer.length := by omega
  obtain ⟨r, hr, hdecoded⟩ := hexDecodeLoop_ok hne hstart
  refine ⟨r, ?_, hdecoded⟩
  rw [hexDecodeWithDelimiter]
  simp only [decodeNeeded] at hfit
  simp only [if_neg (show ¬ buffer.length = 0 by omega), if_neg (not_lt.mpr hfit), hr]

theorem hexDecode_short (hfit : ¬ decodeNeeded delimiter source.length ≤ buffer.length) :
    hexDecodeWithDelimiter delimiter source buffer = .ok (0, buffer) := by
  simp only [decodeNeeded, not_le] at hfit
  rw [hexDecodeWithDelimiter]
  simp only [hfit, if_true, ite_self]

theorem hexDecode_empty : hexDecodeWithDelimiter delimiter [] buffer = .ok (0, buffer) := by
  unfold hexDecodeWithDelimiter
  simp [hexDecodeLoop]

end Runs

end Libjingle.Text
