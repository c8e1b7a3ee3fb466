import Mathlib.Data.List.Infix
import Mathlib.Tactic.Common

/-! Loops that read a source piece by piece, write the transform of each piece to a buffer of
fixed size as long as there is room, and end what they wrote with a terminator. -/

namespace Transcoder

inductive Fault
  | overread
  | overrun
  | assertion
  | unfinished
  deriving DecidableEq, Repr

/-- What is written for the front of the source, what comes after it, and whether the loop goes
on with it at a position in a buffer of some length. -/
structure Piece (α β : Type*) where
  bytes : List β
  rest : List α
  room : Nat → Nat → Bool

inductive Next (α β : Type*)
  | piece (p : Piece α β)
  | stop
  | fault (f : Fault)

variable {α β : Type*}

/-- A piece is read the same when the source ends after some more of it. -/
structure Front (next : List α → Next α β) (source : List α) (p : Piece α β) (front : List α) :
    Prop where
  ne_nil : front ≠ []
  split : source = front ++ p.rest
  same : ∀ tail, tail <+: p.rest →
    ∃ q, next (front ++ tail) = .piece q ∧ q.bytes = p.bytes ∧ q.rest = tail

/-- The condition of a loop on position and length, and what the loop does with its source. -/
structure Coder (α β : Type*) where
  more : Nat → Nat → Bool
  next : List α → Next α β
  front : ∀ source p, next source = .piece p → ∃ front, Front next source p front

/-- A loop whose pieces are single elements. -/
def Coder.ofChars (more : Nat → Nat → Bool)
    (char : α → Option (List β × (Nat → Nat → Bool))) : Coder α β where
  more
  next
    | [] => .stop
    | a :: rest =>
      match char a with
      | some (bytes, room) => .piece ⟨bytes, rest, room⟩
      | none => .fault .assertion
  front source p h := by
    cases source with
    | nil => cases h
    | cons a rest =>
      cases hchar : char a with
      | none => simp [hchar] at h
      | some r =>
        simp only [hchar, Next.piece.injEq] at h
        subst h
        refine ⟨[a], by simp, rfl, ?_⟩
        intro tail _
        simp [hchar]

def store (bytes : List β) (pos : Nat) (buffer : List β) : Except Fault (List β) :=
  if pos + bytes.length ≤ buffer.length then
    .ok (buffer.take pos ++ bytes ++ buffer.drop (pos + bytes.length))
  else .error .overrun

def loop (c : Coder α β) : Nat → List α → Nat → List β → Except Fault (Nat × List β)
  | _, [], bufpos, buffer => .ok (bufpos, buffer)
  | 0, _ :: _, _, _ => .error .unfinished
  | fuel + 1, a :: source, bufpos, buffer =>
    if c.more bufpos buffer.length then
      match c.next (a :: source) with
      | .stop => .ok (bufpos, buffer)
      | .fault f => .error f
      | .piece p =>
        if p.room bufpos buffer.length then
          match store p.bytes bufpos buffer with
          | .error f => .error f
          | .ok buffer => loop c fuel p.rest (bufpos + p.bytes.length) buffer
        else .ok (bufpos, buffer)
    else .ok (bufpos, buffer)

/-- How much is written, and the buffer then. -/
def run (c : Coder α β) (zero : β) (source : List α) (buffer : List β) :
    Except Fault (Nat × List β) :=
  if buffer = [] then .ok (0, [])
  else
    match loop c source.length source 0 buffer with
    | .error f => .error f
    | .ok (bufpos, buffer) => (store [zero] bufpos buffer).map fun b => (bufpos, b)

/-- The transform of the source up to what is left of it. -/
inductive Reads (c : Coder α β) : List α → List β → List α → Prop
  | nil (source : List α) : Reads c source [] source
  | piece {source : List α} {p : Piece α β} {out : List β} {rest : List α}
      (h : c.next source = .piece p) (hrest : Reads c p.rest out rest) :
      Reads c source (p.bytes ++ out) rest

/-- The loop gets to a place. -/
inductive Reaches (c : Coder α β) (size : Nat) (source : List α) : List β → List α → Prop
  | start : Reaches c size source [] source
  | step {out : List β} {rest : List α} {p : Piece α β} (h : Reaches c size source out rest)
      (hmore : c.more out.length size = true) (hnext : c.next rest = .piece p)
      (hroom : p.room out.length size = true) : Reaches c size source (out ++ p.bytes) p.rest

/-- Where the loop gets to, it can go on, and what it writes leaves room for the terminator. -/
structure Fits (c : Coder α β) (size : Nat) (source : List α) : Prop where
  reads : ∀ out rest f, Reaches c size source out rest → rest ≠ [] →
    c.more out.length size = true → c.next rest ≠ .fault f
  leaves : ∀ out rest p, Reaches c size source out rest → c.more out.length size = true →
    c.next rest = .piece p → p.room out.length size = true → out.length + p.bytes.length < size

/-- A piece is written where there is room for it and the terminator. -/
structure Roomy (c : Coder α β) (size : Nat) : Prop where
  goes : ∀ source p n, c.next source = .piece p → n + p.bytes.length < size →
    c.more n size = true ∧ p.room n size = true

/-- Each piece of a valid source is read back from its transform, which is at most `k` times as
long. -/
structure Inverse (enc : Coder α β) (dec : Coder β α) (Valid : List α → Prop) (k : Nat) : Prop where
  piece : ∀ source, Valid source → source ≠ [] → ∃ p front, enc.next source = .piece p ∧
    source = front ++ p.rest ∧ Valid p.rest ∧ p.bytes.length ≤ k * front.length ∧
    ∀ tail, ∃ q, dec.next (p.bytes ++ tail) = .piece q ∧ q.bytes = front ∧ q.rest = tail

/-- The transform of a prefix of the source that ends with a whole piece, and a terminator. -/
structure Contained (c : Coder α β) (zero : β) (source : List α) (buffer : List β)
    (r : Nat × List β) : Prop where
  size : r.2.length = buffer.length
  inside : r.1 < buffer.length
  ends : r.2[r.1]? = some zero
  whole : ∃ front rest, source = front ++ rest ∧ Reads c source (r.2.take r.1) rest ∧
    Reads c front (r.2.take r.1) []

section Store

variable {bytes out : List β} {pos : Nat} {buffer stored : List β}

theorem store_ok (h : store bytes pos buffer = .ok stored) :
    pos + bytes.length ≤ buffer.length ∧
      stored = buffer.take pos ++ bytes ++ buffer.drop (pos + bytes.length) := by
  unfold store at h
  split at h
  · next hle => exact ⟨hle, (Except.ok.inj h).symm⟩
  · cases h

theorem length_store (h : store bytes pos buffer = .ok stored) :
    stored.length = buffer.length := by
  obtain ⟨hle, rfl⟩ := store_ok h
  simp only [List.length_append, List.length_take, List.length_drop]
  omega

theorem take_store (h : store bytes pos buffer = .ok stored) :
    stored.take (pos + bytes.length) = buffer.take pos ++ bytes := by
  obtain ⟨hle, rfl⟩ := store_ok h
  apply List.take_left'
  simp only [List.length_append, List.length_take]
  omega

theorem take_before (h : store bytes pos buffer = .ok stored) :
    stored.take pos = buffer.take pos := by
  obtain ⟨hle, rfl⟩ := store_ok h
  have hlen : (buffer.take pos).length = pos := by
    rw [List.length_take]
    omega
  rw [List.append_assoc, List.take_left' hlen]

theorem getElem?_store {b : β} (h : store [b] pos buffer = .ok stored) :
    stored[pos]? = some b := by
  obtain ⟨hle, rfl⟩ := store_ok h
  have hlen : (buffer.take pos).length = pos := by
    rw [List.length_take]
    simp only [List.length_singleton] at hle
    omega
  rw [List.append_assoc, List.getElem?_append_right hlen.le, hlen]
  simp

theorem store_eq (h : pos + bytes.length ≤ buffer.length) : ∃ stored,
    store bytes pos buffer = .ok stored := by
  simp [store, h]

end Store

section Reading

variable {c : Coder α β} {source mid rest : List α} {out more : List β} {p : Piece α β} {size : Nat}

theorem length_rest (h : c.next source = .piece p) : p.rest.length < source.length := by
  obtain ⟨front, hfront⟩ := c.front source p h
  have hpos := List.length_pos_of_ne_nil hfront.ne_nil
  have hsplit := congrArg List.length hfront.split
  rw [List.length_append] at hsplit
  omega

theorem Reads.snoc (h : Reads c source out mid) (hnext : c.next mid = .piece p) :
    Reads c source (out ++ p.bytes) p.rest := by
  induction h with
  | nil source => simpa using Reads.piece hnext (.nil p.rest)
  | piece hfirst _ ih =>
    rw [List.append_assoc]
    exact .piece hfirst (ih hnext)

theorem Reaches.reads (h : Reaches c size source out rest) : Reads c source out rest := by
  induction h with
  | start => exact .nil source
  | step _ _ hnext _ ih => exact ih.snoc hnext

/-- The pieces before a place are those of a source that ends there. -/
theorem Reads.front (h : Reads c source out rest) :
    ∃ front, source = front ++ rest ∧ Reads c front out [] := by
  induction h with
  | nil source => exact ⟨[], rfl, .nil []⟩
  | piece hnext _ ih =>
    obtain ⟨before, hsplit, hbefore⟩ := ih
    obtain ⟨front, hfront⟩ := c.front _ _ hnext
    obtain ⟨q, hq, hbytes, rfl⟩ := hfront.same before ⟨_, hsplit.symm⟩
    refine ⟨front ++ q.rest, ?_, ?_⟩
    · rw [hfront.split, hsplit, List.append_assoc]
    · rw [← hbytes]
      exact .piece hq hbefore

end Reading

section Running

variable {c : Coder α β} {zero : β} {source rest : List α} {buffer : List β} {out : List β}
  {fuel bufpos : Nat} {r : Nat × List β}

/-- Either the loop is over, or a piece is stored and it goes on. -/
theorem loop_cases (h : loop c fuel source bufpos buffer = .ok r) :
    r = (bufpos, buffer) ∨ ∃ p stored n, fuel = n + 1 ∧ c.next source = .piece p ∧
      store p.bytes bufpos buffer = .ok stored ∧
      loop c n p.rest (bufpos + p.bytes.length) stored = .ok r := by
  cases source with
  | nil =>
    cases fuel <;> exact .inl (Except.ok.inj h).symm
  | cons a source =>
    cases fuel with
    | zero => cases h
    | succ n =>
      rw [loop] at h
      split at h
      · split at h
        · exact .inl (Except.ok.inj h).symm
        · cases h
        · next p hnext =>
          split at h
          · split at h
            · cases h
            · next stored hstore => exact .inr ⟨p, stored, n, rfl, hnext, hstore, h⟩
          · exact .inl (Except.ok.inj h).symm
      · exact .inl (Except.ok.inj h).symm

/-- What the loop writes comes after what is there. -/
theorem loop_ok (h : loop c fuel source bufpos buffer = .ok r) (hpos : bufpos ≤ buffer.length) :
    r.2.length = buffer.length ∧ bufpos ≤ r.1 ∧ r.1 ≤ buffer.length ∧
      ∃ out rest, Reads c source out rest ∧ r.2.take r.1 = buffer.take bufpos ++ out := by
  induction fuel generalizing source bufpos buffer with
  | zero =>
    rcases loop_cases h with rfl | ⟨p, stored, n, hfuel, -⟩
    · exact ⟨rfl, le_rfl, hpos, [], source, .nil source, by simp⟩
    · cases hfuel
  | succ fuel ih =>
    rcases loop_cases h with rfl | ⟨p, stored, n, hfuel, hnext, hstore, hloop⟩
    · exact ⟨rfl, le_rfl, hpos, [], source, .nil source, by simp⟩
    · obtain rfl := Nat.succ.inj hfuel
      have hlen := length_store hstore
      have hfit := (store_ok hstore).1
      obtain ⟨hsize, hle, hbound, out, rest, hreads, htake⟩ := ih hloop (by omega)
      refine ⟨hsize.trans hlen, by omega, by omega, p.bytes ++ out, rest, .piece hnext hreads, ?_⟩
      rw [htake, take_store hstore, List.append_assoc]

theorem run_ok (h : run c zero source buffer = .ok r) (hne : buffer ≠ []) :
    Contained c zero source buffer r := by
  rw [run, if_neg hne] at h
  split at h
  · cases h
  · next bufpos written hloop =>
    obtain ⟨hsize, -, -, out, rest, hreads, htake⟩ := loop_ok hloop (Nat.zero_le _)
    cases hstore : store [zero] bufpos written with
    | error f => simp [hstore, Except.map] at h
    | ok stored =>
      simp only [hstore, Except.map, Except.ok.injEq] at h
      subst h
      have hfit := (store_ok hstore).1
      simp only [List.length_singleton] at hfit hsize
      obtain ⟨front, hsplit, hfront⟩ := hreads.front
      have htaken : stored.take bufpos = out := by
        rw [take_before hstore]
        simpa using htake
      refine ⟨(length_store hstore).trans hsize, ?_, getElem?_store hstore, front, rest, hsplit,
        ?_, ?_⟩
      · show bufpos < buffer.length
        omega
      · rwa [htaken]
      · rwa [htaken]

theorem loop_piece {p : Piece α β} (hnext : c.next source = .piece p)
    (hmore : c.more bufpos buffer.length = true) (hroom : p.room bufpos buffer.length = true)
    (hfuel : source.length ≤ fuel) : ∃ n, p.rest.length ≤ n ∧
      loop c fuel source bufpos buffer = match store p.bytes bufpos buffer with
        | .error f => .error f
        | .ok stored => loop c n p.rest (bufpos + p.bytes.length) stored := by
  have hrest := length_rest hnext
  cases source with
  | nil => simp at hrest
  | cons a source =>
    cases fuel with
    | zero => simp at hfuel
    | succ n =>
      simp only [List.length_cons] at hfuel hrest
      refine ⟨n, by omega, ?_⟩
      rw [loop, if_pos hmore, hnext]
      simp only [hroom, if_true]

/-- A place that a loop gets to is one that a run that goes well goes through. -/
theorem loop_through (hreach : Reaches c buffer.length source out rest)
    (h : loop c source.length source 0 buffer = .ok r) :
    ∃ n written, rest.length ≤ n ∧ written.length = buffer.length ∧
      out.length ≤ buffer.length ∧ loop c n rest out.length written = .ok r := by
  induction hreach with
  | start => exact ⟨_, buffer, le_rfl, rfl, Nat.zero_le _, h⟩
  | step _ hmore hnext hroom ih =>
    obtain ⟨n, written, hle, hlen, hfit, hloop⟩ := ih
    rw [← hlen] at hmore hroom
    obtain ⟨k, hk, heq⟩ := loop_piece hnext hmore hroom hle
    rw [heq] at hloop
    split at hloop
    · cases hloop
    · next stored hstore =>
      have hbound := (store_ok hstore).1
      refine ⟨k, stored, hk, (length_store hstore).trans hlen, ?_, ?_⟩
      · rw [List.length_append]
        omega
      · rwa [List.length_append]

/-- Where it can go on, and leaves room, the loop is not at fault. -/
theorem loop_fits (hfits : Fits c buffer.length source) {written : List β}
    (hreach : Reaches c buffer.length source out rest) (hlen : written.length = buffer.length)
    (hfuel : rest.length ≤ fuel) (hout : out.length < buffer.length) :
    ∃ r, loop c fuel rest out.length written = .ok r ∧ r.1 < buffer.length ∧
      r.2.length = buffer.length := by
  induction fuel generalizing out rest written with
  | zero =>
    obtain rfl : rest = [] := List.eq_nil_of_length_eq_zero (by omega)
    exact ⟨_, rfl, hout, hlen⟩
  | succ n ih =>
    cases rest with
    | nil => exact ⟨_, rfl, hout, hlen⟩
    | cons a rest =>
      rw [loop, hlen]
      split
      · next hmore =>
        cases hnext : c.next (a :: rest) with
        | stop => exact ⟨_, rfl, hout, hlen⟩
        | fault f => exact absurd hnext (hfits.reads _ _ f hreach (by simp) hmore)
        | piece p =>
          cases hroom : p.room out.length buffer.length with
          | false =>
            simp only [hroom, Bool.false_eq_true, if_false]
            exact ⟨_, rfl, hout, hlen⟩
          | true =>
            have hleaves := hfits.leaves _ _ p hreach hmore hnext hroom
            have hbound : out.length + p.bytes.length ≤ written.length := by omega
            obtain ⟨stored, hstore⟩ := store_eq hbound
            have hrest := length_rest hnext
            have hstep := hreach.step hmore hnext hroom
            simp only [List.length_cons] at hfuel hrest
            obtain ⟨r, hr, hin, hsize⟩ := ih hstep ((length_store hstore).trans hlen) (by omega)
              (by rw [List.length_append]; omega)
            rw [List.length_append] at hr
            simp only [hroom, if_true, hstore]
            exact ⟨r, hr, hin, hsize⟩
      · exact ⟨_, rfl, hout, hlen⟩

/-- A run goes well exactly if the loop leaves room wherever it gets to. -/
theorem run_iff (hne : buffer ≠ []) :
    (∃ r, run c zero source buffer = .ok r) ↔ Fits c buffer.length source := by
  have hpos := List.length_pos_of_ne_nil hne
  constructor
  · rintro ⟨r, hr⟩
    have hinside := (run_ok hr hne).inside
    rw [run, if_neg hne] at hr
    split at hr
    · cases hr
    · next bufpos written hloop =>
      have hfirst : r.1 = bufpos := by
        cases hstore : store [zero] bufpos written with
        | error f => simp [hstore, Except.map] at hr
        | ok stored =>
          simp only [hstore, Except.map, Except.ok.injEq] at hr
          rw [← hr]
      constructor
      · intro out rest f hreach hsource hmore hnext
        obtain ⟨n, before, hle, hlen, -, hgo⟩ := loop_through hreach hloop
        cases rest with
        | nil => exact absurd rfl hsource
        | cons a rest =>
          cases n with
          | zero => simp at hle
          | succ n =>
            rw [loop, hlen, if_pos hmore, hnext] at hgo
            cases hgo
      · intro out rest p hreach hmore hnext hroom
        obtain ⟨n, before, -, hlen, hbound, hgo⟩ :=
          loop_through (hreach.step hmore hnext hroom) hloop
        have hle := (loop_ok hgo (by omega)).2.1
        rw [List.length_append] at hle
        show out.length + p.bytes.length < buffer.length
        have hfinal : bufpos < buffer.length := hfirst ▸ hinside
        exact lt_of_le_of_lt hle hfinal
  · intro hfits
    obtain ⟨⟨bufpos, written⟩, hloop, hin, hsize⟩ := loop_fits hfits .start rfl le_rfl hpos
    have hloop' : loop c source.length source 0 buffer = .ok (bufpos, written) := hloop
    have hbound : bufpos + [zero].length ≤ written.length := by
      simp only at hin hsize
      rw [hsize, List.length_singleton]
      omega
    obtain ⟨stored, hstore⟩ := store_eq hbound
    refine ⟨(bufpos, stored), ?_⟩
    rw [run, if_neg hne, hloop']
    simp only [hstore, Except.map]

/-- Where there is room for the whole transform, all of it is written. -/
theorem loop_reads (h : Reads c source out []) (hroomy : Roomy c buffer.length)
    (hfit : bufpos + out.length < buffer.length) (hfuel : source.length ≤ fuel) :
    ∃ b, loop c fuel source bufpos buffer = .ok (bufpos + out.length, b) ∧
      b.length = buffer.length ∧ b.take (bufpos + out.length) = buffer.take bufpos ++ out := by
  generalize hend : ([] : List α) = rest at h
  induction h generalizing bufpos fuel buffer with
  | nil source =>
    subst hend
    refine ⟨buffer, ?_, rfl, by simp⟩
    cases fuel <;> rfl
  | @piece source p out rest hnext _ ih =>
    rw [List.length_append] at hfit
    obtain ⟨hmore, hroom⟩ := hroomy.goes source p bufpos hnext (by omega)
    obtain ⟨n, hn, heq⟩ := loop_piece hnext hmore hroom hfuel
    have hbound : bufpos + p.bytes.length ≤ buffer.length := by omega
    obtain ⟨stored, hstore⟩ := store_eq hbound
    have hlen := length_store hstore
    have hleft : bufpos + p.bytes.length + out.length < stored.length := by omega
    obtain ⟨b, hb, hsize, htake⟩ := ih (hlen ▸ hroomy) hleft hn hend
    refine ⟨b, ?_, hsize.trans hlen, ?_⟩
    · rw [heq, hstore, List.length_append, ← Nat.add_assoc]
      exact hb
    · rw [List.length_append, ← Nat.add_assoc, htake, take_store hstore, List.append_assoc]

theorem run_of_reads (h : Reads c source out []) (hroomy : Roomy c buffer.length)
    (hfit : out.length < buffer.length) :
    ∃ b, run c zero source buffer = .ok (out.length, b) ∧ b.take out.length = out := by
  have hne : buffer ≠ [] := List.ne_nil_of_length_pos (by omega)
  have hstart : 0 + out.length < buffer.length := by omega
  obtain ⟨b, hloop, hsize, htake⟩ := loop_reads h hroomy hstart le_rfl
  rw [Nat.zero_add] at hloop htake
  have hbound : out.length + [zero].length ≤ b.length := by
    rw [List.length_singleton]
    omega
  obtain ⟨stored, hstore⟩ := store_eq hbound
  refine ⟨stored, ?_, ?_⟩
  · rw [run, if_neg hne, hloop]
    simp only [hstore, Except.map]
  · rw [take_before hstore, htake]
    simp

end Running

section Limits

variable {c : Coder α β} {size : Nat} {source rest : List α} {out : List β}

/-- Whenever a piece is written there is room for it and the terminator, and nothing faults. -/
structure Snug (c : Coder α β) (size : Nat) : Prop where
  reads : ∀ source f, source ≠ [] → c.next source ≠ .fault f
  leaves : ∀ source p n, c.next source = .piece p → c.more n size = true →
    p.room n size = true → n + p.bytes.length < size

theorem Snug.fits (h : Snug c size) : Fits c size source :=
  ⟨fun _ rest f _ hne _ => h.reads rest f hne,
    fun _ rest p _ hmore hnext hroom => h.leaves rest p _ hnext hmore hroom⟩

/-- What fits in the buffer is written on the way. -/
theorem Roomy.reaches (h : Roomy c size) (hreads : Reads c source out rest)
    (hout : out.length < size) : Reaches c size source out rest := by
  suffices hgo : ∀ before mid, Reaches c size source before mid → Reads c mid out rest →
      (before ++ out).length < size → Reaches c size source (before ++ out) rest by
    exact hgo [] source .start hreads hout
  clear hreads hout
  intro before mid hreach hreads hlen
  induction hreads generalizing before with
  | nil mid => simpa using hreach
  | @piece mid p out rest hnext _ ih =>
    rw [← List.append_assoc] at hlen ⊢
    have hfirst : before.length + p.bytes.length < size := by
      simp only [List.length_append] at hlen
      omega
    obtain ⟨hmore, hroom⟩ := h.goes mid p before.length hnext hfirst
    exact ih (before ++ p.bytes) (hreach.step hmore hnext hroom) hlen

/-- A roomy loop gets to where the transform of a prefix does. -/
theorem Roomy.fits_iff (h : Roomy c size) (hmore : ∀ n, c.more n size = true → n < size) :
    Fits c size source ↔ ∀ out rest, Reads c source out rest → c.more out.length size = true →
      (rest ≠ [] → ∀ f, c.next rest ≠ .fault f) ∧
      ∀ p, c.next rest = .piece p → p.room out.length size = true →
        out.length + p.bytes.length < size := by
  constructor
  · intro hfits out rest hreads hgo
    have hreach := h.reaches hreads (hmore _ hgo)
    exact ⟨fun hne f => hfits.reads out rest f hreach hne hgo,
      fun p hnext hroom => hfits.leaves out rest p hreach hgo hnext hroom⟩
  · intro hall
    constructor
    · intro out rest f hreach hne hgo
      exact (hall out rest hreach.reads hgo).1 hne f
    · intro out rest p hreach hgo hnext hroom
      exact (hall out rest hreach.reads hgo).2 p hnext hroom

variable {more : Nat → Nat → Bool} {char : α → List β × (Nat → Nat → Bool)}

theorem reads_ofChars : Reads (.ofChars more fun a => some (char a)) source out rest ↔
    ∃ front, source = front ++ rest ∧ out = front.flatMap fun a => (char a).1 := by
  constructor
  · intro h
    induction h with
    | nil source => exact ⟨[], rfl, rfl⟩
    | @piece source p out rest hnext _ ih =>
      obtain ⟨front, hsplit, rfl⟩ := ih
      cases source with
      | nil => cases hnext
      | cons a source =>
        cases hnext
        exact ⟨a :: front, by rw [List.cons_append, ← hsplit], by simp⟩
  · rintro ⟨front, rfl, rfl⟩
    induction front with
    | nil => exact .nil _
    | cons a front ih =>
      rw [List.flatMap_cons, List.cons_append]
      exact Reads.piece (p := ⟨(char a).1, front ++ rest, (char a).2⟩) rfl ih

end Limits

section RoundTrip

variable {enc : Coder α β} {dec : Coder β α} {Valid : List α → Prop} {k : Nat} {source : List α}

theorem Inverse.reads (h : Inverse enc dec Valid k) (hvalid : Valid source) :
    ∃ out, Reads enc source out [] ∧ Reads dec out source [] ∧ out.length ≤ k * source.length := by
  generalize hlen : source.length = n
  induction n using Nat.strong_induction_on generalizing source with
  | _ n ih =>
    by_cases hne : source = []
    · subst hne
      exact ⟨[], .nil [], .nil [], by simp⟩
    · obtain ⟨p, front, hnext, hsplit, hrest, hbound, hback⟩ := h.piece source hvalid hne
      have hshort := length_rest hnext
      obtain ⟨out, henc, hdec, hout⟩ := ih p.rest.length (by omega) hrest rfl
      obtain ⟨q, hq, hbytes, hqrest⟩ := hback out
      refine ⟨p.bytes ++ out, .piece hnext henc, ?_, ?_⟩
      · rw [hsplit, ← hbytes]
        rw [← hqrest] at hdec
        exact .piece hq hdec
      · have hsum : n = front.length + p.rest.length := by
          rw [← hlen, ← List.length_append, ← hsplit]
        rw [List.length_append, hsum, Nat.mul_add]
        omega

/-- What is written of a valid source is read back from it. -/
theorem Inverse.round_trip (h : Inverse enc dec Valid k) (hvalid : Valid source) {a : α} {b : β}
    {text : List β} {back : List α} (htext : k * source.length < text.length)
    (hback : source.length < back.length) (henc : Roomy enc text.length)
    (hdec : Roomy dec back.length) :
    ∃ n written, run enc b source text = .ok (n, written) ∧
      ∃ r, run dec a (written.take n) back = .ok (source.length, r) ∧
        r.take source.length = source := by
  obtain ⟨out, hout, hin, hlen⟩ := h.reads hvalid
  obtain ⟨written, hrun, htake⟩ := run_of_reads hout henc (by omega)
  obtain ⟨r, hread, hr⟩ := run_of_reads hin hdec hback
  refine ⟨out.length, written, hrun, r, ?_, hr⟩
  rwa [htake]

end RoundTrip

end Transcoder
