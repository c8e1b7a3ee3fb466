import Libjingle.Base.Strtoul
import Mathlib.Data.List.DropRight
import Mathlib.Logic.Relation

/-! `HttpParser` reads HTTP from a buffer to which more is appended while what was processed is
taken out of it. What its user is told is the same however the bytes come in. -/

namespace Libjingle

inductive HttpError
  | none | protocol | disconnected | overflow | connectFailed | socketError | shutdown
  | operationCancelled | auth | certificateExpired | stream | cache | default
  deriving DecidableEq, Repr

/-- A `size_t` for a size, where the largest one is `SIZE_UNKNOWN`. -/
def dataSizeOf (n : Nat) : Option Nat := if n = 2 ^ 64 - 1 then none else some n

inductive HttpEvent
  | leader (line : List UInt8)
  | header (name value : List UInt8)
  | headerComplete (chunked : Bool) (dataSize : Option Nat)
  | data (byte : UInt8)
  deriving DecidableEq, Repr

namespace HttpParser

inductive ProcessResult
  | prContinue | prBlock | prComplete
  deriving DecidableEq, Repr

inductive State
  | leader | headers | chunkSize | chunkTerm | trailers | data | complete
  deriving DecidableEq, Repr

/-- What the subclass answers, which may depend on all that it was told before. An error counts
only with a result other than `PR_CONTINUE`. -/
structure Callbacks where
  processLeader : List HttpEvent → List UInt8 → ProcessResult × HttpError
  processHeader : List HttpEvent → List UInt8 → List UInt8 → ProcessResult × HttpError
  processHeaderComplete : List HttpEvent → Bool → Option Nat →
    ProcessResult × HttpError × Option Nat

/-- What `ProcessData` does with bytes: it takes one and at most so many more, or none. -/
inductive Answer
  | accept (more : Nat)
  | block
  | fail (error : HttpError)
  deriving DecidableEq, Repr

end HttpParser

structure HttpParser where
  state : HttpParser.State := .leader
  chunked : Bool := false
  dataSize : Option Nat := none
  deriving DecidableEq, Repr

namespace HttpParser

def toLower (c : UInt8) : UInt8 := if 0x41 ≤ c ∧ c ≤ 0x5A then c + 0x20 else c

/-- `_strnicmp` of a text with one that has no terminator. -/
def equalNoCase (text other : List UInt8) : Bool := text.map toLower = other.map toLower

def contentLength : List UInt8 := stringBytes "Content-Length"
def transferEncoding : List UInt8 := stringBytes "Transfer-Encoding"

/-- A line and what comes after it. -/
def takeLine : List UInt8 → Option (List UInt8 × List UInt8)
  | [] => none
  | c :: rest => if c = 10 then some ([], rest) else (takeLine rest).map fun r => (c :: r.1, r.2)

/-- The name in front of the colon, which `strchrn` does not look for behind a terminator, and
the value. -/
def splitHeader (line : List UInt8) : Option (List UInt8 × List UInt8) :=
  match line.dropWhile fun c => c ≠ 0x3A ∧ c ≠ 0 with
  | 0x3A :: value =>
    some (line.takeWhile fun c => c ≠ 0x3A ∧ c ≠ 0, value.dropWhile isSpaceByte)
  | _ => none

section Process

variable (h : Callbacks) (p : HttpParser) (seen : List HttpEvent)

/-- What a line leaves: the parser, what was told, and the result. -/
abbrev LineOutcome := HttpParser × List HttpEvent × ProcessResult × HttpError

def tellHeader (name value : List UInt8) : LineOutcome :=
  let (result, error) := h.processHeader seen name value
  (p, seen ++ [.header name value], result, error)

/-- `after` is the memory behind the line, where `sscanf` may go on. -/
def processLine (line after : List UInt8) : LineOutcome :=
  match p.state with
  | .leader =>
    let (result, error) := h.processLeader seen line
    ({ p with state := .headers }, seen ++ [.leader line], result, error)
  | .headers =>
    if line ≠ [] then
      match splitHeader line with
      | none => (p, seen, .prComplete, .protocol)
      | some (name, value) =>
        if equalNoCase name contentLength then
          match scanUnsigned (value ++ after) with
          | some (some size) => tellHeader h { p with dataSize := some size.toNat } seen name value
          | _ => (p, seen, .prComplete, .protocol)
        else if equalNoCase name transferEncoding then
          if equalNoCase value (stringBytes "chunked") then
            tellHeader h { p with chunked := true } seen name value
          else if equalNoCase value (stringBytes "identity") then
            tellHeader h { p with chunked := false } seen name value
          else (p, seen, .prComplete, .protocol)
        else tellHeader h p seen name value
    else
      let (result, error, size) := h.processHeaderComplete seen p.chunked p.dataSize
      ({ p with state := if p.chunked then .chunkSize else .data, dataSize := size },
        seen ++ [.headerComplete p.chunked p.dataSize], result, error)
  | .chunkSize =>
    if line ≠ [] then
      match strtoul 16 (line ++ after) with
      | none => (p, seen, .prComplete, .protocol)
      | some (size, rest) =>
        if rest.length ≠ after.length then
          ({ p with dataSize := dataSizeOf size }, seen, .prComplete, .protocol)
        else ({ p with state := if size = 0 then .trailers else .data, dataSize := dataSizeOf size },
          seen, .prContinue, .none)
    else (p, seen, .prComplete, .protocol)
  | .chunkTerm =>
    if line ≠ [] then (p, seen, .prComplete, .protocol)
    else ({ p with state := if p.chunked then .chunkSize else .data }, seen, .prContinue, .none)
  | .trailers => if line = [] then (p, seen, .prComplete, .none) else (p, seen, .prContinue, .none)
  | .data | .complete => (p, seen, .prContinue, .none)

/-- The parser, what was told, and what is left of the buffer. -/
structure Config where
  parser : HttpParser
  seen : List HttpEvent
  rest : List UInt8

structure Outcome extends Config where
  result : ProcessResult
  error : HttpError

/-- The states in which a line is read. -/
def State.ofLine : State → Bool
  | .data | .complete => false
  | _ => true

def consumed (n : Nat) : HttpParser := { p with dataSize := p.dataSize.map (· - n) }

def available (n : Nat) : Nat :=
  match p.dataSize with
  | none => n
  | some size => if n > size then size else n

/-- One turn of the loop in `Process` goes on or returns. -/
inductive Pass
  | again (c : Config) (answers : List Answer)
  | done (o : Outcome)

def pass (beyond : List UInt8) (c : Config) (answers : List Answer) : Pass :=
  let p := c.parser
  if p.state.ofLine then
    match takeLine c.rest with
    | none => .done ⟨c, .prContinue, .none⟩
    | some (raw, tail) =>
      match p.processLine h c.seen (raw.rdropWhile isSpaceByte)
        (raw.rtakeWhile isSpaceByte ++ 10 :: (tail ++ beyond)) with
      | (q, seen, .prContinue, _) => .again ⟨q, seen, tail⟩ answers
      | (q, seen, result, error) => .done ⟨⟨q, seen, tail⟩, result, error⟩
  else if p.dataSize = some 0 then
    if p.chunked then .again { c with parser := { p with state := .chunkTerm } } answers
    else .done ⟨c, .prComplete, .none⟩
  else if c.rest = [] then .done ⟨c, .prContinue, .none⟩
  else
    match answers with
    | .accept more :: answers =>
      let n := min (more + 1) (p.available c.rest.length)
      .again ⟨p.consumed n, c.seen ++ (c.rest.take n).map .data, c.rest.drop n⟩ answers
    | .fail error :: _ => .done ⟨c, .prComplete, error⟩
    | _ => .done ⟨c, .prBlock, .none⟩

def loop (beyond : List UInt8) : Nat → Config → List Answer → Outcome
  | 0, c, _ => ⟨c, .prContinue, .none⟩
  | fuel + 1, c, answers =>
    match pass h beyond c answers with
    | .again c answers => loop beyond fuel c answers
    | .done o => o

/-- `ProcessData` blocks when there are no more answers. -/
def process (beyond : List UInt8) (c : Config) (answers : List Answer) : Outcome :=
  if c.parser.state = .complete then ⟨c, .prComplete, .none⟩
  else loop h beyond (2 * c.rest.length + 2) c answers

end Process

/-! The stream, read one line or one byte of the document at a time. -/

section Stream

variable (h : Callbacks)

inductive Turn
  | wait
  | stop (error : HttpError) (c : Config)
  | go (c : Config)

/-- What comes next in the stream. The number in a line is read from the line alone. -/
def turn (c : Config) : Turn :=
  let p := c.parser
  if p.state.ofLine then
    match takeLine c.rest with
    | none => .wait
    | some (raw, tail) =>
      match p.processLine h c.seen (raw.rdropWhile isSpaceByte) [10] with
      | (q, seen, .prComplete, error) => .stop error ⟨q, seen, tail⟩
      | (q, seen, _, _) => .go ⟨q, seen, tail⟩
  else if p.dataSize = some 0 then
    if p.chunked then .go { c with parser := { p with state := .chunkTerm } } else .stop .none c
  else
    match c.rest with
    | [] => .wait
    | b :: tail => .go ⟨p.consumed 1, c.seen ++ [.data b], tail⟩

def Turns : Config → Config → Prop := Relation.ReflTransGen fun c d => turn h c = .go d

/-- No header says Content-Length with nothing behind the colon. -/
def Legible (c : Config) : Prop :=
  c.parser.state = .headers → ∀ raw tail, takeLine c.rest = some (raw, tail) →
    ∀ name, splitHeader (raw.rdropWhile isSpaceByte) = some (name, []) →
      equalNoCase name contentLength = false

/-- More bytes behind those that are left. -/
def Config.append (c : Config) (t : List UInt8) : Config := { c with rest := c.rest ++ t }

variable {h}

theorem not_digit_of_space {base : Nat} {c : UInt8} (hc : isSpaceByte c = true) :
    digitIn base c = none := by
  have hlow : c.toNat ≤ 32 := by
    simp only [isSpaceByte, Bool.or_eq_true, Bool.and_eq_true, decide_eq_true_eq] at hc
    rcases hc with rfl | ⟨-, hc⟩
    · decide
    · have hle : c.toNat ≤ 13 := UInt8.le_iff_toNat_le.mp hc
      omega
  apply digitOf_none
  simp only [digitOf, UInt8.le_iff_toNat_le, UInt8.reduceToNat]
  rw [if_neg (by omega), if_neg (by omega), if_neg (by omega)]

/-! A number ends at the latest where the line does, whatever space comes there. -/

theorem scanDigits_space (base : Nat) (text : List UInt8) : ∃ digits r, ∀ c after,
    isSpaceByte c = true → scanDigits base (text ++ c :: after) = some (digits, r ++ c :: after) := by
  induction text with
  | nil =>
    refine ⟨[], [], ?_⟩
    intro c after hc
    simp [scanDigits, not_digit_of_space hc]
  | cons d text ih =>
    obtain ⟨digits, r, hscan⟩ := ih
    cases hd : digitIn base d with
    | none =>
      refine ⟨[], d :: text, ?_⟩
      intro c after _
      simp [scanDigits, hd]
    | some v =>
      refine ⟨v :: digits, r, ?_⟩
      intro c after hc
      simp [scanDigits, hd, hscan c after hc]

theorem scanNumber_space (base : Nat) (text : List UInt8) : ∃ digits r, ∀ c after,
    isSpaceByte c = true → scanNumber base (text ++ c :: after) = some (digits, r ++ c :: after) := by
  have hplain : (∀ c after, isSpaceByte c = true → ¬ HexPrefixed base (text ++ c :: after)) →
      ∃ digits r, ∀ c after, isSpaceByte c = true →
        scanNumber base (text ++ c :: after) = some (digits, r ++ c :: after) := by
    intro hhex
    obtain ⟨digits, r, hscan⟩ := scanDigits_space base text
    refine ⟨digits, r, ?_⟩
    intro c after hc
    rw [scanNumber_not_hex (hhex c after hc), hscan c after hc]
  match text with
  | [] =>
    apply hplain
    rintro c after hc ⟨x, rest, heq, -, -⟩
    obtain ⟨rfl, -⟩ := List.cons.inj heq
    exact absurd hc (by decide)
  | [a] =>
    apply hplain
    rintro c after hc ⟨x, rest, heq, -, hx⟩
    simp only [List.cons_append, List.nil_append, List.cons.injEq] at heq
    rw [← heq.2.1] at hx
    rcases hx with rfl | rfl <;> exact absurd hc (by decide)
  | a :: b :: text =>
    by_cases hhex : a = 0x30 ∧ base = 16 ∧ (b = 0x78 ∨ b = 0x58)
    · obtain ⟨rfl, rfl, hb⟩ := hhex
      obtain ⟨digits, r, hscan⟩ := scanDigits_space 16 text
      by_cases hnone : digits = []
      · refine ⟨[0], b :: text, ?_⟩
        intro c after hc
        simp [scanNumber, hb, hscan c after hc, hnone]
      · refine ⟨digits, r, ?_⟩
        intro c after hc
        simp [scanNumber, hb, hscan c after hc, hnone]
    · apply hplain
      rintro c after - ⟨x, rest, heq, hbase, hx⟩
      simp only [List.cons_append, List.cons.injEq] at heq
      exact hhex ⟨heq.1, hbase, by rwa [heq.2.1]⟩

theorem skipSpace_append {text : List UInt8} (htext : ∃ c ∈ text, isSpaceByte c = false) :
    ∃ start, start ≠ [] ∧ ∀ tail, skipSpace (text ++ tail) = some (start ++ tail) := by
  induction text with
  | nil => simp at htext
  | cons d text ih =>
    cases hd : isSpaceByte d with
    | false => exact ⟨d :: text, List.cons_ne_nil _ _, fun tail => by simp [skipSpace, hd]⟩
    | true =>
      obtain ⟨c, hmem, hc⟩ := htext
      have hmore : c ∈ text := by
        rcases List.mem_cons.mp hmem with rfl | hmore
        · rw [hd] at hc
          cases hc
        · exact hmore
      obtain ⟨start, hne, hstart⟩ := ih ⟨c, hmore, hc⟩
      exact ⟨start, hne, fun tail => by simp [skipSpace, hd, hstart tail]⟩

theorem takeSign_append {text : List UInt8} (hne : text ≠ []) :
    ∃ negative digits, ∀ tail, takeSign (text ++ tail) = (negative, digits ++ tail) := by
  cases text with
  | nil => exact absurd rfl hne
  | cons d text =>
    by_cases hminus : d = 0x2D
    · exact ⟨true, text, fun tail => by rw [hminus]; rfl⟩
    by_cases hplus : d = 0x2B
    · exact ⟨false, text, fun tail => by rw [hplus]; rfl⟩
    refine ⟨false, d :: text, ?_⟩
    intro tail
    rw [List.cons_append, takeSign]
    · exact fun rest heq => hminus (List.cons.inj heq).1
    · exact fun rest heq => hplus (List.cons.inj heq).1

theorem strtoul_space {text : List UInt8} (htext : ∃ c ∈ text, isSpaceByte c = false) :
    ∃ v r, ∀ c after, isSpaceByte c = true →
      strtoul 16 (text ++ c :: after) = some (v, r ++ c :: after) := by
  obtain ⟨start, hne, hstart⟩ := skipSpace_append htext
  obtain ⟨negative, number, hsign⟩ := takeSign_append hne
  obtain ⟨digits, r, hscan⟩ := scanNumber_space 16 number
  by_cases hnone : digits = []
  · refine ⟨0, text, ?_⟩
    intro c after hc
    simp [strtoul, hstart, hsign, hscan c after hc, hnone]
  · refine ⟨clip negative (valueOf 16 digits), r, ?_⟩
    intro c after hc
    simp [strtoul, hstart, hsign, hscan c after hc, hnone]

theorem scanUnsigned_space {text : List UInt8} (htext : ∃ c ∈ text, isSpaceByte c = false) :
    ∃ v, ∀ c after, isSpaceByte c = true → scanUnsigned (text ++ c :: after) = some v := by
  obtain ⟨start, hne, hstart⟩ := skipSpace_append htext
  obtain ⟨negative, number, hsign⟩ := takeSign_append hne
  obtain ⟨digits, r, hscan⟩ := scanDigits_space 10 number
  refine ⟨if digits = [] then none else some (UInt32.ofNat (clip negative (valueOf 10 digits))), ?_⟩
  intro c after hc
  simp [scanUnsigned, hstart, hsign, hscan c after hc]

theorem splitHeader_value {line name value : List UInt8}
    (hsplit : splitHeader line = some (name, value)) (hne : value ≠ []) :
    ∃ c ∈ value, isSpaceByte c = false := by
  unfold splitHeader at hsplit
  split at hsplit
  · next rest _ =>
    obtain ⟨-, rfl⟩ := Prod.mk.inj (Option.some.inj hsplit)
    have hhead := List.head_dropWhile_not isSpaceByte hne
    exact ⟨_, List.head_mem hne, hhead⟩
  · cases hsplit

/-- What a line says does not depend on what comes behind it. -/
theorem processLine_after {p : HttpParser} {seen : List HttpEvent} {line : List UInt8}
    (hline : line ≠ [] → ∃ c ∈ line, isSpaceByte c = false)
    (hlegible : p.state = .headers → ∀ name, splitHeader line = some (name, []) →
      equalNoCase name contentLength = false)
    {c : UInt8} (hc : isSpaceByte c = true) (after : List UInt8) :
    p.processLine h seen line (c :: after) = p.processLine h seen line [10] := by
  have hten : isSpaceByte 10 = true := by decide
  cases hstate : p.state with
  | headers =>
    simp only [processLine, hstate]
    split
    · split
      · rfl
      · next name value hsplit =>
        by_cases hlength : equalNoCase name contentLength = true
        · have hne : value ≠ [] := by
            rintro rfl
            rw [hlegible hstate name hsplit] at hlength
            cases hlength
          obtain ⟨v, hv⟩ := scanUnsigned_space (splitHeader_value hsplit hne)
          rw [hv c after hc, hv 10 [] hten]
        · rw [if_neg hlength, if_neg hlength]
    · rfl
  | chunkSize =>
    simp only [processLine, hstate]
    split
    · next hne =>
      obtain ⟨v, r, hv⟩ := strtoul_space (hline hne)
      rw [hv c after hc, hv 10 [] hten]
      simp only [List.length_append]
      have hsame : r.length + (c :: after).length ≠ (c :: after).length ↔
          r.length + [(10 : UInt8)].length ≠ [(10 : UInt8)].length := by omega
      simp only [hsame]
    · rfl
  | leader | chunkTerm | trailers | data | complete => simp only [processLine, hstate]

theorem takeLine_eq {rest raw tail : List UInt8} (htake : takeLine rest = some (raw, tail)) :
    rest = raw ++ 10 :: tail := by
  induction rest generalizing raw with
  | nil => cases htake
  | cons c rest ih =>
    rw [takeLine] at htake
    split at htake
    · next hc =>
      obtain ⟨rfl, rfl⟩ := Prod.mk.inj (Option.some.inj htake)
      rw [hc]
      rfl
    · obtain ⟨r, hr, heq⟩ := Option.map_eq_some_iff.mp htake
      obtain ⟨rfl, rfl⟩ := Prod.mk.inj heq
      rw [ih hr, List.cons_append]

theorem takeLine_append {rest raw tail : List UInt8} (htake : takeLine rest = some (raw, tail))
    (t : List UInt8) : takeLine (rest ++ t) = some (raw, tail ++ t) := by
  induction rest generalizing raw with
  | nil => cases htake
  | cons c rest ih =>
    rw [takeLine] at htake
    rw [List.cons_append, takeLine]
    split at htake
    · next hc =>
      obtain ⟨rfl, rfl⟩ := Prod.mk.inj (Option.some.inj htake)
      rw [if_pos hc]
    · next hc =>
      obtain ⟨r, hr, heq⟩ := Option.map_eq_some_iff.mp htake
      obtain ⟨rfl, rfl⟩ := Prod.mk.inj heq
      rw [if_neg hc, ih hr]
      rfl

def Turn.append (t : List UInt8) : Turn → Turn
  | .wait => .wait
  | .stop error c => .stop error (c.append t)
  | .go c => .go (c.append t)

theorem turn_append {c : Config} (hwait : turn h c ≠ .wait) (t : List UInt8) :
    turn h (c.append t) = (turn h c).append t := by
  simp only [turn, Config.append] at hwait ⊢
  by_cases hline : c.parser.state.ofLine = true
  · simp only [hline, if_true] at hwait ⊢
    cases htake : takeLine c.rest with
    | none => simp [htake] at hwait
    | some line =>
      rw [takeLine_append htake]
      simp only
      split <;> rfl
  simp only [hline] at hwait ⊢
  by_cases hzero : c.parser.dataSize = some 0
  · simp only [hzero, if_true]
    cases c.parser.chunked <;> rfl
  · simp only [hzero, if_false] at hwait ⊢
    cases hrest : c.rest with
    | nil => simp [hrest] at hwait
    | cons b tail => rfl

theorem turns_append {c d : Config} (hturns : Turns h c d) (t : List UInt8) :
    Turns h (c.append t) (d.append t) := by
  induction hturns with
  | refl => exact .refl
  | tail _ hturn ih =>
    apply ih.tail
    rw [turn_append (by simp [hturn]), hturn]
    rfl

theorem Turns.head {c d e : Config} (hturn : turn h c = .go d) (hturns : Turns h d e) :
    Turns h c e :=
  Relation.ReflTransGen.head hturn hturns

theorem turns_data {c : Config} (hline : c.parser.state.ofLine = false) {n : Nat}
    (hn : n ≤ c.parser.available c.rest.length) (hlen : n ≤ c.rest.length) :
    Turns h c ⟨c.parser.consumed n, c.seen ++ (c.rest.take n).map .data, c.rest.drop n⟩ := by
  induction n generalizing c with
  | zero =>
    obtain ⟨⟨state, chunked, dataSize⟩, seen, rest⟩ := c
    cases dataSize <;> simp [consumed, Turns, Relation.ReflTransGen.refl]
  | succ n ih =>
    obtain ⟨⟨state, chunked, dataSize⟩, seen, rest⟩ := c
    cases rest with
    | nil => simp at hlen
    | cons b tail =>
      have hzero : dataSize ≠ some 0 := by
        rintro rfl
        simp [available] at hn
      have hturn : turn h ⟨⟨state, chunked, dataSize⟩, seen, b :: tail⟩ =
          .go ⟨consumed ⟨state, chunked, dataSize⟩ 1, seen ++ [.data b], tail⟩ := by
        simp only at hline
        simp [turn, hline, hzero]
      apply Turns.head hturn
      have hmore := ih (c := ⟨consumed ⟨state, chunked, dataSize⟩ 1, seen ++ [.data b], tail⟩)
        hline ?_ (by simpa using hlen)
      · cases dataSize with
        | none => simpa [consumed] using hmore
        | some size => simpa [consumed, Nat.sub_sub, Nat.add_comm] using hmore
      · cases dataSize with
        | none => simpa [consumed, available] using hlen
        | some size =>
          simp only [consumed, available, Option.map_some, List.length_cons] at hn hlen ⊢
          split at hn <;> split <;> omega

/-- How much the loop has still to do. -/
def Config.weight (c : Config) : Nat :=
  2 * c.rest.length + if c.parser.state.ofLine then 0 else 1

theorem pass_line {beyond raw tail : List UInt8} {c : Config}
    (htake : takeLine c.rest = some (raw, tail)) (hlegible : Legible c) :
    c.parser.processLine h c.seen (raw.rdropWhile isSpaceByte)
      (raw.rtakeWhile isSpaceByte ++ 10 :: (tail ++ beyond)) =
        c.parser.processLine h c.seen (raw.rdropWhile isSpaceByte) [10] := by
  have hhead : ∃ b after, raw.rtakeWhile isSpaceByte ++ 10 :: (tail ++ beyond) = b :: after ∧
      isSpaceByte b = true := by
    cases hspaces : raw.rtakeWhile isSpaceByte with
    | nil => exact ⟨10, tail ++ beyond, rfl, by decide⟩
    | cons b spaces =>
      have hmem : b ∈ raw.rtakeWhile isSpaceByte := by simp [hspaces]
      exact ⟨b, _, rfl, List.mem_rtakeWhile_imp hmem⟩
  obtain ⟨b, after, heq, hb⟩ := hhead
  rw [heq]
  apply processLine_after _ _ hb
  · intro hne
    exact ⟨_, List.getLast_mem hne, by simpa using List.rdropWhile_last_not isSpaceByte raw hne⟩
  · exact fun hstate => hlegible hstate raw tail htake

/-- Where `Process` returns. -/
inductive Ended (h : Callbacks) (c : Config) (o : Outcome) : Prop
  | waits (hresult : o.result = .prContinue) (hturns : Turns h c o.toConfig)
      (hwait : turn h o.toConfig = .wait)
  | blocks (hresult : o.result = .prBlock) (hturns : Turns h c o.toConfig)
  | stops (d : Config) (hresult : o.result = .prComplete) (hturns : Turns h c d)
      (hstop : turn h d = .stop o.error o.toConfig)

/-- A turn of the loop goes on in the stream, with less to do, or returns where it may. -/
theorem pass_spec {c : Config} {answers : List Answer} (beyond : List UInt8)
    (hlegible : Legible c) (hfail : ∀ error, .fail error ∉ answers) :
    match pass h beyond c answers with
    | .again d answers' => Turns h c d ∧ d.weight < c.weight ∧ ∀ a ∈ answers', a ∈ answers
    | .done o => Ended h c o := by
  by_cases hline : c.parser.state.ofLine = true
  · simp only [pass, hline, if_true]
    cases htake : takeLine c.rest with
    | none => exact .waits rfl .refl (by simp [turn, hline, htake])
    | some line =>
      obtain ⟨raw, tail⟩ := line
      simp only [pass_line htake hlegible]
      rcases hprocess : c.parser.processLine h c.seen (raw.rdropWhile isSpaceByte) [10] with
        ⟨q, seen, result, error⟩
      cases result with
      | prContinue =>
        have hlen := congrArg List.length (takeLine_eq htake)
        refine ⟨Turns.head ?_ .refl, ?_, fun a ha => ha⟩
        · simp [turn, hline, htake, hprocess]
        · simp only [Config.weight, hline, if_true]
          simp only [List.length_append, List.length_cons] at hlen
          split <;> omega
      | prBlock =>
        refine .blocks rfl (Turns.head ?_ .refl)
        simp [turn, hline, htake, hprocess]
      | prComplete =>
        refine .stops c rfl .refl ?_
        simp [turn, hline, htake, hprocess]
  have hline' : c.parser.state.ofLine = false := by simpa using hline
  simp only [pass, hline', Bool.false_eq_true, if_false]
  by_cases hzero : c.parser.dataSize = some 0
  · rw [if_pos hzero]
    by_cases hchunked : c.parser.chunked = true
    · rw [if_pos hchunked]
      refine ⟨Turns.head ?_ .refl, ?_, fun a ha => ha⟩
      · simp [turn, hline', hzero, hchunked]
      · have hterm : State.ofLine .chunkTerm = true := rfl
        simp [Config.weight, hline', hterm]
    · rw [if_neg hchunked]
      exact .stops c rfl .refl (by simp [turn, hline', hzero, hchunked])
  rw [if_neg hzero]
  by_cases hrest : c.rest = []
  · rw [if_pos hrest]
    exact .waits rfl .refl (by simp [turn, hline', hzero, hrest])
  rw [if_neg hrest]
  cases answers with
  | nil => exact .blocks rfl .refl
  | cons answer answers =>
    cases answer with
    | block => exact .blocks rfl .refl
    | fail error => exact absurd List.mem_cons_self (hfail error)
    | accept more =>
      have hpos := List.length_pos_iff.mpr hrest
      have havail : 0 < c.parser.available c.rest.length ∧
          c.parser.available c.rest.length ≤ c.rest.length := by
        unfold available
        split
        · omega
        · next size hsize =>
          have hne : size ≠ 0 := by
            rintro rfl
            exact hzero hsize
          split <;> omega
      refine ⟨turns_data hline' (by omega) (by omega), ?_, fun a ha => List.mem_cons_of_mem _ ha⟩
      simp only [Config.weight, consumed, hline', List.length_drop]
      omega

theorem loop_ended {beyond : List UInt8} {fuel : Nat} {c : Config} {answers : List Answer}
    (hfuel : c.weight < fuel) (hlegible : ∀ d, Turns h c d → Legible d)
    (hfail : ∀ error, .fail error ∉ answers) : Ended h c (loop h beyond fuel c answers) := by
  induction fuel generalizing c answers with
  | zero => omega
  | succ fuel ih =>
    have hspec := pass_spec (h := h) beyond (hlegible c .refl) hfail
    rw [loop]
    cases hpass : pass h beyond c answers with
    | done o => simpa only [hpass] using hspec
    | again d answers' =>
      rw [hpass] at hspec
      obtain ⟨hturns, hweight, hanswers⟩ := hspec
      have hrest := ih (by omega) (fun e he => hlegible e (hturns.trans he))
        fun error hmem => hfail error (hanswers _ hmem)
      cases hrest with
      | waits hresult hmore hwait => exact .waits hresult (hturns.trans hmore) hwait
      | blocks hresult hmore => exact .blocks hresult (hturns.trans hmore)
      | stops e hresult hmore hstop => exact .stops e hresult (hturns.trans hmore) hstop

theorem processLine_state {p : HttpParser} {seen : List HttpEvent} {line after : List UInt8}
    (hp : p.state ≠ .complete) : (p.processLine h seen line after).1.state ≠ .complete := by
  unfold processLine tellHeader
  cases hstate : p.state <;> simp only [hstate]
  all_goals repeat' split
  all_goals simp_all

end Stream

/-! Bytes come in and are processed in any order. -/

section Runs

variable (h : Callbacks)

inductive Event
  | arrive (bytes : List UInt8)
  | process (beyond : List UInt8) (answers : List Answer)

/-- Whether more bytes are needed, or the end was reached. -/
inductive Status
  | running
  | waiting
  | completed (error : HttpError)
  deriving DecidableEq, Repr

structure Reading extends Config where
  status : Status

def start (stream : List UInt8) : Config := ⟨{}, [], stream⟩

/-- `complete` once the result says so. -/
def Config.finish (c : Config) : Config := { c with parser := { c.parser with state := .complete } }

def step (s : Reading) : Event → Reading
  | .arrive bytes =>
    ⟨s.toConfig.append bytes, if s.status = .waiting then .running else s.status⟩
  | .process beyond answers =>
    match s.status with
    | .completed _ => s
    | _ =>
      let o := process h beyond s.toConfig answers
      match o.result with
      | .prContinue => ⟨o.toConfig, .waiting⟩
      | .prBlock => ⟨o.toConfig, .running⟩
      | .prComplete => ⟨o.toConfig.finish, .completed o.error⟩

def run (events : List Event) : Reading := events.foldl (step h) ⟨start [], .running⟩

def Event.bytes : Event → List UInt8
  | .arrive bytes => bytes
  | .process _ _ => []

def arrived (events : List Event) : List UInt8 := events.flatMap Event.bytes

/-- Where a run is in its stream. -/
def Reached (stream : List UInt8) (s : Reading) : Prop :=
  match s.status with
  | .running => Turns h (start stream) s.toConfig
  | .waiting => Turns h (start stream) s.toConfig ∧ turn h s.toConfig = .wait
  | .completed error =>
    ∃ d e, Turns h (start stream) d ∧ turn h d = .stop error e ∧ s.toConfig = e.finish

variable {h}

theorem legible_of_append {c : Config} {t : List UInt8} (hc : Legible (c.append t)) :
    Legible c := fun hstate raw tail htake =>
  hc hstate raw (tail ++ t) (takeLine_append htake t)

theorem turns_state {c d : Config} (hturns : Turns h c d) (hc : c.parser.state ≠ .complete) :
    d.parser.state ≠ .complete := by
  induction hturns with
  | refl => exact hc
  | @tail d e _ hturn ih =>
    simp only [turn] at hturn
    split at hturn
    · split at hturn
      · cases hturn
      next raw tail _ =>
      have hline : (d.parser.processLine h d.seen (raw.rdropWhile isSpaceByte) [10]).1.state ≠
          .complete := processLine_state ih
      split at hturn
      · cases hturn
      · next hprocess =>
        obtain rfl := Turn.go.inj hturn
        rwa [hprocess] at hline
    split at hturn
    · split at hturn
      · obtain rfl := Turn.go.inj hturn
        exact State.noConfusion
      · cases hturn
    · split at hturn
      · cases hturn
      · obtain rfl := Turn.go.inj hturn
        exact ih

theorem reached_arrive {stream bytes : List UInt8} {s : Reading} (hs : Reached h stream s) :
    Reached h (stream ++ bytes) (step h s (.arrive bytes)) := by
  obtain ⟨c, status⟩ := s
  cases status with
  | running => exact turns_append hs bytes
  | waiting => exact turns_append hs.1 bytes
  | completed error =>
    obtain ⟨d, e, hturns, hstop, rfl⟩ := hs
    refine ⟨d.append bytes, e.append bytes, turns_append hturns bytes, ?_, rfl⟩
    rw [turn_append (by simp [hstop]), hstop]
    rfl

theorem reached_process {stream beyond : List UInt8} {answers : List Answer} {s : Reading}
    (hs : Reached h stream s) (hlegible : ∀ d, Turns h (start stream) d → Legible d)
    (hfail : ∀ error, .fail error ∉ answers) :
    Reached h stream (step h s (.process beyond answers)) := by
  have hgo : ∀ c status, Turns h (start stream) c → (∀ error, status ≠ .completed error) →
      Reached h stream (step h ⟨c, status⟩ (.process beyond answers)) := by
    intro c status hturns hstatus
    have hstate := turns_state hturns State.noConfusion
    have hfuel : c.weight < 2 * c.rest.length + 2 := by
      unfold Config.weight
      split <;> omega
    have hended : Ended h c (loop h beyond (2 * c.rest.length + 2) c answers) :=
      loop_ended hfuel (fun d hd => hlegible d (hturns.trans hd)) hfail
    have hprocess : process h beyond c answers = loop h beyond (2 * c.rest.length + 2) c answers :=
      if_neg hstate
    rw [← hprocess] at hended
    have hstep : step h ⟨c, status⟩ (.process beyond answers) =
        match (process h beyond c answers).result with
        | .prContinue => ⟨(process h beyond c answers).toConfig, .waiting⟩
        | .prBlock => ⟨(process h beyond c answers).toConfig, .running⟩
        | .prComplete => ⟨(process h beyond c answers).toConfig.finish,
            .completed (process h beyond c answers).error⟩ := by
      cases status with
      | completed error => exact absurd rfl (hstatus error)
      | running | waiting => rfl
    rw [hstep]
    cases hended with
    | waits hresult hmore hwait =>
      rw [hresult]
      exact ⟨hturns.trans hmore, hwait⟩
    | blocks hresult hmore =>
      rw [hresult]
      exact hturns.trans hmore
    | stops d hresult hmore hstop =>
      rw [hresult]
      exact ⟨d, _, hturns.trans hmore, hstop, rfl⟩
  obtain ⟨c, status⟩ := s
  cases status with
  | running => exact hgo c _ hs fun _ => Status.noConfusion
  | waiting => exact hgo c _ hs.1 fun _ => Status.noConfusion
  | completed error => exact hs

theorem reached_run (events : List Event)
    (hlegible : ∀ d, Turns h (start (arrived events)) d → Legible d)
    (hfail : ∀ beyond answers, .process beyond answers ∈ events → ∀ error, .fail error ∉ answers) :
    Reached h (arrived events) (run h events) := by
  induction events using List.reverseRecOn with
  | nil => exact .refl
  | append_singleton events e ih =>
    have harrived : arrived (events ++ [e]) = arrived events ++ e.bytes := by simp [arrived]
    have hbefore := ih ?_ fun beyond answers hmem => hfail beyond answers (by simp [hmem])
    · rw [run, List.foldl_append, List.foldl_cons, List.foldl_nil, ← run]
      cases e with
      | arrive bytes =>
        rw [harrived]
        exact reached_arrive hbefore
      | process beyond answers =>
        simp only [harrived, Event.bytes, List.append_nil] at hlegible ⊢
        exact reached_process hbefore hlegible (hfail beyond answers (by simp))
    · intro d hd
      rw [harrived] at hlegible
      exact legible_of_append (hlegible _ (turns_append hd e.bytes))

theorem turns_unique {c d e : Config} (hd : Turns h c d) (he : Turns h c e)
    (hlast : ∀ x, turn h d ≠ .go x) (hlast' : ∀ x, turn h e ≠ .go x) : d = e := by
  have hunique : Relator.RightUnique fun c d => turn h c = .go d := by
    intro a b b' hb hb'
    rw [hb] at hb'
    exact Turn.go.inj hb'
  rcases Relation.ReflTransGen.total_of_right_unique hunique hd he with hmore | hmore
  · rcases hmore.cases_head with heq | ⟨x, hx, -⟩
    · exact heq
    · exact absurd hx (hlast x)
  · rcases hmore.cases_head with heq | ⟨x, hx, -⟩
    · exact heq.symm
    · exact absurd hx (hlast' x)

/-- Where the stream leaves a run when there is no more to do with it. -/
def settled (d : Config) : Turn → Reading
  | .wait => ⟨d, .waiting⟩
  | .stop error e => ⟨e.finish, .completed error⟩
  | .go c => ⟨c, .running⟩

theorem Reached.exists_settled {stream : List UInt8} {s : Reading} (hs : Reached h stream s)
    (hend : s.status ≠ .running) :
    ∃ d, Turns h (start stream) d ∧ (∀ x, turn h d ≠ .go x) ∧ s = settled d (turn h d) := by
  obtain ⟨c, status⟩ := s
  cases status with
  | running => exact absurd rfl hend
  | waiting =>
    obtain ⟨hturns, hwait⟩ := hs
    simp only at hturns hwait
    refine ⟨c, hturns, ?_, ?_⟩
    · simp [hwait]
    · rw [hwait]
      rfl
  | completed error =>
    obtain ⟨d, e, hturns, hstop, hc⟩ := hs
    simp only at hc
    refine ⟨d, hturns, ?_, ?_⟩
    · simp [hstop]
    · rw [hstop, hc]
      rfl

/-- However the bytes come in and are taken, what the user has been told when no more can be done
with them is the same, and so are the bytes that are left, the parser and the error. -/
theorem run_incremental {events events' : List Event} (hsame : arrived events = arrived events')
    (hlegible : ∀ d, Turns h (start (arrived events)) d → Legible d)
    (hfail : ∀ beyond answers, .process beyond answers ∈ events ++ events' →
      ∀ error, .fail error ∉ answers)
    (hend : (run h events).status ≠ .running) (hend' : (run h events').status ≠ .running) :
    run h events = run h events' := by
  have hreached := reached_run events hlegible fun beyond answers hmem =>
    hfail beyond answers (List.mem_append_left _ hmem)
  have hreached' := reached_run events' (hsame ▸ hlegible) fun beyond answers hmem =>
    hfail beyond answers (List.mem_append_right _ hmem)
  rw [← hsame] at hreached'
  obtain ⟨d, hturns, hlast, hrun⟩ := hreached.exists_settled hend
  obtain ⟨d', hturns', hlast', hrun'⟩ := hreached'.exists_settled hend'
  have heq : d = d' := turns_unique hturns hturns' hlast hlast'
  rw [hrun, hrun', heq]

/-- A user that never stops. -/
def patient : Callbacks :=
  ⟨fun _ _ => (.prContinue, .none), fun _ _ _ => (.prContinue, .none),
    fun _ _ size => (.prContinue, .none, size)⟩

theorem run_incremental_leader :
    run patient [.arrive [65], .process [] [], .arrive [10], .process [48] []] =
      run patient [.arrive [65, 10], .process [] []] := by
  have hlegible : ∀ d, Turns patient (start [65, 10]) d → Legible d := by
    intro d hd
    rcases hd.cases_head with rfl | ⟨x, hx, hmore⟩
    · exact fun hstate => State.noConfusion hstate
    · obtain rfl := Turn.go.inj hx
      rcases hmore.cases_head with rfl | ⟨y, hy, -⟩
      · exact fun _ raw tail htake => by cases htake
      · cases hy
  have hfail : ∀ beyond answers, .process beyond answers ∈
      ([.arrive [65], .process [] [], .arrive [10], .process [48] []] : List Event) ++
        [.arrive [65, 10], .process [] []] → ∀ error, .fail error ∉ answers := by
    intro beyond answers hmem error
    simp only [List.cons_append, List.nil_append, List.mem_cons, reduceCtorEq, Event.process.injEq,
      List.not_mem_nil, false_or, or_false] at hmem
    rcases hmem with ⟨-, rfl⟩ | ⟨-, rfl⟩ | ⟨-, rfl⟩ <;> exact List.not_mem_nil
  exact run_incremental rfl hlegible hfail (by decide) (by decide)

/-- A Content-Length without a value is read from the next line. -/
example : (processLine patient { state := .headers } [] (stringBytes "Content-Length:")
    (10 :: stringBytes "7\n")).1.dataSize = some 7 := by decide

end Runs

end HttpParser

end Libjingle
