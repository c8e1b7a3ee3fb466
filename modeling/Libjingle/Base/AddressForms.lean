import Libjingle.Base.SocketAddressText

/-! The strings that `FromString` takes for addresses, and the addresses that it reads back from
their own text. -/

namespace Libjingle

namespace TextAddress

structure PortText (text : List UInt8) (port : UInt16) : Prop where
  ne_nil : text ≠ []
  digits : ∀ c ∈ text, isDigitByte c = true
  value : decimal text = port.toNat

inductive Form (inet : Inet) : List UInt8 → List UInt8 → UInt16 → Prop
  | host {host text : List UInt8} {port : UInt16} (hcolon : 0x3A ∉ host)
      (hport : PortText text port) : Form inet (host ++ 0x3A :: text) host port
  | bracket {inner text : List UInt8} {port : UInt16} (hcolon : 0x3A ∈ inner)
      (hinner : (inet.pton6 inner).isSome = true) (hport : PortText text port) :
      Form inet (0x5B :: (inner ++ 0x5D :: 0x3A :: text)) inner port

structure Right (inet : Inet) (str : List UInt8) (a : TextAddress) : Prop where
  accepted : ∀ host port, Form inet str host port →
    ∃ b, fromString inet str a = .ok (true, b) ∧ b.hostname = host ∧ b.port = port
  refused : (¬ ∃ host port, Form inet str host port) → fromString inet str a = .ok (false, a)

def HostForm (str : List UInt8) : Prop :=
  ∃ host text port, str = host ++ 0x3A :: text ∧ 0x3A ∉ host ∧ PortText text port

def BracketForm (inet : Inet) (str : List UInt8) : Prop :=
  ∃ inner text port, str = 0x5B :: (inner ++ 0x5D :: 0x3A :: text) ∧ 0x3A ∈ inner ∧
    (inet.pton6 inner).isSome = true ∧ PortText text port

/-- There is no colon where one is looked for: after the last bracket, or anywhere. -/
def NoColon (str : List UInt8) : Prop :=
  str.head? ≠ some 0x5B ∧ 0x3A ∉ str ∨
    ∃ inner gap, str = 0x5B :: (inner ++ 0x5D :: gap) ∧ 0x5D ∉ gap ∧ 0x3A ∉ gap

def Readable (inet : Inet) (str : List UInt8) : Prop :=
  str ≠ [] ∧ (str.head? ≠ some 0x5B ∧ HostForm str ∨ BracketForm inet str ∨ NoColon str)

section Ports

variable {inet : Inet} {a : TextAddress} {host inner gap text rest : List UInt8} {port : UInt16}

theorem PortText.not_mem (h : PortText text port) {c : UInt8} (hc : isDigitByte c = false) :
    c ∉ text := by
  intro hmem
  rw [h.digits c hmem] at hc
  cases hc

theorem portOf_eq (h : PortText text port) : portOf text = port.toNat := by
  have hscan : strtoul 10 (text ++ [0]) = some (clip false (decimal text), [0]) :=
    strtoul_digits h.ne_nil h.digits (fun c hc => by cases hc; rfl) (by simp)
  have hlt := port.toNat_lt
  have hclip : clip false port.toNat = port.toNat := by
    rw [clip, if_neg (by omega)]
    rfl
  rw [portOf, hscan, Option.elim_some, h.value, hclip]
  exact Int.bmod_eq_of_le (by omega) (by omega)

theorem setBoth_port (h : PortText text port) :
    setBoth inet host text a = .ok (true, setIP inet host { a with port }) := by
  have hlt := port.toNat_lt
  have hset : setPort (portOf text) a = .ok { a with port } := by
    rw [setPort, portOf_eq h, if_pos (by omega)]
    simp
  rw [setBoth, hset]
  rfl

theorem hostname_setBoth {b : TextAddress} {accepted : Bool}
    (h : setBoth inet host text a = .ok (accepted, b)) : accepted = true ∧ b.hostname = host := by
  cases hset : setPort (portOf text) a with
  | error e => simp [setBoth, hset, Except.map] at h
  | ok c =>
    simp only [setBoth, hset, Except.map, Except.ok.injEq, Prod.mk.injEq] at h
    obtain ⟨rfl, rfl⟩ := h
    exact ⟨rfl, rfl⟩

end Ports

section Shapes

variable {inet : Inet} {a : TextAddress} {c : UInt8} {pre pre' rest rest' : List UInt8}
  {host inner gap text str : List UInt8} {port : UInt16}

theorem first_unique (h : pre ++ c :: rest = pre' ++ c :: rest') (hpre : c ∉ pre)
    (hpre' : c ∉ pre') : pre = pre' ∧ rest = rest' := by
  have hfirst : (pre ++ c :: rest).idxOf? c = some pre.length := idxOf?_first hpre
  rw [h, idxOf?_first hpre'] at hfirst
  obtain ⟨hsame, hrest⟩ := List.append_inj h (Option.some.inj hfirst).symm
  exact ⟨hsame, (List.cons.inj hrest).2⟩

theorem last_unique (h : pre ++ c :: rest = pre' ++ c :: rest') (hrest : c ∉ rest)
    (hrest' : c ∉ rest') : pre = pre' ∧ rest = rest' := by
  have hlast : rfind c (pre ++ c :: rest) = some pre.length := rfind_last hrest
  rw [h, rfind_last hrest'] at hlast
  obtain ⟨hsame, hmore⟩ := List.append_inj h (Option.some.inj hlast).symm
  exact ⟨hsame, (List.cons.inj hmore).2⟩

/-- What `FromString` tells apart. -/
inductive Shape : List UInt8 → Prop
  | plain {str : List UInt8} (hfirst : str.head? ≠ some 0x5B) (hcolon : 0x3A ∉ str) : Shape str
  | host {host text : List UInt8} (hfirst : (host ++ 0x3A :: text).head? ≠ some 0x5B)
      (hcolon : 0x3A ∉ host) : Shape (host ++ 0x3A :: text)
  | opened {inner : List UInt8} (hbracket : 0x5D ∉ inner) : Shape (0x5B :: inner)
  | closed {inner gap : List UInt8} (hgap : 0x5D ∉ gap) (hcolon : 0x3A ∉ gap) :
      Shape (0x5B :: (inner ++ 0x5D :: gap))
  | bracket {inner gap text : List UInt8} (hgap : 0x5D ∉ gap) (hcolon : 0x3A ∉ gap)
      (htext : 0x5D ∉ text) : Shape (0x5B :: (inner ++ 0x5D :: (gap ++ 0x3A :: text)))

theorem shape (str : List UInt8) : Shape str := by
  by_cases hfirst : str.head? = some 0x5B
  · obtain ⟨inner, rfl⟩ : ∃ inner, str = 0x5B :: inner := by
      cases str with
      | nil => simp at hfirst
      | cons d inner => exact ⟨inner, by simpa using hfirst⟩
    by_cases hbracket : 0x5D ∈ inner
    · obtain ⟨inner, rest, rfl, hrest⟩ := exists_last hbracket
      by_cases hcolon : 0x3A ∈ rest
      · obtain ⟨gap, text, rfl, hgap⟩ := List.eq_append_cons_of_mem hcolon
        exact .bracket (fun h => hrest (by simp [h])) hgap fun h => hrest (by simp [h])
      · exact .closed hrest hcolon
    · exact .opened hbracket
  · by_cases hcolon : 0x3A ∈ str
    · obtain ⟨host, text, rfl, hhost⟩ := List.eq_append_cons_of_mem hcolon
      exact .host hfirst hhost
    · exact .plain hfirst hcolon

theorem Form.after_bracket (h : Form inet (0x5B :: (inner ++ 0x5D :: gap)) host port)
    (hgap : 0x5D ∉ gap) : 0x3A ∈ gap := by
  generalize hstr : 0x5B :: (inner ++ 0x5D :: gap) = str at h
  cases h with
  | host hcolon hport =>
    next text =>
    have htext : 0x5D ∉ text := hport.not_mem (by decide)
    have hmem : 0x5D ∈ host ++ 0x3A :: text := by simp [← hstr]
    have hhost : 0x5D ∈ host := by
      simpa [htext] using hmem
    obtain ⟨before, after, rfl, hafter⟩ := exists_last hhost
    rw [List.append_assoc, List.cons_append, ← List.cons_append] at hstr
    obtain ⟨-, rfl⟩ := last_unique hstr hgap (by simp [hafter, htext])
    simp
  | bracket hcolon hinner hport =>
    next text =>
    have htext : 0x5D ∉ text := hport.not_mem (by decide)
    rw [← List.cons_append, ← List.cons_append] at hstr
    obtain ⟨-, rfl⟩ := last_unique hstr hgap (by simp [htext])
    simp

theorem host_ne_inner (h : host ++ 0x3A :: text = 0x5B :: (host ++ rest)) (hcolon : 0x3A ∉ host) :
    False := by
  have htake := congrArg (List.take (host.length + 1)) h
  have hleft : (host ++ 0x3A :: text).take (host.length + 1) = host ++ [0x3A] := by
    rw [show host ++ 0x3A :: text = (host ++ [0x3A]) ++ text by simp,
      show host.length + 1 = (host ++ [0x3A]).length by simp, List.take_left]
  rw [hleft, List.take_succ_cons, List.take_left] at htake
  have hmem : (0x3A : UInt8) ∈ 0x5B :: host := by
    rw [← htake]
    simp
  simp [hcolon] at hmem

theorem bracketForm_iff (hgap : 0x5D ∉ gap) (hcolon : 0x3A ∉ gap) (htext : 0x5D ∉ text) :
    BracketForm inet (0x5B :: (inner ++ 0x5D :: (gap ++ 0x3A :: text))) ↔
      gap = [] ∧ 0x3A ∈ inner ∧ (inet.pton6 inner).isSome = true ∧ ∃ port, PortText text port := by
  constructor
  · rintro ⟨inner', text', port, heq, hinner, hsome, hport⟩
    have htext' : 0x5D ∉ text' := hport.not_mem (by decide)
    have hsplit : (0x5B :: inner) ++ 0x5D :: (gap ++ 0x3A :: text) =
        (0x5B :: inner') ++ 0x5D :: (0x3A :: text') := heq
    obtain ⟨hin, hrest⟩ := last_unique hsplit (by simp [hgap, htext]) (by simp [htext'])
    have hcut : gap ++ 0x3A :: text = [] ++ 0x3A :: text' := hrest
    obtain ⟨rfl, rfl⟩ := first_unique hcut hcolon (by simp)
    obtain rfl := (List.cons.inj hin).2
    exact ⟨rfl, hinner, hsome, port, hport⟩
  · rintro ⟨rfl, hinner, hsome, port, hport⟩
    exact ⟨inner, text, port, rfl, hinner, hsome, hport⟩

theorem not_right_of_ok (hok : ∀ a, fromString inet str a = .ok (true, a))
    (h : ∀ a, Right inet str a) : False := by
  by_cases hform : ∃ host port, Form inet str host port
  · obtain ⟨host, port, hform⟩ := hform
    obtain ⟨c, hc, hhost, -⟩ :=
      (h ⟨⟨host ++ [0], .unspec, 0⟩, false⟩).accepted host port hform
    rw [hok] at hc
    obtain rfl := congrArg Prod.snd (Except.ok.inj hc)
    simp at hhost
  · have hfalse := (h ⟨.nil, false⟩).refused hform
    rw [hok] at hfalse
    cases hfalse

theorem right_plain (hfirst : str.head? ≠ some 0x5B) (hcolon : 0x3A ∉ str) :
    (∀ a, Right inet str a) ↔ Readable inet str := by
  have hform : ¬ ∃ host port, Form inet str host port := by
    rintro ⟨host, port, hform⟩
    cases hform with
    | host => simp at hcolon
    | bracket => simp at hcolon
  cases str with
  | nil =>
    constructor
    · intro h
      have hfalse := (h ⟨.nil, false⟩).refused hform
      cases hfalse
    · exact fun h => absurd rfl h.1
  | cons first more =>
    constructor
    · exact fun _ => ⟨by simp, .inr (.inr (.inl ⟨hfirst, hcolon⟩))⟩
    · intro _ a
      exact ⟨fun host port h => absurd ⟨host, port, h⟩ hform,
        fun _ => fromString_no_colon hfirst (by simp) hcolon⟩

theorem Form.of_host {other : List UInt8} (h : Form inet (host ++ 0x3A :: text) other port)
    (hfirst : (host ++ 0x3A :: text).head? ≠ some 0x5B) (hcolon : 0x3A ∉ host) :
    other = host ∧ PortText text port := by
  generalize hstr : host ++ 0x3A :: text = str at h
  cases h with
  | host hother hport =>
    obtain ⟨rfl, rfl⟩ := first_unique hstr hcolon hother
    exact ⟨rfl, hport⟩
  | bracket => simp [hstr] at hfirst

theorem right_host (hfirst : (host ++ 0x3A :: text).head? ≠ some 0x5B) (hcolon : 0x3A ∉ host) :
    (∀ a, Right inet (host ++ 0x3A :: text) a) ↔ Readable inet (host ++ 0x3A :: text) := by
  have hread : ∀ a, fromString inet (host ++ 0x3A :: text) a = setBoth inet host text a :=
    fun _ => fromString_host hfirst hcolon
  constructor
  · intro h
    by_cases hsome : ∃ other port, Form inet (host ++ 0x3A :: text) other port
    · obtain ⟨other, port, hother⟩ := hsome
      exact ⟨by simp, .inl ⟨hfirst, host, text, port, rfl, hcolon, (hother.of_host hfirst hcolon).2⟩⟩
    · have hfalse := (h ⟨.nil, false⟩).refused hsome
      rw [hread] at hfalse
      cases (hostname_setBoth hfalse).1
  · rintro ⟨-, ⟨-, other, text', port, heq, hother, hport⟩ | h | h⟩ a
    · obtain ⟨rfl, rfl⟩ := first_unique heq hcolon hother
      refine ⟨fun host' port' h' => ?_,
        fun hnone => absurd ⟨host, port, .host hcolon hport⟩ hnone⟩
      obtain ⟨rfl, hport'⟩ := h'.of_host hfirst hcolon
      exact ⟨_, (hread a).trans (setBoth_port hport'), rfl, rfl⟩
    · obtain ⟨inner, text', port, heq, -⟩ := h
      simp [heq] at hfirst
    · rcases h with ⟨-, hno⟩ | ⟨inner, gap, heq, -⟩
      · simp at hno
      · simp [heq] at hfirst

theorem right_opened (hbracket : 0x5D ∉ inner) :
    (∀ a, Right inet (0x5B :: inner) a) ↔ Readable inet (0x5B :: inner) := by
  constructor
  · exact fun h => (not_right_of_ok (fun _ => fromString_open hbracket) h).elim
  · rintro ⟨-, ⟨hfirst, -⟩ | ⟨inner', text, port, heq, -⟩ | ⟨hfirst, -⟩ | ⟨inner', gap, heq, -⟩⟩
    · simp at hfirst
    · obtain rfl := (List.cons.inj heq).2
      simp at hbracket
    · simp at hfirst
    · obtain rfl := (List.cons.inj heq).2
      simp at hbracket

theorem right_closed (hgap : 0x5D ∉ gap) (hcolon : 0x3A ∉ gap) :
    (∀ a, Right inet (0x5B :: (inner ++ 0x5D :: gap)) a) ↔
      Readable inet (0x5B :: (inner ++ 0x5D :: gap)) := by
  constructor
  · exact fun _ => ⟨by simp, .inr (.inr (.inr ⟨inner, gap, rfl, hgap, hcolon⟩))⟩
  · intro _ a
    exact ⟨fun host port h => absurd (h.after_bracket hgap) hcolon,
      fun _ => fromString_no_port hgap hcolon⟩

theorem Form.of_bracket
    (h : Form inet (0x5B :: (inner ++ 0x5D :: 0x3A :: text)) host port)
    (hinner : 0x3A ∈ inner) (htext : 0x5D ∉ text) : host = inner ∧ PortText text port := by
  generalize hstr : 0x5B :: (inner ++ 0x5D :: 0x3A :: text) = str at h
  cases h with
  | host hcolon hport =>
    next text' =>
    obtain ⟨before, after, rfl, hbefore⟩ := List.eq_append_cons_of_mem hinner
    have hsplit : (0x5B :: before) ++ 0x3A :: (after ++ 0x5D :: 0x3A :: text) =
        host ++ 0x3A :: text' := by simpa using hstr
    obtain ⟨-, rfl⟩ := first_unique hsplit (by simp [hbefore]) hcolon
    have hmem : (0x5D : UInt8) ∉ after ++ 0x5D :: 0x3A :: text := hport.not_mem (by decide)
    simp at hmem
  | bracket hcolon hsome hport =>
    next text' =>
    have htext' : 0x5D ∉ text' := hport.not_mem (by decide)
    have hsplit : (0x5B :: inner) ++ 0x5D :: (0x3A :: text) =
        (0x5B :: host) ++ 0x5D :: (0x3A :: text') := hstr
    obtain ⟨hin, hrest⟩ := last_unique hsplit (by simp [htext]) (by simp [htext'])
    obtain rfl := (List.cons.inj hin).2
    obtain rfl := (List.cons.inj hrest).2
    exact ⟨rfl, hport⟩

theorem right_bracket (hgap : 0x5D ∉ gap) (hcolon : 0x3A ∉ gap) (htext : 0x5D ∉ text) :
    (∀ a, Right inet (0x5B :: (inner ++ 0x5D :: (gap ++ 0x3A :: text))) a) ↔
      Readable inet (0x5B :: (inner ++ 0x5D :: (gap ++ 0x3A :: text))) := by
  have hread : ∀ a, fromString inet (0x5B :: (inner ++ 0x5D :: (gap ++ 0x3A :: text))) a =
      setBoth inet inner text a := fun _ => fromString_bracket hgap hcolon htext
  have hrest : (0x5D : UInt8) ∉ gap ++ 0x3A :: text := by simp [hgap, htext]
  constructor
  · intro h
    refine ⟨by simp, .inr (.inl ?_)⟩
    by_cases hsome : ∃ host port,
        Form inet (0x5B :: (inner ++ 0x5D :: (gap ++ 0x3A :: text))) host port
    · obtain ⟨host, port, hform⟩ := hsome
      obtain ⟨b, hb, hhost, -⟩ := (h ⟨.nil, false⟩).accepted host port hform
      rw [hread] at hb
      obtain rfl : inner = host := (hostname_setBoth hb).2.symm.trans hhost
      generalize hstr : 0x5B :: (inner ++ 0x5D :: (gap ++ 0x3A :: text)) = str at hform
      cases hform with
      | host hother hport => exact (host_ne_inner hstr.symm hother).elim
      | bracket hinner hsome hport => exact ⟨inner, _, port, rfl, hinner, hsome, hport⟩
    · have hfalse := (h ⟨.nil, false⟩).refused hsome
      rw [hread] at hfalse
      cases (hostname_setBoth hfalse).1
  · rintro ⟨-, ⟨hfirst, -⟩ | h | ⟨hfirst, -⟩ | ⟨inner', gap', heq, hgap', hcolon'⟩⟩ a
    · simp at hfirst
    · obtain ⟨rfl, hinner, hsome, port, hport⟩ := (bracketForm_iff hgap hcolon htext).mp h
      refine ⟨fun host' port' h' => ?_,
        fun hnone => absurd ⟨inner, port, .bracket hinner hsome hport⟩ hnone⟩
      obtain ⟨rfl, hport'⟩ := h'.of_bracket hinner htext
      exact ⟨_, (hread a).trans (setBoth_port hport'), rfl, rfl⟩
    · simp at hfirst
    · have hsplit : (0x5B :: inner) ++ 0x5D :: (gap ++ 0x3A :: text) =
          (0x5B :: inner') ++ 0x5D :: gap' := heq
      obtain ⟨-, rfl⟩ := last_unique hsplit hrest hgap'
      simp at hcolon'

theorem right_iff (inet : Inet) (str : List UInt8) :
    (∀ a, Right inet str a) ↔ Readable inet str := by
  have hshape := shape str
  cases hshape with
  | plain hfirst hcolon => exact right_plain hfirst hcolon
  | host hfirst hcolon => exact right_host hfirst hcolon
  | opened hbracket => exact right_opened hbracket
  | closed hgap hcolon => exact right_closed hgap hcolon
  | bracket hgap hcolon htext => exact right_bracket hgap hcolon htext

end Shapes

section RoundTrip

/-- An address that is an IP literal, or a host name that is not resolved. -/
inductive Spelled (inet : Inet) (a : TextAddress) : Prop
  | literal (hip : a.ip ≠ .unspec) (hname : a.literal = true ∨ a.hostname = [])
  | name (hip : a.ip = .unspec) (hliteral : a.literal = false) (hne : a.hostname ≠ [])
      (hcolon : 0x3A ∉ a.hostname) (hname : inet.ipFromString a.hostname = none)

/-- The text of an IP address is one, and that of an IPv4 address has neither colon nor bracket. -/
structure TextReads (inet : Inet) (ip : IPAddress) : Prop where
  reads : ip ≠ .unspec → inet.ipFromString (inet.ipToString ip) = some ip
  plain : ∀ addr, ip = .inet addr → 0x3A ∉ inet.ntop4 addr ∧ 0x5B ∉ inet.ntop4 addr

/-- Every address becomes equal to `a` by reading the text of it. -/
def RoundTrips (inet : Inet) (a : TextAddress) : Prop :=
  ∀ b, ∃ c, fromString inet (toString inet a) b = .ok (true, c) ∧
    c.equal a.toSocketAddress = true

/-- A wildcard address has its text for a host name, and a host name begins with no bracket that
stays open or surrounds an IP address. -/
structure ReadBack (inet : Inet) (a : TextAddress) : Prop where
  wildcard : a.ip.isAny = true → a.hostname = inet.ipToString a.ip
  bracket : a.ip = .unspec → a.hostname.head? = some 0x5B → ∃ inner gap,
    a.hostname = 0x5B :: (inner ++ 0x5D :: gap) ∧ 0x5D ∉ gap ∧ inet.ipFromString inner = none

variable {inet : Inet} {a b : TextAddress} {host inner gap : List UInt8}

theorem portText_decimalBytes (port : UInt16) : PortText (decimalBytes port.toNat) port :=
  ⟨decimalBytes_ne_nil _, fun _ => isDigitByte_decimalBytes, decimal_decimalBytes _⟩

theorem toString_eq (h : hostAsURIString inet a = host) :
    toString inet a = host ++ 0x3A :: decimalBytes a.port.toNat := by
  rw [toString, h]

theorem read_plain (h : hostAsURIString inet a = host) (hcolon : 0x3A ∉ host)
    (hfirst : host.head? ≠ some 0x5B) :
    fromString inet (toString inet a) b =
      .ok (true, setIP inet host { b with port := a.port }) := by
  have hhead : (host ++ 0x3A :: decimalBytes a.port.toNat).head? ≠ some 0x5B := by
    cases host with
    | nil => simp
    | cons c host => simpa using hfirst
  rw [toString_eq h, fromString_host hhead hcolon]
  exact setBoth_port (portText_decimalBytes a.port)

theorem read_bracket (h : hostAsURIString inet a = 0x5B :: (inner ++ 0x5D :: gap))
    (hgap : 0x5D ∉ gap) (hcolon : 0x3A ∉ gap) :
    fromString inet (toString inet a) b =
      .ok (true, setIP inet inner { b with port := a.port }) := by
  have htext : (0x5D : UInt8) ∉ decimalBytes a.port.toNat :=
    (portText_decimalBytes a.port).not_mem (by decide)
  have heq : toString inet a =
      0x5B :: (inner ++ 0x5D :: (gap ++ 0x3A :: decimalBytes a.port.toNat)) := by
    rw [toString_eq h]
    simp
  rw [heq, fromString_bracket hgap hcolon htext]
  exact setBoth_port (portText_decimalBytes a.port)

theorem ipFromString_none (h : (inet.ipFromString host).getD .unspec = .unspec) :
    inet.ipFromString host = none := by
  unfold Inet.ipFromString at h ⊢
  generalize host.takeWhile (fun c => decide (c ≠ 0)) = text at h ⊢
  cases h4 : inet.pton4 text with
  | some addr => simp [h4] at h
  | none =>
    cases h6 : inet.pton6 text with
    | some addr => simp [h4, h6] at h
    | none => simp [h4, h6]

theorem equal_fields {a b : SocketAddress} : a.equal b = true ↔
    a.ip = b.ip ∧ (a.ip.isAny = true → a.hostname = b.hostname) ∧ a.port = b.port := by
  rw [SocketAddress.equal, SocketAddress.equalIPs, Bool.and_eq_true, Bool.and_eq_true,
    Bool.or_eq_true, decide_eq_true_eq, decide_eq_true_eq, decide_eq_true_eq, and_assoc]
  cases a.ip.isAny <;> simp

theorem roundTrips_iff_of_read
    (h : ∀ b, fromString inet (toString inet a) b =
      .ok (true, setIP inet host { b with port := a.port })) :
    RoundTrips inet a ↔ (inet.ipFromString host).getD .unspec = a.ip ∧
      (a.ip.isAny = true → host = a.hostname) := by
  have hequal : ∀ b : TextAddress,
      (setIP inet host { b with port := a.port }).equal a.toSocketAddress = true ↔
        (inet.ipFromString host).getD .unspec = a.ip ∧
          (a.ip.isAny = true → host = a.hostname) := by
    intro b
    rw [equal_fields]
    constructor
    · intro h
      have hip : (inet.ipFromString host).getD .unspec = a.ip := h.1
      have hname := h.2.1
      rw [h.1] at hname
      exact ⟨hip, hname⟩
    · intro h
      refine ⟨h.1, ?_, rfl⟩
      intro hany
      apply h.2
      rwa [← h.1]
  constructor
  · intro hround
    obtain ⟨c, hc, heq⟩ := hround a
    rw [h] at hc
    obtain rfl := congrArg Prod.snd (Except.ok.inj hc)
    exact (hequal a).mp heq
  · intro hcond b
    exact ⟨_, h b, (hequal b).mpr hcond⟩

theorem roundTrips_literal (hip : a.ip ≠ .unspec) (hname : a.literal = true ∨ a.hostname = [])
    (hreads : TextReads inet a.ip) : RoundTrips inet a ↔ ReadBack inet a := by
  have hread : ∀ b, fromString inet (toString inet a) b =
      .ok (true, setIP inet (inet.ipToString a.ip) { b with port := a.port }) := by
    intro b
    have hskip : ¬ (a.literal = false ∧ ¬ a.hostname = []) := by
      rcases hname with h | h <;> simp [h]
    cases haddr : a.ip with
    | unspec => exact absurd haddr hip
    | inet addr =>
      obtain ⟨hcolon, hbracket⟩ := hreads.plain addr haddr
      have hhost : hostAsURIString inet a = inet.ipToString (.inet addr) := by
        simp [hostAsURIString, hskip, haddr]
      exact read_plain hhost hcolon fun hfirst => hbracket (List.mem_of_mem_head? hfirst)
    | inet6 addr =>
      have hhost : hostAsURIString inet a =
          0x5B :: (inet.ipToString (.inet6 addr) ++ 0x5D :: []) := by
        simp [hostAsURIString, hskip, haddr]
      exact read_bracket hhost (by simp) (by simp)
  have hback : (inet.ipFromString (inet.ipToString a.ip)).getD .unspec = a.ip := by
    simp [hreads.reads hip]
  rw [roundTrips_iff_of_read hread]
  constructor
  · rintro ⟨-, hany⟩
    exact ⟨fun h => (hany h).symm, fun h => absurd h hip⟩
  · exact fun h => ⟨hback, fun hany => (h.wildcard hany).symm⟩

theorem roundTrips_name (hip : a.ip = .unspec) (hliteral : a.literal = false)
    (hne : a.hostname ≠ []) (hcolon : 0x3A ∉ a.hostname)
    (hname : inet.ipFromString a.hostname = none) : RoundTrips inet a ↔ ReadBack inet a := by
  have hhost : hostAsURIString inet a = a.hostname := by
    simp [hostAsURIString, hliteral, hne]
  have hany : a.ip.isAny = false := by simp [hip, IPAddress.isAny]
  by_cases hfirst : a.hostname.head? = some 0x5B
  · by_cases hclosed : 0x5D ∈ a.hostname
    · obtain ⟨before, gap, heq, hgap⟩ := exists_last hclosed
      obtain ⟨inner, rfl⟩ : ∃ inner, before = 0x5B :: inner := by
        cases before with
        | nil => simp [heq] at hfirst
        | cons c inner => exact ⟨inner, by simpa [heq] using hfirst⟩
      have hgap' : 0x3A ∉ gap := fun h => hcolon (by simp [heq, h])
      rw [roundTrips_iff_of_read fun b => read_bracket (hhost.trans heq) hgap hgap', hip]
      constructor
      · rintro ⟨hinner, -⟩
        exact ⟨by simp [hany], fun _ _ => ⟨inner, gap, heq, hgap, ipFromString_none hinner⟩⟩
      · intro h
        obtain ⟨inner', gap', heq', hgap', hinner⟩ := h.bracket hip hfirst
        have hsplit : (0x5B :: inner) ++ 0x5D :: gap = (0x5B :: inner') ++ 0x5D :: gap' :=
          heq.symm.trans heq'
        obtain ⟨hin, -⟩ := last_unique hsplit hgap hgap'
        obtain rfl := (List.cons.inj hin).2
        simp [hinner, IPAddress.isAny]
    · have hopen : ∀ b, fromString inet (toString inet a) b = .ok (true, b) := by
        intro b
        have hdigits : (0x5D : UInt8) ∉ decimalBytes a.port.toNat :=
          (portText_decimalBytes a.port).not_mem (by decide)
        rw [toString_eq hhost]
        cases hstr : a.hostname with
        | nil => exact absurd hstr hne
        | cons c inner =>
          obtain rfl : c = 0x5B := by simpa [hstr] using hfirst
          apply fromString_open
          simp only [hstr, List.mem_cons] at hclosed
          simp [hdigits, not_or.mp hclosed]
      constructor
      · intro hround
        obtain ⟨c, hc, heq⟩ := hround { a with port := a.port + 1 }
        rw [hopen] at hc
        obtain rfl := congrArg Prod.snd (Except.ok.inj hc)
        have hport : a.port + 1 = a.port := (equal_fields.mp heq).2.2
        simp at hport
      · intro h
        obtain ⟨inner, gap, heq, -⟩ := h.bracket hip hfirst
        simp [heq] at hclosed
  · rw [roundTrips_iff_of_read fun b => read_plain hhost hcolon hfirst]
    constructor
    · exact fun _ => ⟨by simp [hany], fun _ h => absurd h hfirst⟩
    · intro _
      simp [hname, hip, IPAddress.isAny]

theorem roundTrips_iff (h : Spelled inet a) (hreads : TextReads inet a.ip) :
    RoundTrips inet a ↔ ReadBack inet a := by
  cases h with
  | literal hip hname => exact roundTrips_literal hip hname hreads
  | name hip hliteral hne hcolon hname => exact roundTrips_name hip hliteral hne hcolon hname

/-- A string is read right by every address exactly if it is readable, and an address is read
back from its text exactly if that neither loses the host name of a wildcard address nor has
brackets that it does not mean. -/
theorem text_right_iff (inet : Inet) (str : List UInt8) (a : TextAddress)
    (hspelled : Spelled inet a) (hreads : TextReads inet a.ip) :
    ((∀ b, Right inet str b) ↔ Readable inet str) ∧ (RoundTrips inet a ↔ ReadBack inet a) :=
  ⟨right_iff inet str, roundTrips_iff hspelled hreads⟩

end RoundTrip

section Sample

/-- The C library at `1.2.3.4` and at `0.0.0.0`. -/
def sampleInet : Inet where
  ntop4 addr := if addr = 0 then stringBytes "0.0.0.0" else stringBytes "1.2.3.4"
  ntop6 _ := []
  pton4 text :=
    if text = stringBytes "0.0.0.0" then some 0
    else if text = stringBytes "1.2.3.4" then some 0x01020304 else none
  pton6 _ := none

def sampleAddress : TextAddress := ⟨.ofIP (.inet 0x01020304) 80, false⟩

theorem text_right_sample :
    (∀ b, Right sampleInet (stringBytes "1.2.3.4:80") b) ∧ RoundTrips sampleInet sampleAddress := by
  have hright := text_right_iff sampleInet (stringBytes "1.2.3.4:80") sampleAddress
    (.literal (by decide) (.inr rfl))
    ⟨fun _ => rfl, fun addr h => by cases h; decide⟩
  apply And.intro
  · apply hright.1.mpr
    have hport : PortText (stringBytes "80") 80 :=
      ⟨by decide, List.all_eq_true.mp rfl, rfl⟩
    exact ⟨by decide, .inl ⟨by decide, stringBytes "1.2.3.4", _, 80, rfl, by decide, hport⟩⟩
  · exact hright.2.mpr ⟨by decide, fun h => absurd h (by decide)⟩

/-- The empty string throws, letters after the port are skipped, an open bracket is an address,
and a wildcard address is not the one that is read back. -/
theorem text_misread :
    fromString sampleInet [] ⟨.nil, false⟩ = .error .outOfRange ∧
      ¬ Right sampleInet (stringBytes "host:80x") ⟨.nil, false⟩ ∧
      ¬ Right sampleInet (stringBytes "[host:80") ⟨.nil, false⟩ ∧
      ¬ RoundTrips sampleInet ⟨.ofIP (.inet 0) 80, false⟩ := by
  refine ⟨rfl, ?_, ?_, ?_⟩
  · intro hright
    have hnone : ¬ ∃ other port, Form sampleInet (stringBytes "host:80x") other port := by
      rintro ⟨other, port, hform⟩
      have hcut : Form sampleInet (stringBytes "host" ++ 0x3A :: stringBytes "80x") other port :=
        hform
      have hport := (hcut.of_host (by decide) (by decide)).2
      exact absurd (hport.digits 0x78 (by decide)) (by decide)
    have hfalse := hright.refused hnone
    cases congrArg (fun r => r.toOption.map Prod.fst) hfalse
  · intro hright
    have hport : PortText (stringBytes "80") 80 :=
      ⟨by decide, List.all_eq_true.mp rfl, rfl⟩
    have hform : Form sampleInet (stringBytes "[host" ++ 0x3A :: stringBytes "80")
        (stringBytes "[host") 80 := .host (by decide) hport
    obtain ⟨b, hb, hhost, -⟩ := hright.accepted _ _ hform
    cases hb
    cases hhost
  · rw [roundTrips_iff (.literal (by decide) (.inr rfl))
      ⟨fun _ => rfl, fun addr h => by cases h; decide⟩]
    intro h
    cases h.wildcard rfl

end Sample

end TextAddress

end Libjingle
