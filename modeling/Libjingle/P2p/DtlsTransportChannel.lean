import Libjingle.Lib.Runs
import Libjingle.P2p.Candidate

/-! `DtlsTransportChannelWrapper`: a channel that runs DTLS over the channel it wraps, if
both sides have an identity. It is driven by calls from above, by the channel below and by
the DTLS stream. -/

namespace Libjingle

namespace DtlsTransportChannel

inductive State
  | none
  | offered
  | accepted
  | started
  | opened
  | closed
  deriving DecidableEq, Repr

inductive SslRole
  | client
  | server
  deriving DecidableEq, Repr

/-- What a DTLS stream was set up with. -/
structure DtlsStream where
  identity : Nat
  role : SslRole
  digestAlgorithm : String
  digest : List UInt8
  srtpCiphers : List String
  deriving DecidableEq, Repr

def kDtlsRecordHeaderLen : Nat := 13
def kMinRtpPacketLen : Nat := 12

def isDtlsPacket (data : List UInt8) : Bool :=
  kDtlsRecordHeaderLen ≤ data.length && (19 < data.headD 0 && data.headD 0 < 64)

def isRtpPacket (data : List UInt8) : Bool :=
  kMinRtpPacketLen ≤ data.length && data.headD 0 &&& 0xC0 = 0x80

/-- The check in `HandleDtlsPacket` that the data is a row of records. -/
def isRecords (data : List UInt8) : Bool :=
  if data = [] then true
  else if data.length < kDtlsRecordHeaderLen then false
  else
    let recordLen := (data.getD 11 0).toNat * 256 + (data.getD 12 0).toNat
    if data.length < recordLen + kDtlsRecordHeaderLen then false
    else isRecords (data.drop (recordLen + kDtlsRecordHeaderLen))
  termination_by data.length
  decreasing_by
    simp only [List.length_drop, kDtlsRecordHeaderLen] at *
    omega

/-- What goes out: a packet to the one above, as it came in or as the DTLS stream read it;
a packet to the channel below, as it is; data that is written to the DTLS stream; and a
packet that is handed to it. -/
inductive Output
  | readPacket (data : List UInt8) (bypass decrypted : Bool)
  | sendPacket (data : List UInt8)
  | writeDtls (data : List UInt8)
  | handleDtls (data : List UInt8)
  deriving DecidableEq, Repr

/-- How it goes with a new DTLS stream: whether there is an adapter, and whether it takes
the digest and the ciphers. -/
structure Setup where
  created : Bool
  digest : Bool
  ciphers : Bool
  deriving DecidableEq, Repr

/-- Events of the stream that come together, with the state it is in by `GetState`, and the
packet that can be read. -/
structure Signal where
  opened : Bool
  read : Bool
  closed : Bool
  isOpen : Bool
  packet : Option (List UInt8)
  deriving DecidableEq, Repr

inductive Event
  | connect
  | reset (setup : Setup)
  | setLocalIdentity (identity : Option Nat)
  | setRole (role : TransportRole)
  | setSrtpCiphers (ciphers : List String)
  | setRemoteFingerprint (algorithm : String) (digest : List UInt8) (setup : Setup)
  | getSrtpCipher
  | sendPacket (data : List UInt8) (bypass : Bool)
  | readableState (readable : Bool)
  | writableState (writable : Bool) (starts : Bool)
  | incomingPacket (data : List UInt8)
  | dtlsEvent (signal : Signal)
  deriving DecidableEq, Repr

end DtlsTransportChannel

open DtlsTransportChannel in
/-- The wrapper. Whether the channel below is readable and writable is kept with it. -/
structure DtlsTransportChannel where
  dtlsState : State := .none
  localIdentity : Option Nat := none
  dtlsRole : SslRole := .client
  role : TransportRole := .unknown
  remoteFingerprintAlgorithm : String := ""
  remoteFingerprintValue : List UInt8 := []
  srtpCiphers : List String := []
  dtls : Option DtlsStream := none
  readable : Bool := false
  writable : Bool := false
  channelReadable : Bool := false
  channelWritable : Bool := false
  deriving DecidableEq, Repr

namespace DtlsTransportChannel

variable (s : DtlsTransportChannel)

/-- None where the local identity is missing that the stream is to refer to. -/
def setupDtls (setup : Setup) : Option (DtlsTransportChannel × Bool) :=
  if setup.created = false then some ({ s with dtls := none }, false)
  else match s.localIdentity with
    | none => none
    | some identity =>
      let stream : DtlsStream := ⟨identity, s.dtlsRole, "", [], []⟩
      if setup.digest = false then some ({ s with dtls := some stream }, false)
      else
        let stream := { stream with
          digestAlgorithm := s.remoteFingerprintAlgorithm
          digest := s.remoteFingerprintValue }
        if s.srtpCiphers = [] then some ({ s with dtls := some stream }, true)
        else if setup.ciphers = false then some ({ s with dtls := some stream }, false)
        else some ({ s with dtls := some { stream with srtpCiphers := s.srtpCiphers } }, true)

/-- The state after `SetupDtls`. -/
def settle (set : DtlsTransportChannel × Bool) : DtlsTransportChannel :=
  { set.1 with dtlsState := if set.2 then .accepted else .closed }

/-- The channel below is reset first, and then is not readable or writable. -/
def reset (setup : Setup) : Option DtlsTransportChannel :=
  ({ s with
    channelReadable := false
    channelWritable := false
    readable := false
    writable := false }.setupDtls setup).map settle

def setLocalIdentity (identity : Option Nat) : DtlsTransportChannel × Bool :=
  if s.dtlsState ≠ .none then (s, false)
  else match identity with
    | none => (s, true)
    | some identity => ({ s with localIdentity := some identity, dtlsState := .offered }, true)

def setRole (role : TransportRole) : DtlsTransportChannel :=
  { s with dtlsRole := if role = .controlling then .server else .client, role := role }

def setSrtpCiphers (ciphers : List String) : DtlsTransportChannel × Bool :=
  match s.dtlsState with
  | .none | .offered | .accepted => ({ s with srtpCiphers := ciphers }, true)
  | _ => (s, false)

/-- An empty algorithm says that the other side does not do DTLS. -/
def setRemoteFingerprint (algorithm : String) (digest : List UInt8) (setup : Setup) :
    Option (DtlsTransportChannel × Bool) :=
  match s.dtlsState with
  | .none =>
    if algorithm ≠ "" then some (s, false) else some ({ s with dtlsState := .none }, true)
  | .offered =>
    if algorithm = "" then some ({ s with dtlsState := .none }, true)
    else
      ({ s with
        remoteFingerprintValue := digest
        remoteFingerprintAlgorithm := algorithm }.setupDtls setup).map fun set => (settle set, set.2)
  | _ => some (s, false)

/-- None where the stream is missing. -/
def getSrtpCipher : Option Bool :=
  if s.dtlsState ≠ .opened then some false
  else s.dtls.map fun stream => stream.srtpCiphers ≠ []

def sendPacket (data : List UInt8) (bypass : Bool) : Option (List Output) :=
  match s.dtlsState with
  | .offered | .started | .accepted | .closed => some []
  | .opened =>
    if bypass then some (if isRtpPacket data then [.sendPacket data] else [])
    else s.dtls.map fun _ => [.writeDtls data]
  | .none => some [.sendPacket data]

/-- The stream starts the handshake, or fails to. -/
def maybeStartDtls (starts : Bool) : Option DtlsTransportChannel :=
  if s.channelWritable then
    s.dtls.map fun _ => { s with dtlsState := if starts then .started else .closed }
  else some s

def onReadableState (readable : Bool) : DtlsTransportChannel :=
  let s := { s with channelReadable := readable }
  match s.dtlsState with
  | .none | .opened => { s with readable := readable }
  | _ => s

def onWritableState (writable starts : Bool) : Option DtlsTransportChannel :=
  let s := { s with channelWritable := writable }
  match s.dtlsState with
  | .none | .opened => some { s with writable := writable }
  | .accepted => s.maybeStartDtls starts
  | _ => some s

def onReadPacket (data : List UInt8) : Option (List Output) :=
  match s.dtlsState with
  | .none => some [.readPacket data false false]
  | .offered | .accepted | .closed => some []
  | .started | .opened =>
    if isDtlsPacket data then
      if isRecords data then s.dtls.map fun _ => [.handleDtls data] else some []
    else if s.dtlsState ≠ .opened then some []
    else if isRtpPacket data = false then some []
    else some [.readPacket data true false]

def onDtlsEvent (signal : Signal) : DtlsTransportChannel × List Output :=
  match s.dtls with
  | none => (s, [])
  | some _ =>
    let s := if signal.opened ∧ signal.isOpen then
        { s with dtlsState := .opened, readable := true, writable := true }
      else s
    let read := if signal.read then signal.packet.toList.map (.readPacket · false true) else []
    let s := if signal.closed then
        { s with readable := false, writable := false, dtlsState := .closed }
      else s
    (s, read)

/-- What an event does and returns. None where it uses an identity or a stream that is not
there. -/
def handle : Event → Option (DtlsTransportChannel × Bool × List Output)
  | .connect => some (s, true, [])
  | .reset setup => (s.reset setup).map (·, true, [])
  | .setLocalIdentity identity =>
    some ((s.setLocalIdentity identity).1, (s.setLocalIdentity identity).2, [])
  | .setRole role => some (s.setRole role, true, [])
  | .setSrtpCiphers ciphers => some ((s.setSrtpCiphers ciphers).1, (s.setSrtpCiphers ciphers).2, [])
  | .setRemoteFingerprint algorithm digest setup =>
    (s.setRemoteFingerprint algorithm digest setup).map fun set => (set.1, set.2, [])
  | .getSrtpCipher => s.getSrtpCipher.map fun result => (s, result, [])
  | .sendPacket data bypass => (s.sendPacket data bypass).map fun outputs => (s, true, outputs)
  | .readableState readable => some (s.onReadableState readable, true, [])
  | .writableState writable starts => (s.onWritableState writable starts).map (·, true, [])
  | .incomingPacket data => (s.onReadPacket data).map fun outputs => (s, true, outputs)
  | .dtlsEvent signal => some ((s.onDtlsEvent signal).1, true, (s.onDtlsEvent signal).2)

structure Monitored where
  channel : DtlsTransportChannel := {}
  accepted : Bool := false
  deriving DecidableEq, Repr

def Event.accepts (result : Bool) : Event → Bool
  | .setRemoteFingerprint algorithm _ _ => decide (algorithm ≠ "") && result
  | _ => false

def Monitored.step (m : Monitored) (e : Event) : Monitored :=
  match m.channel.handle e with
  | none => m
  | some (channel, result, _) => ⟨channel, m.accepted || e.accepts result⟩

def Output.Protected (s : DtlsTransportChannel) (e : Event) : Output → Prop
  | .readPacket data bypass decrypted =>
    decrypted = true ∨ bypass = true ∧ isRtpPacket data = true ∧ s.dtlsState = .opened
  | .sendPacket data => e = .sendPacket data true ∧ isRtpPacket data = true ∧ s.dtlsState = .opened
  | _ => True

structure Monitored.Sound (m : Monitored) : Prop where
  active : m.accepted = true → m.channel.dtlsState ≠ .none
  open_of_ready : m.accepted = true → m.channel.readable = true ∨ m.channel.writable = true →
    m.channel.dtlsState = .opened

/-- What is claimed of an event: nothing is used that is missing, and once a fingerprint was
accepted only protected data goes through. -/
structure Monitored.Secure (m : Monitored) (e : Event) : Prop where
  present : m.channel.handle e ≠ none
  guarded : m.accepted = true → ∀ channel result outputs,
    m.channel.handle e = some (channel, result, outputs) → ∀ o ∈ outputs, o.Protected m.channel e

/-- A fingerprint comes when the channel is not readable or writable, and a channel is only
reset when it has an identity. -/
def Orderly (s : DtlsTransportChannel) : Event → Prop
  | .setRemoteFingerprint algorithm _ _ =>
    algorithm ≠ "" → s.dtlsState = .offered → s.readable = false ∧ s.writable = false
  | .reset setup => setup.created = true → s.localIdentity ≠ none
  | _ => True

def State.Streams : State → Prop
  | .accepted | .started | .opened => True
  | _ => False

def State.Quiet : State → Prop
  | .accepted | .started | .closed => True
  | _ => False

/-- A state before an answer about DTLS. -/
def State.Undecided : State → Prop
  | .none | .offered => True
  | _ => False

structure Inv (s : DtlsTransportChannel) (accepted : Bool) : Prop where
  stream : s.dtlsState.Streams → s.dtls ≠ none
  quiet : s.dtlsState.Quiet → s.readable = false ∧ s.writable = false
  undecided : s.dtlsState.Undecided → s.dtls = none ∧ accepted = false
  identity : s.dtlsState = .offered → s.localIdentity ≠ none

variable {s}

theorem inv_initial : Inv {} false :=
  ⟨fun h => h.elim, fun h => h.elim, fun _ => ⟨rfl, rfl⟩, fun h => (nomatch h)⟩

theorem setupDtls_cases {setup : Setup} (h : setup.created = true → s.localIdentity ≠ none) :
    ∃ stream ok, s.setupDtls setup = some ({ s with dtls := stream }, ok) ∧
      (ok = true → stream ≠ none) := by
  rw [setupDtls]
  split
  · exact ⟨none, false, rfl, nofun⟩
  · rename_i hcreated
    split
    · rename_i hnone
      exact absurd hnone (h (Bool.not_eq_false _ ▸ hcreated))
    · dsimp only
      split
      · exact ⟨_, _, rfl, nofun⟩
      · split
        · exact ⟨_, _, rfl, fun _ => nofun⟩
        · split
          · exact ⟨_, _, rfl, nofun⟩
          · exact ⟨_, _, rfl, fun _ => nofun⟩

theorem inv_settle {stream : Option DtlsStream} {ok : Bool} (hok : ok = true → stream ≠ none)
    (hreadable : s.readable = false) (hwritable : s.writable = false) (accepted : Bool) :
    Inv (settle ({ s with dtls := stream }, ok)) accepted := by
  cases ok with
  | false => exact ⟨fun h => h.elim, fun _ => ⟨hreadable, hwritable⟩, fun h => h.elim,
      fun h => (nomatch h)⟩
  | true => exact ⟨fun _ => hok rfl, fun _ => ⟨hreadable, hwritable⟩, fun h => h.elim,
      fun h => (nomatch h)⟩

theorem Inv.of_same {accepted : Bool} {t : DtlsTransportChannel} (h : Inv s accepted)
    (hstate : t.dtlsState = s.dtlsState) (hstream : t.dtls = s.dtls)
    (hidentity : t.localIdentity = s.localIdentity) (hreadable : t.readable = s.readable)
    (hwritable : t.writable = s.writable) : Inv t accepted := by
  obtain ⟨hs, hq, hu, hi⟩ := h
  rw [← hstate, ← hstream] at hs hu
  rw [← hstate, ← hreadable, ← hwritable] at hq
  rw [← hstate, ← hidentity] at hi
  exact ⟨hs, hq, hu, hi⟩

theorem setRemoteFingerprint_inv {accepted : Bool} (h : Inv s accepted) {algorithm : String}
    {digest : List UInt8} {setup : Setup}
    (horderly : Orderly s (.setRemoteFingerprint algorithm digest setup)) :
    ∃ t ok, s.setRemoteFingerprint algorithm digest setup = some (t, ok) ∧
      Inv t (accepted || decide (algorithm ≠ "") && ok) := by
  rw [setRemoteFingerprint]
  split
  · rename_i hstate
    have hdecide := h.undecided (hstate ▸ trivial)
    split
    · exact ⟨s, false, rfl, by rwa [Bool.and_false, Bool.or_false]⟩
    · rename_i hempty
      refine ⟨_, _, rfl, fun h => h.elim, fun h => h.elim, fun _ => ⟨hdecide.1, ?_⟩,
        fun h => (nomatch h)⟩
      rw [hdecide.2, not_not.mp hempty]
      rfl
  · rename_i hstate
    have hdecide := h.undecided (hstate ▸ trivial)
    split
    · rename_i hempty
      refine ⟨_, _, rfl, fun h => h.elim, fun h => h.elim, fun _ => ⟨hdecide.1, ?_⟩,
        fun h => (nomatch h)⟩
      rw [hdecide.2, hempty]
      rfl
    · rename_i halgorithm
      obtain ⟨hreadable, hwritable⟩ := horderly halgorithm hstate
      obtain ⟨stream, ok, hset, hok⟩ := setupDtls_cases (s := { s with
        remoteFingerprintValue := digest
        remoteFingerprintAlgorithm := algorithm }) fun _ => h.identity hstate
      rw [hset]
      exact ⟨_, ok, rfl, inv_settle (s := { s with
        remoteFingerprintValue := digest
        remoteFingerprintAlgorithm := algorithm }) hok hreadable hwritable _⟩
  · exact ⟨s, false, rfl, by rwa [Bool.and_false, Bool.or_false]⟩

theorem setLocalIdentity_inv {accepted : Bool} (h : Inv s accepted) (identity : Option Nat) :
    Inv (s.setLocalIdentity identity).1 accepted := by
  unfold setLocalIdentity
  split
  · exact h
  · rename_i hstate
    have hdecide := h.undecided (not_not.mp hstate ▸ trivial)
    split
    · exact h
    · exact ⟨fun h => h.elim, fun h => h.elim, fun _ => hdecide, fun _ => nofun⟩

theorem onWritableState_inv {accepted : Bool} (h : Inv s accepted) (writable starts : Bool) :
    ∃ t, s.onWritableState writable starts = some t ∧ Inv t accepted := by
  rw [onWritableState]
  dsimp only
  split
  · rename_i hstate
    refine ⟨_, rfl, h.stream, fun hq => ?_, h.undecided, h.identity⟩
    rw [show s.dtlsState = .none from hstate] at hq
    exact hq.elim
  · rename_i hstate
    refine ⟨_, rfl, h.stream, fun hq => ?_, h.undecided, h.identity⟩
    rw [show s.dtlsState = .opened from hstate] at hq
    exact hq.elim
  · rename_i hstate
    have hstate : s.dtlsState = .accepted := hstate
    rw [maybeStartDtls]
    split
    · obtain ⟨stream, hstream⟩ := Option.ne_none_iff_exists'.mp (h.stream (hstate ▸ trivial))
      have hquiet := h.quiet (hstate ▸ trivial)
      rw [hstream]
      refine ⟨_, rfl, fun _ => nofun, fun _ => hquiet, ?_, ?_⟩ <;> cases starts <;>
        first | exact fun h => h.elim | exact fun h => (nomatch h)
    · exact ⟨_, rfl, h.of_same rfl rfl rfl rfl rfl⟩
  · exact ⟨_, rfl, h.of_same rfl rfl rfl rfl rfl⟩

theorem onReadableState_inv {accepted : Bool} (h : Inv s accepted) (readable : Bool) :
    Inv (s.onReadableState readable) accepted := by
  rw [onReadableState]
  dsimp only
  split
  · rename_i hstate
    refine ⟨h.stream, fun hq => ?_, h.undecided, h.identity⟩
    rw [show s.dtlsState = .none from hstate] at hq
    exact hq.elim
  · rename_i hstate
    refine ⟨h.stream, fun hq => ?_, h.undecided, h.identity⟩
    rw [show s.dtlsState = .opened from hstate] at hq
    exact hq.elim
  · exact h.of_same rfl rfl rfl rfl rfl

theorem onDtlsEvent_inv {accepted : Bool} (h : Inv s accepted) (signal : Signal) :
    Inv (s.onDtlsEvent signal).1 accepted := by
  rw [onDtlsEvent]
  split
  · exact h
  · rename_i stream hstream
    have hsome : s.dtls ≠ none := hstream ▸ nofun
    have hopened : Inv (if signal.opened ∧ signal.isOpen then
        { s with dtlsState := .opened, readable := true, writable := true } else s) accepted ∧
        (if signal.opened ∧ signal.isOpen then
          { s with dtlsState := .opened, readable := true, writable := true } else s).dtls ≠ none := by
      split
      · exact ⟨⟨fun _ => hsome, fun h => h.elim, fun h => h.elim, fun h => (nomatch h)⟩, hsome⟩
      · exact ⟨h, hsome⟩
    dsimp only
    split
    · exact ⟨fun h => h.elim, fun _ => ⟨rfl, rfl⟩, fun h => h.elim, fun h => (nomatch h)⟩
    · exact hopened.1

/-- Packets that come in are handed up when they are read from the stream, or are RTP after
the handshake. -/
theorem onReadPacket_protected {accepted : Bool} (h : Inv s accepted) (data : List UInt8) :
    ∃ outputs, s.onReadPacket data = some outputs ∧
      (accepted = true → ∀ o ∈ outputs, o.Protected s (.incomingPacket data)) := by
  have hundecided : s.dtlsState.Undecided → accepted = true → False := by
    intro hstate haccepted
    rw [(h.undecided hstate).2] at haccepted
    cases haccepted
  have hnil : ∀ o ∈ ([] : List Output), o.Protected s (.incomingPacket data) :=
    fun o ho => absurd ho List.not_mem_nil
  rw [onReadPacket]
  split
  case h_1 hstate => exact ⟨_, rfl, fun ha => (hundecided (hstate ▸ trivial) ha).elim⟩
  case h_2 | h_3 | h_4 => exact ⟨_, rfl, fun _ => hnil⟩
  all_goals
    rename_i hstate
    obtain ⟨stream, hstream⟩ := Option.ne_none_iff_exists'.mp (h.stream (hstate ▸ trivial))
    split
    · split
      · rw [hstream]
        refine ⟨_, rfl, fun _ o ho => ?_⟩
        rw [List.mem_singleton.mp ho]
        trivial
      · exact ⟨_, rfl, fun _ => hnil⟩
    · split
      · exact ⟨_, rfl, fun _ => hnil⟩
      · rename_i hopened
        split
        · exact ⟨_, rfl, fun _ => hnil⟩
        · rename_i hrtp
          refine ⟨_, rfl, fun _ o ho => ?_⟩
          rw [List.mem_singleton.mp ho]
          exact .inr ⟨rfl, Bool.not_eq_false _ ▸ hrtp, not_not.mp hopened⟩

theorem sendPacket_protected {accepted : Bool} (h : Inv s accepted) (data : List UInt8)
    (bypass : Bool) : ∃ outputs, s.sendPacket data bypass = some outputs ∧
      (accepted = true → ∀ o ∈ outputs, o.Protected s (.sendPacket data bypass)) := by
  have hnil : ∀ o ∈ ([] : List Output), o.Protected s (.sendPacket data bypass) :=
    fun o ho => absurd ho List.not_mem_nil
  rw [sendPacket]
  cases hstate : s.dtlsState with
  | none =>
    refine ⟨_, rfl, fun haccepted => ?_⟩
    rw [(h.undecided (hstate ▸ trivial)).2] at haccepted
    cases haccepted
  | offered => exact ⟨_, rfl, fun _ => hnil⟩
  | accepted => exact ⟨_, rfl, fun _ => hnil⟩
  | started => exact ⟨_, rfl, fun _ => hnil⟩
  | closed => exact ⟨_, rfl, fun _ => hnil⟩
  | opened =>
    obtain ⟨stream, hstream⟩ := Option.ne_none_iff_exists'.mp (h.stream (hstate ▸ trivial))
    cases bypass with
    | false =>
      rw [hstream]
      refine ⟨_, rfl, fun _ o ho => ?_⟩
      rw [List.mem_singleton.mp ho]
      trivial
    | true =>
      refine ⟨_, rfl, fun _ o ho => ?_⟩
      split at ho
      · rename_i hrtp
        rw [List.mem_singleton.mp ho]
        exact ⟨rfl, hrtp, hstate⟩
      · exact absurd ho List.not_mem_nil

theorem onDtlsEvent_protected (signal : Signal) :
    ∀ o ∈ (s.onDtlsEvent signal).2, o.Protected s (.dtlsEvent signal) := by
  intro o ho
  rw [onDtlsEvent] at ho
  split at ho
  · exact absurd ho List.not_mem_nil
  · dsimp only at ho
    split at ho
    · obtain ⟨data, -, rfl⟩ := List.mem_map.mp ho
      exact .inl rfl
    · exact absurd ho List.not_mem_nil

theorem sound_of_inv {m : Monitored} (h : Inv m.channel m.accepted) : m.Sound := by
  constructor
  · intro haccepted hstate
    rw [(h.undecided (hstate ▸ trivial)).2] at haccepted
    cases haccepted
  · intro haccepted hready
    cases hstate : m.channel.dtlsState with
    | opened => rfl
    | none =>
      rw [(h.undecided (hstate ▸ trivial)).2] at haccepted
      cases haccepted
    | offered =>
      rw [(h.undecided (hstate ▸ trivial)).2] at haccepted
      cases haccepted
    | accepted =>
      obtain ⟨hreadable, hwritable⟩ := h.quiet (hstate ▸ trivial)
      rw [hreadable, hwritable] at hready
      rcases hready with hready | hready <;> cases hready
    | started =>
      obtain ⟨hreadable, hwritable⟩ := h.quiet (hstate ▸ trivial)
      rw [hreadable, hwritable] at hready
      rcases hready with hready | hready <;> cases hready
    | closed =>
      obtain ⟨hreadable, hwritable⟩ := h.quiet (hstate ▸ trivial)
      rw [hreadable, hwritable] at hready
      rcases hready with hready | hready <;> cases hready

/-- What an orderly event does: it uses nothing that is missing, keeps the invariant, and
lets only protected data through. -/
theorem handle_cases {accepted : Bool} (h : Inv s accepted) {e : Event} (horderly : Orderly s e) :
    ∃ t result outputs, s.handle e = some (t, result, outputs) ∧
      Inv t (accepted || e.accepts result) ∧
      (accepted = true → ∀ o ∈ outputs, o.Protected s e) := by
  have hnil : accepted = true → ∀ o ∈ ([] : List Output), o.Protected s e :=
    fun _ o ho => absurd ho List.not_mem_nil
  have hsame : ∀ {t : DtlsTransportChannel} {result : Bool}, e.accepts result = false →
      Inv t accepted → Inv t (accepted || e.accepts result) := by
    intro t result hresult ht
    rwa [hresult, Bool.or_false]
  cases e with
  | connect => exact ⟨_, _, _, rfl, hsame rfl h, hnil⟩
  | reset setup =>
    obtain ⟨stream, ok, hset, hok⟩ := setupDtls_cases (s := { s with
      channelReadable := false
      channelWritable := false
      readable := false
      writable := false }) horderly
    rw [handle, reset, hset]
    exact ⟨_, _, _, rfl, inv_settle hok rfl rfl _, hnil⟩
  | setLocalIdentity identity =>
    exact ⟨_, _, _, rfl, hsame rfl (setLocalIdentity_inv h identity), hnil⟩
  | setRole role =>
    exact ⟨_, _, _, rfl, hsame rfl (h.of_same rfl rfl rfl rfl rfl), hnil⟩
  | setSrtpCiphers ciphers =>
    refine ⟨_, _, _, rfl, hsame rfl ?_, hnil⟩
    rw [setSrtpCiphers]
    split <;> exact h.of_same rfl rfl rfl rfl rfl
  | setRemoteFingerprint algorithm digest setup =>
    obtain ⟨t, ok, hset, hinv⟩ := setRemoteFingerprint_inv h horderly
    exact ⟨t, ok, [], by rw [handle, hset]; rfl, hinv, hnil⟩
  | getSrtpCipher =>
    rw [handle, getSrtpCipher]
    split
    · exact ⟨_, _, _, rfl, hsame rfl h, hnil⟩
    · rename_i hstate
      have hstream := h.stream (not_not.mp hstate ▸ trivial)
      obtain ⟨stream, hstream⟩ := Option.ne_none_iff_exists'.mp hstream
      rw [hstream]
      exact ⟨_, _, _, rfl, hsame rfl h, hnil⟩
  | sendPacket data bypass =>
    obtain ⟨outputs, hsend, hprotected⟩ := sendPacket_protected h data bypass
    exact ⟨s, true, outputs, by rw [handle, hsend]; rfl, hsame rfl h, hprotected⟩
  | readableState readable =>
    exact ⟨_, _, _, rfl, hsame rfl (onReadableState_inv h readable), hnil⟩
  | writableState writable starts =>
    obtain ⟨t, hwritable, hinv⟩ := onWritableState_inv h writable starts
    exact ⟨t, true, [], by rw [handle, hwritable]; rfl, hsame rfl hinv, hnil⟩
  | incomingPacket data =>
    obtain ⟨outputs, hread, hprotected⟩ := onReadPacket_protected h data
    exact ⟨s, true, outputs, by rw [handle, hread]; rfl, hsame rfl h, hprotected⟩
  | dtlsEvent signal =>
    exact ⟨_, _, _, rfl, hsame rfl (onDtlsEvent_inv h signal),
      fun _ => onDtlsEvent_protected signal⟩

theorem monitored_step {m : Monitored} (h : Inv m.channel m.accepted) {e : Event}
    (horderly : Orderly m.channel e) :
    Inv (m.step e).channel (m.step e).accepted ∧ (m.Sound ∧ m.Secure e) := by
  obtain ⟨t, result, outputs, hhandle, hinv, hprotected⟩ := handle_cases h horderly
  refine ⟨?_, sound_of_inv h, ?_, fun haccepted channel result' outputs' hsome => ?_⟩
  · rw [Monitored.step, hhandle]
    exact hinv
  · rw [hhandle]
    exact nofun
  · rw [hhandle] at hsome
    cases hsome
    exact hprotected haccepted

/-- In an orderly run the channel is secure from the first fingerprint it accepts. -/
theorem secure_run {events : List Event}
    (h : Runs.Along Monitored.step (fun m e => Orderly m.channel e) {} events) :
    Runs.Along Monitored.step (fun m e => m.Sound ∧ m.Secure e) {} events ∧
      (events.foldl Monitored.step {}).Sound := by
  have hstep : ∀ (m : Monitored) (e : Event), Inv m.channel m.accepted → Orderly m.channel e →
      Inv (m.step e).channel (m.step e).accepted ∧ (m.Sound ∧ m.Secure e) :=
    fun m e hinv horderly => monitored_step hinv horderly
  obtain ⟨hrun, hlast⟩ := h.invariant hstep inv_initial
  exact ⟨hrun, sound_of_inv hlast⟩

theorem secure_run_handshake :
    Monitored.Sound ([Event.setLocalIdentity (some 0), .connect,
      .setRemoteFingerprint "sha-1" [1, 2, 3] ⟨true, true, true⟩, .writableState true true,
      .dtlsEvent ⟨true, false, false, true, none⟩].foldl Monitored.step {}) := by
  refine (secure_run ?_).2
  exact ⟨trivial, trivial, fun _ _ => ⟨rfl, rfl⟩, trivial, trivial, trivial⟩

/-- A channel that is writable before it has an identity is so during the handshake. -/
theorem writable_before_identity :
    ¬ Monitored.Sound ([Event.connect, .writableState true true, .setLocalIdentity (some 0),
      .setRemoteFingerprint "sha-1" [1, 2, 3] ⟨true, true, true⟩].foldl Monitored.step {}) := by
  intro h
  have hopened := h.open_of_ready rfl (.inr rfl)
  cases hopened

end DtlsTransportChannel

end Libjingle
