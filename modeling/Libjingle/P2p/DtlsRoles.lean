import Libjingle.P2p.DtlsTransportChannel
import Libjingle.P2p.IceRole

/-! Sessions whose channels do DTLS. The handshake begins when the channel below gets writable,
and a stream is set up in the DTLS role that its channel has when the fingerprint comes. -/

namespace Libjingle

namespace DtlsTransportChannel

namespace State

def toNat : State → Nat
  | none => 0
  | offered => 1
  | accepted => 2
  | started => 3
  | opened => 4
  | closed => 5

end State

variable (c : DtlsTransportChannel)

/-- The channel after an event. Where it would use an identity or a stream that is not there it
is left as it is. -/
def next (e : Event) : DtlsTransportChannel := (c.handle e).elim c (·.1)

/-- The assertion in `SetRole`. -/
def TakesRole : Prop := c.dtlsState.toNat < State.accepted.toNat

def Stuck : Prop := c.dtlsState = .accepted ∧ c.channelWritable = true

/-- A fingerprint that lets the channel accept comes before the channel below is writable. -/
def Timely : Event → Prop
  | .setRemoteFingerprint algorithm _ setup =>
    c.dtlsState = .offered → algorithm ≠ "" → setup.created = true → setup.digest = true →
      c.srtpCiphers = [] ∨ setup.ciphers = true → c.channelWritable = false
  | _ => True

def sslRole (role : TransportRole) : SslRole := if role = .controlling then .server else .client

/-- The DTLS roles are those of the ICE role. -/
structure Aligned : Prop where
  role : c.dtlsRole = sslRole c.role
  stream : ∀ stream, c.dtls = some stream → stream.role = c.dtlsRole
  undecided : c.dtlsState.Undecided → c.dtls = none
  identity : c.dtlsState = .offered → c.localIdentity ≠ none

variable {c} {e : Event}

theorem takesRole_iff : c.TakesRole ↔ c.dtlsState.Undecided := by
  unfold TakesRole
  cases c.dtlsState <;> simp [State.toNat, State.Undecided]

theorem aligned_new (role : TransportRole) : (setRole {} role).Aligned :=
  ⟨rfl, fun _ h => absurd h (by simp [setRole]), fun _ => rfl,
    fun h => absurd h (by simp [setRole])⟩

theorem Aligned.setRole (h : c.Aligned) (hundecided : c.dtlsState.Undecided)
    (role : TransportRole) : (c.setRole role).Aligned :=
  ⟨rfl, fun stream hstream => absurd ((h.undecided hundecided).symm.trans hstream) (by simp),
    h.undecided, h.identity⟩

theorem Aligned.of_same {t : DtlsTransportChannel} (h : c.Aligned) (hrole : t.role = c.role)
    (hdtlsRole : t.dtlsRole = c.dtlsRole) (hstream : t.dtls = c.dtls)
    (hstate : t.dtlsState = c.dtlsState) (hidentity : t.localIdentity = c.localIdentity) :
    t.Aligned := by
  obtain ⟨hr, hs, hu, hi⟩ := h
  refine ⟨?_, ?_, ?_, ?_⟩
  · rw [hdtlsRole, hrole, hr]
  · rw [hstream, hdtlsRole]
    exact hs
  · rw [hstate, hstream]
    exact hu
  · rw [hstate, hidentity]
    exact hi

theorem setupDtls_spec {setup : Setup} {set : DtlsTransportChannel × Bool}
    (h : c.setupDtls setup = some set) :
    set.1 = { c with dtls := set.1.dtls } ∧
      (∀ stream, set.1.dtls = some stream → stream.role = c.dtlsRole) ∧
      (set.2 = true ↔ setup.created = true ∧ setup.digest = true ∧
        (c.srtpCiphers = [] ∨ setup.ciphers = true)) := by
  revert h
  unfold setupDtls
  split
  · rename_i hcreated
    rintro ⟨rfl⟩
    simp [hcreated]
  · split
    · intro h
      cases h
    · rename_i hcreated _ identity _
      dsimp only
      split
      · rename_i hdigest
        rintro ⟨rfl⟩
        simp [hdigest]
      · split
        · rename_i hdigest hciphers
          rintro ⟨rfl⟩
          simp [hciphers, Bool.not_eq_false _ ▸ hcreated, Bool.not_eq_false _ ▸ hdigest]
        · split
          · rename_i hciphers hset
            rintro ⟨rfl⟩
            simp [hciphers, hset]
          · rename_i hdigest hciphers hset
            rintro ⟨rfl⟩
            simp [hciphers, Bool.not_eq_false _ ▸ hcreated, Bool.not_eq_false _ ▸ hdigest,
              Bool.not_eq_false _ ▸ hset]

theorem setupDtls_isSome (setup : Setup) (h : c.localIdentity ≠ none) :
    ∃ set, c.setupDtls setup = some set := by
  obtain ⟨stream, ok, hset, -⟩ := @setupDtls_cases c setup fun _ => h
  exact ⟨_, hset⟩

theorem aligned_settle {setup : Setup} {set : DtlsTransportChannel × Bool}
    (h : c.setupDtls setup = some set) (hrole : c.dtlsRole = sslRole c.role) :
    (settle set).Aligned := by
  obtain ⟨hset, hstream, -⟩ := setupDtls_spec h
  obtain ⟨s, ok⟩ := set
  dsimp only at hset hstream
  have hfield : s.dtlsRole = c.dtlsRole ∧ s.role = c.role := by
    rw [hset]
    exact ⟨rfl, rfl⟩
  refine ⟨hfield.1.trans (hrole.trans (congrArg sslRole hfield.2.symm)), ?_, ?_, ?_⟩
  · intro stream hsome
    exact (hstream stream hsome).trans hfield.1.symm
  · intro hundecided
    cases ok <;> exact hundecided.elim
  · intro hoffered
    cases ok <;> cases hoffered

/-- An event that sets no role, by which the channel stays aligned. It is stuck only after a
fingerprint that comes late. -/
structure Follows (c t : DtlsTransportChannel) (e : Event) : Prop where
  aligned : t.Aligned
  stuck : t.Stuck ↔ ¬ c.Timely e

theorem follows_of_same {t : DtlsTransportChannel} (h : c.Aligned) (hstuck : ¬ t.Stuck)
    (htimely : c.Timely e) (hrole : t.role = c.role) (hdtlsRole : t.dtlsRole = c.dtlsRole)
    (hstream : t.dtls = c.dtls) (hstate : t.dtlsState = c.dtlsState)
    (hidentity : t.localIdentity = c.localIdentity) : Follows c t e :=
  ⟨h.of_same hrole hdtlsRole hstream hstate hidentity, iff_of_false hstuck (not_not.mpr htimely)⟩

theorem follows_self (h : c.Aligned) (hstuck : ¬ c.Stuck) (htimely : c.Timely e) :
    Follows c c e :=
  follows_of_same h hstuck htimely rfl rfl rfl rfl rfl

theorem setRemoteFingerprint_follows (h : c.Aligned) (hstuck : ¬ c.Stuck) (algorithm : String)
    (digest : List UInt8) (setup : Setup) :
    Follows c (c.next (.setRemoteFingerprint algorithm digest setup))
      (.setRemoteFingerprint algorithm digest setup) := by
  have hkeep (hnot : c.dtlsState ≠ .offered) :
      c.Timely (.setRemoteFingerprint algorithm digest setup) :=
    fun hoffered => absurd hoffered hnot
  rw [next, handle, setRemoteFingerprint]
  split
  · rename_i hstate
    have hnot : c.dtlsState ≠ .offered := by
      rw [hstate]
      decide
    split
    · exact follows_self h hstuck (hkeep hnot)
    · exact follows_of_same h (fun hstuck => by cases hstuck.1) (hkeep hnot) rfl rfl rfl
        hstate.symm rfl
  · rename_i hstate
    by_cases halgorithm : algorithm = ""
    · rw [if_pos halgorithm]
      refine ⟨⟨h.role, h.stream, fun _ => h.undecided (hstate ▸ trivial), fun hoffered => ?_⟩,
        iff_of_false (fun hstuck => ?_) (not_not.mpr fun _ hne => absurd halgorithm hne)⟩
      · cases hoffered
      · cases hstuck.1
    · rw [if_neg halgorithm]
      obtain ⟨set, hset⟩ := setupDtls_isSome (c := { c with
        remoteFingerprintValue := digest
        remoteFingerprintAlgorithm := algorithm }) setup (h.identity hstate)
      obtain ⟨hsame, -, hok⟩ := setupDtls_spec hset
      have hwritable : set.1.channelWritable = c.channelWritable := by rw [hsame]
      rw [hset]
      have hstuck : (settle set).Stuck ↔ set.2 = true ∧ c.channelWritable = true := by
        rw [← hwritable, Stuck, settle]
        cases set.2 <;> simp
      refine ⟨aligned_settle hset h.role, ?_⟩
      change (settle set).Stuck ↔ _
      rw [hstuck, hok]
      constructor
      · rintro ⟨⟨hcreated, hdigest, hciphers⟩, hwritable⟩ htimely
        have hbefore := htimely hstate halgorithm hcreated hdigest hciphers
        cases hwritable.symm.trans hbefore
      · intro hlate
        by_contra hnot
        exact hlate fun _ _ hcreated hdigest hciphers =>
          Bool.eq_false_iff.mpr fun hwritable => hnot ⟨⟨hcreated, hdigest, hciphers⟩, hwritable⟩
  · rename_i hnone hoffered
    exact follows_self h hstuck (hkeep hoffered)

theorem next_follows (h : c.Aligned) (hstuck : ¬ c.Stuck) (hrole : ∀ role, e ≠ .setRole role) :
    Follows c (c.next e) e := by
  cases e with
  | setRole role => exact absurd rfl (hrole role)
  | connect => exact follows_self h hstuck trivial
  | setRemoteFingerprint algorithm digest setup =>
    exact setRemoteFingerprint_follows h hstuck algorithm digest setup
  | getSrtpCipher =>
    have hnext : c.next .getSrtpCipher = c := by
      rw [next, handle]
      cases c.getSrtpCipher <;> rfl
    rw [hnext]
    exact follows_self h hstuck trivial
  | sendPacket data bypass =>
    have hnext : c.next (.sendPacket data bypass) = c := by
      rw [next, handle]
      cases c.sendPacket data bypass <;> rfl
    rw [hnext]
    exact follows_self h hstuck trivial
  | incomingPacket data =>
    have hnext : c.next (.incomingPacket data) = c := by
      rw [next, handle]
      cases c.onReadPacket data <;> rfl
    rw [hnext]
    exact follows_self h hstuck trivial
  | setSrtpCiphers ciphers =>
    rw [next, handle, setSrtpCiphers]
    dsimp only [Option.elim]
    split <;> exact follows_of_same h hstuck trivial rfl rfl rfl rfl rfl
  | readableState readable =>
    rw [next, handle, onReadableState]
    dsimp only [Option.elim]
    split <;> exact follows_of_same h hstuck trivial rfl rfl rfl rfl rfl
  | setLocalIdentity identity =>
    rw [next, handle]
    dsimp only [Option.elim]
    by_cases hstate : c.dtlsState ≠ .none
    · have hsame : (c.setLocalIdentity identity).1 = c := by
        rw [setLocalIdentity.eq_def, if_pos hstate]
      rw [hsame]
      exact follows_self h hstuck trivial
    · rw [setLocalIdentity.eq_def, if_neg hstate]
      cases identity with
      | none => exact follows_self h hstuck trivial
      | some identity =>
        have hnone := h.undecided (not_not.mp hstate ▸ trivial)
        refine ⟨⟨h.role, h.stream, fun _ => hnone, fun _ => Option.some_ne_none _⟩,
          iff_of_false (fun hstuck => ?_) (not_not.mpr trivial)⟩
        cases hstuck.1
  | reset setup =>
    rw [next, handle, reset]
    cases hset : setupDtls { c with
      channelReadable := false
      channelWritable := false
      readable := false
      writable := false } setup with
    | none => exact follows_self h hstuck trivial
    | some set =>
      obtain ⟨hsame, -⟩ := setupDtls_spec hset
      have hwritable : set.1.channelWritable = false := by rw [hsame]
      refine ⟨aligned_settle hset h.role, iff_of_false (fun hstuck => ?_) (not_not.mpr trivial)⟩
      exact absurd (hstuck.2.symm.trans hwritable) (by decide)
  | writableState writable starts =>
    rw [next, handle, onWritableState]
    dsimp only
    split
    · rename_i hstate
      exact follows_of_same h (fun hstuck => absurd (hstate.symm.trans hstuck.1) (by decide))
        trivial rfl rfl rfl rfl rfl
    · rename_i hstate
      exact follows_of_same h (fun hstuck => absurd (hstate.symm.trans hstuck.1) (by decide))
        trivial rfl rfl rfl rfl rfl
    · rename_i hstate
      rw [maybeStartDtls]
      split
      · cases hstream : c.dtls with
        | none => exact follows_self h hstuck trivial
        | some stream =>
          refine ⟨⟨h.role, fun x hx => h.stream x (hstream.trans hx), ?_, ?_⟩,
            iff_of_false ?_ (not_not.mpr trivial)⟩
          · intro hundecided
            cases starts <;> exact hundecided.elim
          · intro hoffered
            cases starts <;> cases hoffered
          · intro hstuck
            cases starts <;> cases hstuck.1
      · rename_i hwritable
        exact follows_of_same h (fun hstuck => hwritable hstuck.2) trivial rfl rfl rfl rfl rfl
    · rename_i hstate
      exact follows_of_same h (fun hstuck => hstate hstuck.1) trivial rfl rfl rfl rfl rfl
  | dtlsEvent signal =>
    rw [next, handle, onDtlsEvent]
    dsimp only [Option.elim]
    split
    · exact follows_self h hstuck trivial
    · have hopened : Follows c (if signal.opened ∧ signal.isOpen then
          { c with dtlsState := .opened, readable := true, writable := true } else c)
          (.dtlsEvent signal) := by
        split
        · exact ⟨⟨h.role, h.stream, fun h => h.elim, fun h => by cases h⟩,
            iff_of_false (fun hstuck => by cases hstuck.1) (not_not.mpr trivial)⟩
        · exact follows_self h hstuck trivial
      dsimp only
      split
      · exact ⟨⟨hopened.aligned.role, hopened.aligned.stream, fun h => h.elim, fun h => by cases h⟩,
          iff_of_false (fun hstuck => by cases hstuck.1) (not_not.mpr trivial)⟩
      · exact hopened

end DtlsTransportChannel

open DtlsTransportChannel (SslRole Stuck Timely Aligned)

namespace DtlsSession

structure Transport where
  role : TransportRole := .unknown
  channels : List DtlsTransportChannel := []

end DtlsSession

/-- A session that does DTLS. It has yet to give the other role to some transports. -/
structure DtlsSession where
  initiator : Bool
  roleSwitch : Bool := false
  settingRole : List String := []
  transports : List (String × DtlsSession.Transport) := []

namespace DtlsSession

namespace Transport

variable (t : Transport)

/-- `SetRole_w` -/
def setRole (role : TransportRole) : Transport where
  role
  channels := t.channels.map (·.setRole role)

def createChannel : Transport := { t with channels := t.channels ++ [.setRole {} t.role] }

end Transport

/-- What the session does with its transports, what comes to a channel, and the signal that the
session's role is in conflict. -/
inductive Event where
  | getOrCreateTransportProxy (name : String)
  | destroyTransportProxy (name : String)
  | createChannel (name : String)
  | destroyChannel (name : String) (index : Nat)
  | channel (name : String) (index : Nat) (e : DtlsTransportChannel.Event)
  | negotiateTransportDescription (name : String) (remoteMode : IceMode)
  | roleConflict
  | setRole

variable (s : DtlsSession)

def initialRole : TransportRole := if s.initiator then .controlling else .controlled

def modifyTransport (name : String) (f : Transport → Transport) : DtlsSession :=
  { s with transports := s.transports.map fun entry =>
      if entry.1 = name then (entry.1, f entry.2) else entry }

/-- The role that an event gives to a transport. A controlled one takes the other role when the
other side is ICE-lite. -/
def givenRole (e : Event) (entry : String × Transport) : Option TransportRole :=
  match e with
  | .negotiateTransportDescription name remoteMode =>
    if entry.1 = name ∧ entry.2.role = .controlled ∧ remoteMode = .lite then some .controlling
    else none
  | .setRole => if s.settingRole.head? = some entry.1 then some s.initialRole.reverse else none
  | _ => none

def giveRoles (e : Event) : DtlsSession :=
  { s with transports := s.transports.map fun entry =>
      (s.givenRole e entry).elim entry fun role => (entry.1, entry.2.setRole role) }

def setsRole : DtlsTransportChannel.Event → Bool
  | .setRole _ => true
  | _ => false

/-- A channel gets its role from its transport only. -/
def step (e : Event) : DtlsSession :=
  match e with
  | .getOrCreateTransportProxy name =>
    if s.transports.any (·.1 = name) then s
    else { s with transports := s.transports ++ [(name, { role := s.initialRole })] }
  | .destroyTransportProxy name =>
    { s with transports := s.transports.filter (·.1 ≠ name) }
  | .createChannel name => s.modifyTransport name (·.createChannel)
  | .destroyChannel name index =>
    s.modifyTransport name fun t => { t with channels := t.channels.eraseIdx index }
  | .channel name index e =>
    if setsRole e then s
    else s.modifyTransport name fun t =>
      { t with channels := t.channels.modify index (·.next e) }
  | .negotiateTransportDescription .. => s.giveRoles e
  | .roleConflict =>
    if s.roleSwitch then s
    else { s with roleSwitch := true, settingRole := s.transports.map Prod.fst }
  | .setRole => { s.giveRoles e with settingRole := s.settingRole.tail }

def channels : List DtlsTransportChannel := s.transports.flatMap (·.2.channels)

/-- The assertions of `SetRole` that an event comes to. -/
def Asserts (e : Event) : Prop :=
  ∀ entry ∈ s.transports, (s.givenRole e entry).isSome = true →
    ∀ c ∈ entry.2.channels, c.TakesRole

/-- A fingerprint comes before the channel below is writable, and a transport gets another role
only before a fingerprint was applied to any of its channels. -/
def Orderly (e : Event) : Prop :=
  (∀ name index event, e = .channel name index event → ∀ entry ∈ s.transports, entry.1 = name →
    ∀ c, entry.2.channels[index]? = some c → c.Timely event) ∧
  ∀ entry ∈ s.transports, (s.givenRole e entry).isSome = true →
    ∀ c ∈ entry.2.channels, c.dtlsState.Undecided

variable {s} {e : Event}

theorem mem_channels {c : DtlsTransportChannel} :
    c ∈ s.channels ↔ ∃ entry ∈ s.transports, c ∈ entry.2.channels := List.mem_flatMap

theorem mem_modify {α : Type*} {l : List α} {f : α → α} {i : Nat} {b : α} (h : b ∈ l.modify i f) :
    b ∈ l ∨ ∃ a, l[i]? = some a ∧ b = f a := by
  obtain ⟨j, hj⟩ := List.mem_iff_getElem?.mp h
  rw [List.getElem?_modify] at hj
  obtain ⟨a, ha, hb⟩ := Option.map_eq_some_iff.mp hj
  by_cases hij : i = j
  · subst hij
    exact .inr ⟨a, ha, by simpa using hb.symm⟩
  · obtain rfl : a = b := by simpa [hij] using hb
    exact .inl (List.mem_of_getElem? ha)

theorem mem_modifyTransport {name : String} {f : Transport → Transport} {t : DtlsTransportChannel}
    (h : t ∈ (s.modifyTransport name f).channels) :
    t ∈ s.channels ∨ ∃ entry ∈ s.transports, entry.1 = name ∧ t ∈ (f entry.2).channels := by
  obtain ⟨entry', hentry', ht⟩ := mem_channels.mp h
  obtain ⟨entry, hentry, rfl⟩ := List.mem_map.mp hentry'
  by_cases hname : entry.1 = name
  · rw [if_pos hname] at ht
    exact .inr ⟨entry, hentry, hname, ht⟩
  · rw [if_neg hname] at ht
    exact .inl (mem_channels.mpr ⟨entry, hentry, ht⟩)

theorem mem_giveRoles {t : DtlsTransportChannel} (h : t ∈ (s.giveRoles e).channels) :
    t ∈ s.channels ∨ ∃ entry ∈ s.transports, ∃ role, s.givenRole e entry = some role ∧
      ∃ c ∈ entry.2.channels, t = c.setRole role := by
  obtain ⟨entry', hentry', ht⟩ := mem_channels.mp h
  obtain ⟨entry, hentry, rfl⟩ := List.mem_map.mp hentry'
  cases hrole : s.givenRole e entry with
  | none =>
    rw [hrole] at ht
    exact .inl (mem_channels.mpr ⟨entry, hentry, ht⟩)
  | some role =>
    rw [hrole] at ht
    obtain ⟨c, hc, rfl⟩ := List.mem_map.mp ht
    exact .inr ⟨entry, hentry, role, hrole, c, hc, rfl⟩

inductive Comes (s : DtlsSession) (e : Event) (t : DtlsTransportChannel) : Prop where
  | old (h : t ∈ s.channels)
  | created (role : TransportRole) (h : t = .setRole {} role)
  | event (name : String) (index : Nat) (event : DtlsTransportChannel.Event)
    (entry : String × Transport) (c : DtlsTransportChannel) (he : e = .channel name index event)
    (hevent : setsRole event = false) (hentry : entry ∈ s.transports) (hname : entry.1 = name)
    (hc : entry.2.channels[index]? = some c) (h : t = c.next event)
  | given (entry : String × Transport) (role : TransportRole) (c : DtlsTransportChannel)
    (hentry : entry ∈ s.transports) (hrole : s.givenRole e entry = some role)
    (hc : c ∈ entry.2.channels) (h : t = c.setRole role)

theorem comes_of_giveRoles {t : DtlsTransportChannel} (h : t ∈ (s.giveRoles e).channels) :
    Comes s e t := by
  rcases mem_giveRoles h with h | ⟨entry, hentry, role, hrole, c, hc, heq⟩
  · exact .old h
  · exact .given entry role c hentry hrole hc heq

theorem comes_of_mem {t : DtlsTransportChannel} (h : t ∈ (s.step e).channels) : Comes s e t := by
  cases e with
  | getOrCreateTransportProxy name =>
    rw [step] at h
    split at h
    · exact .old h
    · obtain ⟨entry, hentry, ht⟩ := mem_channels.mp h
      rcases List.mem_append.mp hentry with hentry | hentry
      · exact .old (mem_channels.mpr ⟨entry, hentry, ht⟩)
      · obtain rfl := List.mem_singleton.mp hentry
        exact absurd ht List.not_mem_nil
  | destroyTransportProxy name =>
    obtain ⟨entry, hentry, ht⟩ := mem_channels.mp h
    exact .old (mem_channels.mpr ⟨entry, List.mem_of_mem_filter hentry, ht⟩)
  | createChannel name =>
    rcases mem_modifyTransport h with h | ⟨entry, hentry, -, ht⟩
    · exact .old h
    · rcases List.mem_append.mp ht with ht | ht
      · exact .old (mem_channels.mpr ⟨entry, hentry, ht⟩)
      · exact .created entry.2.role (List.mem_singleton.mp ht)
  | destroyChannel name index =>
    rcases mem_modifyTransport h with h | ⟨entry, hentry, -, ht⟩
    · exact .old h
    · exact .old (mem_channels.mpr ⟨entry, hentry, List.mem_of_mem_eraseIdx ht⟩)
  | channel name index event =>
    rw [step] at h
    split at h
    · exact .old h
    · rename_i hevent
      rcases mem_modifyTransport h with h | ⟨entry, hentry, hname, ht⟩
      · exact .old h
      · rcases mem_modify ht with ht | ⟨c, hc, rfl⟩
        · exact .old (mem_channels.mpr ⟨entry, hentry, ht⟩)
        · exact .event name index event entry c rfl (Bool.eq_false_iff.mpr hevent) hentry hname hc
            rfl
  | negotiateTransportDescription name remoteMode => exact comes_of_giveRoles h
  | roleConflict =>
    rw [step] at h
    split at h <;> exact .old h
  | setRole => exact comes_of_giveRoles h

theorem ne_setRole {event : DtlsTransportChannel.Event} (h : setsRole event = false)
    (role : TransportRole) : event ≠ .setRole role := by
  rintro rfl
  cases h

/-- All channels are aligned, and their handshakes begin in time. -/
def Inv (s : DtlsSession) : Prop := ∀ c ∈ s.channels, c.Aligned ∧ ¬ c.Stuck

theorem mem_of_index {entry : String × Transport} (hentry : entry ∈ s.transports) {index : Nat}
    {c : DtlsTransportChannel} (hc : entry.2.channels[index]? = some c) : c ∈ s.channels :=
  mem_channels.mpr ⟨entry, hentry, List.mem_of_getElem? hc⟩

theorem inv_step (h : Inv s) (horderly : s.Orderly e) : Inv (s.step e) := by
  intro t ht
  cases comes_of_mem ht with
  | old ht => exact h t ht
  | created role heq =>
    rw [heq]
    exact ⟨DtlsTransportChannel.aligned_new role, fun hstuck => by cases hstuck.1⟩
  | event name index event entry c he hevent hentry hname hc heq =>
    obtain ⟨haligned, hstuck⟩ := h c (mem_of_index hentry hc)
    have hfollows := DtlsTransportChannel.next_follows haligned hstuck (ne_setRole hevent)
    rw [heq]
    refine ⟨hfollows.aligned, fun hlate => hfollows.stuck.mp hlate ?_⟩
    exact horderly.1 name index event he entry hentry hname c hc
  | given entry role c hentry hrole hc heq =>
    obtain ⟨haligned, hstuck⟩ := h c (mem_channels.mpr ⟨entry, hentry, hc⟩)
    rw [heq]
    exact ⟨haligned.setRole (horderly.2 entry hentry (by rw [hrole]; rfl) c hc) role, hstuck⟩

theorem asserts_iff : s.Asserts e ↔ ∀ entry ∈ s.transports, (s.givenRole e entry).isSome = true →
    ∀ c ∈ entry.2.channels, c.dtlsState.Undecided :=
  forall₂_congr fun _ _ => forall_congr' fun _ => forall₂_congr fun _ _ =>
    DtlsTransportChannel.takesRole_iff

theorem orderly_of_started (h : Inv s) (hasserts : s.Asserts e)
    (hstarted : ∀ t ∈ (s.step e).channels, ¬ t.Stuck) : s.Orderly e := by
  refine ⟨?_, asserts_iff.mp hasserts⟩
  rintro name index event rfl entry hentry hname c hc
  obtain ⟨haligned, hstuck⟩ := h c (mem_of_index hentry hc)
  by_cases hevent : setsRole event = true
  · cases event with
    | setRole role => trivial
    | _ => cases hevent
  · have hfollows := DtlsTransportChannel.next_follows haligned hstuck
      (ne_setRole (Bool.eq_false_iff.mpr hevent))
    by_contra hlate
    refine hstarted (c.next event) ?_ (hfollows.stuck.mpr hlate)
    rw [step, if_neg hevent]
    refine mem_channels.mpr ⟨_, List.mem_map.mpr ⟨entry, hentry, if_pos hname⟩, ?_⟩
    refine List.mem_of_getElem? (i := index) ?_
    rw [List.getElem?_modify_eq, hc]
    rfl

end DtlsSession

structure DtlsPair where
  first : DtlsSession
  second : DtlsSession

namespace DtlsPair

inductive Event where
  | first (e : DtlsSession.Event)
  | second (e : DtlsSession.Event)

def step (p : DtlsPair) : Event → DtlsPair
  | .first e => { p with first := p.first.step e }
  | .second e => { p with second := p.second.step e }

def Opposed (c d : DtlsTransportChannel) : Prop :=
  c.role = .controlling ∧ d.role = .controlled ∨ c.role = .controlled ∧ d.role = .controlling

def Asserts (p : DtlsPair) : Event → Prop
  | .first e => p.first.Asserts e
  | .second e => p.second.Asserts e

def Orderly (p : DtlsPair) : Event → Prop
  | .first e => p.first.Orderly e
  | .second e => p.second.Orderly e

/-- No assertion fails, no handshake is yet to begin, and channels of opposite ICE roles have
opposite DTLS roles, and so have their streams. -/
structure Right (p : DtlsPair) (e : Event) : Prop where
  asserts : p.Asserts e
  started : ∀ c ∈ (p.step e).first.channels ++ (p.step e).second.channels, ¬ c.Stuck
  opposite : ∀ c ∈ (p.step e).first.channels, ∀ d ∈ (p.step e).second.channels, Opposed c d →
    c.dtlsRole ≠ d.dtlsRole ∧ ∀ x y, c.dtls = some x → d.dtls = some y → x.role ≠ y.role

def Inv (p : DtlsPair) : Prop := p.first.Inv ∧ p.second.Inv

variable {p : DtlsPair} {e : Event}

theorem inv_step (h : p.Inv) (horderly : p.Orderly e) : (p.step e).Inv := by
  cases e with
  | first e => exact ⟨DtlsSession.inv_step h.1 horderly, h.2⟩
  | second e => exact ⟨h.1, DtlsSession.inv_step h.2 horderly⟩

theorem dtlsRole_ne {c d : DtlsTransportChannel} (hc : c.Aligned) (hd : d.Aligned)
    (h : Opposed c d) : c.dtlsRole ≠ d.dtlsRole := by
  rw [hc.role, hd.role]
  rcases h with ⟨hcrole, hdrole⟩ | ⟨hcrole, hdrole⟩ <;> rw [hcrole, hdrole] <;> decide

theorem right_iff (h : p.Inv) : p.Right e ↔ p.Orderly e := by
  constructor
  · rintro ⟨hasserts, hstarted, -⟩
    cases e with
    | first e =>
      exact DtlsSession.orderly_of_started h.1 hasserts fun t ht =>
        hstarted t (List.mem_append_left _ ht)
    | second e =>
      exact DtlsSession.orderly_of_started h.2 hasserts fun t ht =>
        hstarted t (List.mem_append_right _ ht)
  · intro horderly
    obtain ⟨hfirst, hsecond⟩ := inv_step h horderly
    refine ⟨?_, fun c hc => ?_, fun c hc d hd hopposed => ?_⟩
    · cases e with
      | first e => exact DtlsSession.asserts_iff.mpr horderly.2
      | second e => exact DtlsSession.asserts_iff.mpr horderly.2
    · rcases List.mem_append.mp hc with hc | hc
      · exact (hfirst c hc).2
      · exact (hsecond c hc).2
    · have hc := (hfirst c hc).1
      have hd := (hsecond d hd).1
      have hne := dtlsRole_ne hc hd hopposed
      refine ⟨hne, fun x y hx hy => ?_⟩
      rw [hc.stream x hx, hd.stream y hy]
      exact hne

/-- A pair of sessions goes right exactly as long as all events are orderly. -/
theorem dtls_roles_iff (initiators : Bool × Bool) (events : List Event) :
    Runs.Along step Right ⟨{ initiator := initiators.1 }, { initiator := initiators.2 }⟩ events ↔
      Runs.Along step Orderly ⟨{ initiator := initiators.1 }, { initiator := initiators.2 }⟩
        events := by
  refine @Runs.along_iff DtlsPair Event step Right Orderly Inv (fun _ _ h => right_iff h)
    (fun _ _ h hright => inv_step h ((right_iff h).mp hright)) _ ?_ events
  exact ⟨fun c hc => absurd hc List.not_mem_nil, fun c hc => absurd hc List.not_mem_nil⟩

def controllingPair : DtlsPair := ⟨{ initiator := true }, { initiator := true }⟩

def setUpEvents : List DtlsSession.Event :=
  [.getOrCreateTransportProxy "audio", .createChannel "audio",
    .channel "audio" 0 (.setLocalIdentity (some 0))]

def fingerprintEvent : DtlsSession.Event :=
  .channel "audio" 0 (.setRemoteFingerprint "sha-1" [1, 2, 3] ⟨true, true, true⟩)

def writableFirst : List Event :=
  (setUpEvents ++ [.channel "audio" 0 (.writableState true true), fingerprintEvent]).map Event.first

def conflictLater : List Event :=
  (setUpEvents ++ [fingerprintEvent]).map Event.first ++
    (setUpEvents ++ [fingerprintEvent, .roleConflict, .setRole]).map Event.second

/-- A channel that is writable before the fingerprint comes is left accepted. A session that
takes the other role after the fingerprint has a stream in the old one. -/
theorem handshake_not_begun :
    (writableFirst.foldl step controllingPair).first.channels.map (fun c =>
      (c.dtlsState, c.channelWritable)) = [(.accepted, true)] ∧
    ¬ Runs.Along step Right controllingPair writableFirst ∧
    (conflictLater.foldl step controllingPair).first.channels.map (fun c =>
      (c.role, c.dtls.map (·.role))) = [(.controlling, some .server)] ∧
    (conflictLater.foldl step controllingPair).second.channels.map (fun c =>
      (c.role, c.dtls.map (·.role))) = [(.controlled, some .server)] ∧
    ¬ Runs.Along step Right controllingPair conflictLater := by
  refine ⟨by decide, ?_, by decide, by decide, ?_⟩
  · rintro ⟨-, -, -, -, hright, -⟩
    have hstuck : ∃ c ∈ (writableFirst.foldl step controllingPair).first.channels,
        c.dtlsState = .accepted ∧ c.channelWritable = true := by decide
    obtain ⟨c, hc, hstuck⟩ := hstuck
    exact hright.started c (List.mem_append_left _ hc) hstuck
  · rintro ⟨-, -, -, -, -, -, -, -, -, hright, -⟩
    have hset : ∃ entry ∈ (conflictLater.dropLast.foldl step controllingPair).second.transports,
        ((conflictLater.dropLast.foldl step controllingPair).second.givenRole .setRole
          entry).isSome = true ∧ ∃ c ∈ entry.2.channels, ¬ c.dtlsState.toNat < 2 := by decide
    obtain ⟨entry, hentry, hrole, c, hc, hnot⟩ := hset
    exact hnot (hright.asserts entry hentry hrole c hc)

end DtlsPair

end Libjingle
