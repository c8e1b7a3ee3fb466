import Libjingle.Lib.Runs
import Libjingle.P2p.Port

/-! `Transport`: the channels of a transport and the credentials that its two
descriptions push down to them. -/

namespace Libjingle

/-- What a channel keeps of the descriptions. Allocations counts the calls of
`Allocate`. -/
structure TransportChannelImpl where
  iceUfrag : List UInt8 := []
  icePwd : List UInt8 := []
  remoteIceUfrag : List UInt8 := []
  remoteIcePwd : List UInt8 := []
  remoteCandidateGeneration : UInt32 := 0
  protocolType : TransportProtocol := .google
  allocations : Nat := 0
  deriving DecidableEq, Repr

namespace TransportChannelImpl

variable (ch : TransportChannelImpl)

def allocate : TransportChannelImpl := { ch with allocations := ch.allocations + 1 }

def setIceCredentials (iceUfrag icePwd : List UInt8) : TransportChannelImpl :=
  let iceRestart := ch.iceUfrag ≠ [] ∧ ch.icePwd ≠ [] ∧
    (ch.iceUfrag ≠ iceUfrag ∨ ch.icePwd ≠ icePwd)
  let ch := { ch with iceUfrag := iceUfrag, icePwd := icePwd }
  if iceRestart then ch.allocate else ch

def setRemoteIceCredentials (iceUfrag icePwd : List UInt8) : TransportChannelImpl :=
  let iceRestart := ch.remoteIceUfrag ≠ [] ∧ ch.remoteIcePwd ≠ [] ∧
    (ch.remoteIceUfrag ≠ iceUfrag ∨ ch.remoteIcePwd ≠ icePwd)
  let ch := { ch with remoteIceUfrag := iceUfrag, remoteIcePwd := icePwd }
  if iceRestart then { ch with remoteCandidateGeneration := ch.remoteCandidateGeneration + 1 }
  else ch

def setIceProtocolType (type : TransportProtocol) : TransportChannelImpl :=
  { ch with protocolType := type }

/-- Credentials that are not set fail an assertion, and nothing is done. -/
def connect : TransportChannelImpl :=
  if ch.iceUfrag = [] ∨ ch.icePwd = [] then ch else ch.allocate

def getRemoteCandidateGeneration (candidate : Candidate) : UInt32 :=
  if ch.protocolType = .google then candidate.generation else ch.remoteCandidateGeneration

/-- The candidate that `CreateConnections` makes connections to. -/
def newRemoteCandidate (candidate : Candidate) : Candidate := { candidate with
  generation := ch.getRemoteCandidateGeneration candidate
  username := if candidate.username = [] then ch.remoteIceUfrag else candidate.username
  password := if candidate.password = [] then ch.remoteIcePwd else candidate.password }

end TransportChannelImpl

structure ChannelMapEntry where
  component : Int
  ref : Nat
  impl : TransportChannelImpl
  deriving DecidableEq, Repr

structure Transport where
  localDescription : Option TransportDescription := none
  remoteDescription : Option TransportDescription := none
  channels : List ChannelMapEntry := []
  protocol : TransportProtocol := .hybrid
  connectRequested : Bool := false
  deriving DecidableEq, Repr

namespace Transport

variable (s : Transport)

def getChannel (component : Int) : Option TransportChannelImpl :=
  (s.channels.find? (·.component = component)).map ChannelMapEntry.impl

def mapChannels (f : TransportChannelImpl → TransportChannelImpl) : Transport :=
  { s with channels := s.channels.map fun entry => { entry with impl := f entry.impl } }

/-- `ApplyLocalTransportDescription_w` of the local description. -/
def applyLocal (d : TransportDescription) (ch : TransportChannelImpl) : TransportChannelImpl :=
  ch.setIceCredentials d.iceUfrag d.icePwd

/-- `ApplyRemoteTransportDescription_w` of the remote description. The fragment is
passed twice. -/
def applyRemote (d : TransportDescription) (ch : TransportChannelImpl) : TransportChannelImpl :=
  ch.setRemoteIceCredentials d.iceUfrag d.iceUfrag

def setLocalTransportDescription (d : TransportDescription) : Transport :=
  { s with localDescription := some d }.mapChannels (applyLocal d)

def setRemoteTransportDescription (d : TransportDescription) : Transport :=
  { s with remoteDescription := some d }.mapChannels (applyRemote d)

/-- The end of `NegotiateTransportDescription_w`, with the protocol it settles on. -/
def negotiate (protocol : TransportProtocol) : Transport :=
  { s with protocol := protocol }.mapChannels (·.setIceProtocolType protocol)

/-- The state that `CreateChannel_w` pushes down to a new channel: the remote
description only after the local one. -/
def pushDown : TransportChannelImpl :=
  let ch : TransportChannelImpl := {}
  let ch := match s.localDescription with
    | none => ch
    | some l =>
      match s.remoteDescription with
      | none => applyLocal l ch
      | some r => (applyRemote r (applyLocal l ch)).setIceProtocolType s.protocol
  if s.connectRequested then ch.connect else ch

def createChannel (component : Int) : Transport :=
  match s.getChannel component with
  | some _ => { s with channels := s.channels.map fun entry =>
      if entry.component = component then { entry with ref := entry.ref + 1 } else entry }
  | none => { s with channels := s.channels ++ [⟨component, 1, s.pushDown⟩] }

def destroyChannel (component : Int) : Transport :=
  { s with channels := s.channels.filterMap fun entry =>
      if entry.component ≠ component then some entry
      else if entry.ref - 1 = 0 then none
      else some { entry with ref := entry.ref - 1 } }

def destroyAllChannels : Transport := { s with channels := [] }

def resetChannels : Transport := { s with connectRequested := false }

def connectChannels (iceUfrag icePwd : List UInt8) : Transport :=
  if s.connectRequested ∨ s.channels = [] then s
  else
    let s := { s with connectRequested := true }
    let s := if s.localDescription = none then s.setLocalTransportDescription ⟨iceUfrag, icePwd⟩
      else s
    s.mapChannels (·.connect)

inductive Event
  | setLocal (d : TransportDescription)
  | setRemote (d : TransportDescription)
  | negotiate (protocol : TransportProtocol)
  | createChannel (component : Int)
  | destroyChannel (component : Int)
  | destroyAllChannels
  | resetChannels
  | connectChannels (iceUfrag icePwd : List UInt8)
  deriving DecidableEq, Repr

def step (s : Transport) : Event → Transport
  | .setLocal d => s.setLocalTransportDescription d
  | .setRemote d => s.setRemoteTransportDescription d
  | .negotiate protocol => s.negotiate protocol
  | .createChannel component => s.createChannel component
  | .destroyChannel component => s.destroyChannel component
  | .destroyAllChannels => s.destroyAllChannels
  | .resetChannels => s.resetChannels
  | .connectChannels iceUfrag icePwd => s.connectChannels iceUfrag icePwd

def run (s : Transport) (events : List Event) : Transport := events.foldl step s

structure Agrees (l r : Option TransportDescription) (ch : TransportChannelImpl) : Prop where
  local_credentials : ∀ d, l = some d → ch.iceUfrag = d.iceUfrag ∧ ch.icePwd = d.icePwd
  remote_credentials : ∀ d, r = some d →
    ch.remoteIceUfrag = d.iceUfrag ∧ ch.remoteIcePwd = d.icePwd

def Current : Prop :=
  ∀ entry ∈ s.channels, Agrees s.localDescription s.remoteDescription entry.impl

/-- A ping to a candidate without a password of its own is signed with the remote
password, and to one without a username goes the remote fragment. -/
def PingsSigned : Prop :=
  ∀ d, s.remoteDescription = some d → ∀ entry ∈ s.channels, ∀ (port : Port) (candidate : Candidate),
    port.iceProtocol = .rfc5245 → candidate.password = [] →
    ∀ computeHmac computeCrc32 transactionId useCandidate retransmits localPriority,
      port.prepare computeHmac computeCrc32 transactionId (entry.impl.newRemoteCandidate candidate)
          useCandidate retransmits localPriority =
        (((port.unsignedPing transactionId (entry.impl.newRemoteCandidate candidate) useCandidate
          retransmits localPriority).addMessageIntegrity computeHmac d.icePwd).1.addFingerprint
            computeCrc32).1

/-- A remote description whose credentials are others than those before it starts
a new generation of candidates on every channel. -/
def RestartDetected (e : Event) : Prop :=
  ∀ before d, s.remoteDescription = some before → e = .setRemote d →
    (before.iceUfrag ≠ [] ∨ before.icePwd ≠ []) → d ≠ before →
    ∀ component ch, s.getChannel component = some ch →
      ∃ ch', (step s e).getChannel component = some ch' ∧
        ch'.remoteCandidateGeneration = ch.remoteCandidateGeneration + 1

structure Served (s : Transport) (e : Event) : Prop where
  current : (step s e).Current
  pingsSigned : (step s e).PingsSigned
  restartDetected : s.RestartDetected e

/-- A remote description for channels that exist has one string for both, and so
has one for a new channel, which gets it only behind a local one. -/
def Delivers (s : Transport) : Event → Prop
  | .setRemote d => s.channels ≠ [] → d.icePwd = d.iceUfrag
  | .createChannel component => s.getChannel component = none →
      ∀ d, s.remoteDescription = some d →
        if s.localDescription = none then d = ⟨[], []⟩ else d.icePwd = d.iceUfrag
  | _ => True

def Inv : Prop :=
  s.Current ∧ ∀ entry ∈ s.channels, entry.impl.remoteIcePwd = entry.impl.remoteIceUfrag

end Transport

namespace TransportChannelImpl

variable {ch : TransportChannelImpl} {ufrag pwd : List UInt8}

@[simp] theorem iceUfrag_setIceCredentials : (ch.setIceCredentials ufrag pwd).iceUfrag = ufrag := by
  rw [setIceCredentials]
  split <;> rfl

@[simp] theorem icePwd_setIceCredentials : (ch.setIceCredentials ufrag pwd).icePwd = pwd := by
  rw [setIceCredentials]
  split <;> rfl

@[simp] theorem remoteIceUfrag_setIceCredentials :
    (ch.setIceCredentials ufrag pwd).remoteIceUfrag = ch.remoteIceUfrag := by
  rw [setIceCredentials]
  split <;> rfl

@[simp] theorem remoteIcePwd_setIceCredentials :
    (ch.setIceCredentials ufrag pwd).remoteIcePwd = ch.remoteIcePwd := by
  rw [setIceCredentials]
  split <;> rfl

@[simp] theorem iceUfrag_setRemoteIceCredentials :
    (ch.setRemoteIceCredentials ufrag pwd).iceUfrag = ch.iceUfrag := by
  rw [setRemoteIceCredentials]
  split <;> rfl

@[simp] theorem icePwd_setRemoteIceCredentials :
    (ch.setRemoteIceCredentials ufrag pwd).icePwd = ch.icePwd := by
  rw [setRemoteIceCredentials]
  split <;> rfl

@[simp] theorem remoteIceUfrag_setRemoteIceCredentials :
    (ch.setRemoteIceCredentials ufrag pwd).remoteIceUfrag = ufrag := by
  rw [setRemoteIceCredentials]
  split <;> rfl

@[simp] theorem remoteIcePwd_setRemoteIceCredentials :
    (ch.setRemoteIceCredentials ufrag pwd).remoteIcePwd = pwd := by
  rw [setRemoteIceCredentials]
  split <;> rfl

theorem generation_setRemoteIceCredentials (hufrag : ch.remoteIceUfrag ≠ [])
    (hpwd : ch.remoteIcePwd ≠ []) (hchange : ch.remoteIceUfrag ≠ ufrag ∨ ch.remoteIcePwd ≠ pwd) :
    (ch.setRemoteIceCredentials ufrag pwd).remoteCandidateGeneration =
      ch.remoteCandidateGeneration + 1 := by
  rw [setRemoteIceCredentials]
  exact congrArg remoteCandidateGeneration (if_pos ⟨hufrag, hpwd, hchange⟩)

end TransportChannelImpl

/-- The four strings are what a description is compared with. -/
def TransportChannelImpl.SameCredentials (a b : TransportChannelImpl) : Prop :=
  a.iceUfrag = b.iceUfrag ∧ a.icePwd = b.icePwd ∧ a.remoteIceUfrag = b.remoteIceUfrag ∧
    a.remoteIcePwd = b.remoteIcePwd

theorem TransportChannelImpl.sameCredentials_connect (ch : TransportChannelImpl) :
    ch.connect.SameCredentials ch := by
  rw [connect]
  split <;> exact ⟨rfl, rfl, rfl, rfl⟩

namespace Transport

variable {s : Transport} {ch : TransportChannelImpl} {l r : Option TransportDescription}

theorem Agrees.congr {a b : TransportChannelImpl} (h : Agrees l r b) (hab : a.SameCredentials b) :
    Agrees l r a where
  local_credentials d hd := by
    rw [hab.1, hab.2.1]
    exact h.local_credentials d hd
  remote_credentials d hd := by
    rw [hab.2.2.1, hab.2.2.2]
    exact h.remote_credentials d hd

theorem Agrees.applyLocal (h : Agrees l r ch) (d : TransportDescription) :
    Agrees (some d) r (applyLocal d ch) where
  local_credentials d' hd := by
    obtain rfl := Option.some.inj hd
    exact ⟨TransportChannelImpl.iceUfrag_setIceCredentials, TransportChannelImpl.icePwd_setIceCredentials⟩
  remote_credentials d' hd := by
    simpa only [Transport.applyLocal, TransportChannelImpl.remoteIceUfrag_setIceCredentials,
      TransportChannelImpl.remoteIcePwd_setIceCredentials] using h.remote_credentials d' hd

theorem agrees_applyRemote_iff {d : TransportDescription} (h : ∀ d, l = some d →
    ch.iceUfrag = d.iceUfrag ∧ ch.icePwd = d.icePwd) :
    Agrees l (some d) (applyRemote d ch) ↔ d.icePwd = d.iceUfrag := by
  constructor
  · intro hagrees
    have hpwd := (hagrees.remote_credentials d rfl).2
    rw [applyRemote, TransportChannelImpl.remoteIcePwd_setRemoteIceCredentials] at hpwd
    exact hpwd.symm
  · intro hd
    refine ⟨fun d' hd' => ?_, fun d' hd' => ?_⟩
    · simpa only [applyRemote, TransportChannelImpl.iceUfrag_setRemoteIceCredentials,
        TransportChannelImpl.icePwd_setRemoteIceCredentials] using h d' hd'
    · obtain rfl := Option.some.inj hd'
      rw [applyRemote, TransportChannelImpl.remoteIceUfrag_setRemoteIceCredentials,
        TransportChannelImpl.remoteIcePwd_setRemoteIceCredentials, hd]
      exact ⟨rfl, rfl⟩

theorem getChannel_mapChannels (f : TransportChannelImpl → TransportChannelImpl) (component : Int) :
    (s.mapChannels f).getChannel component = (s.getChannel component).map f := by
  rw [getChannel, getChannel, mapChannels, List.find?_map, Option.map_map, Option.map_map]
  rfl

theorem mem_of_getChannel {component : Int} (h : s.getChannel component = some ch) :
    ∃ entry ∈ s.channels, entry.impl = ch := by
  obtain ⟨entry, hfind, rfl⟩ := Option.map_eq_some_iff.mp h
  exact ⟨entry, List.mem_of_find?_eq_some hfind, rfl⟩

theorem mem_mapChannels {f : TransportChannelImpl → TransportChannelImpl} {entry : ChannelMapEntry}
    (h : entry ∈ (s.mapChannels f).channels) : ∃ before ∈ s.channels, entry.impl = f before.impl := by
  obtain ⟨before, hmem, rfl⟩ := List.mem_map.mp h
  exact ⟨before, hmem, rfl⟩

theorem mem_destroyChannel {component : Int} {entry : ChannelMapEntry}
    (h : entry ∈ (s.destroyChannel component).channels) :
    ∃ before ∈ s.channels, entry.impl = before.impl := by
  obtain ⟨before, hmem, hentry⟩ := List.mem_filterMap.mp h
  refine ⟨before, hmem, ?_⟩
  split at hentry
  · rw [Option.some.inj hentry]
  · split at hentry
    · cases hentry
    · rw [← Option.some.inj hentry]

theorem Inv.of_same (h : s.Inv) {t : Transport} (hlocal : t.localDescription = s.localDescription)
    (hremote : t.remoteDescription = s.remoteDescription)
    (hmem : ∀ entry ∈ t.channels, ∃ before ∈ s.channels, entry.impl.SameCredentials before.impl) :
    t.Inv := by
  constructor
  · intro entry hentry
    obtain ⟨before, hbefore, hsame⟩ := hmem entry hentry
    rw [hlocal, hremote]
    exact (h.1 before hbefore).congr hsame
  · intro entry hentry
    obtain ⟨before, hbefore, hsame⟩ := hmem entry hentry
    rw [hsame.2.2.1, hsame.2.2.2]
    exact h.2 before hbefore

theorem Inv.setLocal (h : s.Inv) (d : TransportDescription) :
    (s.setLocalTransportDescription d).Inv := by
  constructor
  · intro entry hentry
    obtain ⟨before, hbefore, himpl⟩ := mem_mapChannels hentry
    rw [himpl]
    exact (h.1 before hbefore).applyLocal d
  · intro entry hentry
    obtain ⟨before, hbefore, himpl⟩ := mem_mapChannels hentry
    rw [himpl, applyLocal, TransportChannelImpl.remoteIcePwd_setIceCredentials,
      TransportChannelImpl.remoteIceUfrag_setIceCredentials]
    exact h.2 before hbefore

theorem Inv.connectChannels (h : s.Inv) (iceUfrag icePwd : List UInt8) :
    (s.connectChannels iceUfrag icePwd).Inv := by
  have hconnect : ∀ t : Transport, t.Inv → (t.mapChannels (·.connect)).Inv := by
    intro t ht
    refine ht.of_same rfl rfl fun entry hentry => ?_
    obtain ⟨before, hbefore, himpl⟩ := mem_mapChannels hentry
    exact ⟨before, hbefore, himpl ▸ before.impl.sameCredentials_connect⟩
  have hrequested : ({ s with connectRequested := true } : Transport).Inv := h
  rw [Transport.connectChannels]
  split
  · exact h
  · refine hconnect _ ?_
    split
    · exact hrequested.setLocal _
    · exact hrequested

theorem agrees_pushDown_iff : Agrees s.localDescription s.remoteDescription s.pushDown ↔
    ∀ d, s.remoteDescription = some d →
      if s.localDescription = none then d = ⟨[], []⟩ else d.icePwd = d.iceUfrag := by
  have hconnect : ∀ (l r : Option TransportDescription) (ch : TransportChannelImpl),
      Agrees l r (if s.connectRequested then ch.connect else ch) ↔ Agrees l r ch := by
    intro l r ch
    have hsame := ch.sameCredentials_connect
    split
    · exact ⟨fun h => h.congr ⟨hsame.1.symm, hsame.2.1.symm, hsame.2.2.1.symm, hsame.2.2.2.symm⟩,
        fun h => h.congr hsame⟩
    · exact Iff.rfl
  rw [pushDown, hconnect]
  rcases hl : s.localDescription with _ | l <;> rcases hr : s.remoteDescription with _ | r
  · exact ⟨fun _ d hd => (nomatch hd), fun _ => ⟨fun d hd => (nomatch hd), fun d hd => (nomatch hd)⟩⟩
  · constructor
    · intro h d hd
      obtain rfl := Option.some.inj hd
      obtain ⟨hufrag, hpwd⟩ := h.remote_credentials r rfl
      rw [if_pos rfl]
      cases r
      exact congrArg₂ TransportDescription.mk hufrag.symm hpwd.symm
    · intro h
      have hempty := h r rfl
      rw [if_pos rfl] at hempty
      subst hempty
      exact ⟨fun d hd => (nomatch hd), fun d hd => Option.some.inj hd ▸ ⟨rfl, rfl⟩⟩
  · refine ⟨fun _ d hd => (nomatch hd), fun _ => ?_⟩
    have hbefore : Agrees none none ({} : TransportChannelImpl) :=
      ⟨fun d hd => (nomatch hd), fun d hd => (nomatch hd)⟩
    exact hbefore.applyLocal l
  · have hbefore : ∀ d, some l = some d →
        (applyLocal l {}).iceUfrag = d.iceUfrag ∧ (applyLocal l {}).icePwd = d.icePwd := by
      intro d hd
      obtain rfl := Option.some.inj hd
      exact ⟨TransportChannelImpl.iceUfrag_setIceCredentials,
        TransportChannelImpl.icePwd_setIceCredentials⟩
    have hsame : (applyRemote r (applyLocal l {})).SameCredentials
        ((applyRemote r (applyLocal l {})).setIceProtocolType s.protocol) := ⟨rfl, rfl, rfl, rfl⟩
    have hiff := agrees_applyRemote_iff (d := r) hbefore
    constructor
    · intro h d hd
      obtain rfl := Option.some.inj hd
      rw [if_neg (Option.some_ne_none l)]
      exact hiff.mp (h.congr hsame)
    · intro h
      have hd := h r rfl
      rw [if_neg (Option.some_ne_none l)] at hd
      exact (hiff.mpr hd).congr ⟨rfl, rfl, rfl, rfl⟩

theorem twin_pushDown : s.pushDown.remoteIcePwd = s.pushDown.remoteIceUfrag := by
  have hconnect : ∀ ch : TransportChannelImpl, ch.remoteIcePwd = ch.remoteIceUfrag →
      (if s.connectRequested then ch.connect else ch).remoteIcePwd =
        (if s.connectRequested then ch.connect else ch).remoteIceUfrag := by
    intro ch h
    have hsame := ch.sameCredentials_connect
    split
    · rw [hsame.2.2.1, hsame.2.2.2, h]
    · exact h
  refine hconnect _ ?_
  rcases s.localDescription with _ | l <;> rcases s.remoteDescription with _ | r
  · rfl
  · rfl
  · simp [applyLocal]
  · simp [applyRemote, TransportChannelImpl.setIceProtocolType]

theorem current_createChannel_iff (h : s.Inv) (component : Int) :
    (s.createChannel component).Current ↔ s.Delivers (.createChannel component) := by
  rw [createChannel]
  split
  · rename_i ch hsome
    refine ⟨fun _ hnone => (nomatch hsome.symm.trans hnone), fun _ => ?_⟩
    refine And.left (b := ∀ entry ∈ _, _) (Inv.of_same h rfl rfl fun entry hentry => ?_)
    obtain ⟨before, hbefore, rfl⟩ := List.mem_map.mp hentry
    refine ⟨before, hbefore, ?_⟩
    split <;> exact ⟨rfl, rfl, rfl, rfl⟩
  · rename_i hnone
    rw [Delivers, ← agrees_pushDown_iff]
    constructor
    · intro hcurrent _
      exact hcurrent ⟨component, 1, s.pushDown⟩ (List.mem_append_right _ List.mem_cons_self)
    · intro hdelivers entry hentry
      rcases List.mem_append.mp hentry with hmem | hmem
      · exact h.1 entry hmem
      · obtain rfl := List.mem_singleton.mp hmem
        exact hdelivers hnone

theorem current_setRemote_iff (h : s.Inv) (d : TransportDescription) :
    (s.setRemoteTransportDescription d).Current ↔ s.Delivers (.setRemote d) := by
  have hiff : ∀ entry ∈ s.channels,
      (Agrees s.localDescription (some d) (applyRemote d entry.impl) ↔ d.icePwd = d.iceUfrag) :=
    fun entry hentry => agrees_applyRemote_iff (h.1 entry hentry).local_credentials
  constructor
  · intro hcurrent hne
    obtain ⟨entry, hentry⟩ := List.exists_mem_of_ne_nil _ hne
    exact (hiff entry hentry).mp (hcurrent _ (List.mem_map_of_mem hentry))
  · intro hdelivers entry hentry
    obtain ⟨before, hbefore, himpl⟩ := mem_mapChannels hentry
    rw [himpl]
    exact (hiff before hbefore).mpr (hdelivers (List.ne_nil_of_mem hbefore))

theorem inv_step (h : s.Inv) (e : Event) (hcurrent : (step s e).Current) : (step s e).Inv := by
  refine ⟨hcurrent, ?_⟩
  cases e with
  | setLocal d => exact (h.setLocal d).2
  | setRemote d =>
    intro entry hentry
    obtain ⟨before, -, himpl⟩ := mem_mapChannels hentry
    rw [himpl, applyRemote, TransportChannelImpl.remoteIcePwd_setRemoteIceCredentials,
      TransportChannelImpl.remoteIceUfrag_setRemoteIceCredentials]
  | negotiate protocol =>
    intro entry hentry
    obtain ⟨before, hbefore, himpl⟩ := mem_mapChannels hentry
    rw [himpl]
    exact h.2 before hbefore
  | createChannel component =>
    intro entry hentry
    simp only [step, createChannel] at hentry
    split at hentry
    · obtain ⟨before, hbefore, rfl⟩ := List.mem_map.mp hentry
      split <;> exact h.2 before hbefore
    · rcases List.mem_append.mp hentry with hmem | hmem
      · exact h.2 entry hmem
      · obtain rfl := List.mem_singleton.mp hmem
        exact twin_pushDown
  | destroyChannel component =>
    intro entry hentry
    obtain ⟨before, hbefore, himpl⟩ := mem_destroyChannel hentry
    rw [himpl]
    exact h.2 before hbefore
  | destroyAllChannels => exact fun entry hentry => (nomatch hentry)
  | resetChannels => exact h.2
  | connectChannels iceUfrag icePwd => exact (h.connectChannels iceUfrag icePwd).2

theorem current_step_iff (h : s.Inv) (e : Event) : (step s e).Current ↔ s.Delivers e := by
  cases e with
  | setLocal d => exact iff_of_true (h.setLocal d).1 trivial
  | setRemote d => exact current_setRemote_iff h d
  | negotiate protocol =>
    have hinv : (s.negotiate protocol).Inv := by
      refine h.of_same rfl rfl fun entry hentry => ?_
      obtain ⟨before, hbefore, himpl⟩ := mem_mapChannels hentry
      exact ⟨before, hbefore, himpl ▸ ⟨rfl, rfl, rfl, rfl⟩⟩
    exact iff_of_true hinv.1 trivial
  | createChannel component => exact current_createChannel_iff h component
  | destroyChannel component =>
    have hinv : (s.destroyChannel component).Inv := by
      refine h.of_same rfl rfl fun entry hentry => ?_
      obtain ⟨before, hbefore, himpl⟩ := mem_destroyChannel hentry
      exact ⟨before, hbefore, himpl ▸ ⟨rfl, rfl, rfl, rfl⟩⟩
    exact iff_of_true hinv.1 trivial
  | destroyAllChannels => exact iff_of_true (fun entry hentry => (nomatch hentry)) trivial
  | resetChannels => exact iff_of_true h.1 trivial
  | connectChannels iceUfrag icePwd => exact iff_of_true (h.connectChannels iceUfrag icePwd).1 trivial

theorem Current.pingsSigned (h : s.Current) : s.PingsSigned := by
  intro d hd entry hentry port candidate hice hpassword computeHmac computeCrc32 transactionId
    useCandidate retransmits localPriority
  have hkey : (entry.impl.newRemoteCandidate candidate).password = d.icePwd := by
    rw [TransportChannelImpl.newRemoteCandidate]
    exact (if_pos hpassword).trans ((h entry hentry).remote_credentials d hd).2
  simp only [Port.prepare, if_pos hice, hkey]

theorem restartDetected_of_inv (h : s.Inv) {e : Event} (hcurrent : (step s e).Current) :
    s.RestartDetected e := by
  rintro before d hbefore rfl hcarried hne component ch hch
  refine ⟨applyRemote d ch, ?_, ?_⟩
  · change (s.setRemoteTransportDescription d).getChannel component = _
    rw [setRemoteTransportDescription, getChannel_mapChannels]
    exact congrArg _ hch
  · obtain ⟨entry, hentry, rfl⟩ := mem_of_getChannel hch
    obtain ⟨hufrag, hpwd⟩ := (h.1 entry hentry).remote_credentials before hbefore
    have htwin := h.2 entry hentry
    have hequal : d.icePwd = d.iceUfrag :=
      (current_setRemote_iff h d).mp hcurrent (List.ne_nil_of_mem hentry)
    have hset : before.iceUfrag ≠ [] := by
      rcases hcarried with hcarried | hcarried
      · exact hcarried
      · rwa [← hufrag, ← htwin, hpwd]
    refine TransportChannelImpl.generation_setRemoteIceCredentials ?_ ?_ (.inl fun hsame => hne ?_)
    · rwa [hufrag]
    · rwa [htwin, hufrag]
    · have hufrags : d.iceUfrag = before.iceUfrag := hsame.symm.trans hufrag
      have hpwds : d.icePwd = before.icePwd := by
        rw [hequal, hufrags, ← hufrag, ← htwin, hpwd]
      cases d
      cases before
      exact congrArg₂ TransportDescription.mk hufrags hpwds

theorem served_iff (h : s.Inv) (e : Event) : Served s e ↔ s.Delivers e := by
  rw [← current_step_iff h e]
  exact ⟨Served.current, fun hcurrent =>
    ⟨hcurrent, hcurrent.pingsSigned, restartDetected_of_inv h hcurrent⟩⟩

/-- The steps of a run are all served exactly when they all deliver what the
descriptions say. -/
theorem served_run_iff (events : List Event) :
    Runs.Along step Served {} events ↔ Runs.Along step Delivers {} events :=
  Runs.along_iff (fun s e (h : Inv s) => served_iff h e)
    (fun _ e h hserved => inv_step h e hserved.current)
    ⟨fun _ h => absurd h List.not_mem_nil, fun _ h => absurd h List.not_mem_nil⟩ events

/-- A password that is not the fragment never arrives, and a channel that is
created in front of the local description gets no remote credentials at all. -/
theorem credentials_lost :
    ¬ Runs.Along step Served {}
      [.setLocal ⟨[1], [2]⟩, .createChannel 1, .setRemote ⟨[3], [4]⟩] ∧
    ¬ Runs.Along step Served {}
      [.setRemote ⟨[3], [3]⟩, .createChannel 1, .setLocal ⟨[1], [2]⟩] := by
  constructor
  · rintro ⟨-, -, hserved, -⟩
    have hpwd := (hserved.current _ List.mem_cons_self).remote_credentials ⟨[3], [4]⟩ rfl
    exact absurd hpwd.2 (by decide)
  · rintro ⟨-, hserved, -⟩
    have hufrag := (hserved.current _ List.mem_cons_self).remote_credentials ⟨[3], [3]⟩ rfl
    exact absurd hufrag.1 (by decide)

end Transport

end Libjingle
