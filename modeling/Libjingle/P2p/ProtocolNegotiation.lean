import Libjingle.P2p.Transport
import Libjingle.P2p.TransportDescriptionFactory

/-! The ICE protocol of a transport, which an offer and its answer settle: the two sides
reach the decision from different descriptions. -/

namespace Libjingle

inductive ContentAction
  | offer
  | prAnswer
  | answer
  | update
  deriving DecidableEq, Repr

def ContentAction.isAnswer (action : ContentAction) : Bool := action = .prAnswer ∨ action = .answer

def transportProtocolFromDescription (desc : SessionDescription.TransportDescription) :
    TransportProtocol :=
  if desc.transportType = nsJingleIceUdp then
    if desc.transportOptions.contains iceOptionGice then .hybrid else .rfc5245
  else .google

/-- An offer of one protocol is answered with that one, and GICE is preferred in a hybrid
answer. -/
def negotiatedProtocol (offer answer : SessionDescription.TransportDescription) :
    Option TransportProtocol :=
  let offerProto := transportProtocolFromDescription offer
  let answerProto := transportProtocolFromDescription answer
  if (offerProto = .google ∨ offerProto = .rfc5245) ∧ offerProto ≠ answerProto then none
  else some (if answerProto = .hybrid then .google else answerProto)

structure NegotiatedEntry extends ChannelMapEntry where
  role : TransportRole := .unknown
  remoteIceMode : IceMode := .full
  deriving DecidableEq, Repr

structure NegotiatingTransport where
  localDescription : Option SessionDescription.TransportDescription := none
  remoteDescription : Option SessionDescription.TransportDescription := none
  channels : List NegotiatedEntry := []
  protocol : TransportProtocol := .hybrid
  role : TransportRole := .unknown
  remoteIceMode : IceMode := .full
  connectRequested : Bool := false
  deriving DecidableEq, Repr

namespace NegotiatingTransport

def credentials (desc : SessionDescription.TransportDescription) : TransportDescription where
  iceUfrag := desc.iceUfrag.toUTF8.toList
  icePwd := desc.icePwd.toUTF8.toList

variable (s : NegotiatingTransport)

def mapChannels (f : NegotiatedEntry → NegotiatedEntry) : NegotiatingTransport :=
  { s with channels := s.channels.map f }

/-- `SetRole_w` -/
def setRole (role : TransportRole) : NegotiatingTransport :=
  { s with role := role }.mapChannels ({ · with role := role })

def applyLocal (desc : SessionDescription.TransportDescription) (entry : NegotiatedEntry) :
    NegotiatedEntry := { entry with impl := Transport.applyLocal (credentials desc) entry.impl }

def applyRemote (desc : SessionDescription.TransportDescription) (entry : NegotiatedEntry) :
    NegotiatedEntry := { entry with impl := Transport.applyRemote (credentials desc) entry.impl }

/-- `ApplyNegotiatedTransportDescription_w` -/
def applyNegotiated (entry : NegotiatedEntry) : NegotiatedEntry := { entry with
  impl := entry.impl.setIceProtocolType s.protocol
  remoteIceMode := s.remoteIceMode }

/-- `NegotiateTransportDescription_w`, which uses both descriptions unchecked. -/
def negotiate (localRole : ContentAction) : Option (Bool × NegotiatingTransport) := do
  let localDescription ← s.localDescription
  let remoteDescription ← s.remoteDescription
  let protocol := if localRole = .offer then negotiatedProtocol localDescription remoteDescription
    else negotiatedProtocol remoteDescription localDescription
  match protocol with
  | none => some (false, s)
  | some protocol =>
    let s := { s with protocol := protocol }
    let s := if s.role = .controlled ∧ remoteDescription.iceMode = .lite then s.setRole .controlling
      else s
    let s := { s with remoteIceMode := remoteDescription.iceMode }
    some (true, s.mapChannels s.applyNegotiated)

def setLocalTransportDescription (desc : SessionDescription.TransportDescription)
    (action : ContentAction) : Option (Bool × NegotiatingTransport) :=
  let s := { s with localDescription := some desc }.mapChannels (applyLocal desc)
  if action.isAnswer then s.negotiate action else some (true, s)

def setRemoteTransportDescription (desc : SessionDescription.TransportDescription)
    (action : ContentAction) : Option (Bool × NegotiatingTransport) :=
  let s := { s with remoteDescription := some desc }.mapChannels (applyRemote desc)
  if action.isAnswer then s.negotiate .offer else some (true, s)

/-- What `CreateChannel_w` pushes down to a new channel. -/
def pushDown (component : Int) : NegotiatedEntry :=
  let entry : NegotiatedEntry := { component := component, ref := 1, impl := {}, role := s.role }
  let entry := match s.localDescription with
    | none => entry
    | some l =>
      match s.remoteDescription with
      | none => applyLocal l entry
      | some r => s.applyNegotiated (applyRemote r (applyLocal l entry))
  if s.connectRequested then { entry with impl := entry.impl.connect } else entry

def createChannel (component : Int) : NegotiatingTransport :=
  if s.channels.any (·.component = component) then
    s.mapChannels fun entry =>
      if entry.component = component then { entry with ref := entry.ref + 1 } else entry
  else { s with channels := s.channels ++ [s.pushDown component] }

def destroyChannel (component : Int) : NegotiatingTransport := { s with
  channels := s.channels.filterMap fun entry =>
    if entry.component ≠ component then some entry
    else if entry.ref - 1 = 0 then none
    else some { entry with ref := entry.ref - 1 } }

def destroyAllChannels : NegotiatingTransport := { s with channels := [] }

def resetChannels : NegotiatingTransport := { s with connectRequested := false }

def generatedDescription (iceUfrag icePwd : String) : SessionDescription.TransportDescription where
  transportType := nsGingleP2p
  iceUfrag := iceUfrag
  icePwd := icePwd

def connectChannels (iceUfrag icePwd : String) : NegotiatingTransport :=
  if s.connectRequested ∨ s.channels = [] then s
  else
    let s := { s with connectRequested := true }
    let s := if s.localDescription = none then
        { s with localDescription := some (generatedDescription iceUfrag icePwd) }.mapChannels
          (applyLocal (generatedDescription iceUfrag icePwd))
      else s
    s.mapChannels fun entry => { entry with impl := entry.impl.connect }

inductive Event
  | setLocal (desc : SessionDescription.TransportDescription) (action : ContentAction)
  | setRemote (desc : SessionDescription.TransportDescription) (action : ContentAction)
  | setRole (role : TransportRole)
  | createChannel (component : Int)
  | destroyChannel (component : Int)
  | destroyAllChannels
  | resetChannels
  | connectChannels (iceUfrag icePwd : String)
  deriving DecidableEq, Repr

def step (s : NegotiatingTransport) : Event → Option NegotiatingTransport
  | .setLocal desc action => (s.setLocalTransportDescription desc action).map Prod.snd
  | .setRemote desc action => (s.setRemoteTransportDescription desc action).map Prod.snd
  | .setRole role => some (s.setRole role)
  | .createChannel component => some (s.createChannel component)
  | .destroyChannel component => some (s.destroyChannel component)
  | .destroyAllChannels => some s.destroyAllChannels
  | .resetChannels => some s.resetChannels
  | .connectChannels iceUfrag icePwd => some (s.connectChannels iceUfrag icePwd)

/-- A run ends early where a description is used that is not there. -/
def run : NegotiatingTransport → List Event → Option NegotiatingTransport
  | s, [] => some s
  | s, e :: rest => (s.step e).bind fun t => run t rest

def Event.setsLocal : Event → Bool
  | .setLocal _ _ => true
  | _ => false

def Event.setsRemote : Event → Bool
  | .setRemote _ _ => true
  | _ => false

def Event.answers : Event → Bool
  | .setLocal _ action | .setRemote _ action => action.isAnswer
  | _ => false

def Allows (offer : SessionDescription.TransportDescription) (protocol : TransportProtocol) : Prop :=
  match transportProtocolFromDescription offer with
  | .hybrid => protocol = .google ∨ protocol = .rfc5245
  | offered => protocol = offered

def Keeps (protocol : TransportProtocol) : Prop :=
  ∀ later : List Event, (∀ e ∈ later, e.answers = false) → ∀ t, s.run later = some t →
    ∀ entry ∈ t.channels, entry.impl.protocolType = protocol

structure Agreed (offer : SessionDescription.TransportDescription)
    (offerer answerer : Bool × NegotiatingTransport) : Prop where
  outcome : offerer.1 = answerer.1
  protocol : offerer.1 = true → offerer.2.protocol = answerer.2.protocol
  allowed : offerer.1 = true → Allows offer offerer.2.protocol
  offerer_keeps : offerer.1 = true → offerer.2.Keeps offerer.2.protocol
  answerer_keeps : answerer.1 = true → answerer.2.Keeps answerer.2.protocol

/-- The transport without what only negotiation reads. -/
def forget : Transport where
  localDescription := s.localDescription.map credentials
  remoteDescription := s.remoteDescription.map credentials
  channels := s.channels.map NegotiatedEntry.toChannelMapEntry
  protocol := s.protocol
  connectRequested := s.connectRequested

/-- What a negotiation does when the two descriptions settle a protocol or none: a
failure leaves everything as it was. -/
structure Settled (protocol : Option TransportProtocol) (r : Bool × NegotiatingTransport) :
    Prop where
  local_description : r.2.localDescription = s.localDescription
  remote_description : r.2.remoteDescription = s.remoteDescription
  outcome : r.1 = protocol.isSome
  failed : r.1 = false → r.2 = s
  channels : r.1 = true → ∀ entry ∈ r.2.channels, entry.impl.protocolType = r.2.protocol
  protocol : r.1 = true → protocol = some r.2.protocol

structure Pushed : Prop where
  local_description : s.localDescription.isSome
  remote_description : s.remoteDescription.isSome
  channels : ∀ entry ∈ s.channels, entry.impl.protocolType = s.protocol

variable {s} {t : NegotiatingTransport} {offer answer : SessionDescription.TransportDescription}

theorem allows_of_negotiatedProtocol {protocol : TransportProtocol}
    (h : negotiatedProtocol offer answer = some protocol) : Allows offer protocol := by
  rw [negotiatedProtocol] at h
  rw [Allows]
  cases hoffer : transportProtocolFromDescription offer <;>
    cases hanswer : transportProtocolFromDescription answer <;>
    simp [hoffer, hanswer] at h <;> simp [← h]

theorem protocolType_setIceCredentials (ch : TransportChannelImpl) (ufrag pwd : List UInt8) :
    (ch.setIceCredentials ufrag pwd).protocolType = ch.protocolType := by
  rw [TransportChannelImpl.setIceCredentials]
  split <;> rfl

theorem protocolType_setRemoteIceCredentials (ch : TransportChannelImpl) (ufrag pwd : List UInt8) :
    (ch.setRemoteIceCredentials ufrag pwd).protocolType = ch.protocolType := by
  rw [TransportChannelImpl.setRemoteIceCredentials]
  split <;> rfl

theorem protocolType_connect (ch : TransportChannelImpl) :
    ch.connect.protocolType = ch.protocolType := by
  rw [TransportChannelImpl.connect]
  split <;> rfl

theorem negotiate_settled
    {localDescription remoteDescription : SessionDescription.TransportDescription}
    (hlocal : s.localDescription = some localDescription)
    (hremote : s.remoteDescription = some remoteDescription) (localRole : ContentAction) :
    ∃ r, s.negotiate localRole = some r ∧ s.Settled
      (if localRole = .offer then negotiatedProtocol localDescription remoteDescription
        else negotiatedProtocol remoteDescription localDescription) r := by
  rw [negotiate, hlocal, hremote]
  dsimp only [bind, Option.bind]
  cases hprotocol : (if localRole = .offer then negotiatedProtocol localDescription remoteDescription
      else negotiatedProtocol remoteDescription localDescription) with
  | none =>
    exact ⟨_, rfl, rfl, rfl, rfl, fun _ => rfl, fun hnot => (nomatch hnot),
      fun hnot => (nomatch hnot)⟩
  | some protocol =>
    have hpushed : ∀ u : NegotiatingTransport, ∀ entry ∈ (u.mapChannels u.applyNegotiated).channels,
        entry.impl.protocolType = u.protocol := by
      intro u entry hentry
      obtain ⟨before, -, rfl⟩ := List.mem_map.mp hentry
      rfl
    by_cases hlite : s.role = .controlled ∧ remoteDescription.iceMode = .lite
    · simp only [if_pos hlite]
      exact ⟨_, rfl, hlocal.symm, hremote.symm, rfl, fun hnot => (nomatch hnot), fun _ => hpushed _,
        fun _ => rfl⟩
    · simp only [if_neg hlite]
      exact ⟨_, rfl, hlocal.symm, hremote.symm, rfl, fun hnot => (nomatch hnot), fun _ => hpushed _,
        fun _ => rfl⟩

theorem setLocalTransportDescription_settled {remoteDescription : SessionDescription.TransportDescription}
    (hremote : s.remoteDescription = some remoteDescription)
    (desc : SessionDescription.TransportDescription) {action : ContentAction}
    (haction : action.isAnswer = true) :
    ∃ r, s.setLocalTransportDescription desc action = some r ∧
      ({ s with localDescription := some desc }.mapChannels (applyLocal desc)).Settled
        (negotiatedProtocol remoteDescription desc) r := by
  have hne : action ≠ .offer := by
    rintro rfl
    cases haction
  obtain ⟨r, hr, hsettled⟩ := negotiate_settled
    (s := { s with localDescription := some desc }.mapChannels (applyLocal desc)) rfl hremote action
  rw [if_neg hne] at hsettled
  exact ⟨r, (if_pos haction).trans hr, hsettled⟩

theorem setRemoteTransportDescription_settled {localDescription : SessionDescription.TransportDescription}
    (hlocal : s.localDescription = some localDescription)
    (desc : SessionDescription.TransportDescription) {action : ContentAction}
    (haction : action.isAnswer = true) :
    ∃ r, s.setRemoteTransportDescription desc action = some r ∧
      ({ s with remoteDescription := some desc }.mapChannels (applyRemote desc)).Settled
        (negotiatedProtocol localDescription desc) r := by
  obtain ⟨r, hr, hsettled⟩ := negotiate_settled
    (s := { s with remoteDescription := some desc }.mapChannels (applyRemote desc)) hlocal rfl .offer
  exact ⟨r, (if_pos haction).trans hr, hsettled⟩

theorem Settled.pushed {protocol : Option TransportProtocol} {r : Bool × NegotiatingTransport}
    (h : s.Settled protocol r) (hlocal : s.localDescription.isSome)
    (hremote : s.remoteDescription.isSome) (hr : r.1 = true) : r.2.Pushed where
  local_description := by rw [h.local_description, hlocal]
  remote_description := by rw [h.remote_description, hremote]
  channels := h.channels hr

theorem Settled.keeps_pushed {protocol : Option TransportProtocol}
    {r : Bool × NegotiatingTransport} (h : s.Settled protocol r) (hs : s.Pushed) : r.2.Pushed := by
  by_cases hr : r.1 = true
  · exact h.pushed hs.local_description hs.remote_description hr
  · rw [h.failed (Bool.eq_false_iff.mpr hr)]
    exact hs

theorem Pushed.mapChannels (h : s.Pushed) {f : NegotiatedEntry → NegotiatedEntry}
    (hf : ∀ entry, (f entry).impl.protocolType = entry.impl.protocolType) :
    (s.mapChannels f).Pushed where
  local_description := h.local_description
  remote_description := h.remote_description
  channels := by
    intro entry hentry
    obtain ⟨before, hbefore, rfl⟩ := List.mem_map.mp hentry
    exact (hf before).trans (h.channels before hbefore)

theorem Pushed.setLocal (h : s.Pushed) (desc : SessionDescription.TransportDescription) :
    ({ s with localDescription := some desc }.mapChannels (applyLocal desc)).Pushed := by
  have hset : ({ s with localDescription := some desc } : NegotiatingTransport).Pushed :=
    ⟨rfl, h.remote_description, h.channels⟩
  exact hset.mapChannels fun entry => protocolType_setIceCredentials _ _ _

theorem Pushed.setRemote (h : s.Pushed) (desc : SessionDescription.TransportDescription) :
    ({ s with remoteDescription := some desc }.mapChannels (applyRemote desc)).Pushed := by
  have hset : ({ s with remoteDescription := some desc } : NegotiatingTransport).Pushed :=
    ⟨h.local_description, rfl, h.channels⟩
  exact hset.mapChannels fun entry => protocolType_setRemoteIceCredentials _ _ _

theorem Pushed.pushDown (h : s.Pushed) (component : Int) :
    (s.pushDown component).impl.protocolType = s.protocol := by
  obtain ⟨l, hl⟩ := Option.isSome_iff_exists.mp h.local_description
  obtain ⟨r, hr⟩ := Option.isSome_iff_exists.mp h.remote_description
  rw [NegotiatingTransport.pushDown, hl, hr]
  by_cases hconnect : s.connectRequested = true
  · simp only [if_pos hconnect]
    exact protocolType_connect _
  · simp only [if_neg hconnect]
    rfl

theorem Pushed.createChannel (h : s.Pushed) (component : Int) :
    (s.createChannel component).Pushed := by
  rw [NegotiatingTransport.createChannel]
  by_cases hany : s.channels.any (·.component = component) = true
  · rw [if_pos hany]
    exact h.mapChannels fun entry => by by_cases hc : entry.component = component <;> simp [hc]
  · rw [if_neg hany]
    refine ⟨h.local_description, h.remote_description, fun entry hentry => ?_⟩
    rcases List.mem_append.mp hentry with hentry | hentry
    · exact h.channels entry hentry
    · rw [List.mem_singleton.mp hentry]
      exact h.pushDown component

theorem Pushed.destroyChannel (h : s.Pushed) (component : Int) :
    (s.destroyChannel component).Pushed := by
  refine ⟨h.local_description, h.remote_description, fun entry hentry => ?_⟩
  obtain ⟨before, hbefore, hkept⟩ := List.mem_filterMap.mp hentry
  have hsame : entry.impl = before.impl := by
    by_cases hc : before.component = component <;> by_cases hlast : before.ref - 1 = 0 <;>
      simp [hc, hlast] at hkept <;> simp [← hkept]
  rw [hsame]
  exact h.channels before hbefore

theorem Pushed.connectChannels (h : s.Pushed) (iceUfrag icePwd : String) :
    (s.connectChannels iceUfrag icePwd).Pushed ∧
      (s.connectChannels iceUfrag icePwd).protocol = s.protocol := by
  rw [NegotiatingTransport.connectChannels]
  by_cases hidle : s.connectRequested = true ∨ s.channels = []
  · rw [if_pos hidle]
    exact ⟨h, rfl⟩
  · have hlocal : s.localDescription ≠ none := Option.isSome_iff_ne_none.mp h.local_description
    have hset : ({ s with connectRequested := true } : NegotiatingTransport).Pushed :=
      ⟨h.local_description, h.remote_description, h.channels⟩
    simp only [if_neg hidle, if_neg hlocal]
    exact ⟨hset.mapChannels fun entry => protocolType_connect _, rfl⟩

theorem Pushed.step (h : s.Pushed) {e : Event} (hstep : s.step e = some t) :
    t.Pushed ∧ (e.answers = false → t.protocol = s.protocol) := by
  cases e with
  | setLocal desc action =>
    by_cases haction : action.isAnswer = true
    · obtain ⟨r, hr⟩ := Option.isSome_iff_exists.mp h.remote_description
      obtain ⟨result, hresult, hsettled⟩ := setLocalTransportDescription_settled hr desc haction
      simp only [NegotiatingTransport.step, hresult, Option.map_some] at hstep
      obtain rfl := Option.some.inj hstep
      refine ⟨hsettled.keeps_pushed (h.setLocal desc), fun hnot => ?_⟩
      exact absurd haction (Bool.eq_false_iff.mp hnot)
    · simp only [NegotiatingTransport.step, setLocalTransportDescription, if_neg haction,
        Option.map_some] at hstep
      obtain rfl := Option.some.inj hstep
      exact ⟨h.setLocal desc, fun _ => rfl⟩
  | setRemote desc action =>
    by_cases haction : action.isAnswer = true
    · obtain ⟨l, hl⟩ := Option.isSome_iff_exists.mp h.local_description
      obtain ⟨result, hresult, hsettled⟩ := setRemoteTransportDescription_settled hl desc haction
      simp only [NegotiatingTransport.step, hresult, Option.map_some] at hstep
      obtain rfl := Option.some.inj hstep
      refine ⟨hsettled.keeps_pushed (h.setRemote desc), fun hnot => ?_⟩
      exact absurd haction (Bool.eq_false_iff.mp hnot)
    · simp only [NegotiatingTransport.step, setRemoteTransportDescription, if_neg haction,
        Option.map_some] at hstep
      obtain rfl := Option.some.inj hstep
      exact ⟨h.setRemote desc, fun _ => rfl⟩
  | setRole role =>
    obtain rfl := Option.some.inj hstep
    have hset : ({ s with role := role } : NegotiatingTransport).Pushed :=
      ⟨h.local_description, h.remote_description, h.channels⟩
    exact ⟨hset.mapChannels fun entry => rfl, fun _ => rfl⟩
  | createChannel component =>
    obtain rfl := Option.some.inj hstep
    refine ⟨h.createChannel component, fun _ => ?_⟩
    rw [NegotiatingTransport.createChannel]
    by_cases hany : s.channels.any (·.component = component) = true
    · rw [if_pos hany]
      rfl
    · rw [if_neg hany]
  | destroyChannel component =>
    obtain rfl := Option.some.inj hstep
    exact ⟨h.destroyChannel component, fun _ => rfl⟩
  | destroyAllChannels =>
    obtain rfl := Option.some.inj hstep
    exact ⟨⟨h.local_description, h.remote_description, fun _ hentry => (nomatch hentry)⟩,
      fun _ => rfl⟩
  | resetChannels =>
    obtain rfl := Option.some.inj hstep
    exact ⟨⟨h.local_description, h.remote_description, h.channels⟩, fun _ => rfl⟩
  | connectChannels iceUfrag icePwd =>
    obtain rfl := Option.some.inj hstep
    exact ⟨(h.connectChannels iceUfrag icePwd).1, fun _ => (h.connectChannels iceUfrag icePwd).2⟩

theorem Pushed.keeps (h : s.Pushed) : s.Keeps s.protocol := by
  intro later hlater
  induction later generalizing s with
  | nil =>
    intro t hrun entry hentry
    obtain rfl := Option.some.inj hrun
    exact h.channels entry hentry
  | cons e rest ih =>
    intro t hrun
    obtain ⟨u, hstep, hrest⟩ := Option.bind_eq_some_iff.mp hrun
    obtain ⟨hpushed, hprotocol⟩ := h.step hstep
    have hsame := hprotocol (hlater e List.mem_cons_self)
    rw [← hsame]
    exact ih hpushed (fun e he => hlater e (List.mem_cons_of_mem _ he)) t hrest

theorem createChannel_frame (component : Int) :
    (s.createChannel component).localDescription = s.localDescription ∧
      (s.createChannel component).remoteDescription = s.remoteDescription := by
  rw [NegotiatingTransport.createChannel]
  by_cases hany : s.channels.any (·.component = component) = true
  · rw [if_pos hany]
    exact ⟨rfl, rfl⟩
  · rw [if_neg hany]
    exact ⟨rfl, rfl⟩

theorem localDescription_step {e : Event} (he : e.setsLocal = false) (hstep : s.step e = some t)
    {desc : SessionDescription.TransportDescription} (hlocal : s.localDescription = some desc) :
    t.localDescription = some desc := by
  cases e with
  | setLocal _ _ => cases he
  | setRemote desc action =>
    by_cases haction : action.isAnswer = true
    · obtain ⟨result, hresult, hsettled⟩ := setRemoteTransportDescription_settled hlocal desc haction
      simp only [NegotiatingTransport.step, hresult, Option.map_some] at hstep
      obtain rfl := Option.some.inj hstep
      exact hsettled.local_description.trans hlocal
    · simp only [NegotiatingTransport.step, setRemoteTransportDescription, if_neg haction,
        Option.map_some] at hstep
      obtain rfl := Option.some.inj hstep
      exact hlocal
  | createChannel component =>
    obtain rfl := Option.some.inj hstep
    exact (createChannel_frame component).1.trans hlocal
  | connectChannels iceUfrag icePwd =>
    obtain rfl := Option.some.inj hstep
    rw [NegotiatingTransport.connectChannels]
    by_cases hidle : s.connectRequested = true ∨ s.channels = []
    · rw [if_pos hidle]
      exact hlocal
    · have hset : s.localDescription ≠ none := by rw [hlocal]; exact Option.some_ne_none desc
      simp only [if_neg hidle, if_neg hset]
      exact hlocal
  | setRole _ | destroyChannel _ | destroyAllChannels | resetChannels =>
    obtain rfl := Option.some.inj hstep
    exact hlocal

theorem remoteDescription_step {e : Event} (he : e.setsRemote = false) (hstep : s.step e = some t)
    {desc : SessionDescription.TransportDescription} (hremote : s.remoteDescription = some desc) :
    t.remoteDescription = some desc := by
  cases e with
  | setRemote _ _ => cases he
  | setLocal desc action =>
    by_cases haction : action.isAnswer = true
    · obtain ⟨result, hresult, hsettled⟩ := setLocalTransportDescription_settled hremote desc haction
      simp only [NegotiatingTransport.step, hresult, Option.map_some] at hstep
      obtain rfl := Option.some.inj hstep
      exact hsettled.remote_description.trans hremote
    · simp only [NegotiatingTransport.step, setLocalTransportDescription, if_neg haction,
        Option.map_some] at hstep
      obtain rfl := Option.some.inj hstep
      exact hremote
  | createChannel component =>
    obtain rfl := Option.some.inj hstep
    exact (createChannel_frame component).2.trans hremote
  | connectChannels iceUfrag icePwd =>
    obtain rfl := Option.some.inj hstep
    rw [NegotiatingTransport.connectChannels]
    by_cases hidle : s.connectRequested = true ∨ s.channels = []
    · rw [if_pos hidle]
      exact hremote
    · by_cases hset : s.localDescription = none
      · simp only [if_neg hidle, if_pos hset]
        exact hremote
      · simp only [if_neg hidle, if_neg hset]
        exact hremote
  | setRole _ | destroyChannel _ | destroyAllChannels | resetChannels =>
    obtain rfl := Option.some.inj hstep
    exact hremote

theorem run_keeps {P : NegotiatingTransport → Prop} {Q : Event → Prop}
    (hP : ∀ s e t, Q e → s.step e = some t → P s → P t) {events : List Event}
    (hevents : ∀ e ∈ events, Q e) (hrun : s.run events = some t) (hs : P s) : P t := by
  induction events generalizing s with
  | nil =>
    obtain rfl := Option.some.inj hrun
    exact hs
  | cons e rest ih =>
    obtain ⟨u, hstep, hrest⟩ := Option.bind_eq_some_iff.mp hrun
    exact ih (fun e he => hevents e (List.mem_cons_of_mem _ he)) hrest
      (hP s e u (hevents e List.mem_cons_self) hstep hs)

/-- The offerer settles what the answerer settles, from the other end: each side applies
the offer, and later the answer, and other things may happen to it in between. -/
theorem protocols_agree (offer answer : SessionDescription.TransportDescription)
    {offererAction answererAction : ContentAction} (hofferer : offererAction.isAnswer = true)
    (hanswerer : answererAction.isAnswer = true)
    {offerer answerer offered answered : NegotiatingTransport} {duringOffer duringAnswer : List Event}
    (hoffered : (offerer.setLocalTransportDescription offer .offer).bind
      (fun r => r.2.run duringOffer) = some offered)
    (hduringOffer : ∀ e ∈ duringOffer, e.setsLocal = false)
    (hanswered : (answerer.setRemoteTransportDescription offer .offer).bind
      (fun r => r.2.run duringAnswer) = some answered)
    (hduringAnswer : ∀ e ∈ duringAnswer, e.setsRemote = false) :
    ∃ r r', offered.setRemoteTransportDescription answer offererAction = some r ∧
      answered.setLocalTransportDescription answer answererAction = some r' ∧ Agreed offer r r' := by
  have hlocal : offered.localDescription = some offer := by
    refine run_keeps (P := fun u => u.localDescription = some offer)
      (fun _ _ _ he hstep => localDescription_step he hstep) hduringOffer hoffered rfl
  have hremote : answered.remoteDescription = some offer := by
    refine run_keeps (P := fun u => u.remoteDescription = some offer)
      (fun _ _ _ he hstep => remoteDescription_step he hstep) hduringAnswer hanswered rfl
  obtain ⟨r, hr, hsettled⟩ := setRemoteTransportDescription_settled hlocal answer hofferer
  obtain ⟨r', hr', hsettled'⟩ := setLocalTransportDescription_settled hremote answer hanswerer
  have houtcome : r.1 = r'.1 := hsettled.outcome.trans hsettled'.outcome.symm
  refine ⟨r, r', hr, hr', houtcome, fun hsuccess => ?_, fun hsuccess => ?_, fun hsuccess => ?_,
    fun hsuccess => ?_⟩
  · have hprotocol := hsettled.protocol hsuccess
    rw [hsettled'.protocol (houtcome ▸ hsuccess)] at hprotocol
    exact (Option.some.inj hprotocol).symm
  · exact allows_of_negotiatedProtocol (hsettled.protocol hsuccess)
  · exact (hsettled.pushed (by simp [mapChannels, hlocal]) (by simp [mapChannels]) hsuccess).keeps
  · exact (hsettled'.pushed (by simp [mapChannels]) (by simp [mapChannels, hremote]) hsuccess).keeps

def hybridOffer : SessionDescription.TransportDescription where
  transportType := nsJingleIceUdp
  transportOptions := [iceOptionGice]

def iceAnswer : SessionDescription.TransportDescription where
  transportType := nsJingleIceUdp

theorem protocols_agree_hybrid :
    ∃ r r', (({ localDescription := some hybridOffer } :
        NegotiatingTransport).createChannel 1).setRemoteTransportDescription iceAnswer .prAnswer =
          some r ∧
      (({ remoteDescription := some hybridOffer } :
        NegotiatingTransport).createChannel 1).setLocalTransportDescription iceAnswer .answer =
          some r' ∧ Agreed hybridOffer r r' := by
  have hoffered : (setLocalTransportDescription {} hybridOffer .offer).bind
      (fun r => r.2.run [.createChannel 1]) =
        some (({ localDescription := some hybridOffer } : NegotiatingTransport).createChannel 1) := rfl
  have hanswered : (setRemoteTransportDescription {} hybridOffer .offer).bind
      (fun r => r.2.run [.createChannel 1]) =
        some (({ remoteDescription := some hybridOffer } : NegotiatingTransport).createChannel 1) := rfl
  exact protocols_agree hybridOffer iceAnswer rfl rfl hoffered (by simp [Event.setsLocal]) hanswered
    (by simp [Event.setsRemote])

theorem forget_mapChannels {f : NegotiatedEntry → NegotiatedEntry}
    {g : TransportChannelImpl → TransportChannelImpl}
    (hf : ∀ entry, (f entry).toChannelMapEntry =
      { entry.toChannelMapEntry with impl := g entry.impl }) :
    (s.mapChannels f).forget = s.forget.mapChannels g := by
  have hchannels : (s.channels.map f).map NegotiatedEntry.toChannelMapEntry =
      (s.channels.map NegotiatedEntry.toChannelMapEntry).map fun entry =>
        { entry with impl := g entry.impl } := by
    rw [List.map_map, List.map_map]
    exact List.map_congr_left fun entry _ => hf entry
  rw [forget, mapChannels, Transport.mapChannels, forget, hchannels]

theorem forget_setRole (role : TransportRole) : (s.setRole role).forget = s.forget := by
  have hmap := forget_mapChannels (s := { s with role := role }) (f := ({ · with role := role }))
    (g := id) fun _ => rfl
  refine hmap.trans ?_
  simp [Transport.mapChannels, forget]

theorem forget_applyNegotiated :
    (s.mapChannels s.applyNegotiated).forget = s.forget.negotiate s.protocol :=
  forget_mapChannels fun _ => rfl

theorem forget_negotiate {localRole : ContentAction} {r : Bool × NegotiatingTransport}
    (h : s.negotiate localRole = some r) :
    r.2.forget = s.forget ∨ r.2.forget = s.forget.negotiate r.2.protocol := by
  obtain ⟨localDescription, remoteDescription, channels, protocol, role, remoteIceMode, requested⟩ := s
  cases localDescription with
  | none => simp [negotiate] at h
  | some l =>
    cases remoteDescription with
    | none => simp [negotiate] at h
    | some d =>
      rw [negotiate] at h
      dsimp only [bind, Option.bind] at h
      cases hprotocol : (if localRole = .offer then negotiatedProtocol l d
          else negotiatedProtocol d l) with
      | none =>
        rw [hprotocol] at h
        obtain rfl := Option.some.inj h
        exact .inl rfl
      | some protocol =>
        rw [hprotocol] at h
        refine .inr ?_
        by_cases hlite : role = .controlled ∧ d.iceMode = .lite
        · simp only [if_pos hlite] at h
          obtain rfl := Option.some.inj h
          refine forget_applyNegotiated.trans ?_
          have hrole := forget_setRole (s := ⟨some l, some d, channels, protocol, role,
            remoteIceMode, requested⟩) .controlling
          have hnegotiated := congrArg (Transport.negotiate · protocol) hrole
          exact hnegotiated
        · simp only [if_neg hlite] at h
          obtain rfl := Option.some.inj h
          exact forget_applyNegotiated

theorem forget_pushDown (component : Int) :
    (s.pushDown component).toChannelMapEntry = ⟨component, 1, s.forget.pushDown⟩ := by
  rw [pushDown, Transport.pushDown]
  rcases hl : s.localDescription with _ | l <;> rcases hr : s.remoteDescription with _ | r <;>
    by_cases hconnect : s.connectRequested = true <;>
      simp [forget, hl, hr, hconnect, applyLocal, applyRemote, applyNegotiated]

theorem forget_createChannel (component : Int) :
    (s.createChannel component).forget = s.forget.createChannel component := by
  rw [createChannel, Transport.createChannel]
  by_cases hany : s.channels.any (·.component = component) = true
  · obtain ⟨entry, hentry, hc⟩ := List.any_eq_true.mp hany
    cases hget : s.forget.getChannel component with
    | none =>
      simp only [Transport.getChannel, forget, Option.map_eq_none_iff, List.find?_eq_none] at hget
      exact absurd hc (hget _ (List.mem_map_of_mem hentry))
    | some ch =>
      rw [if_pos hany]
      have hchannels : (s.channels.map fun entry => if entry.component = component then
            { entry with ref := entry.ref + 1 } else entry).map NegotiatedEntry.toChannelMapEntry =
          s.forget.channels.map fun entry => if entry.component = component then
            { entry with ref := entry.ref + 1 } else entry := by
        rw [forget, List.map_map, List.map_map]
        refine List.map_congr_left fun entry _ => ?_
        by_cases hc : entry.component = component <;> simp [hc]
      rw [mapChannels, forget, hchannels]
      rfl
  · have hnone : s.forget.getChannel component = none := by
      simpa [Transport.getChannel, forget] using hany
    rw [if_neg hany, hnone]
    simp [forget, forget_pushDown]

theorem forget_destroyChannel (component : Int) :
    (s.destroyChannel component).forget = s.forget.destroyChannel component := by
  have hchannels : (s.destroyChannel component).channels.map NegotiatedEntry.toChannelMapEntry =
      (s.forget.destroyChannel component).channels := by
    rw [destroyChannel, Transport.destroyChannel, forget, List.map_filterMap, List.filterMap_map]
    refine List.filterMap_congr fun entry _ => ?_
    by_cases hc : entry.component = component <;> by_cases hlast : entry.ref - 1 = 0 <;>
      simp [hc, hlast]
  rw [forget, hchannels]
  rfl

theorem forget_connectChannels (iceUfrag icePwd : String) :
    (s.connectChannels iceUfrag icePwd).forget =
      s.forget.connectChannels (credentials (generatedDescription iceUfrag icePwd)).iceUfrag
        (credentials (generatedDescription iceUfrag icePwd)).icePwd := by
  rw [connectChannels, Transport.connectChannels]
  by_cases hidle : s.connectRequested = true ∨ s.channels = []
  · have hidle' : s.forget.connectRequested = true ∨ s.forget.channels = [] := by
      simpa [forget] using hidle
    rw [if_pos hidle, if_pos hidle']
  · have hidle' : ¬ (s.forget.connectRequested = true ∨ s.forget.channels = []) := by
      simpa [forget] using hidle
    rw [if_neg hidle, if_neg hidle']
    by_cases hset : s.localDescription = none
    · have hset' : s.forget.localDescription = none := by simp [forget, hset]
      simp only [if_pos hset, if_pos hset']
      have hlocal := forget_mapChannels (s := { s with
        connectRequested := true
        localDescription := some (generatedDescription iceUfrag icePwd) })
        (f := applyLocal (generatedDescription iceUfrag icePwd)) fun _ => rfl
      refine (forget_mapChannels (g := TransportChannelImpl.connect) fun _ => rfl).trans ?_
      exact congrArg (Transport.mapChannels · TransportChannelImpl.connect) hlocal
    · have hset' : s.forget.localDescription ≠ none := by simpa [forget] using hset
      simp only [if_neg hset, if_neg hset']
      exact forget_mapChannels (s := { s with connectRequested := true }) fun _ => rfl

theorem forget_step {e : Event} (h : s.step e = some t) :
    ∃ events, Transport.run s.forget events = t.forget := by
  cases e with
  | setLocal desc action =>
    obtain ⟨r, hr, rfl⟩ := Option.map_eq_some_iff.mp h
    have hset : ({ s with localDescription := some desc }.mapChannels (applyLocal desc)).forget =
        s.forget.setLocalTransportDescription (credentials desc) :=
      forget_mapChannels (s := { s with localDescription := some desc }) fun _ => rfl
    rw [setLocalTransportDescription] at hr
    by_cases haction : action.isAnswer = true
    · rw [if_pos haction] at hr
      rcases forget_negotiate hr with hsame | hnegotiated
      · exact ⟨[.setLocal (credentials desc)], (hsame.trans hset).symm⟩
      · refine ⟨[.setLocal (credentials desc), .negotiate r.2.protocol], ?_⟩
        rw [hnegotiated, hset]
        rfl
    · rw [if_neg haction] at hr
      obtain rfl := Option.some.inj hr
      exact ⟨[.setLocal (credentials desc)], hset.symm⟩
  | setRemote desc action =>
    obtain ⟨r, hr, rfl⟩ := Option.map_eq_some_iff.mp h
    have hset : ({ s with remoteDescription := some desc }.mapChannels (applyRemote desc)).forget =
        s.forget.setRemoteTransportDescription (credentials desc) :=
      forget_mapChannels (s := { s with remoteDescription := some desc }) fun _ => rfl
    rw [setRemoteTransportDescription] at hr
    by_cases haction : action.isAnswer = true
    · rw [if_pos haction] at hr
      rcases forget_negotiate hr with hsame | hnegotiated
      · exact ⟨[.setRemote (credentials desc)], (hsame.trans hset).symm⟩
      · refine ⟨[.setRemote (credentials desc), .negotiate r.2.protocol], ?_⟩
        rw [hnegotiated, hset]
        rfl
    · rw [if_neg haction] at hr
      obtain rfl := Option.some.inj hr
      exact ⟨[.setRemote (credentials desc)], hset.symm⟩
  | setRole role =>
    obtain rfl := Option.some.inj h
    exact ⟨[], (forget_setRole role).symm⟩
  | createChannel component =>
    obtain rfl := Option.some.inj h
    exact ⟨[.createChannel component], (forget_createChannel component).symm⟩
  | destroyChannel component =>
    obtain rfl := Option.some.inj h
    exact ⟨[.destroyChannel component], (forget_destroyChannel component).symm⟩
  | destroyAllChannels =>
    obtain rfl := Option.some.inj h
    exact ⟨[.destroyAllChannels], rfl⟩
  | resetChannels =>
    obtain rfl := Option.some.inj h
    exact ⟨[.resetChannels], rfl⟩
  | connectChannels iceUfrag icePwd =>
    obtain rfl := Option.some.inj h
    exact ⟨[.connectChannels _ _], (forget_connectChannels iceUfrag icePwd).symm⟩

/-- What is not negotiated goes on as in a transport that does not negotiate. -/
theorem forget_run {events : List Event} (h : s.run events = some t) :
    ∃ others, Transport.run s.forget others = t.forget := by
  induction events generalizing s with
  | nil =>
    obtain rfl := Option.some.inj h
    exact ⟨[], rfl⟩
  | cons e rest ih =>
    obtain ⟨u, hstep, hrest⟩ := Option.bind_eq_some_iff.mp h
    obtain ⟨first, hfirst⟩ := forget_step hstep
    obtain ⟨others, hothers⟩ := ih hrest
    refine ⟨first ++ others, ?_⟩
    rw [Transport.run, List.foldl_append]
    rw [Transport.run] at hfirst hothers
    rw [hfirst, hothers]

end NegotiatingTransport

end Libjingle
