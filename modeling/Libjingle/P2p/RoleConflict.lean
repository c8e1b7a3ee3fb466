import Libjingle.P2p.IceRole

/-! Two sessions that start in the same ICE role: which one takes the other role, and when
all that they have agrees with it. -/

namespace Libjingle

namespace BaseSession

/-- The roles of a channel and its ports satisfy `P`, with the tiebreaker of the session. -/
structure Channel.Fits (P : TransportRole → Prop) (x : UInt64) (ch : Channel) : Prop where
  role : P ch.role
  tiebreaker : ch.tiebreaker = x
  ports : ∀ port ∈ ch.allPorts, P port.role ∧ port.iceProtocol = .rfc5245 ∧ port.tiebreaker = x

structure Transport.Fits (P : TransportRole → Prop) (x : UInt64) (t : Transport) : Prop where
  role : P t.role
  tiebreaker : t.tiebreaker = x
  channels : ∀ ch ∈ t.channels, ch.Fits P x

/-- The current ports have the role of their channel, and the channels that of the transport. -/
def Transport.Led (t : Transport) : Prop :=
  ∀ ch ∈ t.channels, ch.role = t.role ∧ ∀ port ∈ ch.ports, port.role = ch.role

/-- The role of every transport, channel and port is `role`. -/
def AllRoles (s : BaseSession) (role : TransportRole) : Prop :=
  ∀ entry ∈ s.transports, entry.2.role = role ∧ ∀ ch ∈ entry.2.channels, ch.role = role ∧
    ∀ port ∈ ch.allPorts, port.role = role

def Switched (s : BaseSession) : Prop := s.roleSwitch = true ∧ s.settingRole = []

def Opposite (s other : BaseSession) : Prop :=
  ∃ role, role ≠ .unknown ∧ s.AllRoles role ∧ other.AllRoles role.reverse

/-- Of two controlling agents the one with the smaller tiebreaker has to switch, of two
controlled ones the one with the larger. -/
def MustSwitch (s other : BaseSession) : Prop :=
  if s.initiator then s.iceTiebreaker < other.iceTiebreaker
  else other.iceTiebreaker < s.iceTiebreaker

/-- A session that has switched creates no transport, and a transport that gets the new role
has no ports of earlier allocator sessions. -/
def Orderly (s : BaseSession) : Event → Prop
  | .getOrCreateTransportProxy name => s.roleSwitch = true → s.transports.any (·.1 = name)
  | .setRole => ∀ name rest, s.settingRole = name :: rest → ∀ entry ∈ s.transports,
    entry.1 = name → ∀ ch ∈ entry.2.channels, ch.formerPorts = []
  | _ => True

/-- What keeps the roles of a transport as they are. -/
structure Keeping (f : Transport → Transport) : Prop where
  fits : ∀ P x t, Transport.Fits P x t → (f t).Fits P x
  led : ∀ t, t.Led → (f t).Led

theorem mem_modify {α : Type*} {l : List α} {f : α → α} {i : Nat} {b : α} (h : b ∈ l.modify i f) :
    ∃ a ∈ l, b = a ∨ b = f a := by
  obtain ⟨j, hj⟩ := List.mem_iff_getElem?.mp h
  rw [List.getElem?_modify] at hj
  obtain ⟨a, ha, hb⟩ := Option.map_eq_some_iff.mp hj
  refine ⟨a, List.mem_of_getElem? ha, ?_⟩
  split at hb
  · exact .inr hb.symm
  · exact .inl hb.symm

variable {P : TransportRole → Prop} {x : UInt64} {ch : Channel} {t : Transport}

theorem Channel.fits_addAllocatorSession (h : ch.Fits P x) : ch.addAllocatorSession.Fits P x where
  role := h.role
  tiebreaker := h.tiebreaker
  ports port hport := by
    refine h.ports port ?_
    rw [allPorts, addAllocatorSession, List.nil_append] at hport
    exact List.mem_append.mpr (List.mem_append.mp hport).symm

theorem Channel.fits_onPortReady (h : ch.Fits P x) (port : Port) :
    (ch.onPortReady port).Fits P x where
  role := h.role
  tiebreaker := h.tiebreaker
  ports other hother := by
    rw [allPorts, onPortReady] at hother
    rcases List.mem_append.mp hother with hother | hother
    · rcases List.mem_append.mp hother with hother | hother
      · exact h.ports other (List.mem_append_left _ hother)
      · rw [List.mem_singleton.mp hother]
        exact ⟨h.role, rfl, h.tiebreaker⟩
    · exact h.ports other (List.mem_append_right _ hother)

theorem Channel.fits_onPortDestroyed (h : ch.Fits P x) (former : Bool) (index : Nat) :
    (ch.onPortDestroyed former index).Fits P x := by
  rw [onPortDestroyed]
  split
  · refine ⟨h.role, h.tiebreaker, fun port hport => h.ports port ?_⟩
    exact List.mem_append.mpr ((List.mem_append.mp hport).imp_right List.mem_of_mem_eraseIdx)
  · refine ⟨h.role, h.tiebreaker, fun port hport => h.ports port ?_⟩
    exact List.mem_append.mpr ((List.mem_append.mp hport).imp_left List.mem_of_mem_eraseIdx)

theorem keeping_modifyChannel {f : Channel → Channel} (index : Nat)
    (hfits : ∀ P x ch, Channel.Fits P x ch → (f ch).Fits P x)
    (hrole : ∀ ch, (f ch).role = ch.role)
    (hports : ∀ ch, (∀ port ∈ ch.ports, port.role = ch.role) →
      ∀ port ∈ (f ch).ports, port.role = ch.role) :
    Keeping (·.modifyChannel index f) where
  fits P x t h := by
    refine ⟨h.role, h.tiebreaker, fun ch hch => ?_⟩
    obtain ⟨before, hbefore, rfl | rfl⟩ := mem_modify hch
    · exact h.channels ch hbefore
    · exact hfits P x before (h.channels before hbefore)
  led t h ch hch := by
    obtain ⟨before, hbefore, rfl | rfl⟩ := mem_modify hch
    · exact h ch hbefore
    · obtain ⟨hsame, hled⟩ := h before hbefore
      rw [hrole]
      exact ⟨hsame, hports before hled⟩

theorem keeping_addAllocatorSession (index : Nat) :
    Keeping (·.modifyChannel index Channel.addAllocatorSession) :=
  keeping_modifyChannel index (fun _ _ _ => Channel.fits_addAllocatorSession) (fun _ => rfl)
    fun _ _ _ hport => absurd hport List.not_mem_nil

theorem keeping_reset (index : Nat) : Keeping (·.modifyChannel index Channel.reset) :=
  keeping_modifyChannel index
    (fun _ _ _ h => ⟨h.role, h.tiebreaker, fun _ hport => absurd hport List.not_mem_nil⟩)
    (fun _ => rfl) fun _ _ _ hport => absurd hport List.not_mem_nil

theorem keeping_onPortReady (index : Nat) (port : Port) :
    Keeping (·.modifyChannel index (·.onPortReady port)) := by
  refine keeping_modifyChannel index (fun _ _ _ h => Channel.fits_onPortReady h port) (fun _ => rfl)
    fun ch hled other hother => ?_
  rcases List.mem_append.mp hother with hother | hother
  · exact hled other hother
  · rw [List.mem_singleton.mp hother]

theorem keeping_onPortDestroyed (index : Nat) (former : Bool) (i : Nat) :
    Keeping (·.modifyChannel index (·.onPortDestroyed former i)) := by
  refine keeping_modifyChannel index (fun _ _ _ h => Channel.fits_onPortDestroyed h former i)
    (fun ch => ?_) fun ch hled port hport => ?_
  · rw [Channel.onPortDestroyed]
    split <;> rfl
  · rw [Channel.onPortDestroyed] at hport
    split at hport
    · exact hled port hport
    · exact hled port (List.mem_of_mem_eraseIdx hport)

theorem keeping_destroyChannel (index : Nat) :
    Keeping fun t => { t with channels := t.channels.eraseIdx index } where
  fits _ _ _ h := ⟨h.role, h.tiebreaker, fun ch hch => h.channels ch (List.mem_of_mem_eraseIdx hch)⟩
  led _ h ch hch := h ch (List.mem_of_mem_eraseIdx hch)

theorem keeping_createChannel : Keeping Transport.createChannel := by
  have hnew : ∀ t : Transport, ((Channel.setRole {} t.role).setTiebreaker t.tiebreaker) =
      { role := t.role, tiebreaker := t.tiebreaker } := by
    intro t
    rw [Channel.setRole]
    split
    · rfl
    · rename_i h
      rw [← not_not.mp h]
      rfl
  refine ⟨fun P x t h => ⟨h.role, h.tiebreaker, fun ch hch => ?_⟩, fun t h ch hch => ?_⟩
  · rcases List.mem_append.mp hch with hch | hch
    · exact h.channels ch hch
    · rw [List.mem_singleton.mp hch, hnew]
      exact ⟨h.role, h.tiebreaker, fun _ hport => absurd hport List.not_mem_nil⟩
  · rcases List.mem_append.mp hch with hch | hch
    · exact h ch hch
    · rw [List.mem_singleton.mp hch, hnew]
      exact ⟨rfl, fun _ hport => absurd hport List.not_mem_nil⟩

def HasPort (s : BaseSession) (port : Port) : Prop :=
  ∃ entry ∈ s.transports, ∃ ch ∈ entry.2.channels, port ∈ ch.allPorts

variable {s other : BaseSession}

theorem hasPort_of_getPort {name : String} {channel index : Nat} {port : Port}
    (h : s.getPort name channel index = some port) : s.HasPort port := by
  obtain ⟨entry, hentry, h⟩ := Option.bind_eq_some_iff.mp h
  obtain ⟨ch, hch, hport⟩ := Option.bind_eq_some_iff.mp h
  exact ⟨entry, List.mem_of_find?_eq_some hentry, ch, List.mem_of_getElem? hch,
    List.mem_of_getElem? hport⟩

inductive Does (s other : BaseSession) : Event → BaseSession → Prop
  | same (e : Event) : Does s other e s
  | keeps (e : Event) (name : String) (f : Transport → Transport) (h : Keeping f) :
    Does s other e (s.modifyTransport name f)
  | creates (name : String) (hidle : s.settingRole = []) :
    Does s other (.getOrCreateTransportProxy name) (s.getOrCreateTransportProxy name)
  | destroys (e : Event) (name : String) (hidle : s.settingRole = []) :
    Does s other e (s.destroyTransportProxy name)
  | pings (e : Event) (port : Port) (h : s.HasPort port) (name : String)
    (transactionId : List UInt8) (remote : Candidate) (useCandidate : Bool)
    (retransmits localPriority : UInt32) :
    Does s other e { s with
      pings := s.pings ++
        [port.unsignedPing transactionId remote useCandidate retransmits localPriority]
      outstanding := s.outstanding ++ [(name, transactionId)] }
  | reads (e : Event) (port : Port) (h : s.HasPort port) (name : String) (msg : StunMessage)
    (hmsg : msg ∈ other.pings) (remoteUfrag : List UInt8) :
    Does s other e (s.readPing port name msg remoteUfrag)
  | refused (e : Event) (name : String) (transactionId : List UInt8)
    (h : transactionId ∈ other.refusals) : Does s other e (s.readRefusal name transactionId)
  | forgets (e : Event) (outstanding : List (String × List UInt8)) :
    Does s other e { s with outstanding := outstanding }
  | conflicts (e : Event) (name : String) (rest : List String) (hidle : s.settingRole = [])
    (h : s.conflicts = name :: rest) : Does s other e { s with conflicts := rest }.onRoleConflict
  | sets (name : String) (rest : List String) (h : s.settingRole = name :: rest) :
    Does s other .setRole
      ({ s with settingRole := rest }.modifyTransport name (·.setRole s.initialRole.reverse))

theorem step_does (s other : BaseSession) (e : Event) : Does s other e (s.step other e) := by
  rw [step]
  split
  · rename_i henabled
    cases e with
    | getOrCreateTransportProxy name => exact .creates name (List.isEmpty_iff.mp henabled)
    | destroyTransportProxy name => exact .destroys _ name (List.isEmpty_iff.mp henabled)
    | createChannel name => exact .keeps _ name _ keeping_createChannel
    | destroyChannel name channel => exact .keeps _ name _ (keeping_destroyChannel channel)
    | addAllocatorSession name channel =>
      exact .keeps _ name _ (keeping_addAllocatorSession channel)
    | reset name channel => exact .keeps _ name _ (keeping_reset channel)
    | portReady name channel port => exact .keeps _ name _ (keeping_onPortReady channel port)
    | portDestroyed name channel former index =>
      exact .keeps _ name _ (keeping_onPortDestroyed channel former index)
    | ping name channel index transactionId remote useCandidate retransmits localPriority =>
      rw [handle]
      split
      · rename_i port hport
        exact .pings _ port (hasPort_of_getPort hport) name _ _ _ _ _
      · exact .same _
    | readPing name channel index number remoteUfrag =>
      rw [handle]
      split
      · rename_i port msg hport hmsg
        exact .reads _ port (hasPort_of_getPort hport) name msg (List.mem_of_getElem? hmsg) _
      · exact .same _
    | readRefusal name transactionId =>
      rw [handle]
      split
      · rename_i h
        exact .refused _ name transactionId h
      · exact .same _
    | requestTimeout name transactionId => exact .forgets _ _
    | roleConflict =>
      rw [handle]
      split
      · exact .same _
      · rename_i name rest h
        exact .conflicts _ name rest (List.isEmpty_iff.mp henabled) h
    | setRole =>
      rw [handle, setRole]
      split
      · exact .same _
      · rename_i name rest h
        exact .sets name rest h
  · exact .same _

theorem does_fixed {e : Event} {s' : BaseSession} (hs : Does s other e s') :
    s'.initiator = s.initiator ∧ s'.iceTiebreaker = s.iceTiebreaker := by
  cases hs with
  | same | keeps | destroys | pings | forgets | sets => exact ⟨rfl, rfl⟩
  | creates =>
    rw [getOrCreateTransportProxy]
    split <;> exact ⟨rfl, rfl⟩
  | reads =>
    rw [readPing]
    split <;> exact ⟨rfl, rfl⟩
  | refused =>
    rw [readRefusal]
    split <;> exact ⟨rfl, rfl⟩
  | conflicts =>
    rw [onRoleConflict]
    split <;> exact ⟨rfl, rfl⟩

theorem Channel.fits_setRole (h : ch.Fits P x) {role : TransportRole} (hrole : P role) :
    (ch.setRole role).Fits P x := by
  rw [setRole]
  split
  · refine ⟨hrole, h.tiebreaker, fun port hport => ?_⟩
    rcases List.mem_append.mp hport with hport | hport
    · obtain ⟨before, hbefore, rfl⟩ := List.mem_map.mp hport
      exact ⟨hrole, (h.ports before (List.mem_append_left _ hbefore)).2⟩
    · exact h.ports port (List.mem_append_right _ hport)
  · exact h

theorem Transport.fits_setRole (h : t.Fits P x) {role : TransportRole} (hrole : P role) :
    (t.setRole role).Fits P x where
  role := hrole
  tiebreaker := h.tiebreaker
  channels ch hch := by
    obtain ⟨before, hbefore, rfl⟩ := List.mem_map.mp hch
    exact Channel.fits_setRole (h.channels before hbefore) hrole

/-- All roles of the session satisfy `P`. -/
def FitsAll (s : BaseSession) (P : TransportRole → Prop) : Prop :=
  ∀ entry ∈ s.transports, entry.2.Fits P s.iceTiebreaker

theorem fits_modifyTransport (h : s.FitsAll P) (name : String) {f : Transport → Transport}
    (hf : ∀ t, t.Fits P s.iceTiebreaker → (f t).Fits P s.iceTiebreaker) :
    (s.modifyTransport name f).FitsAll P := by
  intro entry hentry
  obtain ⟨before, hbefore, rfl⟩ := List.mem_map.mp hentry
  split
  · exact hf before.2 (h before hbefore)
  · exact h before hbefore

theorem does_fits {e : Event} {s' : BaseSession} (hs : Does s other e s') (h : s.FitsAll P)
    (hinitial : P s.initialRole) (hreverse : s.settingRole ≠ [] → P s.initialRole.reverse) :
    s'.FitsAll P := by
  cases hs with
  | same | pings | forgets => exact h
  | keeps _ name f hf => exact fits_modifyTransport h name (hf.fits P _)
  | creates name =>
    rw [getOrCreateTransportProxy]
    split
    · exact h
    · intro entry hentry
      rcases List.mem_append.mp hentry with hentry | hentry
      · exact h entry hentry
      · rw [List.mem_singleton.mp hentry]
        exact ⟨hinitial, rfl, fun _ hch => absurd hch List.not_mem_nil⟩
  | destroys _ name => exact fun entry hentry => h entry (List.mem_of_mem_filter hentry)
  | reads =>
    rw [readPing]
    split <;> exact h
  | refused =>
    rw [readRefusal]
    split <;> exact h
  | conflicts =>
    rw [onRoleConflict]
    split <;> exact h
  | sets name rest hsetting =>
    refine fits_modifyTransport (s := { s with settingRole := rest }) h name fun t ht => ?_
    exact Transport.fits_setRole ht (hreverse (by rw [hsetting]; exact List.cons_ne_nil _ _))

/-- A ping of an agent with tiebreaker `x` whose role satisfied `P` when it was sent. -/
def States (P : TransportRole → Prop) (x : UInt64) (msg : StunMessage) : Prop :=
  ∀ (port : Port) (remoteUfrag : List UInt8), port.tiebreaker ≠ x →
    ∃ role, P role ∧ port.maybeIceRoleConflict msg remoteUfrag = port.compareRole role x

theorem fits_of_hasPort (h : s.FitsAll P) {port : Port} (hport : s.HasPort port) :
    P port.role ∧ port.iceProtocol = .rfc5245 ∧ port.tiebreaker = s.iceTiebreaker := by
  obtain ⟨entry, hentry, ch, hch, hport⟩ := hport
  exact ((h entry hentry).channels ch hch).ports port hport

theorem does_pings {e : Event} {s' : BaseSession} (hs : Does s other e s') (hfits : s.FitsAll P)
    (hP : ¬ P .unknown) (h : ∀ msg ∈ s.pings, States P s.iceTiebreaker msg) :
    ∀ msg ∈ s'.pings, States P s.iceTiebreaker msg := by
  cases hs with
  | same | keeps | destroys | forgets | sets => exact h
  | creates =>
    rw [getOrCreateTransportProxy]
    split <;> exact h
  | pings _ port hport name transactionId remote useCandidate retransmits localPriority =>
    intro msg hmsg
    rcases List.mem_append.mp hmsg with hmsg | hmsg
    · exact h msg hmsg
    · rw [List.mem_singleton.mp hmsg]
      obtain ⟨hrole, hprotocol, htiebreaker⟩ := fits_of_hasPort hfits hport
      intro receiver remoteUfrag hdistinct
      refine ⟨port.role, hrole, ?_⟩
      rw [← htiebreaker] at hdistinct ⊢
      exact Port.maybeIceRoleConflict_unsignedPing hprotocol (fun hunknown => hP (hunknown ▸ hrole))
        hdistinct.symm transactionId remoteUfrag
  | reads =>
    rw [readPing]
    split <;> exact h
  | refused =>
    rw [readRefusal]
    split <;> exact h
  | conflicts =>
    rw [onRoleConflict]
    split <;> exact h

def Either (role r : TransportRole) : Prop := r = role ∨ r = role.reverse

theorem initialRole_cases (s : BaseSession) :
    s.initiator = true ∧ s.initialRole = .controlling ∨
      s.initiator = false ∧ s.initialRole = .controlled := by
  rw [initialRole]
  cases s.initiator
  · exact .inr ⟨rfl, rfl⟩
  · exact .inl ⟨rfl, rfl⟩

theorem not_signalled (hmust : MustSwitch other s) (hsame : other.initiator = s.initiator)
    {port : Port} (hrole : port.role = s.initialRole) (htiebreaker : port.tiebreaker = s.iceTiebreaker)
    {role : TransportRole} (hpeer : Either s.initialRole role) :
    port.compareRole role other.iceTiebreaker ≠ .signalled := by
  rw [MustSwitch, hsame] at hmust
  rw [Port.compareRole, hrole, htiebreaker]
  rcases initialRole_cases s with ⟨hinitiator, hinitial⟩ | ⟨hinitiator, hinitial⟩
  · rw [hinitiator, if_pos rfl] at hmust
    rw [hinitial] at hpeer ⊢
    rcases hpeer with rfl | rfl
    · have hless : ¬ other.iceTiebreaker ≥ s.iceTiebreaker := UInt64.not_le.mpr hmust
      dsimp only
      rw [if_pos rfl, if_neg hless]
      exact nofun
    · exact nofun
  · rw [hinitiator, if_neg Bool.false_ne_true] at hmust
    rw [hinitial] at hpeer ⊢
    rcases hpeer with rfl | rfl
    · have hless : ¬ other.iceTiebreaker < s.iceTiebreaker := UInt64.not_lt.mpr (UInt64.le_of_lt hmust)
      dsimp only
      rw [if_pos rfl, if_neg hless]
      exact nofun
    · exact nofun

theorem not_refused (hmust : MustSwitch s other) {port : Port} (hrole : Either s.initialRole port.role)
    (htiebreaker : port.tiebreaker = s.iceTiebreaker) :
    port.compareRole s.initialRole other.iceTiebreaker ≠ .refused := by
  rw [MustSwitch] at hmust
  rw [Port.compareRole, htiebreaker]
  rcases initialRole_cases s with ⟨hinitiator, hinitial⟩ | ⟨hinitiator, hinitial⟩
  · rw [hinitiator, if_pos rfl] at hmust
    rw [hinitial] at hrole ⊢
    rcases hrole with hrole | hrole <;> rw [hrole]
    · have hless : other.iceTiebreaker ≥ s.iceTiebreaker := UInt64.le_of_lt hmust
      dsimp only
      rw [if_pos rfl, if_pos hless]
      exact nofun
    · exact nofun
  · rw [hinitiator, if_neg Bool.false_ne_true] at hmust
    rw [hinitial] at hrole ⊢
    rcases hrole with hrole | hrole <;> rw [hrole]
    · dsimp only
      rw [if_pos rfl, if_pos hmust]
      exact nofun
    · exact nofun

structure Keeper (s : BaseSession) : Prop where
  fits : s.FitsAll (· = s.initialRole)
  pings : ∀ msg ∈ s.pings, States (· = s.initialRole) s.iceTiebreaker msg
  roleSwitch : s.roleSwitch = false
  conflicts : s.conflicts = []
  settingRole : s.settingRole = []
  switches : s.switches = 0

/-- A session that takes the other role at the first conflict. -/
structure Switcher (s : BaseSession) : Prop where
  fits : s.FitsAll (Either s.initialRole)
  pings : ∀ msg ∈ s.pings, States (Either s.initialRole) s.iceTiebreaker msg
  refusals : s.refusals = []
  switches : s.switches = if s.roleSwitch then 1 else 0

theorem initialRole_known (s : BaseSession) :
    s.initialRole ≠ .unknown ∧ s.initialRole.reverse ≠ .unknown := by
  rcases initialRole_cases s with ⟨-, h⟩ | ⟨-, h⟩ <;> rw [h] <;> exact ⟨nofun, nofun⟩

theorem initialRole_congr {s s' : BaseSession} (h : s'.initiator = s.initiator) :
    s'.initialRole = s.initialRole := by
  rw [initialRole, initialRole, h]

theorem mustSwitch_ne (h : MustSwitch other s) : s.iceTiebreaker ≠ other.iceTiebreaker := by
  intro heq
  rw [MustSwitch, heq] at h
  split at h <;> exact UInt64.lt_irrefl _ h

theorem keeper_step (hmust : MustSwitch other s) (hsame : other.initiator = s.initiator)
    (h : s.Keeper) (hother : other.Switcher) (e : Event) : (s.step other e).Keeper := by
  have hs := step_does s other e
  obtain ⟨hinitiator, htiebreaker⟩ := does_fixed hs
  have hrole := initialRole_congr hinitiator
  have hfits := does_fits hs h.fits rfl fun hset => absurd h.settingRole hset
  have hpings := does_pings hs h.fits (initialRole_known s).1.symm h.pings
  rw [← hrole] at hfits hpings
  rw [← htiebreaker] at hpings
  revert hfits hpings
  generalize s.step other e = s' at hs ⊢
  intro hfits hpings
  have hkept : s'.roleSwitch = s.roleSwitch ∧ s'.conflicts = [] ∧ s'.settingRole = [] ∧
      s'.switches = s.switches := by
    cases hs with
    | same | keeps | pings | forgets => exact ⟨rfl, h.conflicts, h.settingRole, rfl⟩
    | creates =>
      rw [getOrCreateTransportProxy]
      split <;> exact ⟨rfl, h.conflicts, h.settingRole, rfl⟩
    | destroys =>
      refine ⟨rfl, ?_, h.settingRole, rfl⟩
      rw [destroyTransportProxy, h.conflicts]
      rfl
    | reads _ port hport name msg hmsg remoteUfrag =>
      obtain ⟨hportRole, -, hportTiebreaker⟩ := fits_of_hasPort h.fits hport
      have hdistinct : port.tiebreaker ≠ other.iceTiebreaker := by
        rw [hportTiebreaker]
        exact mustSwitch_ne hmust
      obtain ⟨role, hpeer, hcheck⟩ := hother.pings msg hmsg port remoteUfrag hdistinct
      rw [initialRole_congr hsame] at hpeer
      have hsignal := not_signalled hmust hsame hportRole hportTiebreaker hpeer
      rw [← hcheck] at hsignal
      rw [readPing]
      split
      · exact ⟨rfl, h.conflicts, h.settingRole, rfl⟩
      · rename_i hsignalled
        exact absurd hsignalled hsignal
      · exact ⟨rfl, h.conflicts, h.settingRole, rfl⟩
    | refused _ _ _ hrefused =>
      rw [hother.refusals] at hrefused
      exact absurd hrefused List.not_mem_nil
    | conflicts _ _ _ _ hconflicts =>
      rw [h.conflicts] at hconflicts
      cases hconflicts
    | sets _ _ hset =>
      rw [h.settingRole] at hset
      cases hset
  exact ⟨hfits, hpings, hkept.1.trans h.roleSwitch, hkept.2.1, hkept.2.2.1,
    hkept.2.2.2.trans h.switches⟩

theorem switcher_step (hmust : MustSwitch s other) (hsame : other.initiator = s.initiator)
    (h : s.Switcher) (hother : other.Keeper) (e : Event) : (s.step other e).Switcher := by
  have hs := step_does s other e
  obtain ⟨hinitiator, htiebreaker⟩ := does_fixed hs
  have hrole := initialRole_congr hinitiator
  obtain ⟨hinitial, hreverse⟩ := initialRole_known s
  have hfits := does_fits hs h.fits (.inl rfl) fun _ => .inr rfl
  have hpings := does_pings hs h.fits (not_or.mpr ⟨hinitial.symm, hreverse.symm⟩) h.pings
  rw [← hrole] at hfits hpings
  rw [← htiebreaker] at hpings
  revert hfits hpings
  generalize s.step other e = s' at hs ⊢
  intro hfits hpings
  have hkept : s'.refusals = [] ∧ s'.switches = if s'.roleSwitch then 1 else 0 := by
    cases hs with
    | same | keeps | destroys | pings | forgets | sets => exact ⟨h.refusals, h.switches⟩
    | creates =>
      rw [getOrCreateTransportProxy]
      split <;> exact ⟨h.refusals, h.switches⟩
    | reads _ port hport name msg hmsg remoteUfrag =>
      obtain ⟨hportRole, -, hportTiebreaker⟩ := fits_of_hasPort h.fits hport
      have hdistinct : port.tiebreaker ≠ other.iceTiebreaker := by
        rw [hportTiebreaker]
        exact (mustSwitch_ne hmust).symm
      obtain ⟨role, rfl, hcheck⟩ := hother.pings msg hmsg port remoteUfrag hdistinct
      have hrefuse := not_refused hmust hportRole hportTiebreaker
      rw [← initialRole_congr hsame, ← hcheck] at hrefuse
      rw [readPing]
      split
      · exact ⟨h.refusals, h.switches⟩
      · exact ⟨h.refusals, h.switches⟩
      · rename_i hrefused
        exact absurd hrefused hrefuse
    | refused =>
      rw [readRefusal]
      split <;> exact ⟨h.refusals, h.switches⟩
    | conflicts =>
      rw [onRoleConflict]
      split
      · rename_i hagain
        exact ⟨h.refusals, h.switches.trans (if_pos hagain)⟩
      · rename_i hfirst
        have hnone : s.switches = 0 := by
          rw [h.switches]
          exact if_neg hfirst
        refine ⟨h.refusals, ?_⟩
        change s.switches + 1 = 1
        rw [hnone]
  exact ⟨hfits, hpings, hkept.1, hkept.2⟩

/-- The roles of a session whose steps are orderly. -/
structure Tidy (s : BaseSession) : Prop where
  led : ∀ entry ∈ s.transports, entry.2.Led
  before : s.roleSwitch = false → s.settingRole = [] ∧ s.FitsAll (· = s.initialRole)
  after : s.roleSwitch = true → ∀ entry ∈ s.transports, entry.1 ∉ s.settingRole →
    entry.2.Fits (· = s.initialRole.reverse) s.iceTiebreaker

theorem Transport.fits_setRole_of_led {role : TransportRole} (hfits : t.Fits P x) (hled : t.Led)
    (hformer : ∀ ch ∈ t.channels, ch.formerPorts = []) :
    (t.setRole role).Fits (· = role) x := by
  refine ⟨rfl, hfits.tiebreaker, fun ch hch => ?_⟩
  obtain ⟨before, hbefore, rfl⟩ := List.mem_map.mp hch
  have hold := hfits.channels before hbefore
  rw [Channel.setRole]
  split
  · refine ⟨rfl, hold.tiebreaker, fun port hport => ?_⟩
    rcases List.mem_append.mp hport with hport | hport
    · obtain ⟨old, hmem, rfl⟩ := List.mem_map.mp hport
      exact ⟨rfl, (hold.ports old (List.mem_append_left _ hmem)).2⟩
    · exact absurd (hformer before hbefore ▸ hport) List.not_mem_nil
  · rename_i hrole
    have hrole := not_not.mp hrole
    refine ⟨hrole, hold.tiebreaker, fun port hport => ⟨?_, (hold.ports port hport).2⟩⟩
    rcases List.mem_append.mp hport with hport | hport
    · exact ((hled before hbefore).2 port hport).trans hrole
    · exact absurd (hformer before hbefore ▸ hport) List.not_mem_nil

theorem Transport.led_setRole (hled : t.Led) (role : TransportRole) : (t.setRole role).Led := by
  intro ch hch
  obtain ⟨before, hbefore, rfl⟩ := List.mem_map.mp hch
  rw [Channel.setRole]
  split
  · refine ⟨rfl, fun port hport => ?_⟩
    obtain ⟨old, -, rfl⟩ := List.mem_map.mp hport
    rfl
  · rename_i hrole
    exact ⟨not_not.mp hrole, (hled before hbefore).2⟩

theorem tidy_keeps (h : s.Tidy) (name : String) {f : Transport → Transport} (hf : Keeping f) :
    (s.modifyTransport name f).Tidy := by
  refine ⟨fun entry hentry => ?_, fun hswitch => ?_, fun hswitch entry hentry hset => ?_⟩
  · obtain ⟨before, hbefore, rfl⟩ := List.mem_map.mp hentry
    split
    · exact hf.led before.2 (h.led before hbefore)
    · exact h.led before hbefore
  · obtain ⟨hset, hfits⟩ := h.before hswitch
    exact ⟨hset, fits_modifyTransport hfits name (hf.fits _ _)⟩
  · obtain ⟨before, hbefore, rfl⟩ := List.mem_map.mp hentry
    revert hset
    split
    · exact fun hset => hf.fits _ _ _ (h.after hswitch before hbefore hset)
    · exact fun hset => h.after hswitch before hbefore hset

theorem tidy_creates (h : s.Tidy) (name : String)
    (horderly : s.roleSwitch = true → s.transports.any (·.1 = name)) :
    (s.getOrCreateTransportProxy name).Tidy := by
  rw [getOrCreateTransportProxy]
  split
  · exact h
  · rename_i hnew
    refine ⟨fun entry hentry => ?_, fun hswitch => ?_, fun hswitch => absurd (horderly hswitch) hnew⟩
    · rcases List.mem_append.mp hentry with hentry | hentry
      · exact h.led entry hentry
      · rw [List.mem_singleton.mp hentry]
        exact fun _ hch => absurd hch List.not_mem_nil
    · obtain ⟨hset, hfits⟩ := h.before hswitch
      refine ⟨hset, fun entry hentry => ?_⟩
      rcases List.mem_append.mp hentry with hentry | hentry
      · exact hfits entry hentry
      · rw [List.mem_singleton.mp hentry]
        exact ⟨rfl, rfl, fun _ hch => absurd hch List.not_mem_nil⟩

theorem tidy_sets (h : s.Tidy) {name : String} {rest : List String}
    (hset : s.settingRole = name :: rest) (hfits : s.FitsAll P)
    (horderly : ∀ entry ∈ s.transports, entry.1 = name → ∀ ch ∈ entry.2.channels,
      ch.formerPorts = []) :
    ({ s with settingRole := rest }.modifyTransport name
      (·.setRole s.initialRole.reverse)).Tidy := by
  refine ⟨fun entry hentry => ?_, fun hswitch => ?_, fun hswitch entry hentry hrest => ?_⟩
  · obtain ⟨before, hbefore, rfl⟩ := List.mem_map.mp hentry
    split
    · exact Transport.led_setRole (h.led before hbefore) _
    · exact h.led before hbefore
  · have hnone := (h.before hswitch).1
    rw [hset] at hnone
    cases hnone
  · obtain ⟨before, hbefore, rfl⟩ := List.mem_map.mp hentry
    revert hrest
    split
    · rename_i hname
      exact fun _ => Transport.fits_setRole_of_led (hfits before hbefore) (h.led before hbefore)
        (horderly before hbefore hname)
    · rename_i hname
      refine fun hrest => h.after hswitch before hbefore ?_
      rw [hset]
      exact fun hmem => (List.mem_cons.mp hmem).elim hname hrest

theorem tidy_step (h : s.Tidy) (hfits : s.FitsAll P) {e : Event} (horderly : s.Orderly e) :
    (s.step other e).Tidy := by
  have hs := step_does s other e
  generalize s.step other e = s' at hs ⊢
  cases hs with
  | same | pings | forgets => exact ⟨h.led, h.before, h.after⟩
  | keeps _ name f hf => exact tidy_keeps h name hf
  | creates name => exact tidy_creates h name horderly
  | destroys _ name =>
    refine ⟨fun entry hentry => h.led entry (List.mem_of_mem_filter hentry), fun hswitch => ?_,
      fun hswitch entry hentry => h.after hswitch entry (List.mem_of_mem_filter hentry)⟩
    obtain ⟨hset, hfits⟩ := h.before hswitch
    exact ⟨hset, fun entry hentry => hfits entry (List.mem_of_mem_filter hentry)⟩
  | reads =>
    rw [readPing]
    split <;> exact ⟨h.led, h.before, h.after⟩
  | refused =>
    rw [readRefusal]
    split <;> exact ⟨h.led, h.before, h.after⟩
  | conflicts =>
    rw [onRoleConflict]
    split
    · exact ⟨h.led, h.before, h.after⟩
    · -- every transport has still to be told
      refine ⟨h.led, nofun, fun _ entry hentry hset => ?_⟩
      exact absurd (List.mem_map_of_mem hentry) hset
  | sets name rest hset => exact tidy_sets h hset hfits (horderly name rest hset)

end BaseSession

structure RolePair where
  first : BaseSession
  second : BaseSession
  deriving DecidableEq, Repr

namespace RolePair

open BaseSession

/-- Both sessions have the same role. -/
def start (initiator : Bool) (tiebreaker tiebreaker' : UInt64) : RolePair where
  first := { initiator := initiator, iceTiebreaker := tiebreaker }
  second := { initiator := initiator, iceTiebreaker := tiebreaker' }

inductive PairEvent
  | first (e : BaseSession.Event)
  | second (e : BaseSession.Event)
  deriving DecidableEq, Repr

def step (p : RolePair) : PairEvent → RolePair
  | .first e => { p with first := p.first.step p.second e }
  | .second e => { p with second := p.second.step p.first e }

def run (p : RolePair) (events : List PairEvent) : RolePair := events.foldl step p

def Orderly (p : RolePair) : PairEvent → Prop
  | .first e => p.first.Orderly e
  | .second e => p.second.Orderly e

/-- A session switches once at most, and only if it has to. -/
structure Rightful (p : RolePair) : Prop where
  first : p.first.switches ≤ 1
  second : p.second.switches ≤ 1
  firstMust : p.first.switches ≠ 0 → p.first.MustSwitch p.second
  secondMust : p.second.switches ≠ 0 → p.second.MustSwitch p.first

def Converged (p : RolePair) : Prop :=
  p.first.Switched ∨ p.second.Switched → p.first.Opposite p.second

/-- The invariant for a session that has to switch and one that does not. -/
structure Inv (s other : BaseSession) : Prop where
  must : s.MustSwitch other
  same : other.initiator = s.initiator
  switcher : s.Switcher
  keeper : other.Keeper

variable {s other : BaseSession}

theorem inv_switcher (h : Inv s other) (e : BaseSession.Event) : Inv (s.step other e) other := by
  obtain ⟨hinitiator, htiebreaker⟩ := does_fixed (step_does s other e)
  refine ⟨?_, h.same.trans hinitiator.symm, switcher_step h.must h.same h.switcher h.keeper e, h.keeper⟩
  rw [MustSwitch, hinitiator, htiebreaker]
  exact h.must

theorem inv_keeper (h : Inv s other) (e : BaseSession.Event) : Inv s (other.step s e) := by
  obtain ⟨hinitiator, htiebreaker⟩ := does_fixed (step_does other s e)
  refine ⟨?_, hinitiator.trans h.same, h.switcher,
    keeper_step h.must h.same.symm h.keeper h.switcher e⟩
  rw [MustSwitch, htiebreaker]
  exact h.must

theorem allRoles_of_fits {role : TransportRole} (h : s.FitsAll (· = role)) : s.AllRoles role :=
  fun entry hentry => ⟨(h entry hentry).role, fun ch hch => ⟨((h entry hentry).channels ch hch).role,
    fun port hport => (((h entry hentry).channels ch hch).ports port hport).1⟩⟩

theorem reverse_reverse (role : TransportRole) : role.reverse.reverse = role := by
  cases role <;> rfl

theorem opposite_of_switched (h : Inv s other) (htidy : s.Tidy) (hswitched : s.Switched) :
    s.Opposite other := by
  obtain ⟨hswitch, hset⟩ := hswitched
  refine ⟨s.initialRole.reverse, (initialRole_known s).2, allRoles_of_fits fun entry hentry => ?_, ?_⟩
  · exact htidy.after hswitch entry hentry (by rw [hset]; exact List.not_mem_nil)
  · rw [reverse_reverse, ← initialRole_congr h.same]
    exact allRoles_of_fits h.keeper.fits

theorem opposite_symm (h : s.Opposite other) : other.Opposite s := by
  obtain ⟨role, hknown, hs, hother⟩ := h
  refine ⟨role.reverse, ?_, hother, (reverse_reverse role).symm ▸ hs⟩
  cases role
  · exact nofun
  · exact nofun
  · exact absurd rfl hknown

/-- One of the two sessions has to switch, and the other does not. -/
def PairInv (p : RolePair) : Prop := Inv p.first p.second ∨ Inv p.second p.first

variable {p : RolePair}

theorem pairInv_start (initiator : Bool) {tiebreaker tiebreaker' : UInt64}
    (h : tiebreaker ≠ tiebreaker') : PairInv (start initiator tiebreaker tiebreaker') := by
  have hswitcher : ∀ x, Switcher { initiator := initiator, iceTiebreaker := x } :=
    fun _ => ⟨nofun, nofun, rfl, rfl⟩
  have hkeeper : ∀ x, Keeper { initiator := initiator, iceTiebreaker := x } :=
    fun _ => ⟨nofun, nofun, rfl, rfl, rfl, rfl⟩
  have hless : tiebreaker < tiebreaker' ∨ tiebreaker' < tiebreaker := UInt64.lt_or_lt_of_ne h
  cases initiator with
  | true => exact hless.imp (⟨·, rfl, hswitcher _, hkeeper _⟩) (⟨·, rfl, hswitcher _, hkeeper _⟩)
  | false =>
    exact hless.symm.imp (⟨·, rfl, hswitcher _, hkeeper _⟩) (⟨·, rfl, hswitcher _, hkeeper _⟩)

theorem pairInv_step (h : p.PairInv) (e : PairEvent) : (p.step e).PairInv := by
  cases e with
  | first e => exact h.imp (inv_switcher · e) (inv_keeper · e)
  | second e => exact h.imp (inv_keeper · e) (inv_switcher · e)

theorem rightful_of_pairInv (h : p.PairInv) : p.Rightful := by
  have hswitches : ∀ s : BaseSession, s.Switcher → s.switches ≤ 1 := by
    intro s hs
    rw [hs.switches]
    split <;> decide
  rcases h with h | h
  · have hzero := h.keeper.switches
    exact ⟨hswitches _ h.switcher, hzero ▸ Nat.zero_le 1, fun _ => h.must, fun hne => absurd hzero hne⟩
  · have hzero := h.keeper.switches
    exact ⟨hzero ▸ Nat.zero_le 1, hswitches _ h.switcher, fun hne => absurd hzero hne, fun _ => h.must⟩

theorem pairInv_run (h : p.PairInv) (events : List PairEvent) : (p.run events).PairInv := by
  induction events generalizing p with
  | nil => exact h
  | cons e rest ih => exact ih (pairInv_step h e)

theorem tidy_run (h : p.PairInv) (hfirst : p.first.Tidy) (hsecond : p.second.Tidy)
    {events : List PairEvent} (horderly : Runs.Along step Orderly p events) :
    (p.run events).first.Tidy ∧ (p.run events).second.Tidy := by
  induction events generalizing p with
  | nil => exact ⟨hfirst, hsecond⟩
  | cons e rest ih =>
    obtain ⟨hstep, hrest⟩ := horderly
    refine ih (pairInv_step h e) ?_ ?_ hrest
    · cases e with
      | first e =>
        rcases h with h | h
        · exact tidy_step hfirst h.switcher.fits hstep
        · exact tidy_step hfirst h.keeper.fits hstep
      | second e => exact hfirst
    · cases e with
      | first e => exact hsecond
      | second e =>
        rcases h with h | h
        · exact tidy_step hsecond h.keeper.fits hstep
        · exact tidy_step hsecond h.switcher.fits hstep

theorem converged_of_tidy (h : p.PairInv) (hfirst : p.first.Tidy) (hsecond : p.second.Tidy) :
    p.Converged := by
  have hkept : ∀ s : BaseSession, s.Keeper → ¬ s.Switched := fun s hs hswitched =>
    absurd (hs.roleSwitch.symm.trans hswitched.1) (by decide)
  rcases h with h | h
  · exact fun hswitched =>
      opposite_of_switched h hfirst (hswitched.resolve_right (hkept _ h.keeper))
  · exact fun hswitched =>
      opposite_symm (opposite_of_switched h hsecond (hswitched.resolve_left (hkept _ h.keeper)))

/-- In every run only the right session switches, and only once. In a run whose steps are
orderly the two sessions have opposite roles from then on. -/
theorem converges (initiator : Bool) {tiebreaker tiebreaker' : UInt64}
    (h : tiebreaker ≠ tiebreaker') (events : List PairEvent) :
    ((start initiator tiebreaker tiebreaker').run events).Rightful ∧
      (Runs.Along step Orderly (start initiator tiebreaker tiebreaker') events →
        ((start initiator tiebreaker tiebreaker').run events).Converged) := by
  have hstart := pairInv_start initiator h
  have hrun := pairInv_run hstart events
  have htidy : ∀ x, Tidy { initiator := initiator, iceTiebreaker := x } :=
    fun _ => ⟨nofun, fun _ => ⟨rfl, nofun⟩, nofun⟩
  refine ⟨rightful_of_pairInv hrun, fun horderly => ?_⟩
  obtain ⟨hfirst, hsecond⟩ := tidy_run hstart (htidy _) (htidy _) horderly
  exact converged_of_tidy hrun hfirst hsecond

/-- Both sessions control. A ping of the second, which has the larger tiebreaker, reaches
the first. -/
def conflictEvents : List PairEvent :=
  let port : Port := { iceUsernameFragment := [97], password := [98] }
  [.first (.getOrCreateTransportProxy "audio"), .first (.createChannel "audio"),
    .first (.portReady "audio" 0 port), .second (.getOrCreateTransportProxy "audio"),
    .second (.createChannel "audio"), .second (.portReady "audio" 0 port),
    .second (.ping "audio" 0 0 [1] {} true 0 0), .first (.readPing "audio" 0 0 0 [99]),
    .first .roleConflict, .first .setRole]

theorem converges_conflict : ((start true 1 2).run conflictEvents).first.switches = 1 ∧
    ((start true 1 2).run conflictEvents).first.Opposite
      ((start true 1 2).run conflictEvents).second := by
  have h := converges true (show (1 : UInt64) ≠ 2 by decide) conflictEvents
  have hcreate : ∀ s : BaseSession, s.roleSwitch = false → ∀ name,
      s.Orderly (.getOrCreateTransportProxy name) := fun _ hswitch _ h =>
    absurd (hswitch.symm.trans h) (by decide)
  have hformer : ∀ entry ∈ ((start true 1 2).run (conflictEvents.take 9)).first.transports,
      ∀ ch ∈ entry.2.channels, ch.formerPorts = [] := by decide
  refine ⟨by decide, h.2 ?_ (.inl ⟨by decide, by decide⟩)⟩
  exact ⟨hcreate _ rfl _, trivial, trivial, hcreate _ rfl _, trivial, trivial, trivial, trivial,
    trivial, fun _ _ _ entry hentry _ => hformer entry hentry, trivial⟩

/-- The session that has switched creates another transport, which controls again. -/
theorem late_transport_controls : ¬ Converged ((start true 1 2).run
    (conflictEvents ++ [.first (.getOrCreateTransportProxy "video")])) := by
  intro h
  obtain ⟨role, -, hfirst, -⟩ := h (.inl ⟨by decide, by decide⟩)
  have hroles : ∀ r, (∃ entry ∈ ((start true 1 2).run (conflictEvents ++
      [.first (.getOrCreateTransportProxy "video")])).first.transports, entry.2.role = r) →
      r = role := by
    rintro r ⟨entry, hentry, rfl⟩
    exact (hfirst entry hentry).1
  have hcontrolling := hroles .controlling (by decide)
  have hcontrolled := hroles .controlled (by decide)
  exact absurd (hcontrolling.trans hcontrolled.symm) (by decide)

end RolePair

end Libjingle
