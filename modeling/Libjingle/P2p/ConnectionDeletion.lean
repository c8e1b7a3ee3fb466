import Libjingle.P2p.ConnectionState
import Libjingle.Lib.Runs

/-! Whether a connection is dead when it is deleted. That it has timed out is found when the
message is posted, and nothing takes the message back when the connection comes to life before
it is handled. -/

namespace Libjingle.QueuedConnection

open Connection

def Dead (states : ReadState × WriteState) : Prop :=
  (states.1 = .readTimeout ∨ states.1 = .readInit) ∧ states.2 = .writeTimeout

def states (s : QueuedConnection) : ReadState × WriteState :=
  (s.connection.readState, s.connection.writeState)

theorem timedOut_iff {s : QueuedConnection} : s.timedOut = true ↔ Dead s.states := by
  simp [timedOut, Dead, states]

/-- Whenever the message may be handled the connection is dead, and so it was when one was. -/
structure DeletedDead (s : QueuedConnection) : Prop where
  pending : 0 < s.deletes → Dead s.states
  deleted : ∀ states ∈ s.deleted, Dead states

section Setters

variable {s : QueuedConnection}

theorem pending_checkTimeout (h : 0 < s.deletes → Dead s.states) :
    0 < s.checkTimeout.deletes → Dead s.checkTimeout.states := by
  rw [checkTimeout]
  by_cases htimedOut : s.timedOut = true
  · rw [if_pos htimedOut]
    exact fun _ => timedOut_iff.mp htimedOut
  · rw [if_neg htimedOut]
    exact h

theorem pending_setReadState {value : ReadState} (h : 0 < s.deletes → Dead s.states)
    (hvalue : value ≠ .readable ∨ s.deletes = 0) :
    0 < (s.setReadState value).deletes → Dead (s.setReadState value).states := by
  have hset : 0 < s.deletes → Dead (value, s.connection.writeState) := by
    intro hpos
    refine ⟨?_, (h hpos).2⟩
    rcases hvalue with hvalue | hzero
    · cases value <;> simp_all
    · omega
  rw [setReadState]
  dsimp only
  split
  · exact pending_checkTimeout hset
  · exact hset

theorem pending_setWriteState {value : WriteState} (h : 0 < s.deletes → Dead s.states)
    (hvalue : value = .writeTimeout ∨ s.deletes = 0) :
    0 < (s.setWriteState value).deletes → Dead (s.setWriteState value).states := by
  have hset : 0 < s.deletes → Dead (s.connection.readState, value) := by
    intro hpos
    refine ⟨(h hpos).1, ?_⟩
    rcases hvalue with hvalue | hzero
    · exact hvalue
    · omega
  rw [setWriteState]
  dsimp only
  split
  · exact pending_checkTimeout hset
  · exact hset

theorem states_checkTimeout : s.checkTimeout.states = s.states := by
  rw [checkTimeout]
  split <;> rfl

theorem states_setReadState (value : ReadState) :
    (s.setReadState value).states = (value, s.connection.writeState) := by
  rw [setReadState]
  dsimp only
  split
  · rw [states_checkTimeout]
    rfl
  · rfl

theorem states_setWriteState (value : WriteState) :
    (s.setWriteState value).states = (s.connection.readState, value) := by
  rw [setWriteState]
  dsimp only
  split
  · rw [states_checkTimeout]
    rfl
  · rfl

/-- The connection is not deleted, and a message stays queued. -/
structure Later (s t : QueuedConnection) : Prop where
  deleted : t.deleted = s.deleted
  deletes : s.deletes ≤ t.deletes

theorem Later.refl (s : QueuedConnection) : Later s s := ⟨rfl, Nat.le_refl _⟩

theorem Later.trans {s t u : QueuedConnection} (h : Later s t) (h' : Later t u) : Later s u :=
  ⟨h'.deleted.trans h.deleted, Nat.le_trans h.deletes h'.deletes⟩

theorem later_checkTimeout (s : QueuedConnection) : Later s s.checkTimeout := by
  rw [checkTimeout]
  split
  · exact ⟨rfl, Nat.le_succ _⟩
  · exact .refl s

theorem later_setReadState (s : QueuedConnection) (value : ReadState) :
    Later s (s.setReadState value) := by
  rw [setReadState]
  dsimp only
  split
  · refine Later.trans ?_ (later_checkTimeout _)
    exact ⟨rfl, Nat.le_refl _⟩
  · exact ⟨rfl, Nat.le_refl _⟩

theorem later_setWriteState (s : QueuedConnection) (value : WriteState) :
    Later s (s.setWriteState value) := by
  rw [setWriteState]
  dsimp only
  split
  · refine Later.trans ?_ (later_checkTimeout _)
    exact ⟨rfl, Nat.le_refl _⟩
  · exact ⟨rfl, Nat.le_refl _⟩

theorem later_receivedPing (s : QueuedConnection) (now : UInt32) :
    Later s (s.receivedPing now) := by
  rw [receivedPing]
  refine Later.trans ?_ (later_setReadState _ _)
  exact ⟨rfl, Nat.le_refl _⟩

theorem later_restartChecks (s : QueuedConnection) : Later s s.restartChecks := by
  rw [restartChecks]
  split
  · exact later_setWriteState _ _
  · exact .refl s

theorem later_prune (s : QueuedConnection) : Later s s.prune := by
  rw [prune]
  split
  · exact .refl s
  · refine Later.trans ?_ (later_setWriteState _ _)
    exact ⟨rfl, Nat.le_refl _⟩

theorem later_updateState (s : QueuedConnection) (now : UInt32) : Later s (s.updateState now) := by
  have hread : ∀ (c : Prop) [Decidable c] (t : QueuedConnection) value,
      Later t (if c then t.setReadState value else t) := by
    intro c _ t value
    split
    · exact later_setReadState t value
    · exact .refl t
  have hwrite : ∀ (c : Prop) [Decidable c] (t : QueuedConnection) value,
      Later t (if c then t.setWriteState value else t) := by
    intro c _ t value
    split
    · exact later_setWriteState t value
    · exact .refl t
  exact (hread _ _ _).trans ((hwrite _ _ _).trans (hwrite _ _ _))

theorem later_onConnectionRequestResponse (s : QueuedConnection) (elapsed now : UInt32) :
    Later s (s.onConnectionRequestResponse elapsed now) := by
  rw [onConnectionRequestResponse]
  dsimp only
  refine (later_setWriteState s .writable).trans ?_
  split
  · exact (later_receivedPing _ now).trans ⟨rfl, Nat.le_refl _⟩
  · exact ⟨rfl, Nat.le_refl _⟩

theorem later_checkResponse (s : QueuedConnection) (port : Port) (msg : StunMessage)
    (now : UInt32) : Later s (s.checkResponse port msg now) := by
  rw [checkResponse]
  cases s.requests.find? (·.1 = msg.transactionId) with
  | none => exact .refl s
  | some request =>
    dsimp only
    split
    · have h := later_onConnectionRequestResponse s (now - request.2) now
      exact ⟨h.deleted, h.deletes⟩
    · split
      · rw [onConnectionRequestErrorResponse]
        split
        · exact ⟨rfl, Nat.le_refl _⟩
        · have h := later_setWriteState s .writeTimeout
          exact ⟨h.deleted, h.deletes⟩
      · exact .refl s

theorem later_onReadPacket (s : QueuedConnection)
    (computeHmac : List UInt8 → List UInt8 → List UInt8) (computeCrc32 : List UInt8 → UInt32)
    (port : Port) (data : List UInt8) (now : UInt32) :
    Later s (s.onReadPacket computeHmac computeCrc32 port data now) := by
  rw [onReadPacket]
  cases port.getStunMessage computeHmac computeCrc32 data with
  | notStun =>
    dsimp only
    split
    · refine Later.trans ?_ (later_restartChecks _)
      exact ⟨rfl, Nat.le_refl _⟩
    · exact .refl s
  | handled error => exact .refl s
  | message msg remoteUfrag =>
    dsimp only
    rw [onMessage]
    split
    · split
      · exact (later_receivedPing s now).trans (later_restartChecks _)
      · exact .refl s
    · split
      · split
        · exact later_checkResponse s port msg now
        · exact .refl s
      · split
        · split
          · exact later_receivedPing s now
          · exact .refl s
        · exact .refl s

theorem later_handle (s : QueuedConnection) (computeHmac : List UInt8 → List UInt8 → List UInt8)
    (computeCrc32 : List UInt8 → UInt32) {e : Event} (he : e ≠ .delete) :
    Later s (s.handle computeHmac computeCrc32 e) := by
  cases e with
  | updateState now => exact later_updateState s now
  | prune => exact later_prune s
  | destroy => exact (later_setReadState s _).trans (later_setWriteState _ _)
  | readPacket port data now => exact later_onReadPacket s computeHmac computeCrc32 port data now
  | receivedPing now => exact later_receivedPing s now
  | ping now transactionId => exact ⟨rfl, Nat.le_refl _⟩
  | requestTimeout transactionId => exact ⟨rfl, Nat.le_refl _⟩
  | close =>
    refine Later.trans ?_ (later_setWriteState _ _)
    exact ⟨rfl, Nat.le_refl _⟩
  | delete => exact absurd rfl he

end Setters

section Revival

variable (s : QueuedConnection) (computeHmac : List UInt8 → List UInt8 → List UInt8)
  (computeCrc32 : List UInt8 → UInt32)

/-- A request that the connection answers, or a response to one of its pings. -/
def RevivedBy (port : Port) (data : List UInt8) : Prop :=
  match port.getStunMessage computeHmac computeCrc32 data with
  | .message msg remoteUfrag =>
    msg.type = stunBindingRequest ∧ s.acceptsRequest port msg remoteUfrag = true ∨
      msg.type = stunBindingResponse ∧ s.acceptsResponse computeHmac port data = true ∧
        s.requests.any (·.1 = msg.transactionId) = true
  | _ => False

/-- While a message is queued, no ping is received and none is answered. -/
def Undisturbed : Event → Prop
  | .receivedPing _ => s.deletes = 0
  | .readPacket port data _ => s.deletes = 0 ∨ ¬ s.RevivedBy computeHmac computeCrc32 port data
  | _ => True

def Pending : Prop := 0 < s.deletes → Dead s.states

variable {s computeHmac computeCrc32}

theorem not_dead_of_readable (h : s.connection.readState = .readable) : ¬ Dead s.states := by
  rintro ⟨hread | hread, -⟩ <;> cases h.symm.trans hread

theorem not_dead_of_write (h : s.connection.writeState ≠ .writeTimeout) : ¬ Dead s.states :=
  fun hdead => h hdead.2

theorem Pending.deletes_eq_zero (h : s.Pending) (halive : ¬ Dead s.states) : s.deletes = 0 :=
  Nat.eq_zero_of_not_pos fun hpos => halive (h hpos)

theorem Pending.receivedPing (hzero : s.deletes = 0) (now : UInt32) :
    (s.receivedPing now).Pending := by
  have hpinged : 0 < s.deletes → Dead s.states := by omega
  exact @pending_setReadState
    { s with connection := { s.connection with lastPingReceived := now } } .readable hpinged
    (.inr hzero)

theorem states_receivedPing (now : UInt32) :
    (s.receivedPing now).states = (.readable, s.connection.writeState) :=
  states_setReadState _

theorem Pending.restartChecks (h : s.Pending) (hread : s.connection.readState = .readable) :
    s.restartChecks.Pending := by
  rw [QueuedConnection.restartChecks]
  split
  · exact pending_setWriteState h (.inr (h.deletes_eq_zero (not_dead_of_readable hread)))
  · exact h

theorem Pending.prune (h : s.Pending) : s.prune.Pending := by
  rw [QueuedConnection.prune]
  split
  · exact h
  · exact pending_setWriteState h (.inl rfl)

theorem Pending.updateState (h : s.Pending) (now : UInt32) : (s.updateState now).Pending := by
  have hread : ∀ (c : Prop) [Decidable c] (t : QueuedConnection), t.Pending →
      (if c then t.setReadState .readTimeout else t).Pending := by
    intro c _ t ht
    split
    · exact pending_setReadState ht (.inl (by decide))
    · exact ht
  have hunreliable : ∀ (c : Prop) [Decidable c] (t : QueuedConnection), t.Pending →
      (if t.connection.writeState = .writable ∧ c then t.setWriteState .writeUnreliable
        else t).Pending := by
    intro c _ t ht
    split
    · next hc =>
      have halive : ¬ Dead t.states := not_dead_of_write (by rw [hc.1]; decide)
      exact pending_setWriteState ht (.inr (ht.deletes_eq_zero halive))
    · exact ht
  have htimeout : ∀ (c : Prop) [Decidable c] (t : QueuedConnection), t.Pending →
      (if c then t.setWriteState .writeTimeout else t).Pending := by
    intro c _ t ht
    split
    · exact pending_setWriteState ht (.inl rfl)
    · exact ht
  exact htimeout _ _ (hunreliable _ _ (hread _ s h))

theorem Pending.onConnectionRequestResponse (hzero : s.deletes = 0) (elapsed now : UInt32) :
    (s.onConnectionRequestResponse elapsed now).Pending := by
  have hwritable : (s.setWriteState .writable).Pending :=
    pending_setWriteState (by omega) (.inr hzero)
  have halive : ¬ Dead (s.setWriteState .writable).states := by
    rw [states_setWriteState]
    rintro ⟨-, hwrite⟩
    cases hwrite
  have hzero' := hwritable.deletes_eq_zero halive
  rw [QueuedConnection.onConnectionRequestResponse]
  dsimp only
  split
  · exact Pending.receivedPing hzero' now
  · exact hwritable

theorem Pending.checkResponse (h : s.Pending) (port : Port) (msg : StunMessage) (now : UInt32)
    (hcalm : s.deletes = 0 ∨ ¬ (msg.type = stunBindingResponse ∧
      s.requests.any (·.1 = msg.transactionId) = true)) :
    (s.checkResponse port msg now).Pending := by
  rw [QueuedConnection.checkResponse]
  cases hfind : s.requests.find? (·.1 = msg.transactionId) with
  | none => exact h
  | some request =>
    have hany : s.requests.any (·.1 = msg.transactionId) = true := by
      have hsame := List.find?_some hfind
      exact List.any_eq_true.mpr ⟨request, List.mem_of_find?_eq_some hfind, hsame⟩
    dsimp only
    by_cases hsuccess : msg.type = stunBindingResponse
    · rw [if_pos hsuccess]
      have hzero : s.deletes = 0 := hcalm.resolve_right fun hnot => hnot ⟨hsuccess, hany⟩
      exact Pending.onConnectionRequestResponse hzero (now - request.2) now
    · rw [if_neg hsuccess]
      split
      · rw [onConnectionRequestErrorResponse]
        split
        · exact h
        · exact pending_setWriteState h (.inl rfl)
      · exact h

theorem Pending.onReadPacket (h : s.Pending) (port : Port) (data : List UInt8) (now : UInt32)
    (hcalm : s.deletes = 0 ∨ ¬ s.RevivedBy computeHmac computeCrc32 port data) :
    (s.onReadPacket computeHmac computeCrc32 port data now).Pending := by
  rw [RevivedBy] at hcalm
  rw [QueuedConnection.onReadPacket]
  cases hmessage : port.getStunMessage computeHmac computeCrc32 data with
  | notStun =>
    dsimp only
    split
    · next hread => exact Pending.restartChecks h hread
    · exact h
  | handled error => exact h
  | message msg remoteUfrag =>
    rw [hmessage] at hcalm
    dsimp only at hcalm ⊢
    rw [onMessage]
    by_cases hrequest : msg.type = stunBindingRequest
    · rw [if_pos hrequest]
      by_cases haccepts : s.acceptsRequest port msg remoteUfrag = true
      · rw [if_pos haccepts]
        have hzero := hcalm.resolve_right fun hnot => hnot (.inl ⟨hrequest, haccepts⟩)
        have hread : (s.receivedPing now).connection.readState = .readable :=
          congrArg Prod.fst (states_receivedPing now)
        exact (Pending.receivedPing hzero now).restartChecks hread
      · rw [if_neg haccepts]
        exact h
    · rw [if_neg hrequest]
      split
      · by_cases haccepts : s.acceptsResponse computeHmac port data = true
        · rw [if_pos haccepts]
          apply h.checkResponse port msg now
          exact hcalm.imp_right fun hnot hboth => hnot (.inr ⟨hboth.1, haccepts, hboth.2⟩)
        · rw [if_neg haccepts]
          exact h
      · split
        · split
          · next hindication =>
            exact Pending.receivedPing (h.deletes_eq_zero (not_dead_of_readable hindication.2)) now
          · exact h
        · exact h

theorem Pending.handle (h : s.Pending) {e : Event}
    (hcalm : s.Undisturbed computeHmac computeCrc32 e) :
    (s.handle computeHmac computeCrc32 e).Pending := by
  cases e with
  | updateState now => exact h.updateState now
  | prune => exact h.prune
  | destroy =>
    exact pending_setWriteState (pending_setReadState h (.inl (by decide))) (.inl rfl)
  | readPacket port data now => exact h.onReadPacket port data now hcalm
  | receivedPing now => exact Pending.receivedPing hcalm now
  | ping now transactionId => exact h
  | requestTimeout transactionId => exact h
  | close => exact pending_setWriteState h (.inl rfl)
  | delete => exact fun hpos => absurd hpos (Nat.lt_irrefl 0)

theorem not_dead_restartChecks (hread : s.connection.readState = .readable) :
    ¬ Dead s.restartChecks.states := by
  rw [restartChecks]
  split
  · rw [states_setWriteState, hread]
    rintro ⟨h | h, -⟩ <;> cases h
  · exact not_dead_of_readable hread

theorem not_dead_onConnectionRequestResponse (elapsed now : UInt32) :
    ¬ Dead (s.onConnectionRequestResponse elapsed now).states := by
  have hwritable := states_setWriteState (s := s) .writable
  rw [onConnectionRequestResponse]
  dsimp only
  split
  · apply not_dead_of_readable
    exact congrArg Prod.fst (@states_receivedPing (s.setWriteState .writable) now)
  · apply not_dead_of_write
    have hwrite : (s.setWriteState .writable).connection.writeState = .writable :=
      congrArg Prod.snd hwritable
    dsimp only
    rw [hwrite]
    decide

theorem not_dead_onReadPacket {port : Port} {data : List UInt8}
    (h : s.RevivedBy computeHmac computeCrc32 port data) (now : UInt32) :
    ¬ Dead (s.onReadPacket computeHmac computeCrc32 port data now).states := by
  rw [RevivedBy] at h
  rw [QueuedConnection.onReadPacket]
  cases hmessage : port.getStunMessage computeHmac computeCrc32 data with
  | notStun =>
    rw [hmessage] at h
    exact absurd h id
  | handled error =>
    rw [hmessage] at h
    exact absurd h id
  | message msg remoteUfrag =>
    rw [hmessage] at h
    dsimp only at h ⊢
    rw [onMessage]
    rcases h with ⟨htype, haccepts⟩ | ⟨htype, haccepts, hany⟩
    · rw [if_pos htype, if_pos haccepts]
      exact not_dead_restartChecks (congrArg Prod.fst (states_receivedPing now))
    · have hrequest : msg.type ≠ stunBindingRequest := by
        rw [htype]
        decide
      rw [if_neg hrequest, if_pos (.inl htype), if_pos haccepts, QueuedConnection.checkResponse]
      cases hfind : s.requests.find? (·.1 = msg.transactionId) with
      | none =>
        obtain ⟨request, hmem, hsame⟩ := List.any_eq_true.mp hany
        exact absurd hsame (List.find?_eq_none.mp hfind request hmem)
      | some request =>
        dsimp only
        rw [if_pos htype]
        exact not_dead_onConnectionRequestResponse _ now

end Revival

section Runs

variable {s : QueuedConnection} {computeHmac : List UInt8 → List UInt8 → List UInt8}
  {computeCrc32 : List UInt8 → UInt32}

/-- No message is left for a connection that is deleted. -/
structure Inv (s : QueuedConnection) : Prop where
  dead : s.DeletedDead
  gone : s.deleted.isSome = true → s.deletes = 0

theorem enabled_deleted {e : Event} (h : s.Enabled e = true) : s.deleted = none := by
  cases e <;> simp_all [Enabled]

theorem Inv.step (h : s.Inv) {e : Event} (hcalm : s.Undisturbed computeHmac computeCrc32 e) :
    (s.step computeHmac computeCrc32 e).Inv := by
  rw [QueuedConnection.step]
  by_cases henabled : s.Enabled e = true
  · rw [if_pos henabled]
    have hpending := Pending.handle h.dead.pending hcalm
    by_cases he : e = .delete
    · subst he
      have hpos : 0 < s.deletes := by
        simp only [Enabled, Bool.and_eq_true, decide_eq_true_eq] at henabled
        exact henabled.2
      refine ⟨⟨hpending, ?_⟩, fun _ => rfl⟩
      intro states hstates
      rw [← Option.some_inj.mp hstates]
      exact h.dead.pending hpos
    · have hlater := later_handle s computeHmac computeCrc32 he
      have hnone := hlater.deleted.trans (enabled_deleted henabled)
      refine ⟨⟨hpending, ?_⟩, ?_⟩
      · rw [hnone]
        exact nofun
      · rw [hnone]
        exact nofun
  · rw [if_neg henabled]
    exact h

theorem undisturbed_of_dead (h : s.Inv) {e : Event}
    (hdead : (s.step computeHmac computeCrc32 e).DeletedDead) :
    s.Undisturbed computeHmac computeCrc32 e := by
  rw [QueuedConnection.step] at hdead
  by_cases henabled : s.Enabled e = true
  · rw [if_pos henabled] at hdead
    cases e with
    | receivedPing now =>
      by_contra hpos
      have hlater := (later_receivedPing s now).deletes
      have halive : ¬ Dead (s.receivedPing now).states :=
        not_dead_of_readable (congrArg Prod.fst (states_receivedPing now))
      have hne : s.deletes ≠ 0 := hpos
      exact halive (hdead.pending (Nat.lt_of_lt_of_le (by omega) hlater))
    | readPacket port data now =>
      refine or_iff_not_imp_left.mpr fun hne hrevived => ?_
      have hlater := (later_onReadPacket s computeHmac computeCrc32 port data now).deletes
      exact not_dead_onReadPacket hrevived now
        (hdead.pending (Nat.lt_of_lt_of_le (by omega) hlater))
    | _ => trivial
  · have hgone : s.deletes = 0 ∨ e = .delete ∨ ∃ now id, e = .ping now id := by
      cases hdeleted : s.deleted with
      | some states => exact .inl (h.gone (by rw [hdeleted]; rfl))
      | none => cases e <;> simp_all [Enabled]
    rcases hgone with hzero | rfl | ⟨now, id, rfl⟩
    · cases e with
      | receivedPing now => exact hzero
      | readPacket port data now => exact .inl hzero
      | _ => trivial
    · trivial
    · trivial

def create (generation : UInt32) (candidate remote : Candidate) : QueuedConnection where
  connection := Connection.create 0 .unknown generation candidate remote

theorem inv_create (generation : UInt32) (candidate remote : Candidate) :
    (create generation candidate remote).Inv :=
  ⟨⟨fun h => absurd h (Nat.lt_irrefl 0), nofun⟩, nofun⟩

theorem deleted_dead_iff (computeHmac : List UInt8 → List UInt8 → List UInt8)
    (computeCrc32 : List UInt8 → UInt32) (generation : UInt32) (candidate remote : Candidate)
    (events : List Event) :
    Runs.Along (fun s e => s.step computeHmac computeCrc32 e)
        (Undisturbed · computeHmac computeCrc32) (create generation candidate remote) events ↔
      ∀ n, ((events.take n).foldl (fun s e => s.step computeHmac computeCrc32 e)
        (create generation candidate remote)).DeletedDead := by
  have hstart := inv_create generation candidate remote
  have hafter := @Runs.along_after_iff _ _ (fun s e => s.step computeHmac computeCrc32 e) _ _
    hstart.dead events
  rw [← hafter]
  apply @Runs.along_iff _ _ _ _ _ Inv
  · intro s e h
    exact ⟨fun hcalm => (h.step hcalm).dead, undisturbed_of_dead h⟩
  · exact fun s e h hcalm => h.step hcalm
  · exact hstart

def exampleRequest : List UInt8 :=
  [0, 1, 0, 8, 0x21, 0x12, 0xA4, 0x42, 1, 2, 3, 4, 5, 6, 7, 8, 9, 10, 11, 12, 0, 6, 0, 2, 97, 98, 0, 0]

/-- A ping has no response for so long that the connection times out, and then a request of the
other side arrives before the message that deletes the connection. -/
def revivalEvents : List Event :=
  [.ping 1 [7], .updateState 20000,
    .readPacket { iceUsernameFragment := [97], password := [] } exampleRequest 20001, .delete]

theorem revived_deleted : (revivalEvents.foldl (fun s e => s.step (fun _ _ => []) (fun _ => 0) e)
    (create 0 {} { username := [98] })).deleted = some (.readable, .writeInit) ∧
      ¬ Dead (.readable, .writeInit) := by
  constructor
  · decide +kernel
  · rintro ⟨h | h, -⟩ <;> cases h

end Runs

end Libjingle.QueuedConnection
