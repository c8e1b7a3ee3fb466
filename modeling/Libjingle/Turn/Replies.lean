import Libjingle.Turn.Effects

/-! What the server answers. A request gets at most one reply, with its transaction id and
the type of a response to it. -/

namespace Libjingle

open StunMessage

namespace TurnServer

/-- The message in a packet that is not channel data. -/
structure Holds (data : List UInt8) (msg : StunMessage) : Prop where
  long : turnChannelHeaderSize ≤ data.length
  message : isTurnChannelData (getBE16 data 0) = false
  reads : StunMessage.read .turn data = some msg

/-- A success or error response to a request. -/
structure RepliesTo (msg m : StunMessage) : Prop where
  transactionId : m.transactionId = msg.transactionId
  type : some m.type = getStunSuccessResponseType msg.type ∨
    some m.type = getStunErrorResponseType msg.type

def Output.isReply : Output → Bool
  | .reply _ => true
  | _ => false

/-- What was sent is no reply, or one response to the request. -/
def Answered (msg : StunMessage) (outputs : List Output) : Prop :=
  outputs = [] ∨ ∃ m, outputs = [.reply m] ∧ RepliesTo msg m

section Messages

variable {cfg : Settings} {m : StunMessage} {type : UInt16}

@[simp] theorem transactionId_withAttribute (value : StunAttributeValue) :
    (withAttribute m type value).transactionId = m.transactionId := by
  rw [withAttribute, addAttribute]
  split <;> rfl

@[simp] theorem transactionId_addSoftware :
    (addSoftware cfg m).transactionId = m.transactionId := by
  rw [addSoftware]
  split
  · rfl
  · exact transactionId_withAttribute _

@[simp] theorem transactionId_addMessageIntegrity (key : List UInt8) :
    (m.addMessageIntegrity cfg.computeHmac key).1.transactionId = m.transactionId := by
  have hadded : ((m.addAttribute ⟨stunAttrMessageIntegrity,
      .byteString (List.replicate stunMessageIntegritySize 48)⟩).getD m).transactionId =
      m.transactionId := transactionId_withAttribute _
  rw [addMessageIntegrity]
  split
  · exact hadded
  · dsimp only
    split
    · exact hadded
    · exact hadded

theorem transactionId_initResponse (h : isStunRequestType m.type = true) :
    (initResponse m).transactionId = m.transactionId := by
  rw [initResponse, getStunSuccessResponseType, if_pos h]

theorem transactionId_initErrorResponse (error : ErrorCode) (h : isStunRequestType m.type = true) :
    (initErrorResponse m error).transactionId = m.transactionId := by
  rw [initErrorResponse, getStunErrorResponseType, if_pos h]
  exact transactionId_withAttribute _

end Messages

section Replies

variable {cfg : Settings} {s : TurnServer} {a : Allocation} {msg : StunMessage} {now id : Nat}
  {data key : List UInt8} {conn : Connection} {socket : Option SocketAddress}

theorem answered_error (hreq : isStunRequestType msg.type = true) (error : ErrorCode) :
    Answered msg [sendErrorResponse cfg msg error] := by
  refine .inr ⟨_, rfl, ?_, .inr ?_⟩
  · rw [transactionId_addSoftware, transactionId_initErrorResponse error hreq]
  · rw [type_addSoftware, type_initErrorResponse error hreq]

theorem answered_unauthorized (hreq : isStunRequestType msg.type = true) (error : ErrorCode) :
    Answered msg [sendErrorResponseWithRealmAndNonce cfg now msg error] := by
  refine .inr ⟨_, rfl, ?_, .inr ?_⟩
  · rw [transactionId_addSoftware, transactionId_withAttribute, transactionId_withAttribute,
      transactionId_initErrorResponse error hreq]
  · rw [type_addSoftware, type_withAttribute, type_withAttribute,
      type_initErrorResponse error hreq]

theorem answered_response (hreq : isStunRequestType msg.type = true) {m : StunMessage}
    (htype : m.type = (initResponse msg).type)
    (hid : m.transactionId = (initResponse msg).transactionId) :
    Answered msg [a.sendResponse cfg m] := by
  refine .inr ⟨_, rfl, ?_, .inl ?_⟩
  · rw [transactionId_addSoftware, transactionId_addMessageIntegrity, hid,
      transactionId_initResponse hreq]
  · rw [type_addSoftware, type_addMessageIntegrity, htype, type_initResponse hreq]

theorem answered_binding (hreq : isStunRequestType msg.type = true) :
    Answered msg [handleBindingRequest cfg conn msg] := by
  refine .inr ⟨_, rfl, ?_, .inl ?_⟩
  · rw [transactionId_addSoftware, transactionId_withAttribute, transactionId_initResponse hreq]
  · rw [type_addSoftware, type_withAttribute, type_initResponse hreq]

theorem answered_checkAuthorization {found : Option Allocation} {output : Output}
    (hreq : isStunRequestType msg.type = true)
    (h : checkAuthorization cfg now found msg data key = .error output) :
    Answered msg [output] := by
  rw [checkAuthorization] at h
  split at h
  · rw [← Except.error.inj h]
    exact answered_unauthorized hreq _
  · split at h
    · split at h
      · rw [← Except.error.inj h]
        exact answered_unauthorized hreq _
      · split at h
        · rw [← Except.error.inj h]
          exact answered_unauthorized hreq _
        · split at h
          · rw [← Except.error.inj h]
            exact answered_unauthorized hreq _
          · cases h
    · rw [← Except.error.inj h]
      exact answered_error hreq _

theorem answered_handleTurnMessage (hreq : isStunRequestType msg.type = true) :
    Answered msg (a.handleTurnMessage cfg now msg).2 := by
  rw [Allocation.handleTurnMessage]
  split
  · apply answered_response hreq
    · rw [type_withAttribute, type_withAttribute, type_withAttribute]
    · rw [transactionId_withAttribute, transactionId_withAttribute, transactionId_withAttribute]
  · split
    · apply answered_response hreq
      · rw [type_withAttribute]
      · rw [transactionId_withAttribute]
    · split
      · rename_i htype
        rw [htype] at hreq
        exact absurd hreq (by decide)
      · split
        · rw [Allocation.handleCreatePermissionRequest]
          split
          · exact answered_error hreq _
          · exact answered_response hreq rfl rfl
        · split
          · rw [Allocation.handleChannelBindRequest]
            split
            · dsimp only
              split
              · exact answered_error hreq _
              · split
                · exact answered_error hreq _
                · exact answered_response hreq rfl rfl
            · exact answered_error hreq _
          · exact .inl rfl

theorem outputs_dispatch {creates : Bool} :
    (s.dispatch cfg id a msg data creates).2 = (a.handleTurnMessage cfg s.now msg).2 := by
  by_cases hreq : isStunRequestType msg.type = true
  · rw [dispatch_request hreq]
  · rw [dispatch_other (Bool.not_eq_true _ ▸ hreq)]

theorem answered_allocate (hreq : isStunRequestType msg.type = true) :
    Answered msg (s.handleAllocateRequest cfg conn msg data key socket).2 := by
  unfold handleAllocateRequest
  split
  · exact answered_error hreq _
  · split
    · exact answered_error hreq _
    · split
      · exact answered_error hreq _
      · dsimp only
        rw [outputs_dispatch]
        exact answered_handleTurnMessage hreq

theorem answered_handleAuthorized {found : Option (Nat × Allocation)}
    (hreq : isStunRequestType msg.type = true) :
    Answered msg (s.handleAuthorized cfg conn found msg data key socket).2 := by
  unfold handleAuthorized
  split
  · split
    · exact answered_allocate hreq
    · exact answered_error hreq _
  · split
    · split
      · exact answered_error hreq _
      · rw [outputs_dispatch]
        exact answered_handleTurnMessage hreq
    · exact answered_error hreq _

theorem answered_request {found : Option (Nat × Allocation)} (h : Holds data msg)
    (hreq : isStunRequestType msg.type = true) :
    Answered msg (s.onInternalPacket cfg conn found data socket).2 := by
  rw [onInternalPacket.eq_def, if_neg (Nat.not_lt.mpr h.long), if_neg (by simp [h.message]),
    handleStunMessage, h.reads]
  dsimp only
  split
  · exact answered_binding hreq
  · split
    · rename_i output hauth
      exact answered_checkAuthorization hreq hauth
    · split
      · exact answered_handleAuthorized hreq
      · exact answered_handleAuthorized hreq

theorem silent_handleTurnMessage (hreq : isStunRequestType msg.type = false) :
    ∀ output ∈ (a.handleTurnMessage cfg now msg).2, output.isReply = false := by
  have hne : ∀ type, isStunRequestType type = true → msg.type ≠ type := by
    intro type htype heq
    rw [heq, htype] at hreq
    cases hreq
  rw [Allocation.handleTurnMessage, if_neg (hne _ (by decide)), if_neg (hne _ (by decide))]
  intro output houtput
  split at houtput
  · rw [Allocation.handleSendIndication] at houtput
    split at houtput
    · split at houtput
      · rw [List.mem_singleton.mp houtput]
        rfl
      · cases houtput
    · cases houtput
  · rw [if_neg (hne _ (by decide)), if_neg (hne _ (by decide))] at houtput
    cases houtput

theorem silent_channelData : ∀ output ∈ a.handleChannelData data, output.isReply = false := by
  intro output houtput
  rw [Allocation.handleChannelData] at houtput
  split at houtput
  · rw [List.mem_singleton.mp houtput]
    rfl
  · cases houtput

theorem type_ne_of_not_request (hreq : isStunRequestType msg.type = false) :
    msg.type ≠ stunAllocateRequest ∧ msg.type ≠ stunBindingRequestType := by
  constructor
  all_goals
    intro htype
    rw [htype] at hreq
    exact absurd hreq (by decide)

theorem outputs_unsolicited (h : Holds data msg) (hreq : isStunRequestType msg.type = false) :
    (s.onInternalPacket cfg conn none data socket).2 =
      [sendErrorResponse cfg msg allocationMismatch] := by
  obtain ⟨hallocate, hbinding⟩ := type_ne_of_not_request hreq
  rw [onInternalPacket.eq_def, if_neg (Nat.not_lt.mpr h.long), if_neg (by simp [h.message]),
    handleStunMessage, h.reads]
  dsimp only
  rw [if_neg hbinding, if_neg (by simp [hreq]), handleAuthorized, if_neg hallocate]

theorem silent_some (hno : ∀ msg, Holds data msg → isStunRequestType msg.type = false) :
    ∀ output ∈ (s.onInternalPacket cfg conn (some (id, a)) data socket).2,
      output.isReply = false := by
  intro output houtput
  rw [onInternalPacket] at houtput
  split at houtput
  · cases houtput
  · rename_i hlong
    split at houtput
    · exact silent_channelData output houtput
    · rename_i hchannel
      rw [handleStunMessage] at houtput
      split at houtput
      · cases houtput
      · rename_i msg hread
        have hreq := hno msg ⟨Nat.not_lt.mp hlong, Bool.not_eq_true _ ▸ hchannel, hread⟩
        obtain ⟨hallocate, hbinding⟩ := type_ne_of_not_request hreq
        rw [if_neg hbinding] at houtput
        rw [if_neg (by simp [hreq]), handleAuthorized] at houtput
        rw [if_pos (.inl hallocate), if_neg (by simp [hreq]), outputs_dispatch] at houtput
        exact silent_handleTurnMessage hreq output houtput

theorem silent_none (hno : ∀ msg, ¬ Holds data msg) :
    (s.onInternalPacket cfg conn none data socket).2 = [] := by
  rw [onInternalPacket]
  split
  · rfl
  · rename_i hlong
    split
    · rfl
    · rename_i hchannel
      rw [handleStunMessage]
      split
      · rfl
      · rename_i msg hread
        exact absurd ⟨Nat.not_lt.mp hlong, Bool.not_eq_true _ ▸ hchannel, hread⟩ (hno msg)

end Replies

/-- What the answers to a packet should be: at most one, to where the packet came from, and
a response to the request that the packet holds. -/
structure AnswersRequest (s : TurnServer) (conn : Connection) (found : Option Nat)
    (data : List UInt8) (outputs : List Output) : Prop where
  once : (outputs.filter Output.isReply).length ≤ 1
  toSource : ∀ id a, found = some id → s.allocation id = some a → a.conn.src.equal conn.src = true
  request : ∀ m, .reply m ∈ outputs →
    ∃ msg, Holds data msg ∧ isStunRequestType msg.type = true ∧ RepliesTo msg m

/-- A message that is no request, of a client without an allocation. -/
def Unsolicited (found : Option Nat) (data : List UInt8) : Prop :=
  found = none ∧ ∃ msg, Holds data msg ∧ isStunRequestType msg.type = false

section Answers

variable {cfg : Settings} {s t : TurnServer} {conn : Connection} {found : Option Nat}
  {data : List UInt8} {socket : Option SocketAddress} {outputs : List Output} {msg : StunMessage}

theorem Holds.unique {msg' : StunMessage} (h : Holds data msg) (h' : Holds data msg') :
    msg = msg' := Option.some.inj (h.reads.symm.trans h'.reads)

theorem answersRequest_of_answered
    (hsource : ∀ id a, found = some id → s.allocation id = some a →
      a.conn.src.equal conn.src = true)
    (h : Holds data msg) (hreq : isStunRequestType msg.type = true)
    (hanswered : Answered msg outputs) : AnswersRequest s conn found data outputs := by
  rcases hanswered with rfl | ⟨m, rfl, hreplies⟩
  · exact ⟨Nat.zero_le 1, hsource, fun m hm => absurd hm List.not_mem_nil⟩
  · refine ⟨List.length_filter_le _ _, hsource, fun m' hm' => ?_⟩
    obtain rfl := Output.reply.inj (List.mem_singleton.mp hm')
    exact ⟨msg, h, hreq, hreplies⟩

theorem answersRequest_of_silent
    (hsource : ∀ id a, found = some id → s.allocation id = some a →
      a.conn.src.equal conn.src = true)
    (h : ∀ output ∈ outputs, output.isReply = false) :
    AnswersRequest s conn found data outputs := by
  have hnone : outputs.filter Output.isReply = [] := by
    refine List.filter_eq_nil_iff.mpr fun output houtput => ?_
    rw [h output houtput]
    exact Bool.false_ne_true
  refine ⟨by rw [hnone]; exact Nat.zero_le 1, hsource, fun m hm => ?_⟩
  have hreply : true = false := h _ hm
  cases hreply

theorem step_internal (hstep : s.step cfg (.internalPacket conn found data socket) =
      some (t, outputs)) :
    (∀ id a, found = some id → s.allocation id = some a → a.conn.src.equal conn.src = true) ∧
      ∃ entry, entry.map Prod.fst = found ∧
        s.onInternalPacket cfg conn entry data socket = (t, outputs) := by
  cases found with
  | none =>
    simp only [TurnServer.step] at hstep
    split at hstep
    · exact ⟨fun _ _ hfound => (by cases hfound), none, rfl, Option.some.inj hstep⟩
    · cases hstep
  | some id =>
    simp only [TurnServer.step] at hstep
    split at hstep
    · rename_i a ha
      split at hstep
      · rename_i hcond
        refine ⟨?_, some (id, a), rfl, Option.some.inj hstep⟩
        rintro _ b ⟨⟩ hb
        obtain rfl := Option.some.inj (ha.symm.trans hb)
        have hequal := hcond.2
        simp only [Connection.equal, Bool.and_eq_true] at hequal
        exact hequal.1.1
      · cases hstep
    · cases hstep

/-- Every packet is answered as it should be, except messages that are no requests from
clients without an allocation. -/
theorem replies_to_requests (cfg : Settings)
    (hstep : s.step cfg (.internalPacket conn found data socket) = some (t, outputs)) :
    AnswersRequest s conn found data outputs ↔ ¬ Unsolicited found data := by
  obtain ⟨hsource, entry, hfound, hresult⟩ := step_internal hstep
  have houtputs : (s.onInternalPacket cfg conn entry data socket).2 = outputs := by
    rw [hresult]
  constructor
  · rintro h ⟨hnone, msg, hmsg, hreq⟩
    have hentry : entry = none := Option.map_eq_none_iff.mp (hfound.trans hnone)
    subst hentry
    rw [outputs_unsolicited hmsg hreq] at houtputs
    have hreply : Output.reply (addSoftware cfg (initErrorResponse msg allocationMismatch)) ∈
        outputs := by
      rw [← houtputs]
      exact List.mem_cons_self
    obtain ⟨msg', hmsg', hreq', -⟩ := h.request _ hreply
    rw [hmsg.unique hmsg', hreq'] at hreq
    cases hreq
  · intro h
    by_cases hholds : ∃ msg, Holds data msg
    · obtain ⟨msg, hmsg⟩ := hholds
      by_cases hreq : isStunRequestType msg.type = true
      · exact answersRequest_of_answered hsource hmsg hreq (houtputs ▸ answered_request hmsg hreq)
      · have hother : isStunRequestType msg.type = false := Bool.not_eq_true _ ▸ hreq
        cases hentry : entry with
        | none =>
          rw [hentry] at hfound
          exact absurd ⟨hfound.symm, msg, hmsg, hother⟩ h
        | some entry =>
          rw [hentry] at houtputs
          refine answersRequest_of_silent hsource (houtputs ▸ silent_some fun m hm => ?_)
          rw [← hmsg.unique hm]
          exact hother
    · have hno : ∀ msg, ¬ Holds data msg := fun msg hmsg => hholds ⟨msg, hmsg⟩
      cases hentry : entry with
      | none =>
        rw [hentry, silent_none hno] at houtputs
        exact answersRequest_of_silent hsource (by rw [← houtputs]; exact nofun)
      | some entry =>
        rw [hentry] at houtputs
        exact answersRequest_of_silent hsource
          (houtputs ▸ silent_some fun m hm => absurd hm (hno m))

end Answers

def plainBinding : List UInt8 :=
  ({ StunMessage.new .turn with
    type := stunBindingRequestType, transactionId := List.replicate 12 7 } : StunMessage).write.getD []

set_option maxRecDepth 20000 in
theorem replies_to_requests_binding :
    let conn : Connection := ⟨.ofIP (.inet 1) 1000, .udp, 0⟩
    ∃ t outputs, TurnServer.step plainSettings {} (.internalPacket conn none plainBinding none) =
        some (t, outputs) ∧ outputs.length = 1 ∧
      AnswersRequest {} conn none plainBinding outputs := by
  intro conn
  have hlength : (TurnServer.step plainSettings {} (.internalPacket conn none plainBinding none)).map
      (fun result => result.2.length) = some 1 := by
    decide +kernel
  obtain ⟨⟨t, outputs⟩, hstep, hone⟩ := Option.map_eq_some_iff.mp hlength
  have htype : (StunMessage.read .turn plainBinding).map StunMessage.type =
      some stunBindingRequestType := by
    decide +kernel
  refine ⟨t, outputs, hstep, hone, (replies_to_requests plainSettings hstep).mpr ?_⟩
  rintro ⟨-, msg, hmsg, hreq⟩
  rw [hmsg.reads, Option.map_some, Option.some_inj] at htype
  rw [htype] at hreq
  exact absurd hreq (by decide)

def plainIndication : List UInt8 :=
  ({ StunMessage.new .turn with
    type := turnSendIndication, transactionId := List.replicate 12 8 } : StunMessage).write.getD []

set_option maxRecDepth 20000 in
/-- A Send indication of a client without an allocation is answered, by a message of type 0
whose transaction id was never set. -/
theorem indication_answered :
    let conn : Connection := ⟨.ofIP (.inet 1) 1000, .udp, 0⟩
    (StunMessage.read .turn plainIndication).map (fun msg => (msg.type, msg.transactionId)) =
        some (turnSendIndication, List.replicate 12 8) ∧
      ∃ m, TurnServer.step plainSettings {} (.internalPacket conn none plainIndication none) =
          some ({}, [.reply m]) ∧ m.type = 0 ∧ m.transactionId = List.replicate 16 48 :=
  ⟨by decide +kernel, StunMessage.new .turn, by decide +kernel, by decide +kernel,
    by decide +kernel⟩

end TurnServer

end Libjingle
