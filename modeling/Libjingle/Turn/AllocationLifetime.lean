import Libjingle.Turn.Effects

/-! The lifetime of an allocation. Its last success response states one, and unless an
Allocate request was retransmitted the one timer that is pending is due then. -/

namespace Libjingle

open StunMessage

namespace TurnServer

section Words

variable {cfg : Settings} {m m' : StunMessage} {type other : UInt16}

theorem wordOf_congr (h : m'.getAttribute type = m.getAttribute type) :
    wordOf m' type = wordOf m type := by
  rw [wordOf, getUInt32, h, wordOf, getUInt32]

theorem getAttribute_of_append {attr : StunAttribute} (hattrs : m'.attrs = m.attrs ++ [attr])
    (h : attr.type ≠ type) : m'.getAttribute type = m.getAttribute type := by
  simp [getAttribute, hattrs, List.find?_append, h]

theorem getAttribute_withAttribute (value : StunAttributeValue) (h : other ≠ type) :
    (withAttribute m other value).getAttribute type = m.getAttribute type := by
  rw [withAttribute, addAttribute]
  split
  · rfl
  · exact getAttribute_of_append rfl h

theorem getAttribute_addSoftware (h : stunAttrSoftware ≠ type) :
    (addSoftware cfg m).getAttribute type = m.getAttribute type := by
  rw [addSoftware]
  split
  · rfl
  · exact getAttribute_withAttribute _ h

theorem getAttribute_addMessageIntegrity (key : List UInt8) (h : stunAttrMessageIntegrity ≠ type) :
    (m.addMessageIntegrity cfg.computeHmac key).1.getAttribute type = m.getAttribute type := by
  have hadded : ((m.addAttribute ⟨stunAttrMessageIntegrity,
      .byteString (List.replicate stunMessageIntegritySize 48)⟩).getD m).getAttribute type =
      m.getAttribute type := getAttribute_withAttribute _ h
  rw [addMessageIntegrity]
  split
  · exact hadded
  · dsimp only
    split
    · exact hadded
    · exact getAttribute_of_append rfl h

theorem cls_withAttribute (value : StunAttributeValue) :
    (withAttribute m type value).cls = m.cls := by
  rw [withAttribute, addAttribute]
  split <;> rfl

theorem cls_initResponse (m : StunMessage) : (initResponse m).cls = .turn := by
  rw [initResponse]
  split <;> rfl

theorem getAttribute_initResponse (m : StunMessage) : (initResponse m).getAttribute type = none := by
  rw [initResponse]
  split <;> rfl

theorem wordOf_lifetime (hcls : m.cls = .turn) (hmissing : m.getAttribute stunAttrLifetime = none)
    (secs : UInt32) :
    wordOf (withAttribute m stunAttrLifetime (.uint32 secs)) stunAttrLifetime = some secs := by
  have hvalid : (StunAttributeValue.uint32 secs).valueType =
      m.cls.getAttributeValueType stunAttrLifetime := by
    rw [hcls]
    rfl
  rw [getAttribute] at hmissing
  simp [withAttribute, addAttribute, hvalid, wordOf, getUInt32, getAttribute, List.find?_append,
    hmissing]

end Words

namespace Request

/-- When the lifetime is over that a success response to the request stated. -/
def promise (r : Request) : Option Nat :=
  r.outputs.findSome? fun
    | .reply msg =>
      if some msg.type = getStunSuccessResponseType r.msg.type then
        (wordOf msg stunAttrLifetime).map fun secs => r.time + secs.toNat * 1000
      else none
    | _ => none

theorem promise_reply {r : Request} {m : StunMessage} (h : r.outputs = [.reply m]) :
    r.promise = if some m.type = getStunSuccessResponseType r.msg.type then
      (wordOf m stunAttrLifetime).map fun secs => r.time + secs.toNat * 1000 else none := by
  simp [promise, h]

end Request

/-- When the allocation's last success response to state a lifetime says it is over. -/
def deadline (s : TurnServer) (id : Nat) : Option Nat :=
  ((s.record.filter (·.allocation = id)).filterMap Request.promise).getLast?

section Promise

variable {cfg : Settings} {s : TurnServer} {a : Allocation} {now id : Nat} {msg : StunMessage}
  {data : List UInt8} {creates : Bool}

theorem deadline_append {r : Request} :
    deadline { s with record := s.record ++ [r] } id =
      if r.allocation = id then (r.promise <|> s.deadline id) else s.deadline id := by
  by_cases hid : r.allocation = id
  · cases hpromise : r.promise with
    | none => simp [deadline, List.filter_append, hid, hpromise]
    | some due => simp [deadline, List.filter_append, hid, hpromise]
  · simp [deadline, List.filter_append, hid]

theorem computeLifetime_le (msg : StunMessage) : Allocation.computeLifetime msg ≤ 600 := by
  rw [Allocation.computeLifetime]
  split
  · exact Nat.min_le_right _ _
  · exact le_rfl

theorem promise_sendResponse {r : Request} {m : StunMessage} {secs : Nat}
    (hreq : isStunRequestType r.msg.type = true) (hm : m.type = (initResponse r.msg).type)
    (hsecs : secs ≤ 600) (hword : wordOf m stunAttrLifetime = some (UInt32.ofNat secs))
    (h : r.outputs = [a.sendResponse cfg m]) : r.promise = some (r.time + secs * 1000) := by
  have htype : some (addSoftware cfg (m.addMessageIntegrity cfg.computeHmac a.key).1).type =
      getStunSuccessResponseType r.msg.type := by
    rw [type_addSoftware, type_addMessageIntegrity, hm]
    exact type_initResponse hreq
  have hsame : (addSoftware cfg (m.addMessageIntegrity cfg.computeHmac a.key).1).getAttribute
      stunAttrLifetime = m.getAttribute stunAttrLifetime := by
    rw [getAttribute_addSoftware (by decide), getAttribute_addMessageIntegrity a.key (by decide)]
  have hsize : (UInt32.ofNat secs).toNat = secs := UInt32.toNat_ofNat_of_lt' (Nat.lt_of_le_of_lt hsecs (by decide))
  rw [Request.promise_reply h, if_pos htype, wordOf_congr hsame, hword, Option.map_some, hsize]

theorem promise_allocate (htype : msg.type = stunAllocateRequest) :
    (requestOf cfg now id a msg data creates).promise =
      some (now + Allocation.computeLifetime msg * 1000) := by
  have hreq : isStunRequestType msg.type = true := by
    rw [htype]
    decide
  have hhandle : a.handleTurnMessage cfg now msg = a.handleAllocateRequest cfg now msg :=
    if_pos htype
  refine @promise_sendResponse cfg a (requestOf cfg now id a msg data creates) _ _ hreq ?_
    (computeLifetime_le msg) ?_ (congrArg Prod.snd hhandle)
  · rw [type_withAttribute, type_withAttribute, type_withAttribute]
    rfl
  · apply wordOf_lifetime
    · rw [cls_withAttribute, cls_withAttribute, cls_initResponse]
    · rw [getAttribute_withAttribute _ (by decide), getAttribute_withAttribute _ (by decide),
        getAttribute_initResponse]

theorem promise_refresh (htype : msg.type = turnRefreshRequest) :
    (requestOf cfg now id a msg data creates).promise =
      some (now + Allocation.computeLifetime msg * 1000) := by
  have hreq : isStunRequestType msg.type = true := by
    rw [htype]
    decide
  have hhandle : a.handleTurnMessage cfg now msg = a.handleRefreshRequest cfg now msg := by
    rw [Allocation.handleTurnMessage, htype]
    rfl
  refine @promise_sendResponse cfg a (requestOf cfg now id a msg data creates) _ _ hreq ?_
    (computeLifetime_le msg) ?_ (congrArg Prod.snd hhandle)
  · rw [type_withAttribute]
    rfl
  · exact wordOf_lifetime (cls_initResponse msg) (getAttribute_initResponse msg) _

theorem promise_error {r : Request} (error : ErrorCode) (hreq : isStunRequestType r.msg.type = true)
    (h : r.outputs = [sendErrorResponse cfg r.msg error]) : r.promise = none := by
  rw [Request.promise_reply h, type_addSoftware, type_initErrorResponse error hreq, if_neg]
  exact (success_ne_error hreq).symm

theorem promise_plain {r : Request} (h : r.outputs = [a.sendResponse cfg (initResponse r.msg)]) :
    r.promise = none := by
  have hmissing : (addSoftware cfg
      ((initResponse r.msg).addMessageIntegrity cfg.computeHmac a.key).1).getAttribute
        stunAttrLifetime = none := by
    rw [getAttribute_addSoftware (by decide), getAttribute_addMessageIntegrity a.key (by decide),
      getAttribute_initResponse]
  rw [Request.promise_reply h, wordOf, getUInt32, hmissing]
  split <;> rfl

theorem timeouts_identity {b : Allocation} (h : b.identity = a.identity) :
    b.timeouts = a.timeouts := by
  simp only [Allocation.identity, Prod.mk.injEq] at h
  exact h.2.2.2.2.2.2

theorem promise_other (hreq : isStunRequestType msg.type = true)
    (hallocate : msg.type ≠ stunAllocateRequest) (hrefresh : msg.type ≠ turnRefreshRequest) :
    (requestOf cfg now id a msg data creates).promise = none ∧
      (a.handleTurnMessage cfg now msg).1.timeouts = a.timeouts := by
  have hsend : msg.type ≠ turnSendIndication := by
    intro htype
    rw [htype] at hreq
    exact absurd hreq (by decide)
  have hcode : a.handleTurnMessage cfg now msg =
      if msg.type = turnCreatePermissionRequest then a.handleCreatePermissionRequest cfg now msg
      else if msg.type = turnChannelBindRequest then a.handleChannelBindRequest cfg now msg
      else (a, []) := by
    rw [Allocation.handleTurnMessage, if_neg hallocate, if_neg hrefresh, if_neg hsend]
  have houtputs : (requestOf cfg now id a msg data creates).outputs =
    (a.handleTurnMessage cfg now msg).2 := rfl
  rw [hcode] at houtputs ⊢
  split at houtputs
  · rename_i hcreate
    rw [if_pos hcreate]
    rw [Allocation.handleCreatePermissionRequest] at houtputs ⊢
    split at houtputs
    · exact ⟨@promise_error cfg _ badRequest hreq houtputs, rfl⟩
    · exact ⟨promise_plain houtputs, timeouts_identity (Allocation.identity_addPermission _)⟩
  · rename_i hcreate
    rw [if_neg hcreate]
    split at houtputs
    · rename_i hbind
      rw [if_pos hbind]
      rw [Allocation.handleChannelBindRequest] at houtputs ⊢
      split at houtputs
      · dsimp only at houtputs ⊢
        split at houtputs
        · rename_i hrange
          rw [if_pos hrange]
          exact ⟨@promise_error cfg _ badRequest hreq houtputs, rfl⟩
        · rename_i hrange
          rw [if_neg hrange]
          split at houtputs
          · rename_i hother
            rw [if_pos hother]
            exact ⟨@promise_error cfg _ badRequest hreq houtputs, rfl⟩
          · rename_i hsame
            rw [if_neg hsame]
            exact ⟨promise_plain houtputs, timeouts_identity
              ((Allocation.identity_addPermission _).trans (Allocation.identity_addChannel _ _))⟩
      · exact ⟨@promise_error cfg _ badRequest hreq houtputs, rfl⟩
    · rename_i hbind
      rw [if_neg hbind]
      exact ⟨by rw [Request.promise, houtputs]; rfl, rfl⟩

end Promise

def Retransmits (cfg : Settings) (s : TurnServer) : Event → Prop
  | .internalPacket _ (some id) data _ => ∃ a msg nonce, s.allocation id = some a ∧
      requestIn data = some msg ∧ checkAuthorization cfg s.now (some a) msg data a.key = .ok nonce ∧
      msg.type = stunAllocateRequest ∧ msg.transactionId = a.transactionId ∧
      bytesOf msg stunAttrUsername = some a.username
  | _ => False

section Timed

variable {cfg : Settings} {s t : TurnServer} {id : Nat} {a : Allocation} {e : Event}

def Timed (s : TurnServer) (id : Nat) (a : Allocation) : Prop :=
  ∃ due, s.deadline id = some due ∧ a.timeouts = [due]

theorem timed_update (h : ∀ entry ∈ s.allocations, s.Timed entry.1 entry.2)
    {f : Allocation → Allocation} (hf : ∀ a, (f a).timeouts = a.timeouts) :
    ∀ entry ∈ (s.update id f).allocations, (s.update id f).Timed entry.1 entry.2 := by
  intro entry hentry
  rcases mem_update hentry with ⟨hmem, -⟩ | ⟨a, hmem, rfl⟩
  · exact h entry hmem
  · obtain ⟨due, hdue, htimeouts⟩ := h _ hmem
    exact ⟨due, hdue, (hf a).trans htimeouts⟩

theorem timed_handled {msg : StunMessage} {data : List UInt8}
    (h : ∀ entry ∈ s.allocations, s.Timed entry.1 entry.2) (ha : s.Timed id a)
    (hreq : isStunRequestType msg.type = true) (htype : msg.type ≠ stunAllocateRequest) :
    ∀ entry ∈ (handled cfg s id a msg data).allocations,
      (handled cfg s id a msg data).Timed entry.1 entry.2 := by
  intro entry hentry
  have hdeadline : ∀ j, (handled cfg s id a msg data).deadline j =
      if id = j then ((requestOf cfg s.now id a msg data false).promise <|> s.deadline j)
      else s.deadline j := fun j => deadline_append
  have hupdate : entry ∈ (s.update id fun _ => (a.handleTurnMessage cfg s.now msg).1).allocations :=
    hentry
  rcases mem_update hupdate with ⟨hmem, hid⟩ | ⟨_, -, rfl⟩
  · obtain ⟨due, hdue, htimeouts⟩ := h entry hmem
    refine ⟨due, ?_, htimeouts⟩
    rw [hdeadline, if_neg fun heq => hid heq.symm, hdue]
  · by_cases hrefresh : msg.type = turnRefreshRequest
    · refine ⟨s.now + Allocation.computeLifetime msg * 1000, ?_, ?_⟩
      · rw [hdeadline, if_pos rfl, promise_refresh hrefresh]
        rfl
      · dsimp only
        rw [Allocation.handleTurnMessage, hrefresh]
        rfl
    · obtain ⟨hpromise, hsame⟩ := @promise_other cfg a s.now id msg data false hreq htype
        hrefresh
      obtain ⟨due, hdue, htimeouts⟩ := ha
      refine ⟨due, ?_, hsame.trans htimeouts⟩
      rw [hdeadline, if_pos rfl, hpromise, hdue]
      rfl

theorem timed_created {msg : StunMessage} {data : List UInt8} (hinv : Inv cfg s)
    (h : ∀ entry ∈ s.allocations, s.Timed entry.1 entry.2) (hnew : a.timeouts = [])
    (htype : msg.type = stunAllocateRequest) :
    ∀ entry ∈ (created cfg s a msg data).allocations,
      (created cfg s a msg data).Timed entry.1 entry.2 := by
  intro entry hentry
  have hdeadline : ∀ j, (created cfg s a msg data).deadline j =
      if s.next = j then ((requestOf cfg s.now s.next a msg data true).promise <|> s.deadline j)
      else s.deadline j := fun j => deadline_append
  rcases List.mem_append.mp hentry with hmem | hmem
  · obtain ⟨due, hdue, htimeouts⟩ := h entry hmem
    refine ⟨due, ?_, htimeouts⟩
    rw [hdeadline, if_neg (hinv.lt_next entry hmem).ne', hdue]
  · rw [List.mem_singleton.mp hmem]
    refine ⟨s.now + Allocation.computeLifetime msg * 1000, ?_, ?_⟩
    · rw [hdeadline, if_pos rfl, promise_allocate htype]
      rfl
    · simp [Allocation.handleAllocateRequest, hnew]

theorem timed_effect (hinv : Inv cfg s) (hC : ¬ s.Retransmits cfg e)
    (h : ∀ entry ∈ s.allocations, s.Timed entry.1 entry.2) (heffect : Effect cfg s e t) :
    ∀ entry ∈ t.allocations, t.Timed entry.1 entry.2 := by
  cases heffect with
  | quiet hallocations hrecord hnext =>
    intro entry hentry
    obtain ⟨due, hdue, htimeouts⟩ := h entry (hallocations ▸ hentry)
    refine ⟨due, ?_, htimeouts⟩
    rw [deadline, hrecord]
    exact hdue
  | noted nonce => exact timed_update h fun _ => rfl
  | @handled conn id data socket a msg nonce ha hreq hauth htype husername =>
    have hother : msg.type ≠ stunAllocateRequest := by
      intro hallocate
      refine hC ⟨a, msg, nonce, ha, hreq, hauth, hallocate, ?_, husername⟩
      exact htype.resolve_left (not_not.mpr hallocate)
    obtain ⟨due, hdue, htimeouts⟩ := h _ (mem_of_allocation ha)
    exact timed_handled h ⟨due, hdue, htimeouts⟩ (isRequest_of_requestIn hreq).request hother
  | created hreq hauth htype => exact timed_created hinv h rfl htype
  | expired ha hdue => exact fun entry hentry => h entry (List.mem_of_mem_filter hentry)
  | permission => exact timed_update h fun _ => rfl
  | channel => exact timed_update h fun _ => rfl

theorem timed_of_reachable (hs : ReachableWhen cfg (fun s e => ¬ s.Retransmits cfg e) s) :
    ∀ entry ∈ s.allocations, s.Timed entry.1 entry.2 := by
  induction hs with
  | initial => exact fun _ hentry => absurd hentry List.not_mem_nil
  | step hs hC hstep ih =>
    have hinv := inv_of_reachable hs.reachable
    exact timed_effect hinv hC ih (hinv.effect hstep)

theorem isSome_update (ha : s.allocation id = some a) (j : Nat) (f : Allocation → Allocation) :
    (s.update j f).allocation id ≠ none := by
  rw [allocation_update, ha]
  split <;> exact Option.some_ne_none _

theorem due_of_gone (ha : s.allocation id = some a) (heffect : Effect cfg s e t)
    (hgone : t.allocation id = none) : ∃ due ∈ a.timeouts, due ≤ s.now := by
  cases heffect with
  | quiet hallocations hrecord hnext =>
    rw [allocation, hallocations] at hgone
    cases ha.symm.trans hgone
  | noted nonce => exact absurd hgone (isSome_update ha _ _)
  | @handled conn j data socket b msg nonce hb hreq hauth htype husername =>
    exact absurd hgone (isSome_update ha j fun _ =>
      (Allocation.handleTurnMessage cfg { b with lastNonce := nonce } s.now msg).1)
  | created hreq hauth htype =>
    obtain ⟨entry, hfind, -⟩ := Option.map_eq_some_iff.mp ha
    have hnone := Option.map_eq_none_iff.mp hgone
    rw [created, List.find?_append, hfind] at hnone
    cases hnone
  | @expired j b hb hdue =>
    by_cases hid : id = j
    · subst hid
      obtain rfl := Option.some.inj (ha.symm.trans hb)
      exact hdue
    · obtain ⟨entry, hfind, -⟩ := Option.map_eq_some_iff.mp ha
      have hentry : entry.1 = id := by simpa using List.find?_some hfind
      have hnone := List.find?_eq_none.mp (Option.map_eq_none_iff.mp hgone) entry
        (List.mem_filter.mpr ⟨List.mem_of_find?_eq_some hfind, by simp [hentry, hid]⟩)
      exact absurd hentry (by simpa using hnone)
  | permission => exact absurd hgone (isSome_update ha _ _)
  | channel => exact absurd hgone (isSome_update ha _ _)

theorem step_expired (ha : s.allocation id = some a) (hdue : ∃ due ∈ a.timeouts, due ≤ s.now) :
    ∃ t, s.step cfg (.allocationTimeout id) = some (t, []) ∧ t.allocation id = none := by
  refine ⟨{ s with allocations := s.allocations.filter (·.1 ≠ id) }, ?_, ?_⟩
  · simp only [TurnServer.step, ha, if_pos hdue]
  · refine Option.map_eq_none_iff.mpr (List.find?_eq_none.mpr fun entry hentry => ?_)
    simpa using (List.mem_filter.mp hentry).2

theorem step_overdue (ha : s.allocation id = some a) (hdue : ∃ due ∈ a.timeouts, due < s.now)
    (he : e.IsPacket) : s.step cfg e = none := by
  have hlate : ¬ s.OnTime := by
    intro hon
    obtain ⟨due, hmem, hlt⟩ := hdue
    exact absurd ((hon _ (mem_of_allocation ha)).1 due hmem) (Nat.not_le.mpr hlt)
  cases e with
  | internalPacket conn found data socket =>
    cases found with
    | none => simp only [TurnServer.step, if_neg hlate]
    | some j =>
      simp only [TurnServer.step]
      split
      · rw [if_neg fun hand => hlate hand.1]
      · rfl
  | externalPacket j data addr transactionId =>
    simp only [TurnServer.step]
    split
    · rw [if_neg hlate]
    · rfl
  | advance time => exact False.elim he
  | allocationTimeout j => exact False.elim he
  | permissionTimeout j peer => exact False.elim he
  | channelTimeout j number => exact False.elim he

end Timed

def plainClient : Connection := ⟨.ofIP (.inet 1) 1000, .udp, 0⟩

def plainAllocate : List UInt8 :=
  signedRequest stunAllocateRequest ⟨stunAttrRequestedTransport, .uint32 0x11000000⟩

def plainRefresh : List UInt8 := signedRequest turnRefreshRequest ⟨stunAttrLifetime, .uint32 100⟩

end TurnServer

end Libjingle
