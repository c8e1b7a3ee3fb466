import Libjingle.P2p.SessionPair

/-! What the two sessions of a call know of each other in every run. -/

namespace Libjingle

open Session

namespace SessionPair

theorem agrees_of_heard {s : SessionPair} (hready : Ready s.caller) (e : PairEvent)
    (h : s.Heard e) : s.Agrees e := by
  cases e with
  | caller _ | callee _ | deliverToCallee | acknowledge => trivial
  | deliverToCaller =>
    intro msg rest state hqueue hasks
    have hheard := h msg rest hqueue
    have hstep : ∀ type, msg.heardAs = some type → s.caller.mapped = true →
        (s.step .deliverToCaller).caller.session.state =
          (finish (s.caller.session.onIncomingMessage { msg with type := type })).1.state := by
      intro type htype hmapped
      have hparse : msg.parse = some { msg with type := type } := by
        rw [SessionMessage.parse_eq, htype, Option.map_some]
      have hreceive : receive (some s.caller) (.message msg) =
          onIncomingMessage (some s.caller) { msg with type := type } := by
        rw [receive, hparse]
      rw [step, hqueue]
      dsimp only [callerSends]
      rw [hreceive, onIncomingMessage]
      dsimp only
      rw [if_pos hmapped, SessionManager.perform_message hmapped]
      rfl
    have hterminate : s.caller.mapped = true → msg.heardAs = some .sessionTerminate →
        (s.step .deliverToCaller).caller.session.state = terminateState msg.reason :=
      fun hmapped htype => (hstep _ htype hmapped).trans handled_onTerminateMessage.state
    rw [SessionMessage.asksFor] at hasks
    cases htype : msg.type with
    | sessionAccept =>
      rw [htype] at hheard hasks
      obtain ⟨hmapped, hcheck, hreadable⟩ := hheard
      rw [hstep _ (SessionMessage.heardAs_eq_accept.mpr htype) hmapped, ← Option.some.inj hasks]
      obtain ⟨after, hhandled, hafter⟩ :=
        handled_onIncomingMessage hready.rest { msg with type := .sessionAccept }
      rw [hhandled.state, hafter]
      exact if_pos ⟨hcheck, hreadable⟩
    | sessionReject =>
      rw [htype] at hheard hasks
      obtain ⟨hmapped, hprotocol⟩ := hheard
      rw [hterminate hmapped (SessionMessage.heardAs_eq_terminate.mpr (.inr ⟨htype, hprotocol⟩)),
        terminateState]
      dsimp only at hasks
      split at hasks
      · rename_i hbusy
        rw [if_pos hbusy]
        exact Option.some.inj hasks
      · rename_i hbusy
        rw [if_neg hbusy]
        exact Option.some.inj hasks
    | sessionTerminate =>
      rw [htype] at hheard hasks
      rw [hterminate hheard (SessionMessage.heardAs_eq_terminate.mpr (.inl htype))]
      exact Option.some.inj hasks
    | sessionInitiate | sessionInfo | transportInfo | transportAccept | descriptionInfo =>
      rw [htype] at hasks
      cases hasks

structure Asks (caller : State) (callee : Option State) (toCallee : List Output)
    (callerEnd : Bool) : Prop where
  unanswering : caller ≠ .receivedInitiate ∧ caller ≠ .receivedModify
  sent : ∀ o ∈ toCallee, isAccept o = false ∧ isReject o = false ∧ isAck o = false
  order : toCallee.Pairwise fun o o' => isEnd o = true ∨ isInitiate o = true → isInitiate o' = false
  unasked : caller = .init → callee = none ∧ callerEnd = false ∧
    ∀ o ∈ toCallee, isEnd o = false ∧ isInitiate o = false
  asked : callee.isSome = true ∨ callerEnd = true → ∀ o ∈ toCallee, isInitiate o = false
  ended : callerEnd = true → ∀ state, callee = some state → state.Ended

/-- A callee that has not answered. -/
def Fresh (callee : Option State) : Prop :=
  ∀ state, callee = some state → state = .init ∨ state = .receivedInitiate

structure Replies (caller : State) (callee : Option State) (toCaller : List Output)
    (calleeEnd : Bool) : Prop where
  unmodified : callee ≠ some .receivedModify
  sent : ∀ o ∈ toCaller, isInitiate o = false
  order : toCaller.Pairwise fun o o' => isEnd o = true → isAccept o' = false
  fresh : Fresh callee → calleeEnd = false ∧ ¬ caller.Accepted ∧
    ∀ o ∈ toCaller, isAccept o = false ∧ isEnd o = false
  rejected : ∀ o ∈ toCaller, isReject o = true →
    ¬ caller.Accepted ∧ ∀ o ∈ toCaller, isAccept o = false
  ended : calleeEnd = true → ¬ caller.Accepted ∧ ∀ o ∈ toCaller, isAccept o = false

variable {a b : State} {x y : Option State} {queue : List Output} {past : Bool}
  {outputs : List Output}

theorem pairwise_append {p : Output → Prop} {q : Output → Bool}
    (h : queue.Pairwise fun o o' => p o → q o' = false) (houtputs : ∀ o ∈ outputs, q o = false) :
    (queue ++ outputs).Pairwise fun o o' => p o → q o' = false := by
  refine List.pairwise_append.mpr ⟨h, ?_, fun _ _ o ho _ => houtputs o ho⟩
  exact List.pairwise_of_forall_mem_list fun _ _ o ho _ => houtputs o ho

theorem not_isReject {o : Output} (h : isEnd o = false) : isReject o = false := by
  by_contra hreject
  have hend := isEnd_of_isReject ((Bool.not_eq_false _).mp hreject)
  exact absurd (hend.symm.trans h) (by decide)

theorem Asks.caller_sends (h : Asks a x queue past)
    (hb : b = a ∧ (∀ o ∈ outputs, isEnd o = false) ∨
      b ≠ .init ∧ b ≠ .receivedInitiate ∧ b ≠ .receivedModify)
    (houtputs : ∀ o ∈ outputs,
      isInitiate o = false ∧ isAccept o = false ∧ isReject o = false ∧ isAck o = false) :
    Asks b x (queue ++ outputs) past where
  unanswering := by
    rcases hb with ⟨rfl, -⟩ | ⟨-, hb⟩
    · exact h.unanswering
    · exact hb
  sent o ho := by
    rcases List.mem_append.mp ho with ho | ho
    · exact h.sent o ho
    · exact (houtputs o ho).2
  order := pairwise_append h.order fun o ho => (houtputs o ho).1
  unasked hinit := by
    rcases hb with ⟨rfl, hends⟩ | ⟨hb, -⟩
    · obtain ⟨hcallee, hover, hqueue⟩ := h.unasked hinit
      refine ⟨hcallee, hover, fun o ho => ?_⟩
      rcases List.mem_append.mp ho with ho | ho
      · exact hqueue o ho
      · exact ⟨hends o ho, (houtputs o ho).1⟩
    · exact absurd hinit hb
  asked hasked o ho := by
    rcases List.mem_append.mp ho with ho | ho
    · exact h.asked hasked o ho
    · exact (houtputs o ho).1
  ended := h.ended

theorem Asks.caller_quiet (h : Asks a x queue past)
    (hb : b = a ∨ b ≠ .init ∧ b ≠ .receivedInitiate ∧ b ≠ .receivedModify)
    (houtputs : ∀ o ∈ outputs, Quiet o) : Asks b x (queue ++ outputs) past := by
  refine h.caller_sends (hb.imp_left fun h => ⟨h, fun o ho => not_isEnd (houtputs o ho)⟩) ?_
  intro o ho
  have hquiet := houtputs o ho
  exact ⟨not_isInitiate hquiet, not_isAccept hquiet, not_isReject (not_isEnd hquiet),
    not_isAck hquiet⟩

theorem Asks.caller_initiates (h : Asks .init x queue past) {msg : SessionMessage}
    (htype : msg.type = .sessionInitiate) :
    Asks .sentInitiate x (queue ++ [.message msg]) past := by
  obtain ⟨hcallee, hover, hqueue⟩ := h.unasked rfl
  have hmessage : isAccept (.message msg) = false ∧ isReject (.message msg) = false ∧
      isAck (.message msg) = false := by
    rw [isAccept, isReject, htype]
    exact ⟨rfl, rfl, rfl⟩
  refine ⟨⟨nofun, nofun⟩, fun o ho => ?_, ?_, nofun, fun hasked => ?_, fun hended => ?_⟩
  · rcases List.mem_append.mp ho with ho | ho
    · exact h.sent o ho
    · rw [List.mem_singleton.mp ho]
      exact hmessage
  · refine List.pairwise_append.mpr ⟨h.order, List.pairwise_singleton _ _, ?_⟩
    intro o ho _ _ hfirst
    obtain ⟨hend, hinitiate⟩ := hqueue o ho
    rw [hend, hinitiate] at hfirst
    exact absurd hfirst (by decide)
  · rw [hcallee, hover] at hasked
    exact absurd hasked (by decide)
  · exact absurd (hover.symm.trans hended) (by decide)

theorem Asks.caller_local {p : Prop} (h : Asks a x queue past) (hchange : Change p a b outputs) :
    Asks b x (queue ++ outputs) past := by
  cases hchange with
  | quiet _ _ houtputs => exact h.caller_quiet (.inl rfl) houtputs
  | initiates msg htype => exact h.caller_initiates htype
  | accepts => exact absurd rfl h.unanswering.1
  | rejects _ _ _ _ hbefore => exact absurd hbefore (not_or.mpr h.unanswering)
  | terminates _ msg htype =>
    refine h.caller_sends (.inr ⟨nofun, nofun, nofun⟩) fun o ho => ?_
    rw [List.mem_singleton.mp ho, isInitiate, isAccept, isReject, htype]
    exact ⟨rfl, rfl, rfl, rfl⟩
  | progresses => exact h.caller_quiet (.inr ⟨nofun, nofun, nofun⟩) fun _ ho => absurd ho List.not_mem_nil

theorem Asks.caller_received {o : Output} (h : Asks a x queue past) (hheeds : Heeds o a b)
    (houtputs : ∀ o ∈ outputs, Quiet o) : Asks b x (queue ++ outputs) past := by
  refine h.caller_quiet ?_ houtputs
  cases hheeds with
  | same => exact .inl rfl
  | accept | ack => exact .inr (by decide)
  | terminate reason =>
    rw [terminateState]
    split <;> exact .inr (by decide)

theorem Asks.callee {state state' : State} (h : Asks a (some state) queue past)
    (hended : state.Ended → state'.Ended) : Asks a (some state') queue past where
  unanswering := h.unanswering
  sent := h.sent
  order := h.order
  unasked hinit := absurd (h.unasked hinit).1 nofun
  asked _ := h.asked (.inl rfl)
  ended hover _ hstate := Option.some.inj hstate ▸ hended (h.ended hover state rfl)

theorem change_ended {p : Prop} (h : Change p a b outputs) (hended : a.Ended) : b.Ended := by
  cases h with
  | quiet => exact hended
  | initiates | accepts => exact absurd hended id
  | rejects _ _ _ _ hbefore => rcases hbefore with rfl | rfl <;> exact absurd hended id
  | terminates _ _ _ hbefore => exact absurd hended hbefore
  | progresses _ hbefore => rcases hbefore with rfl | rfl <;> exact absurd hended id

theorem Heeds.ended {o : Output} (h : Heeds o a b) (hended : a.Ended) (haccept : isAccept o = false)
    (hack : isAck o = false) : b.Ended := by
  cases h with
  | same => exact hended
  | accept h => exact absurd (h.symm.trans haccept) (by decide)
  | terminate reason =>
    rw [terminateState]
    split <;> exact trivial
  | ack h => exact absurd (h.symm.trans hack) (by decide)

theorem Heeds.ended_of_isEnd {o : Output} (h : Heeds o a b) (hend : isEnd o = true)
    (hreject : isReject o = false) : b.Ended := by
  cases h with
  | same h => exact h hend (by rw [hreject]; exact Bool.false_ne_true)
  | accept haccept =>
    cases o with
    | message msg =>
      rw [isAccept] at haccept
      rw [isEnd, of_decide_eq_true haccept] at hend
      cases hend
    | result | error => cases hend
  | terminate reason =>
    rw [terminateState]
    split <;> exact trivial
  | ack hack =>
    cases o with
    | result msg => cases hend
    | message | error => cases hack

theorem Asks.received {state state' : State} {o : Output}
    (h : Asks a (some state) (o :: queue) past) (hheeds : Heeds o state state') :
    Asks a (some state') queue (past || isEnd o) := by
  obtain ⟨haccept, hreject, hack⟩ := h.sent o List.mem_cons_self
  refine ⟨h.unanswering, fun o ho => h.sent o (List.mem_cons_of_mem _ ho), h.order.tail, fun hinit => ?_,
    fun _ o ho => h.asked (.inl rfl) o (List.mem_cons_of_mem _ ho), fun hover _ hstate => ?_⟩
  · exact absurd (h.unasked hinit).1 nofun
  · rw [← Option.some.inj hstate]
    rcases Bool.or_eq_true_iff.mp hover with hover | hend
    · exact hheeds.ended (h.ended hover state rfl) haccept hack
    · exact hheeds.ended_of_isEnd hend hreject

theorem Asks.lost {o : Output} (h : Asks a none (o :: queue) past) :
    Asks a none queue (past || isEnd o) := by
  refine ⟨h.unanswering, fun o ho => h.sent o (List.mem_cons_of_mem _ ho), h.order.tail,
    fun hinit => ?_, fun hasked o' ho' => ?_, fun _ _ hstate => (nomatch hstate)⟩
  · obtain ⟨-, hover, hqueue⟩ := h.unasked hinit
    refine ⟨rfl, ?_, fun o ho => hqueue o (List.mem_cons_of_mem _ ho)⟩
    rw [hover, (hqueue o List.mem_cons_self).1, Bool.or_false]
  · rcases hasked with hasked | hasked
    · cases hasked
    · rcases Bool.or_eq_true_iff.mp hasked with hover | hend
      · exact h.asked (.inr hover) o' (List.mem_cons_of_mem _ ho')
      · exact List.rel_of_pairwise_cons h.order ho' (.inl hend)

theorem Asks.initiated {state : State} {o : Output} (h : Asks a none (o :: queue) past)
    (ho : isInitiate o = true) : Asks a (some state) queue (past || isEnd o) := by
  have hover : past = false := by
    by_contra hover
    have hnone := h.asked (.inr ((Bool.not_eq_false _).mp hover)) o List.mem_cons_self
    exact absurd (ho.symm.trans hnone) (by decide)
  have hend : isEnd o = false := by
    cases o with
    | message msg =>
      rw [isInitiate] at ho
      rw [isEnd, of_decide_eq_true ho]
      rfl
    | result | error => rfl
  rw [hover, hend]
  refine ⟨h.unanswering, fun o ho => h.sent o (List.mem_cons_of_mem _ ho), h.order.tail,
    fun hinit => ?_, fun _ o' ho' => List.rel_of_pairwise_cons h.order ho' (.inr ho), nofun⟩
  obtain ⟨-, -, hqueue⟩ := h.unasked hinit
  exact absurd (ho.symm.trans (hqueue o List.mem_cons_self).2) (by decide)

theorem Replies.caller (h : Replies a x queue past) (hb : b.Accepted → a.Accepted) :
    Replies b x queue past where
  unmodified := h.unmodified
  sent := h.sent
  order := h.order
  fresh hfresh := (h.fresh hfresh).imp_right (And.imp_left (mt hb))
  rejected o ho hreject := (h.rejected o ho hreject).imp_left (mt hb)
  ended hover := (h.ended hover).imp_left (mt hb)

theorem Replies.caller_local {p : Prop} (h : Replies a x queue past)
    (hcaller : a ≠ .receivedInitiate) (hchange : Change p a b outputs) :
    Replies b x queue past := by
  refine h.caller fun hb => ?_
  cases hchange with
  | quiet => exact hb
  | initiates | terminates => exact absurd hb id
  | accepts => exact absurd rfl hcaller
  | rejects _ _ _ _ _ hafter => rcases hafter with rfl | rfl <;> exact absurd hb id
  | progresses _ hbefore => rcases hbefore with rfl | rfl <;> exact trivial

theorem Replies.callee_sends (h : Replies a x queue past) (hy : y ≠ some .receivedModify)
    (hfresh : Fresh y → Fresh x) (houtputs : ∀ o ∈ outputs, Quiet o) :
    Replies a y (queue ++ outputs) past where
  unmodified := hy
  sent o ho := by
    rcases List.mem_append.mp ho with ho | ho
    · exact h.sent o ho
    · exact not_isInitiate (houtputs o ho)
  order := pairwise_append h.order fun o ho => not_isAccept (houtputs o ho)
  fresh hy := by
    obtain ⟨hover, ha, hqueue⟩ := h.fresh (hfresh hy)
    refine ⟨hover, ha, fun o ho => ?_⟩
    rcases List.mem_append.mp ho with ho | ho
    · exact hqueue o ho
    · exact ⟨not_isAccept (houtputs o ho), not_isEnd (houtputs o ho)⟩
  rejected o ho hreject := by
    rcases List.mem_append.mp ho with ho | ho
    · obtain ⟨ha, hqueue⟩ := h.rejected o ho hreject
      refine ⟨ha, fun o' ho' => ?_⟩
      rcases List.mem_append.mp ho' with ho' | ho'
      · exact hqueue o' ho'
      · exact not_isAccept (houtputs o' ho')
    · exact absurd (hreject.symm.trans (not_isReject (not_isEnd (houtputs o ho)))) (by decide)
  ended hover := by
    obtain ⟨ha, hqueue⟩ := h.ended hover
    refine ⟨ha, fun o ho => ?_⟩
    rcases List.mem_append.mp ho with ho | ho
    · exact hqueue o ho
    · exact not_isAccept (houtputs o ho)

theorem not_fresh {state : State} (hinit : state ≠ .init) (hreceived : state ≠ .receivedInitiate) :
    ¬ Fresh (some state) := fun h => (h state rfl).elim hinit hreceived

theorem Heeds.fresh {o : Output} (h : Heeds o a b) (ha : a ≠ .receivedModify) :
    b ≠ .receivedModify ∧ (Fresh (some b) → Fresh (some a)) := by
  cases h with
  | same => exact ⟨ha, id⟩
  | accept | ack => exact ⟨by decide, fun h => absurd h (not_fresh (by decide) (by decide))⟩
  | terminate reason =>
    rw [terminateState]
    split <;> exact ⟨by decide, fun h => absurd h (not_fresh (by decide) (by decide))⟩

theorem Replies.callee_accepts (h : Replies a (some .receivedInitiate) queue past)
    {msg : SessionMessage} (htype : msg.type = .sessionAccept) :
    Replies a (some .sentAccept) (queue ++ [.message msg]) past := by
  obtain ⟨hover, ha, hqueue⟩ := h.fresh fun state hstate => .inr (Option.some.inj hstate).symm
  refine ⟨nofun, fun o ho => ?_, ?_, fun hfresh => absurd hfresh (not_fresh nofun nofun),
    fun o ho hreject => ?_, fun hended => absurd (hover.symm.trans hended) (by decide)⟩
  · rcases List.mem_append.mp ho with ho | ho
    · exact h.sent o ho
    · rw [List.mem_singleton.mp ho, isInitiate, htype]
      rfl
  · refine List.pairwise_append.mpr ⟨h.order, List.pairwise_singleton _ _, ?_⟩
    intro o ho _ _ hend
    exact absurd (hend.symm.trans (hqueue o ho).2) (by decide)
  · rcases List.mem_append.mp ho with ho | ho
    · exact absurd (hreject.symm.trans (not_isReject (hqueue o ho).2)) (by decide)
    · rw [List.mem_singleton.mp ho, isReject, htype] at hreject
      cases hreject

theorem Replies.callee_rejects (h : Replies a (some .receivedInitiate) queue past)
    {msg : SessionMessage} (htype : msg.type = .sessionReject) {state : State}
    (hstate : state = .sentBusy ∨ state = .sentReject) :
    Replies a (some state) (queue ++ [.message msg]) past := by
  obtain ⟨hover, ha, hqueue⟩ := h.fresh fun state hstate => .inr (Option.some.inj hstate).symm
  have haccept : isAccept (.message msg) = false := by
    rw [isAccept, htype]
    rfl
  have hnone : ∀ o ∈ queue ++ [.message msg], isAccept o = false := by
    intro o ho
    rcases List.mem_append.mp ho with ho | ho
    · exact (hqueue o ho).1
    · rw [List.mem_singleton.mp ho]
      exact haccept
  have hnew : state ≠ .receivedModify ∧ ¬ Fresh (some state) := by
    rcases hstate with rfl | rfl <;> exact ⟨nofun, not_fresh nofun nofun⟩
  refine ⟨fun h => hnew.1 (Option.some.inj h), fun o ho => ?_, ?_, fun hfresh => absurd hfresh hnew.2,
    fun _ _ _ => ⟨ha, hnone⟩, fun hended => absurd (hover.symm.trans hended) (by decide)⟩
  · rcases List.mem_append.mp ho with ho | ho
    · exact h.sent o ho
    · rw [List.mem_singleton.mp ho, isInitiate, htype]
      rfl
  · refine pairwise_append h.order fun o ho => ?_
    rw [List.mem_singleton.mp ho]
    exact haccept

theorem Replies.callee_terminates (h : Replies a x queue past) {msg : SessionMessage}
    (htype : msg.type = .sessionTerminate) :
    Replies a (some .sentTerminate) (queue ++ [.message msg]) past := by
  have hmessage : isInitiate (.message msg) = false ∧ isAccept (.message msg) = false ∧
      isReject (.message msg) = false := by
    rw [isInitiate, isAccept, isReject, htype]
    exact ⟨rfl, rfl, rfl⟩
  have hnone : (∀ o ∈ queue, isAccept o = false) →
      ∀ o ∈ queue ++ [.message msg], isAccept o = false := by
    intro hqueue o ho
    rcases List.mem_append.mp ho with ho | ho
    · exact hqueue o ho
    · rw [List.mem_singleton.mp ho]
      exact hmessage.2.1
  refine ⟨nofun, fun o ho => ?_, ?_, fun hfresh => absurd hfresh (not_fresh nofun nofun),
    fun o ho hreject => ?_, fun hended => (h.ended hended).imp_right hnone⟩
  · rcases List.mem_append.mp ho with ho | ho
    · exact h.sent o ho
    · rw [List.mem_singleton.mp ho]
      exact hmessage.1
  · refine pairwise_append h.order fun o ho => ?_
    rw [List.mem_singleton.mp ho]
    exact hmessage.2.1
  · rcases List.mem_append.mp ho with ho | ho
    · exact (h.rejected o ho hreject).imp_right hnone
    · rw [List.mem_singleton.mp ho] at hreject
      exact absurd (hreject.symm.trans hmessage.2.2) (by decide)

theorem Replies.callee_local {p : Prop} (hp : ¬ p) (h : Replies a (some b) queue past) {c : State}
    (hchange : Change p b c outputs) :
    Replies a (some c) (queue ++ outputs) past := by
  have hmodify : b ≠ .receivedModify := fun hb => h.unmodified (congrArg some hb)
  cases hchange with
  | quiet _ _ houtputs => exact h.callee_sends h.unmodified id houtputs
  | initiates _ _ hinitiating => exact absurd hinitiating hp
  | accepts msg htype => exact h.callee_accepts htype
  | rejects _ _ msg htype hbefore hafter =>
    obtain rfl := hbefore.resolve_right hmodify
    exact h.callee_rejects htype hafter
  | terminates _ msg htype => exact h.callee_terminates htype
  | progresses =>
    exact h.callee_sends nofun (fun hfresh => absurd hfresh (not_fresh nofun nofun))
      fun _ ho => absurd ho List.not_mem_nil

theorem Replies.received {o : Output} (h : Replies a x (o :: queue) past) (hheeds : Heeds o a b) :
    Replies b x queue (past || isEnd o) := by
  have hrest : ∀ o' ∈ queue, o' ∈ o :: queue := fun _ => List.mem_cons_of_mem _
  -- an accept is all that makes the caller accepted
  have haccepted : isAccept o = false → b.Accepted → a.Accepted := by
    intro haccept hb
    cases hheeds with
    | same => exact hb
    | accept h => exact absurd (h.symm.trans haccept) (by decide)
    | terminate reason =>
      rw [terminateState] at hb
      split at hb <;> exact absurd hb id
    | ack => exact absurd hb id
  refine ⟨h.unmodified, fun o' ho' => h.sent o' (hrest o' ho'), h.order.tail, fun hfresh => ?_,
    fun o' ho' hreject => ?_, fun hover => ?_⟩
  · obtain ⟨hover, ha, hqueue⟩ := h.fresh hfresh
    obtain ⟨haccept, hend⟩ := hqueue o List.mem_cons_self
    rw [hover, hend]
    exact ⟨rfl, mt (haccepted haccept) ha, fun o' ho' => hqueue o' (hrest o' ho')⟩
  · obtain ⟨ha, hqueue⟩ := h.rejected o' (hrest o' ho') hreject
    exact ⟨mt (haccepted (hqueue o List.mem_cons_self)) ha, fun o' ho' => hqueue o' (hrest o' ho')⟩
  · rcases Bool.or_eq_true_iff.mp hover with hover | hend
    · obtain ⟨ha, hqueue⟩ := h.ended hover
      exact ⟨mt (haccepted (hqueue o List.mem_cons_self)) ha, fun o' ho' => hqueue o' (hrest o' ho')⟩
    · refine ⟨?_, fun o' ho' => List.rel_of_pairwise_cons h.order ho' hend⟩
      cases hreject : isReject o with
      | true =>
        obtain ⟨ha, hqueue⟩ := h.rejected o List.mem_cons_self hreject
        exact mt (haccepted (hqueue o List.mem_cons_self)) ha
      | false =>
        have hended := hheeds.ended_of_isEnd hend hreject
        cases b <;> first | exact id | exact absurd hended id

def calleeState (s : SessionPair) : Option State := s.callee.map (·.session.state)

structure Inv (s : SessionPair) : Prop where
  caller : Ready s.caller
  callee : ∀ callee, s.callee = some callee → Ready callee
  asks : Asks s.caller.session.state s.calleeState s.toCallee s.callerEnd
  replies : Replies s.caller.session.state s.calleeState s.toCaller s.calleeEnd

theorem Inv.inStep {s : SessionPair} (h : s.Inv) : s.InStep := by
  refine ⟨fun hover hprogress => ?_, fun hover callee hcallee hprogress => ?_⟩
  · refine (h.replies.ended hover).1 ?_
    rw [hprogress]
    exact trivial
  · have hended := h.asks.ended hover callee.session.state (by rw [calleeState, hcallee]; rfl)
    rw [hprogress] at hended
    exact hended

theorem not_mem_start {P : Output → Prop} : ∀ o ∈ ([] : List Output), P o :=
  fun _ ho => absurd ho List.not_mem_nil

theorem inv_start (protocol : SignalingProtocol) : (start protocol).Inv where
  caller := ready_create protocol
  callee _ h := absurd h (Option.some_ne_none _).symm
  asks := {
    unanswering := ⟨State.noConfusion, State.noConfusion⟩
    sent := not_mem_start
    order := .nil
    unasked := fun _ => ⟨rfl, rfl, not_mem_start⟩
    asked := fun _ => not_mem_start
    ended := fun h => absurd h Bool.false_ne_true }
  replies := {
    unmodified := (Option.some_ne_none _).symm
    sent := not_mem_start
    order := .nil
    fresh := fun _ => ⟨rfl, id, not_mem_start⟩
    rejected := fun _ ho => absurd ho List.not_mem_nil
    ended := fun h => absurd h Bool.false_ne_true }

theorem filter_quiet (houtputs : ∀ o ∈ outputs, isAck o = false → Quiet o) :
    ∀ o ∈ outputs.filter fun o => !isAck o, Quiet o := by
  intro o ho
  obtain ⟨ho, hack⟩ := List.mem_filter.mp ho
  exact houtputs o ho ((Bool.not_eq_true' _).mp hack)

theorem change_filter {p : Prop} (h : Change p a b outputs) :
    outputs.filter (fun o => !isAck o) = outputs := by
  refine List.filter_eq_self.mpr fun o ho => ?_
  cases h with
  | quiet _ _ houtputs => rw [not_isAck (houtputs o ho)]; rfl
  | initiates | accepts | rejects | terminates => rw [List.mem_singleton.mp ho]; rfl
  | progresses => exact absurd ho List.not_mem_nil

variable {s : SessionPair}

theorem inv_caller (h : s.Inv) (e : Local) : (s.step (.caller e)).Inv := by
  obtain ⟨hchange, hrest⟩ := SessionManager.perform_local h.caller.rest e
  exact {
    caller := ⟨hrest, SessionManager.buried_local h.caller.buried h.caller.rest e⟩
    callee := h.callee
    asks := h.asks.caller_local hchange
    replies := h.replies.caller_local h.asks.unanswering.1 hchange }

theorem inv_acknowledge (h : s.Inv) : (s.step .acknowledge).Inv := by
  rw [step]
  cases s.acks with
  | nil => exact h
  | cons msg rest =>
    have hack : ∀ o ∈ ([] : List Output), Quiet o := fun _ ho => absurd ho List.not_mem_nil
    obtain ⟨hstate, hrest, hkept, houtputs⟩ :=
      SessionManager.perform_answer h.caller.rest msg.type
    have hready : Ready (s.caller.perform (.incomingResponse msg.type)).1 := by
      refine ⟨hrest, fun hunmapped => ?_⟩
      rcases hstate with hstate | ⟨-, hmapped, -⟩
      · rw [hstate]
        exact h.caller.buried (hkept.symm.trans hunmapped)
      · exact absurd (hmapped.symm.trans (hkept.symm.trans hunmapped)) (by decide)
    dsimp only [callerSends]
    rw [houtputs]
    refine ⟨hready, h.callee, h.asks.caller_quiet ?_ hack, h.replies.caller ?_⟩
    · rcases hstate with hstate | ⟨-, -, hstate⟩
      · exact .inl hstate
      · rw [hstate]
        exact .inr ⟨nofun, nofun, nofun⟩
    · rcases hstate with hstate | ⟨-, -, hstate⟩
      · rw [hstate]
        exact id
      · rw [hstate]
        exact fun h => absurd h id

theorem step_callee {e : Local} (hinitiates : ¬ e.Initiates) :
    s.step (.callee e) = match s.callee with
      | some callee => { s with callee := some (callee.perform e.event).1 }.calleeSends
          (callee.perform e.event).2
      | none => s := by
  cases e with
  | call c =>
    cases c with
    | initiate written readable usable => exact absurd ⟨_, _, _, rfl⟩ hinitiates
    | accept | reject | terminate | sendInfo => rfl
  | transportWritable | timer | dispatch | sendTimeout => rfl

theorem inv_callee (h : s.Inv) (e : Local) : (s.step (.callee e)).Inv := by
  by_cases hinitiates : e.Initiates
  · cases e with
    | call c =>
      obtain ⟨written, readable, usable, rfl⟩ := hinitiates
      exact h
    | transportWritable | timer | dispatch | sendTimeout => exact absurd hinitiates id
  · rw [step_callee hinitiates]
    cases hcallee : s.callee with
    | none => exact h
    | some callee =>
      have hready := h.callee callee hcallee
      have hstate : s.calleeState = some callee.session.state := by rw [calleeState, hcallee]; rfl
      have hasks := h.asks
      have hreplies := h.replies
      rw [hstate] at hasks hreplies
      obtain ⟨hchange, hrest⟩ := SessionManager.perform_local hready.rest e
      refine ⟨h.caller, fun _ hnew => Option.some.inj hnew ▸ ?_, hasks.callee (change_ended hchange), ?_⟩
      · exact ⟨hrest, SessionManager.buried_local hready.buried hready.rest e⟩
      · dsimp only [calleeSends]
        rw [change_filter hchange]
        exact hreplies.callee_local hinitiates hchange

theorem inv_deliverToCaller (h : s.Inv) : (s.step .deliverToCaller).Inv := by
  rw [step]
  cases hqueue : s.toCaller with
  | nil => exact h
  | cons o rest =>
    have hreplies := h.replies
    rw [hqueue] at hreplies
    obtain ⟨after, outputs, hreceive, hready, hheeds, houtputs⟩ :=
      receive_some h.caller (hreplies.sent o List.mem_cons_self)
    dsimp only [callerSends]
    rw [hreceive]
    exact ⟨hready, h.callee, h.asks.caller_received hheeds houtputs, hreplies.received hheeds⟩

theorem inv_deliverToCallee (h : s.Inv) : (s.step .deliverToCallee).Inv := by
  rw [step]
  cases hqueue : s.toCallee with
  | nil => exact h
  | cons o rest =>
    have hasks := h.asks
    have hreplies := h.replies
    rw [hqueue] at hasks
    dsimp only [calleeSends]
    cases hcallee : s.callee with
    | some callee =>
      have hstate : s.calleeState = some callee.session.state := by rw [calleeState, hcallee]; rfl
      rw [hstate] at hasks hreplies
      have hmodify : callee.session.state ≠ .receivedModify :=
        fun h => hreplies.unmodified (congrArg some h)
      obtain ⟨after, outputs, hreceive, hready, hheeds, houtputs⟩ :=
        receive_some (h.callee callee hcallee) (hasks.asked (.inl rfl) o List.mem_cons_self)
      obtain ⟨hnew, hfresh⟩ := hheeds.fresh hmodify
      rw [hreceive]
      refine ⟨h.caller, fun _ hsome => Option.some.inj hsome ▸ hready, hasks.received hheeds, ?_⟩
      exact hreplies.callee_sends (fun h => hnew (Option.some.inj h)) hfresh
        (filter_quiet fun o ho _ => houtputs o ho)
    | none =>
      have hstate : s.calleeState = none := by rw [calleeState, hcallee]; rfl
      rw [hstate] at hasks hreplies
      cases ho : isInitiate o with
      | false =>
        obtain ⟨outputs, hreceive, houtputs⟩ := receive_none ho
        rw [hreceive]
        refine ⟨h.caller, fun _ hsome => (nomatch hsome), hasks.lost, ?_⟩
        exact hreplies.callee_sends nofun id (filter_quiet fun o ho _ => houtputs o ho)
      | true =>
        obtain ⟨after, outputs, hreceive, hready, hafter, houtputs⟩ := receive_initiate ho
        rw [hreceive]
        refine ⟨h.caller, fun _ hsome => Option.some.inj hsome ▸ hready, hasks.initiated ho, ?_⟩
        refine hreplies.callee_sends (fun hsome => ?_) (fun _ _ hnone => (nomatch hnone))
          (filter_quiet houtputs)
        have hmodify : after.session.state = .receivedModify := Option.some.inj hsome
        rw [hmodify] at hafter
        exact hafter.elim nofun nofun

theorem inv_step (h : s.Inv) (e : PairEvent) : (s.step e).Inv := by
  cases e with
  | caller e => exact inv_caller h e
  | callee e => exact inv_callee h e
  | deliverToCallee => exact inv_deliverToCallee h
  | deliverToCaller => exact inv_deliverToCaller h
  | acknowledge => exact inv_acknowledge h

theorem inv_run (h : s.Inv) (events : List PairEvent) : (s.run events).Inv := by
  induction events generalizing s with
  | nil => exact h
  | cons e rest ih => exact ih (inv_step h e)

/-- In every run the parties are in step, and in a run whose messages are heard the caller
gets to the state that the callee has asked for. -/
theorem agreement (protocol : SignalingProtocol) (events : List PairEvent) :
    (Runs.Along step Heard (start protocol) events → Runs.Along step Agrees (start protocol) events) ∧
      ((start protocol).run events).InStep := by
  refine ⟨?_, (inv_run (inv_start protocol) events).inStep⟩
  exact Runs.Along.imp (fun s e (hinv : Inv s) => agrees_of_heard hinv.caller e)
    (fun s e (hinv : Inv s) => inv_step hinv e) (inv_start protocol)

theorem agreement_accepted : Runs.Along step Agrees (start .jingle)
    [.caller (.call (.initiate true true true)), .deliverToCallee,
      .callee (.call (.accept true true true)), .deliverToCaller] := by
  refine (agreement _ _).1 ⟨trivial, trivial, trivial, fun msg rest hqueue => ?_, trivial⟩
  have hmsg : msg = ⟨.jingle, .sessionAccept, "", true, true⟩ := by
    cases hqueue
    rfl
  subst hmsg
  decide

/-- The callee rejects in Gingle, and the caller goes on waiting for an answer. -/
theorem rejected_unnoticed : ¬ Runs.Along step Agrees (start .gingle)
    [.caller (.call (.initiate true true true)), .deliverToCallee,
      .callee (.call (.reject "decline")), .deliverToCaller] := by
  intro h
  exact absurd (h.2.2.2.1 ⟨.gingle, .sessionReject, "decline", true, true⟩ [] .receivedReject rfl rfl)
    (by decide)

end SessionPair

end Libjingle
