import Libjingle.Stun.Request
import Mathlib.Data.List.Nodup

/-! Every request of a manager goes through the same phases: it is sent, at growing
intervals, until it is answered, times out or is removed, and then it is gone. -/

namespace Libjingle

namespace StunRequestManager

def history (m : StunRequestManager) (r : Nat) : List RequestEvent :=
  m.record.filter (·.request = r)

/-- Every time comes at least the delay of its number after the one before. -/
def BackedOff (times : List Nat) : Prop :=
  ∀ (k t t' : Nat), times[k]? = some t → times[k + 1]? = some t' → t + backOff k ≤ t'

def Answers (request : StunMessage) : RequestEvent → Prop
  | .response _ msg => msg.transactionId = request.transactionId ∧
      some msg.type = getStunSuccessResponseType request.type
  | .errorResponse _ msg => msg.transactionId = request.transactionId ∧
      some msg.type = getStunErrorResponseType request.type
  | .timeout _ => True
  | _ => False

/-- A request that was sent at the given times, and what came after. -/
structure Sending (m : StunRequestManager) (r : Nat) (request : StunRequest) (times : List Nat)
    (closing : List RequestEvent) : Prop where
  object : m.objects[r]? = some request
  history_eq : m.history r = times.map (RequestEvent.sent r) ++ closing
  count_eq : request.count = times.length
  count_le : times.length ≤ maxSends
  timeout_iff : request.timeout = true ↔ times.length = maxSends
  backedOff : BackedOff times

/-- The map has the request under its own id only. -/
def Entered (m : StunRequestManager) (r : Nat) (request : StunRequest) : Prop :=
  ∀ id, (id, r) ∈ m.requests ↔ id = request.msg.transactionId

/-- One message is queued for the request, due when its delay is over. -/
def Scheduled (m : StunRequestManager) (r : Nat) (times : List Nat) : Prop :=
  ∃ due, m.queue.filter (·.2 = r) = [(due, r)] ∧
    ∀ t, times.getLast? = some t → due = t + backOff (times.length - 1)

structure Gone (m : StunRequestManager) (r : Nat) : Prop where
  entry : ∀ id, (id, r) ∉ m.requests
  timer : m.queue.filter (·.2 = r) = []

/-- The phases of a request. It is only `answered` while its callback runs. -/
inductive Phase (m : StunRequestManager) (busy : Prop) (r : Nat) : Prop
  | unborn (hobject : m.objects[r]? = none) (hhistory : m.history r = []) (hgone : Gone m r)
  | live {request : StunRequest} {times : List Nat} (hsending : Sending m r request times [])
      (hentered : Entered m r request) (hscheduled : Scheduled m r times)
  | answered {request : StunRequest} {times : List Nat} {e : RequestEvent} (hbusy : busy)
      (hsending : Sending m r request times [e]) (hanswers : Answers request.msg e)
      (hentered : Entered m r request)
  | removed {request : StunRequest} {times : List Nat}
      (hsending : Sending m r request times [.removed r]) (hgone : Gone m r)
  | done {request : StunRequest} {times : List Nat} {e : RequestEvent}
      (hsending : Sending m r request times [e, .removed r]) (hanswers : Answers request.msg e)
      (hgone : Gone m r)

/-- Every request is in a phase, one of them perhaps in its callback. -/
structure Tracked (busy : Option Nat) (m : StunRequestManager) : Prop where
  keys : (m.requests.map Prod.fst).Nodup
  phase : ∀ r, Phase m (busy = some r) r

structure Untouched (m m' : StunRequestManager) (r : Nat) : Prop where
  object : m'.objects[r]? = m.objects[r]?
  entry : ∀ id, (id, r) ∈ m'.requests ↔ (id, r) ∈ m.requests
  timer : m'.queue.filter (·.2 = r) = m.queue.filter (·.2 = r)
  history_eq : m'.history r = m.history r

section

variable {m m' : StunRequestManager} {r r' : Nat} {busy : Prop} {request : StunRequest}
  {times : List Nat} {closing : List RequestEvent}

theorem Sending.untouched (h : Sending m r request times closing) (hu : Untouched m m' r) :
    Sending m' r request times closing :=
  ⟨hu.object.trans h.object, hu.history_eq.trans h.history_eq, h.count_eq, h.count_le, h.timeout_iff,
    h.backedOff⟩

theorem Gone.untouched (h : Gone m r) (hu : Untouched m m' r) : Gone m' r :=
  ⟨fun id hid => h.entry id ((hu.entry id).mp hid), hu.timer.trans h.timer⟩

theorem Phase.untouched (h : Phase m busy r) (hu : Untouched m m' r) : Phase m' busy r := by
  cases h with
  | unborn hobject hhistory hgone =>
    exact .unborn (hu.object.trans hobject) (hu.history_eq.trans hhistory) (hgone.untouched hu)
  | live hsending hentered hscheduled =>
    obtain ⟨due, htimer, hdue⟩ := hscheduled
    exact .live (hsending.untouched hu) (fun id => (hu.entry id).trans (hentered id))
      ⟨due, hu.timer.trans htimer, hdue⟩
  | answered hbusy hsending hanswers hentered =>
    exact .answered hbusy (hsending.untouched hu) hanswers
      fun id => (hu.entry id).trans (hentered id)
  | removed hsending hgone => exact .removed (hsending.untouched hu) (hgone.untouched hu)
  | done hsending hanswers hgone =>
    exact .done (hsending.untouched hu) hanswers (hgone.untouched hu)

theorem Phase.imp {busy' : Prop} (h : Phase m busy r) (himp : busy → busy') : Phase m busy' r := by
  cases h with
  | unborn hobject hhistory hgone => exact .unborn hobject hhistory hgone
  | live hsending hentered hscheduled => exact .live hsending hentered hscheduled
  | answered hbusy hsending hanswers hentered =>
    exact .answered (himp hbusy) hsending hanswers hentered
  | removed hsending hgone => exact .removed hsending hgone
  | done hsending hanswers hgone => exact .done hsending hanswers hgone

theorem history_log (m : StunRequestManager) (e : RequestEvent) :
    (m.log e).history e.request = m.history e.request ++ [e] := by
  simp [history, log]

theorem history_log_ne {e : RequestEvent} (h : e.request ≠ r) : (m.log e).history r = m.history r := by
  simp [history, log, h]

theorem Sending.log {e : RequestEvent} (h : Sending m r request times closing)
    (he : e.request = r) : Sending (m.log e) r request times (closing ++ [e]) := by
  subst he
  refine ⟨h.object, ?_, h.count_eq, h.count_le, h.timeout_iff, h.backedOff⟩
  rw [history_log, h.history_eq, List.append_assoc]

theorem untouched_log {e : RequestEvent} (h : e.request ≠ r) : Untouched m (m.log e) r :=
  ⟨rfl, fun _ => Iff.rfl, rfl, history_log_ne h⟩

theorem find_eq_some (hkeys : (m.requests.map Prod.fst).Nodup) {id : List UInt8} :
    m.find id = some r ↔ (id, r) ∈ m.requests := by
  rw [find, Option.map_eq_some_iff]
  constructor
  · rintro ⟨⟨id', r'⟩, hfind, rfl⟩
    have hid : id' = id := by simpa using List.find?_some hfind
    subst hid
    exact List.mem_of_find?_eq_some hfind
  · intro hmem
    have hsome : (m.requests.find? (·.1 = id)).isSome := by
      rw [List.find?_isSome]
      exact ⟨(id, r), hmem, decide_eq_true rfl⟩
    obtain ⟨⟨id', r'⟩, hfind⟩ := Option.isSome_iff_exists.mp hsome
    have hid : id' = id := by simpa using List.find?_some hfind
    subst hid
    have heq := List.inj_on_of_nodup_map hkeys (List.mem_of_find?_eq_some hfind) hmem rfl
    exact ⟨_, hfind, congrArg Prod.snd heq⟩

end

section

variable {m m' : StunRequestManager} {r r' : Nat} {busy : Option Nat}

theorem Phase.entered {b : Prop} (h : Phase m b r) {id : List UInt8} (hid : (id, r) ∈ m.requests) :
    ∃ request, m.objects[r]? = some request ∧ id = request.msg.transactionId := by
  cases h with
  | unborn _ _ hgone => exact absurd hid (hgone.entry id)
  | live hsending hentered _ => exact ⟨_, hsending.object, (hentered id).mp hid⟩
  | answered _ hsending _ hentered => exact ⟨_, hsending.object, (hentered id).mp hid⟩
  | removed _ hgone => exact absurd hid (hgone.entry id)
  | done _ _ hgone => exact absurd hid (hgone.entry id)

/-- What `Remove` does: nothing for a request that is gone, and otherwise it takes it
off the map and the queue. -/
theorem remove_cases (h : Tracked busy m) (hremove : m.remove r = some m') :
    (m' = m ∧ Gone m r) ∨ ∃ request, m.objects[r]? = some request ∧
      (request.msg.transactionId, r) ∈ m.requests ∧
      m' = ({ m with
        requests := m.requests.filter (·.1 ≠ request.msg.transactionId) }.clearQueue r).log
          (.removed r) := by
  rw [remove] at hremove
  cases hobject : m.objects[r]? with
  | none =>
    rw [hobject] at hremove
    refine .inl ⟨(Option.some.inj hremove).symm, ?_⟩
    cases h.phase r with
    | unborn _ _ hgone => exact hgone
    | live hsending => exact absurd (hobject.symm.trans hsending.object) (Option.some_ne_none _).symm
    | answered _ hsending =>
      exact absurd (hobject.symm.trans hsending.object) (Option.some_ne_none _).symm
    | removed _ hgone => exact hgone
    | done _ _ hgone => exact hgone
  | some request =>
    rw [hobject] at hremove
    simp only at hremove
    cases hfind : m.find request.msg.transactionId with
    | none =>
      rw [hfind] at hremove
      have hmissing : (request.msg.transactionId, r) ∉ m.requests := by
        intro hmem
        rw [(find_eq_some h.keys).mpr hmem] at hfind
        cases hfind
      refine .inl ⟨(Option.some.inj hremove).symm, ?_⟩
      cases h.phase r with
      | unborn _ _ hgone => exact hgone
      | live hsending hentered =>
        obtain rfl := Option.some.inj (hobject.symm.trans hsending.object)
        exact absurd ((hentered _).mpr rfl) hmissing
      | answered _ hsending _ hentered =>
        obtain rfl := Option.some.inj (hobject.symm.trans hsending.object)
        exact absurd ((hentered _).mpr rfl) hmissing
      | removed _ hgone => exact hgone
      | done _ _ hgone => exact hgone
    | some r' =>
      rw [hfind] at hremove
      simp only at hremove
      split at hremove
      · cases hremove
      · rename_i hsame
        obtain rfl := not_not.mp hsame
        exact .inr ⟨request, rfl, (find_eq_some h.keys).mp hfind, (Option.some.inj hremove).symm⟩

theorem Tracked.remove (h : Tracked busy m) (hremove : m.remove r = some m') :
    Tracked busy m' ∧ Gone m' r := by
  rcases remove_cases h hremove with ⟨rfl, hgone⟩ | ⟨request, hobject, hmem, rfl⟩
  · exact ⟨h, hgone⟩
  · have hentry : ∀ id r', (id, r') ∈ m.requests.filter (·.1 ≠ request.msg.transactionId) ↔
        (id, r') ∈ m.requests ∧ id ≠ request.msg.transactionId := by
      intro id r'
      rw [List.mem_filter, decide_eq_true_iff]
    have hgone : Gone (({ m with
        requests := m.requests.filter (·.1 ≠ request.msg.transactionId) }.clearQueue r).log
          (.removed r)) r := by
      refine ⟨fun id hid => ?_, ?_⟩
      · obtain ⟨hid, hne⟩ := (hentry id r).mp hid
        obtain ⟨request', hobject', rfl⟩ := (h.phase r).entered hid
        rw [Option.some.inj (hobject.symm.trans hobject')] at hne
        exact hne rfl
      · simp only [log, clearQueue, List.filter_filter]
        exact List.filter_eq_nil_iff.mpr fun x _ => by simp
    have hlog : ∀ {request' times closing}, Sending m r request' times closing →
        Sending (({ m with
          requests := m.requests.filter (·.1 ≠ request.msg.transactionId) }.clearQueue r).log
            (.removed r)) r request' times (closing ++ [.removed r]) := fun hs =>
      Sending.log ⟨hs.object, hs.history_eq, hs.count_eq, hs.count_le, hs.timeout_iff, hs.backedOff⟩
        rfl
    refine ⟨⟨(h.keys.sublist (List.filter_sublist.map _)), fun r' => ?_⟩, hgone⟩
    by_cases hr : r' = r
    · subst hr
      cases h.phase r' with
      | unborn hnone => exact absurd (hnone.symm.trans hobject) (Option.some_ne_none _).symm
      | live hsending _ _ => exact .removed (hlog hsending) hgone
      | answered _ hsending hanswers _ => exact .done (hlog hsending) hanswers hgone
      | removed _ hgone' => exact absurd hmem (hgone'.entry _)
      | done _ _ hgone' => exact absurd hmem (hgone'.entry _)
    · refine (h.phase r').untouched ⟨rfl, fun id => ?_, ?_, history_log_ne (Ne.symm hr)⟩
      · refine (hentry id r').trans ⟨fun hid => hid.1, fun hid => ⟨hid, fun hkey => ?_⟩⟩
        rw [hkey] at hid
        have heq := List.inj_on_of_nodup_map h.keys hid hmem rfl
        exact hr (congrArg Prod.snd heq)
      · simp only [log, clearQueue, List.filter_filter]
        refine List.filter_congr fun x _ => ?_
        by_cases hx : x.2 = r'
        · simp [hx, hr]
        · simp [hx]

theorem clearQueue_of_gone (h : Gone m r) : m.clearQueue r = m := by
  have hall : m.queue.filter (·.2 ≠ r) = m.queue := by
    refine List.filter_eq_self.mpr fun x hx => ?_
    have hne := List.filter_eq_nil_iff.mp h.timer x hx
    simpa using hne
  rw [clearQueue, hall]

theorem Tracked.delete (h : Tracked busy m) (hdelete : m.delete r = some m') :
    Tracked busy m' ∧ Gone m' r := by
  rw [StunRequestManager.delete] at hdelete
  obtain ⟨m₁, hremove, rfl⟩ := Option.map_eq_some_iff.mp hdelete
  obtain ⟨htracked, hgone⟩ := h.remove hremove
  rw [clearQueue_of_gone hgone]
  exact ⟨htracked, hgone⟩

theorem Tracked.settled (h : Tracked busy m) (hgone : ∀ r, busy = some r → Gone m r) :
    Tracked none m := by
  refine ⟨h.keys, fun r => ?_⟩
  cases h.phase r with
  | unborn hobject hhistory hgone' => exact .unborn hobject hhistory hgone'
  | live hsending hentered hscheduled => exact .live hsending hentered hscheduled
  | answered hbusy hsending _ hentered => exact absurd ((hentered _).mpr rfl) ((hgone r hbusy).entry _)
  | removed hsending hgone' => exact .removed hsending hgone'
  | done hsending hanswers hgone' => exact .done hsending hanswers hgone'

theorem backedOff_nil : BackedOff [] := fun k t t' h => by simp at h

theorem Tracked.sendDelayed (h : Tracked busy m) {msg : StunMessage} {delay : Nat}
    (hsend : m.sendDelayed msg delay = some m') : Tracked busy m' := by
  rw [StunRequestManager.sendDelayed] at hsend
  split at hsend
  · cases hsend
  · rename_i hfree
    have hfree : m.find msg.transactionId = none := not_not.mp hfree
    obtain rfl := Option.some.inj hsend
    have hnew : m.objects[m.objects.length]? = none := List.getElem?_eq_none (Nat.le_refl _)
    obtain ⟨hhistory, hgone⟩ : m.history m.objects.length = [] ∧ Gone m m.objects.length := by
      cases h.phase m.objects.length with
      | unborn _ hhistory hgone => exact ⟨hhistory, hgone⟩
      | live hsending => exact absurd (hnew.symm.trans hsending.object) (Option.some_ne_none _).symm
      | answered _ hsending =>
        exact absurd (hnew.symm.trans hsending.object) (Option.some_ne_none _).symm
      | removed hsending => exact absurd (hnew.symm.trans hsending.object) (Option.some_ne_none _).symm
      | done hsending => exact absurd (hnew.symm.trans hsending.object) (Option.some_ne_none _).symm
    refine ⟨?_, fun r => ?_⟩
    · rw [List.map_append, List.nodup_append]
      refine ⟨h.keys, List.nodup_singleton _, fun id hid id' hid' heq => ?_⟩
      obtain ⟨⟨key, r⟩, hmem, rfl⟩ := List.mem_map.mp hid
      obtain rfl := List.mem_singleton.mp hid'
      simp only at heq
      rw [heq] at hmem
      rw [(find_eq_some h.keys).mpr hmem] at hfree
      cases hfree
    · by_cases hr : r = m.objects.length
      · subst hr
        have hsending : Sending { m with
            objects := m.objects ++ [{ msg := msg }]
            requests := m.requests ++ [(msg.transactionId, m.objects.length)]
            queue := m.queue ++ [(m.now + delay, m.objects.length)] }
            m.objects.length { msg := msg } [] [] :=
          ⟨List.getElem?_concat_length, hhistory, rfl, Nat.zero_le _,
            ⟨Bool.noConfusion, fun h => absurd h (by decide)⟩, backedOff_nil⟩
        refine .live hsending (fun id => ?_) ⟨m.now + delay, ?_, fun t ht => by cases ht⟩
        · rw [List.mem_append, List.mem_singleton, Prod.mk.injEq]
          constructor
          · rintro (hid | ⟨hid, -⟩)
            · exact absurd hid (hgone.entry id)
            · exact hid
          · exact fun hid => .inr ⟨hid, rfl⟩
        · rw [List.filter_append, hgone.timer]
          simp
      · refine (h.phase r).untouched ⟨?_, fun id => ?_, ?_, rfl⟩
        · rcases Nat.lt_or_ge r m.objects.length with hlt | hge
          · exact List.getElem?_append_left hlt
          · rw [List.getElem?_eq_none hge, List.getElem?_eq_none]
            rw [List.length_append, List.length_singleton]
            omega
        · rw [List.mem_append, List.mem_singleton, Prod.mk.injEq]
          constructor
          · rintro (hid | ⟨-, hr'⟩)
            · exact hid
            · exact absurd hr' hr
          · exact .inl
        · have hne : ¬ m.objects.length = r := fun heq => hr heq.symm
          rw [List.filter_append]
          simp [hne]

theorem Tracked.call (h : Tracked busy m) {c : Call} (hcall : m.call c = some m') :
    Tracked busy m' := by
  cases c with
  | sendDelayed msg delay => exact h.sendDelayed hcall
  | remove r => exact (h.remove hcall).1

theorem Tracked.calls (h : Tracked busy m) {calls : List Call}
    (hcalls : calls.foldlM StunRequestManager.call m = some m') : Tracked busy m' := by
  induction calls generalizing m with
  | nil =>
    obtain rfl := Option.some.inj hcalls
    exact h
  | cons c rest ih =>
    rw [List.foldlM_cons, Option.bind_eq_bind, Option.bind_eq_some_iff] at hcalls
    obtain ⟨m₁, hcall, hrest⟩ := hcalls
    exact ih (h.call hcall) hrest

theorem Tracked.finish {request : StunRequest} {times : List Nat} {e : RequestEvent}
    {calls : List Call} (hkeys : (m.requests.map Prod.fst).Nodup)
    (hothers : ∀ r', r' ≠ r → Phase m False r') (hsending : Sending m r request times [])
    (hentered : Entered m r request) (he : e.request = r) (hanswers : Answers request.msg e)
    (hfinish : m.finish r e calls = some m') : Tracked none m' := by
  have hlogged : Tracked (some r) (m.log e) := by
    refine ⟨hkeys, fun r' => ?_⟩
    by_cases hr : r' = r
    · subst hr
      exact .answered rfl (hsending.log he) hanswers hentered
    · exact ((hothers r' hr).untouched (untouched_log (he ▸ Ne.symm hr))).imp False.elim
  rw [StunRequestManager.finish, Option.bind_eq_some_iff] at hfinish
  obtain ⟨m₁, hcalls, hdelete⟩ := hfinish
  obtain ⟨htracked, hgone⟩ := (hlogged.calls hcalls).delete hdelete
  refine htracked.settled fun r' hr' => ?_
  obtain rfl := Option.some.inj hr'
  exact hgone

theorem Tracked.clear (h : Tracked busy m) (hclear : m.clear = some m') : Tracked busy m' := by
  rw [StunRequestManager.clear] at hclear
  generalize m.requests.map Prod.snd = handles at hclear
  induction handles generalizing m with
  | nil =>
    obtain rfl := Option.some.inj hclear
    exact h
  | cons r rest ih =>
    rw [List.foldlM_cons, Option.bind_eq_bind, Option.bind_eq_some_iff] at hclear
    obtain ⟨m₁, hdelete, hrest⟩ := hclear
    exact ih (h.delete hdelete).1 hrest

theorem Tracked.live (h : Tracked none m) {id : List UInt8} (hfind : m.find id = some r) :
    ∃ request times, Sending m r request times [] ∧ Entered m r request ∧ Scheduled m r times ∧
      id = request.msg.transactionId := by
  have hmem := (find_eq_some h.keys).mp hfind
  cases h.phase r with
  | unborn _ _ hgone => exact absurd hmem (hgone.entry id)
  | live hsending hentered hscheduled =>
    exact ⟨_, _, hsending, hentered, hscheduled, (hentered id).mp hmem⟩
  | answered hbusy => cases hbusy
  | removed _ hgone => exact absurd hmem (hgone.entry id)
  | done _ _ hgone => exact absurd hmem (hgone.entry id)

theorem Tracked.others (h : Tracked none m) (r : Nat) : ∀ r', r' ≠ r → Phase m False r' :=
  fun r' _ => (h.phase r').imp fun hbusy => Option.noConfusion rfl (heq_of_eq hbusy)

theorem Tracked.checkResponse (h : Tracked none m) {msg : StunMessage} {calls : List Call}
    {result : Bool} (hcheck : m.checkResponse msg calls = some (result, m')) : Tracked none m' := by
  rw [StunRequestManager.checkResponse] at hcheck
  cases hfind : m.find msg.transactionId with
  | none =>
    rw [hfind] at hcheck
    obtain ⟨-, rfl⟩ := Prod.mk.inj (Option.some.inj hcheck)
    exact h
  | some r =>
    obtain ⟨request, times, hsending, hentered, -, hid⟩ := h.live hfind
    rw [hfind] at hcheck
    simp only [hsending.object] at hcheck
    split at hcheck
    · rename_i htype
      obtain ⟨m₁, hfinish, heq⟩ := Option.map_eq_some_iff.mp hcheck
      obtain ⟨-, rfl⟩ := Prod.mk.inj heq
      have hanswers : Answers request.msg (.response r msg) := ⟨hid, htype⟩
      exact Tracked.finish h.keys (h.others r) hsending hentered rfl hanswers hfinish
    · split at hcheck
      · rename_i htype
        obtain ⟨m₁, hfinish, heq⟩ := Option.map_eq_some_iff.mp hcheck
        obtain ⟨-, rfl⟩ := Prod.mk.inj heq
        have hanswers : Answers request.msg (.errorResponse r msg) := ⟨hid, htype⟩
        exact Tracked.finish h.keys (h.others r) hsending hentered rfl hanswers hfinish
      · obtain ⟨-, rfl⟩ := Prod.mk.inj (Option.some.inj hcheck)
        exact h

theorem Tracked.checkPacket (h : Tracked none m) {data : List UInt8} {calls : List Call}
    {result : Bool} (hcheck : m.checkPacket data calls = some (result, m')) : Tracked none m' := by
  rw [StunRequestManager.checkPacket] at hcheck
  have hsame : some (false, m) = some (result, m') → Tracked none m' := by
    intro heq
    obtain ⟨-, rfl⟩ := Prod.mk.inj (Option.some.inj heq)
    exact h
  split at hcheck
  · exact hsame hcheck
  · split at hcheck
    · exact hsame hcheck
    · split at hcheck
      · exact hsame hcheck
      · split at hcheck
        · exact hsame hcheck
        · exact h.checkResponse hcheck

theorem BackedOff.concat {times : List Nat} (h : BackedOff times) {now : Nat}
    (hlast : ∀ t, times.getLast? = some t → t + backOff (times.length - 1) ≤ now) :
    BackedOff (times ++ [now]) := by
  intro k t t' ht ht'
  rcases Nat.lt_trichotomy (k + 1) times.length with hlt | heq | hgt
  · rw [List.getElem?_append_left (by omega)] at ht ht'
    exact h k t t' ht ht'
  · rw [List.getElem?_append_left (by omega)] at ht
    rw [heq, List.getElem?_concat_length] at ht'
    obtain rfl := Option.some.inj ht'
    have hk : times.length - 1 = k := by omega
    have hbound := hlast t (by rw [List.getLast?_eq_getElem?, hk]; exact ht)
    rwa [hk] at hbound
  · rw [List.getElem?_eq_none (by rw [List.length_append, List.length_singleton]; omega)] at ht'
    cases ht'

/-- A request whose message was taken off the queue when it was due. -/
structure Dispatched (m : StunRequestManager) (r : Nat) (request : StunRequest)
    (times : List Nat) : Prop where
  keys : (m.requests.map Prod.fst).Nodup
  others : ∀ r', r' ≠ r → Phase m False r'
  sending : Sending m r request times []
  entered : Entered m r request
  timer : m.queue.filter (·.2 = r) = []
  due_le : ∀ t, times.getLast? = some t → t + backOff (times.length - 1) ≤ m.now

theorem Tracked.dispatched (h : Tracked none m) {due x : Nat}
    (hfind : m.queue.find? (·.2 = r) = some (due, x)) (hdue : due ≤ m.now) :
    ∃ request times, Dispatched { m with queue := m.queue.erase (due, r) } r request times := by
  have hmem := List.mem_of_find?_eq_some hfind
  have hx : x = r := by simpa using List.find?_some hfind
  subst hx
  have hqueued : (due, x) ∈ m.queue.filter (·.2 = x) :=
    List.mem_filter.mpr ⟨hmem, decide_eq_true rfl⟩
  have hlive : ¬ Gone m x := by
    intro hgone
    rw [hgone.timer] at hqueued
    exact absurd hqueued List.not_mem_nil
  cases h.phase x with
  | unborn _ _ hgone => exact absurd hgone hlive
  | removed _ hgone => exact absurd hgone hlive
  | done _ _ hgone => exact absurd hgone hlive
  | answered hbusy => cases hbusy
  | @live request times hsending hentered hscheduled =>
    obtain ⟨due', htimer, hlast⟩ := hscheduled
    rw [htimer, List.mem_singleton] at hqueued
    obtain ⟨rfl, -⟩ := Prod.mk.inj hqueued
    refine ⟨request, times, h.keys, fun r' hr => ?_, ⟨hsending.object, hsending.history_eq,
      hsending.count_eq, hsending.count_le, hsending.timeout_iff, hsending.backedOff⟩, hentered, ?_,
      fun t ht => by rw [← hlast t ht]; exact hdue⟩
    · refine (h.others x r' hr).untouched ⟨rfl, fun _ => Iff.rfl, ?_, rfl⟩
      rw [← List.erase_filter, List.erase_of_not_mem]
      rw [List.mem_filter]
      rintro ⟨-, heq⟩
      exact hr (of_decide_eq_true heq).symm
    · rw [← List.erase_filter, htimer]
      simp

theorem Dispatched.resend {request : StunRequest} {times : List Nat}
    (h : Dispatched m r request times) (htimeout : request.timeout = false) :
    Tracked none { m.log (.sent r m.now) with
      objects := m.objects.set r request.getNextDelay.2
      queue := m.queue ++ [(m.now + request.getNextDelay.1, r)] } := by
  have hless : times.length < maxSends := by
    refine Nat.lt_of_le_of_ne h.sending.count_le fun heq => ?_
    rw [h.sending.timeout_iff.mpr heq] at htimeout
    cases htimeout
  have hlength : (times ++ [m.now]).length = times.length + 1 := by
    rw [List.length_append, List.length_singleton]
  have hsending : Sending { m.log (.sent r m.now) with
      objects := m.objects.set r request.getNextDelay.2
      queue := m.queue ++ [(m.now + request.getNextDelay.1, r)] } r request.getNextDelay.2
      (times ++ [m.now]) [] := by
    obtain ⟨hobjects, -⟩ := List.getElem?_eq_some_iff.mp h.sending.object
    refine ⟨List.getElem?_set_self hobjects, ?_, ?_, ?_, ?_, h.sending.backedOff.concat h.due_le⟩
    · refine (history_log m (.sent r m.now)).trans ?_
      change m.history r ++ [.sent r m.now] = _
      rw [h.sending.history_eq, List.append_nil, List.append_nil, List.map_append, List.map_singleton]
    · rw [hlength, ← h.sending.count_eq]
      rfl
    · rw [hlength]
      exact hless
    · rw [hlength, StunRequest.getNextDelay, h.sending.count_eq, htimeout]
      simp
  refine ⟨h.keys, fun r' => ?_⟩
  by_cases hr : r' = r
  · subst hr
    refine .live hsending h.entered ⟨m.now + request.getNextDelay.1, ?_, fun t ht => ?_⟩
    · rw [List.filter_append, h.timer]
      simp
    · rw [List.getLast?_concat] at ht
      obtain rfl := Option.some.inj ht
      rw [hlength, Nat.add_sub_cancel, StunRequest.getNextDelay, h.sending.count_eq]
  · have hhistory : (m.log (.sent r m.now)).history r' = m.history r' := history_log_ne (Ne.symm hr)
    refine Phase.imp (Phase.untouched (h.others r' hr) ?_) False.elim
    refine ⟨List.getElem?_set_ne (Ne.symm hr), fun _ => Iff.rfl, ?_, hhistory⟩
    have hne : ¬ r = r' := fun heq => hr heq.symm
    rw [List.filter_append]
    simp [hne]

theorem Dispatched.onMessage {request : StunRequest} {times : List Nat} {calls : List Call}
    (h : Dispatched m r request times) (hmessage : m.onMessage r calls = some m') :
    Tracked none m' := by
  rw [StunRequestManager.onMessage] at hmessage
  simp only [h.sending.object] at hmessage
  split at hmessage
  · have hanswers : Answers request.msg (.timeout r) := trivial
    exact Tracked.finish h.keys h.others h.sending h.entered rfl hanswers hmessage
  · rename_i htimeout
    obtain rfl := Option.some.inj hmessage
    exact h.resend (Bool.eq_false_iff.mpr htimeout)

theorem Tracked.step (h : Tracked none m) {e : Event} (hstep : m.step e = some m') :
    Tracked none m' := by
  cases e with
  | tick elapsed =>
    obtain rfl := Option.some.inj hstep
    exact ⟨h.keys, fun r => (h.phase r).untouched ⟨rfl, fun _ => Iff.rfl, rfl, rfl⟩⟩
  | sendDelayed msg delay => exact h.sendDelayed hstep
  | remove r => exact (h.remove hstep).1
  | delete r => exact (h.delete hstep).1
  | clear => exact h.clear hstep
  | message msg calls =>
    obtain ⟨⟨result, m₁⟩, hcheck, rfl⟩ := Option.map_eq_some_iff.mp hstep
    exact h.checkResponse hcheck
  | packet data calls =>
    obtain ⟨⟨result, m₁⟩, hcheck, rfl⟩ := Option.map_eq_some_iff.mp hstep
    exact h.checkPacket hcheck
  | timer r calls =>
    rw [StunRequestManager.step] at hstep
    split at hstep
    · cases hstep
    · rename_i due x hfind
      split at hstep
      · rename_i hdue
        obtain ⟨request, times, hdispatched⟩ := h.dispatched hfind hdue
        exact hdispatched.onMessage hstep
      · cases hstep

theorem tracked_initial : Tracked none {} :=
  ⟨List.nodup_nil, fun _ => .unborn rfl rfl ⟨fun _ => List.not_mem_nil, rfl⟩⟩

theorem Tracked.run (h : Tracked none m) {events : List Event} (hrun : m.run events = some m') :
    Tracked none m' := by
  induction events generalizing m with
  | nil =>
    obtain rfl := Option.some.inj hrun
    exact h
  | cons e rest ih =>
    rw [StunRequestManager.run, List.foldlM_cons, Option.bind_eq_bind, Option.bind_eq_some_iff] at hrun
    obtain ⟨m₁, hstep, hrest⟩ := hrun
    exact ih (h.step hstep) hrest

end

def IsOutcome : RequestEvent → Bool
  | .response _ _ | .errorResponse _ _ | .timeout _ => true
  | _ => false

def sentAt : RequestEvent → Option Nat
  | .sent _ time => some time
  | _ => none

def sendTimes (m : StunRequestManager) (r : Nat) : List Nat := (m.history r).filterMap sentAt

/-- What is promised of a request in a state that was reached: one outcome at most,
of a message with its transaction id and a type of its method, few enough
transmissions at growing intervals, and nothing more behind its outcome or removal. -/
structure Transacts (m : StunRequestManager) (r : Nat) : Prop where
  outcome_once : ((m.history r).filter IsOutcome).length ≤ 1
  outcome_matches : ∀ e ∈ m.history r, IsOutcome e = true →
    ∃ request, m.objects[r]? = some request ∧ Answers request.msg e
  sent_le : (m.sendTimes r).length ≤ maxSends
  backedOff : BackedOff (m.sendTimes r)
  timer_due : ∀ due, (due, r) ∈ m.queue → ∀ t, (m.sendTimes r).getLast? = some t →
    due = t + backOff ((m.sendTimes r).length - 1)
  ended : ∀ pre e post, m.history r = pre ++ e :: post → IsOutcome e = true ∨ e = .removed r →
    (∀ e' ∈ post, sentAt e' = none) ∧ ∀ due, (due, r) ∉ m.queue

section

variable {m m' : StunRequestManager} {r : Nat}

/-- The history of a request whose callback is not running. -/
structure Shape (m : StunRequestManager) (r : Nat) (times : List Nat)
    (closing : List RequestEvent) : Prop where
  history_eq : m.history r = times.map (RequestEvent.sent r) ++ closing
  count_le : times.length ≤ maxSends
  backedOff : BackedOff times
  unsent : ∀ e ∈ closing, sentAt e = none
  once : (closing.filter IsOutcome).length ≤ 1
  answers : ∀ e ∈ closing, IsOutcome e = true →
    ∃ request, m.objects[r]? = some request ∧ Answers request.msg e
  due : ∀ due, (due, r) ∈ m.queue → closing = [] ∧
    ∀ t, times.getLast? = some t → due = t + backOff (times.length - 1)

theorem Answers.spec {request : StunMessage} {e : RequestEvent} (h : Answers request e) :
    sentAt e = none ∧ IsOutcome e = true := by
  cases e with
  | sent => exact h.elim
  | removed => exact h.elim
  | response => exact ⟨rfl, rfl⟩
  | errorResponse => exact ⟨rfl, rfl⟩
  | timeout => exact ⟨rfl, rfl⟩

theorem Gone.not_mem (h : Gone m r) (due : Nat) : (due, r) ∉ m.queue := by
  intro hmem
  have hqueued : (due, r) ∈ m.queue.filter (·.2 = r) :=
    List.mem_filter.mpr ⟨hmem, decide_eq_true rfl⟩
  rw [h.timer] at hqueued
  exact absurd hqueued List.not_mem_nil

theorem Phase.shape (h : Phase m False r) : ∃ times closing, Shape m r times closing := by
  cases h with
  | unborn hobject hhistory hgone =>
    exact ⟨[], [], hhistory, Nat.zero_le _, backedOff_nil, by simp, Nat.zero_le _, by simp,
      fun due hdue => absurd hdue (hgone.not_mem due)⟩
  | @live request times hsending hentered hscheduled =>
    obtain ⟨due, htimer, hlast⟩ := hscheduled
    refine ⟨times, [], hsending.history_eq, hsending.count_le, hsending.backedOff, by simp,
      Nat.zero_le _, by simp, fun due' hdue => ⟨rfl, ?_⟩⟩
    have hqueued : (due', r) ∈ m.queue.filter (·.2 = r) :=
      List.mem_filter.mpr ⟨hdue, decide_eq_true rfl⟩
    rw [htimer, List.mem_singleton] at hqueued
    obtain ⟨rfl, -⟩ := Prod.mk.inj hqueued
    exact hlast
  | answered hbusy => exact hbusy.elim
  | @removed request times hsending hgone =>
    exact ⟨times, [.removed r], hsending.history_eq, hsending.count_le, hsending.backedOff,
      by simp [sentAt], by simp [IsOutcome], by simp [IsOutcome],
      fun due hdue => absurd hdue (hgone.not_mem due)⟩
  | @done request times e hsending hanswers hgone =>
    obtain ⟨hunsent, houtcome⟩ := hanswers.spec
    have hremoved : IsOutcome (.removed r) = false := rfl
    refine ⟨times, [e, .removed r], hsending.history_eq, hsending.count_le, hsending.backedOff,
      fun e' he' => ?_, by simp [hremoved, houtcome], fun e' he' houtcome' => ?_,
      fun due hdue => absurd hdue (hgone.not_mem due)⟩
    · rcases List.mem_cons.mp he' with rfl | he'
      · exact hunsent
      · rw [List.mem_singleton.mp he']
        rfl
    rcases List.mem_cons.mp he' with rfl | he'
    · exact ⟨request, hsending.object, hanswers⟩
    · rw [List.mem_singleton.mp he'] at houtcome'
      cases houtcome'

theorem Shape.transacts {times : List Nat} {closing : List RequestEvent}
    (h : Shape m r times closing) : Transacts m r := by
  have hsent : ∀ e ∈ times.map (RequestEvent.sent r), sentAt e ≠ none ∧ IsOutcome e = false := by
    intro e he
    obtain ⟨t, -, rfl⟩ := List.mem_map.mp he
    exact ⟨Option.some_ne_none t, rfl⟩
  have htimes : m.sendTimes r = times := by
    have hclosing : closing.filterMap sentAt = [] := List.filterMap_eq_nil_iff.mpr h.unsent
    have hall : (times.map (RequestEvent.sent r)).filterMap sentAt = times := by
      rw [List.filterMap_map]
      exact List.filterMap_some
    rw [sendTimes, h.history_eq, List.filterMap_append, hclosing, hall, List.append_nil]
  refine ⟨?_, fun e he houtcome => ?_, ?_, ?_, fun due hdue => ?_, fun pre e post hsplit hends => ?_⟩
  · have hnone : (times.map (RequestEvent.sent r)).filter IsOutcome = [] :=
      List.filter_eq_nil_iff.mpr fun e he => by simp [(hsent e he).2]
    rw [h.history_eq, List.filter_append, hnone, List.nil_append]
    exact h.once
  · rw [h.history_eq] at he
    rcases List.mem_append.mp he with he | he
    · rw [(hsent e he).2] at houtcome
      cases houtcome
    · exact h.answers e he houtcome
  · rw [htimes]
    exact h.count_le
  · rw [htimes]
    exact h.backedOff
  · rw [htimes]
    exact (h.due due hdue).2
  · -- An ending is no transmission, so it is in the closing part.
    have hunsent : sentAt e = none := by
      rcases hends with houtcome | rfl
      · cases e <;> first | rfl | cases houtcome
      · rfl
    obtain ⟨front, hclosing⟩ : ∃ front, closing = front ++ e :: post := by
      have heq := h.history_eq.symm.trans hsplit
      rcases List.append_eq_append_iff.mp heq with ⟨front, -, hclosing⟩ | ⟨front, htimes, hrest⟩
      · exact ⟨front, hclosing⟩
      · cases front with
        | nil => exact ⟨[], hrest.symm⟩
        | cons e' front =>
          obtain ⟨rfl, -⟩ := List.cons.inj hrest
          have hmem : e ∈ times.map (RequestEvent.sent r) := by
            rw [htimes]
            exact List.mem_append_right _ List.mem_cons_self
          exact absurd hunsent (hsent e hmem).1
    constructor
    · intro e' he'
      refine h.unsent e' ?_
      rw [hclosing]
      exact List.mem_append_right _ (List.mem_cons_of_mem _ he')
    · intro due hdue
      rw [(h.due due hdue).1] at hclosing
      exact absurd hclosing.symm (by simp)

/-- Whatever happens to a manager, each of its requests has one outcome at most, and
is over with it. -/
theorem transacts_run {events : List Event} (hrun : run {} events = some m) (r : Nat) :
    Transacts m r := by
  have hphase := (tracked_initial.run hrun).phase r
  obtain ⟨times, closing, hshape⟩ := (hphase.imp fun hbusy => by cases hbusy).shape
  exact hshape.transacts

/-- A request that is sent twice, answered, and answered again. -/
theorem transacts_run_answered :
    let request : StunMessage := ⟨.stun, 1, 0, List.replicate 12 7, []⟩
    let response : StunMessage := ⟨.stun, 0x0101, 0, List.replicate 12 7, []⟩
    ∃ m, run {} [.sendDelayed request 0, .timer 0 [], .tick 100, .timer 0 [],
      .message response [.sendDelayed { request with transactionId := List.replicate 12 8 } 50],
      .message response [], .clear] = some m ∧ Transacts m 0 ∧
      m.record = [.sent 0 0, .sent 0 100, .response 0 response, .removed 0, .removed 1] := by
  intro request response
  have hrun : (run {} [.sendDelayed request 0, .timer 0 [], .tick 100, .timer 0 [],
      .message response [.sendDelayed { request with transactionId := List.replicate 12 8 } 50],
      .message response [], .clear]).map (·.record) =
      some [.sent 0 0, .sent 0 100, .response 0 response, .removed 0, .removed 1] := by
    decide
  obtain ⟨m, hm, hrecord⟩ := Option.map_eq_some_iff.mp hrun
  exact ⟨m, hm, transacts_run hm 0, hrecord⟩

end

end StunRequestManager

end Libjingle
