import Mathlib.Data.List.Induction
import Libjingle.Lib.KeyedList
import Libjingle.Lib.Runs
import Libjingle.Xmpp.RosterModule

/-! The contacts are what the items make of them one after another, as long as the first roster
lists nobody twice and no item removes an unknown contact. The handler that follows the
notifications has the contacts in any case. -/

namespace Libjingle

namespace XmppRosterModule

open KeyedList

/-- The roster as a map: an item deletes its address or puts itself there. -/
def processItem (m : Jid → Option XmlElement) (item : XmlElement) : Jid → Option XmlElement :=
  if (jidAttr qnJid item).isValid then
    Function.update m (jidAttr qnJid item) (if isRemove item then none else some item)
  else m

/-- What an item may ask for: of a roster that is all new nothing is searched, and a contact to
remove is known. -/
def Expected (allNew : Bool) (m : Jid → Option XmlElement) (item : XmlElement) : Prop :=
  (jidAttr qnJid item).isValid = true →
    if allNew then isRemove item = false ∧ m (jidAttr qnJid item) = none
    else isRemove item = true → m (jidAttr qnJid item) ≠ none

section Items

variable {s : XmppRosterModule} {m : Jid → Option XmlElement} {item : XmlElement}
  {allNew : Bool}

theorem contacts_notify {n : RosterNotification} : (s.notify n).contacts = s.contacts := by
  unfold notify
  split <;> rfl

theorem findContact_spec (jid : Jid) (contacts : List XmlElement) :
    (∃ l c r, contacts = l ++ c :: r ∧ jidAttr qnJid c = jid ∧
      findContact jid contacts = some (c, l.length)) ∨
    (∀ c ∈ contacts, jidAttr qnJid c ≠ jid) ∧ findContact jid contacts = none := by
  induction contacts with
  | nil => exact .inr ⟨fun _ h => absurd h List.not_mem_nil, rfl⟩
  | cons c contacts ih =>
    by_cases hc : jidAttr qnJid c = jid
    · exact .inl ⟨[], c, contacts, rfl, hc, by simp [findContact, hc]⟩
    · rcases ih with ⟨l, d, r, rfl, hd, hfound⟩ | ⟨hnone, hfound⟩
      · exact .inl ⟨c :: l, d, r, rfl, hd, by simp [findContact, hc, hfound]⟩
      · exact .inr ⟨List.forall_mem_cons.mpr ⟨hc, hnone⟩, by simp [findContact, hc, hfound]⟩

theorem rosterItem_cases (allNew : Bool) (s : XmppRosterModule) (item : XmlElement) :
    (jidAttr qnJid item).isValid = false ∧ rosterItem allNew s item = s ∨
    (jidAttr qnJid item).isValid = true ∧
      ((∃ l c r, allNew = false ∧ s.contacts = l ++ c :: r ∧
          jidAttr qnJid c = jidAttr qnJid item ∧
          (isRemove item = true ∧ rosterItem allNew s item =
              { s with contacts := l ++ r }.notify (.contactRemoved c l.length) ∨
            isRemove item = false ∧ rosterItem allNew s item =
              { s with contacts := l ++ item :: r }.notify (.contactChanged c l.length))) ∨
        (allNew = true ∨ ∀ c ∈ s.contacts, jidAttr qnJid c ≠ jidAttr qnJid item) ∧
          rosterItem allNew s item =
            if allNew then { s with contacts := s.contacts ++ [item] }
            else { s with contacts := s.contacts ++ [item] }.notify
              (.contactsAdded s.contacts.length 1)) := by
  by_cases hvalid : (jidAttr qnJid item).isValid = true
  · refine .inr ⟨hvalid, ?_⟩
    cases allNew with
    | true => exact .inr ⟨.inl rfl, by simp [rosterItem, hvalid]⟩
    | false =>
      rcases findContact_spec (jidAttr qnJid item) s.contacts with
        ⟨l, c, r, hsplit, hc, hfound⟩ | ⟨hnone, hfound⟩
      · refine .inl ⟨l, c, r, rfl, hsplit, hc, ?_⟩
        rw [hsplit] at hfound
        by_cases hremove : isRemove item = true
        · refine .inl ⟨hremove, ?_⟩
          simp [rosterItem, hvalid, hfound, hremove, hsplit, List.eraseIdx_append_of_length_le]
        · refine .inr ⟨Bool.eq_false_iff.mpr hremove, ?_⟩
          simp [rosterItem, hvalid, hfound, hremove, hsplit]
      · exact .inr ⟨.inr hnone, by simp [rosterItem, hvalid, hfound]⟩
  · exact .inl ⟨Bool.eq_false_iff.mpr hvalid, by simp [rosterItem, hvalid]⟩

theorem represents_item_iff (h : Represents (jidAttr qnJid) s.contacts m) :
    Represents (jidAttr qnJid) (rosterItem allNew s item).contacts (processItem m item) ↔
      Expected allNew m item := by
  rcases rosterItem_cases allNew s item with ⟨hvalid, heq⟩ | ⟨hvalid, hcases⟩
  · rw [heq, processItem, hvalid]
    exact iff_of_true h fun hyes => by rw [hvalid] at hyes; cases hyes
  rw [processItem, if_pos hvalid]
  rcases hcases with ⟨l, c, r, rfl, hsplit, hc, hcases⟩ | ⟨hnew, heq⟩
  · -- the address is known
    rw [hsplit] at h
    have hknown := h.of_mem (x := c) (by simp)
    rw [hc] at hknown
    rcases hcases with ⟨hremove, heq⟩ | ⟨hremove, heq⟩
    · rw [heq, contacts_notify, if_pos hremove, ← hc]
      refine iff_of_true h.remove fun _ _ => ?_
      rw [hknown]
      exact Option.some_ne_none c
    · rw [heq, contacts_notify, hremove]
      refine iff_of_true (h.replace hc.symm) fun _ hyes => ?_
      rw [hremove] at hyes
      cases hyes
  · -- the item goes to the end
    have hcontacts : (rosterItem allNew s item).contacts = s.contacts ++ [item] := by
      rw [heq]
      cases allNew with
      | true => rfl
      | false => exact contacts_notify
    rw [hcontacts]
    constructor
    · intro hafter _
      have hmem := hafter.of_mem (x := item) (by simp)
      rw [Function.update_self] at hmem
      have hadd : isRemove item = false := by
        by_contra hremove
        rw [if_pos (Bool.not_eq_false _ |>.mp hremove)] at hmem
        cases hmem
      cases allNew with
      | false =>
        intro hyes
        rw [hadd] at hyes
        cases hyes
      | true =>
        refine ⟨hadd, h.none_iff.mpr fun e he hkey => ?_⟩
        have hnodup := hafter.nodup
        rw [List.map_append, List.nodup_append] at hnodup
        exact hnodup.2.2 _ (List.mem_map_of_mem he) _ (by simp) hkey
    · intro hexpected
      have hexpected := hexpected hvalid
      have hfresh : m (jidAttr qnJid item) = none := by
        cases allNew with
        | true => exact hexpected.2
        | false => exact h.none_iff.mpr (hnew.resolve_left (by decide))
      have hadd : isRemove item = false := by
        cases allNew with
        | true => exact hexpected.1
        | false =>
          by_contra hremove
          exact hexpected (Bool.not_eq_false _ |>.mp hremove) hfresh
      rw [hadd]
      exact h.append hfresh

theorem represents_items_iff (items : List XmlElement)
    (h : Represents (jidAttr qnJid) s.contacts m) :
    (∀ n, Represents (jidAttr qnJid) ((items.take n).foldl (rosterItem allNew) s).contacts
      ((items.take n).foldl processItem m)) ↔
      Runs.Along processItem (Expected allNew) m items := by
  induction items generalizing s m with
  | nil => simp [h, Runs.Along]
  | cons item items ih =>
    constructor
    · intro hall
      exact ⟨(represents_item_iff h).mp (hall 1), (ih (hall 1)).mp fun n => hall (n + 1)⟩
    · rintro ⟨hfirst, hrest⟩ n
      cases n with
      | zero => exact h
      | succ n => exact (ih ((represents_item_iff h).mpr hfirst)).mpr hrest n

end Items

/-- What a handler makes of a notification that keeps the contacts by their places. -/
def follow (mirror : List XmlElement) (n : RosterNotification × List XmlElement) :
    List XmlElement :=
  match n.1 with
  | .contactsAdded index number =>
      mirror.take index ++ (n.2.drop index).take number ++ mirror.drop index
  | .contactChanged _ index => n.2[index]?.elim mirror (mirror.set index)
  | .contactRemoved _ index => mirror.eraseIdx index
  | _ => mirror

def mirror (s : XmppRosterModule) : List XmlElement := s.notified.foldl follow []

def InSync (s : XmppRosterModule) : Prop := s.rosterHandler = true → s.mirror = s.contacts

section Mirror

variable {s : XmppRosterModule} {item : XmlElement}

theorem rosterHandler_notify {n : RosterNotification} :
    (s.notify n).rosterHandler = s.rosterHandler := by
  unfold notify
  split <;> rfl

theorem inSync_notify {n : RosterNotification}
    (h : s.rosterHandler = true → follow s.mirror (n, s.contacts) = s.contacts) :
    (s.notify n).InSync := by
  intro hhandler
  rw [rosterHandler_notify] at hhandler
  rw [contacts_notify, notify, if_pos hhandler, mirror, List.foldl_append]
  exact h hhandler

theorem rosterItem_inSync (h : s.InSync) : (rosterItem false s item).InSync := by
  rcases rosterItem_cases false s item with ⟨-, heq⟩ | ⟨-, hcases⟩
  · rw [heq]
    exact h
  rcases hcases with ⟨l, c, r, -, hsplit, -, ⟨-, heq⟩ | ⟨-, heq⟩⟩ | ⟨-, heq⟩
  · rw [heq]
    refine inSync_notify fun hhandler => ?_
    have hmirror : s.mirror = l ++ c :: r := (h hhandler).trans hsplit
    change s.mirror.eraseIdx l.length = l ++ r
    rw [hmirror, List.eraseIdx_append_of_length_le (Nat.le_refl _)]
    simp
  · rw [heq]
    refine inSync_notify fun hhandler => ?_
    have hmirror : s.mirror = l ++ c :: r := (h hhandler).trans hsplit
    have hread : (l ++ item :: r)[l.length]? = some item := by simp
    change (l ++ item :: r)[l.length]?.elim s.mirror (s.mirror.set l.length) = l ++ item :: r
    rw [hread, hmirror]
    simp
  · rw [heq]
    refine inSync_notify fun hhandler => ?_
    have hmirror : s.mirror = s.contacts := h hhandler
    change s.mirror.take s.contacts.length ++
      ((s.contacts ++ [item]).drop s.contacts.length).take 1 ++
        s.mirror.drop s.contacts.length = s.contacts ++ [item]
    rw [hmirror]
    simp

theorem foldl_inSync (items : List XmlElement) (h : s.InSync) :
    (items.foldl (rosterItem false) s).InSync := by
  induction items generalizing s with
  | nil => exact h
  | cons item items ih => exact ih (rosterItem_inSync h)

theorem foldl_allNew (items : List XmlElement) (s : XmppRosterModule) :
    (items.foldl (rosterItem true) s).notified = s.notified ∧
      (items.foldl (rosterItem true) s).rosterHandler = s.rosterHandler := by
  induction items generalizing s with
  | nil => exact ⟨rfl, rfl⟩
  | cons item items ih =>
    obtain ⟨hnotified, hhandler⟩ := ih (rosterItem true s item)
    have hitem : (rosterItem true s item).notified = s.notified ∧
        (rosterItem true s item).rosterHandler = s.rosterHandler := by
      rcases rosterItem_cases true s item with ⟨-, heq⟩ | ⟨-, ⟨_, _, _, hfalse, -⟩ | ⟨-, heq⟩⟩
      · rw [heq]
        exact ⟨rfl, rfl⟩
      · cases hfalse
      · rw [heq]
        exact ⟨rfl, rfl⟩
    exact ⟨hnotified.trans hitem.1, hhandler.trans hitem.2⟩

theorem internalRosterItems_inSync (h : s.InSync) (stanza : XmlElement) :
    (s.internalRosterItems stanza).InSync := by
  unfold internalRosterItems
  by_cases hquery : (stanza.firstNamed qnRosterQuery).isNone = true
  · rw [if_pos hquery]
    exact h
  rw [if_neg hquery]
  cases hempty : s.contacts.isEmpty with
  | false => exact foldl_inSync _ h
  | true =>
    obtain ⟨hnotified, hhandler⟩ := foldl_allNew (itemsOf stanza) s
    refine inSync_notify fun hset => ?_
    have hmirror : ((itemsOf stanza).foldl (rosterItem true) s).mirror = [] := by
      have hold : s.mirror = s.contacts := h (hhandler.symm.trans hset)
      rw [mirror, hnotified]
      exact hold.trans (List.isEmpty_iff.mp hempty)
    rw [hmirror]
    simp [follow]

theorem contacts_internalRosterItems (stanza : XmlElement) :
    (s.internalRosterItems stanza).contacts =
      ((itemsOf stanza).foldl (rosterItem s.contacts.isEmpty) s).contacts := by
  unfold internalRosterItems
  by_cases hquery : (stanza.firstNamed qnRosterQuery).isNone = true
  · rw [if_pos hquery, itemsOf, Option.isNone_iff_eq_none.mp hquery]
    rfl
  · rw [if_neg hquery]
    by_cases hempty : s.contacts.isEmpty = true
    · rw [if_pos hempty, contacts_notify]
    · rw [if_neg hempty]

end Mirror

def bareFrom (e : XmlElement) : Jid := (jidAttr qnFrom e).bareJid

/-- The presences are those of the vector in the order they were created, and a bucket has those
of its bare address. -/
structure PresencesKept (s : XmppRosterModule) (p : Jid → Option XmlElement) : Prop where
  vector : s.incomingPresenceVector = List.range s.presences.length
  latest : Represents (jidAttr qnFrom) s.presences p
  bucket : ∀ bare, (s.incomingPresenceMap bare).getD [] =
    (List.range s.presences.length).filter fun i => (s.presences[i]?).map bareFrom = some bare

/-- The vector has the latest presence of every address once, and each bucket has those of the
vector that are its own. -/
structure PresencesRight (s : XmppRosterModule) (p : Jid → Option XmlElement) : Prop where
  vector : Represents (jidAttr qnFrom) (s.stanzas s.incomingPresenceVector) p
  bucket : ∀ bare, s.stanzas ((s.incomingPresenceMap bare).getD []) =
    (s.stanzas s.incomingPresenceVector).filter fun e => bareFrom e = bare

section Presences

variable {s : XmppRosterModule} {p : Jid → Option XmlElement}

theorem filterMap_range {α : Type} (l : List α) : (List.range l.length).filterMap (l[·]?) = l := by
  induction l using List.reverseRecOn with
  | nil => rfl
  | append_singleton l x ih =>
    have hold : (List.range l.length).filterMap ((l ++ [x])[·]?) =
        (List.range l.length).filterMap (l[·]?) :=
      List.filterMap_congr fun i hi => List.getElem?_append_left (List.mem_range.mp hi)
    rw [List.length_append, List.length_singleton, List.range_succ, List.filterMap_append, hold, ih]
    simp

theorem PresencesKept.right (h : s.PresencesKept p) : s.PresencesRight p := by
  have hvector : s.stanzas s.incomingPresenceVector = s.presences := by
    rw [stanzas, h.vector, filterMap_range]
  refine ⟨by rw [hvector]; exact h.latest, fun bare => ?_⟩
  have hfilter : s.presences.filter (fun e => bareFrom e = bare) =
      ((List.range s.presences.length).filterMap (s.presences[·]?)).filter
        fun e => bareFrom e = bare := by
    rw [filterMap_range]
  rw [hvector, hfilter, List.filter_filterMap, stanzas, h.bucket, List.filterMap_filter]
  refine List.filterMap_congr fun i _ => ?_
  cases s.presences[i]? with
  | none => rfl
  | some e => by_cases he : bareFrom e = bare <;> simp [he, Option.filter]

theorem presencesKept_notify {n : RosterNotification} :
    (s.notify n).PresencesKept p ↔ s.PresencesKept p := by
  unfold notify
  split
  · exact ⟨fun h => ⟨h.vector, h.latest, h.bucket⟩, fun h => ⟨h.vector, h.latest, h.bucket⟩⟩
  · exact Iff.rfl

theorem internalIncomingPresence_kept (h : s.PresencesKept p) {stanza : XmlElement}
    (hname : stanza.name = qnPresence) :
    (s.internalIncomingPresence (jidAttr qnFrom stanza) stanza).PresencesKept
      (Function.update p (jidAttr qnFrom stanza) (some stanza)) := by
  have hbucket := h.bucket (bareFrom stanza)
  have hmap (bucket : List Nat) (bare : Jid) :
      (Function.update s.incomingPresenceMap (bareFrom stanza) (some bucket) bare).getD [] =
        if bare = bareFrom stanza then bucket else (s.incomingPresenceMap bare).getD [] := by
    by_cases hbare : bare = bareFrom stanza
    · subst hbare
      simp
    · simp [hbare]
  simp only [internalIncomingPresence, ← bareFrom.eq_1, hbucket]
  split
  · -- nothing from this address yet
    rename_i hnone
    have hfresh : p (jidAttr qnFrom stanza) = none := by
      rw [h.latest.none_iff]
      intro e he hkey
      obtain ⟨i, hi⟩ := List.mem_iff_getElem?.mp he
      obtain ⟨hlt, -⟩ := List.getElem?_eq_some_iff.mp hi
      have hbare : bareFrom e = bareFrom stanza := congrArg Jid.bareJid hkey
      have hmem : i ∈ (List.range s.presences.length).filter fun i =>
          (s.presences[i]?).map bareFrom = some (bareFrom stanza) :=
        List.mem_filter.mpr ⟨List.mem_range.mpr hlt, by simp [hi, hbare]⟩
      exact List.find?_eq_none.mp hnone i hmem (by simp [hi, hkey])
    rw [if_pos hname, presencesKept_notify]
    refine ⟨?_, h.latest.append hfresh, fun bare => ?_⟩
    · change s.incomingPresenceVector ++ [s.presences.length] =
        List.range (s.presences ++ [stanza]).length
      rw [h.vector, List.length_append, List.length_singleton, List.range_succ]
    · have hold : (List.range s.presences.length).filter
          (fun i => ((s.presences ++ [stanza])[i]?).map bareFrom = some bare) =
          (List.range s.presences.length).filter
            fun i => (s.presences[i]?).map bareFrom = some bare :=
        List.filter_congr fun i hi => by
          rw [List.getElem?_append_left (List.mem_range.mp hi)]
      refine (hmap _ bare).trans ?_
      change _ = (List.range (s.presences ++ [stanza]).length).filter fun i =>
        ((s.presences ++ [stanza])[i]?).map bareFrom = some bare
      rw [List.length_append, List.length_singleton, List.range_succ, List.filter_append, hold]
      by_cases hbare : bare = bareFrom stanza
      · subst hbare
        simp
      · have hother : bareFrom stanza ≠ bare := fun heq => hbare heq.symm
        simp [hbare, hother, h.bucket]
  · rename_i i hfound
    obtain ⟨hsome, -⟩ := List.find?_eq_some_iff_append.mp hfound
    obtain ⟨old, hold, hkey⟩ := Option.map_eq_some_iff.mp (of_decide_eq_true hsome)
    obtain ⟨hlt, hget⟩ := List.getElem?_eq_some_iff.mp hold
    have hsplit : s.presences = s.presences.take i ++ old :: s.presences.drop (i + 1) := by
      rw [← hget, ← List.drop_eq_getElem_cons hlt, List.take_append_drop]
    rw [if_pos hname, presencesKept_notify]
    have hlen : (s.presences.set i stanza).length = s.presences.length := List.length_set
    refine ⟨?_, ?_, fun bare => ?_⟩
    · change s.incomingPresenceVector = List.range (s.presences.set i stanza).length
      rw [hlen, h.vector]
    · have hlatest := h.latest
      rw [hsplit] at hlatest
      have hset : s.presences.set i stanza =
          s.presences.take i ++ stanza :: s.presences.drop (i + 1) :=
        List.set_eq_take_append_cons_drop.trans (if_pos hlt)
      change Represents (jidAttr qnFrom) (s.presences.set i stanza) _
      rw [hset]
      exact hlatest.replace hkey.symm
    · have hsame : ∀ j : Nat, ((s.presences.set i stanza)[j]?).map bareFrom =
          (s.presences[j]?).map bareFrom := by
        intro j
        by_cases hj : i = j
        · subst hj
          have hbare : bareFrom stanza = bareFrom old := (congrArg Jid.bareJid hkey).symm
          rw [List.getElem?_set_self hlt, hold, Option.map_some, Option.map_some, hbare]
        · rw [List.getElem?_set_ne hj]
      refine (hmap _ bare).trans ?_
      change _ = (List.range (s.presences.set i stanza).length).filter fun j : Nat =>
        ((s.presences.set i stanza)[j]?).map bareFrom = some bare
      simp only [hlen, hsame]
      by_cases hbare : bare = bareFrom stanza
      · subst hbare
        rw [if_pos rfl]
      · rw [if_neg hbare, h.bucket]

end Presences

/-- What the stanzas so far say: the contacts and the latest presences. -/
structure Books where
  contacts : Jid → Option XmlElement := fun _ => none
  presences : Jid → Option XmlElement := fun _ => none

def Books.take (b : Books) (ev : Incoming) : Books where
  contacts := ev.items.foldl processItem b.contacts
  presences := ev.presence.elim b.presences fun e =>
    Function.update b.presences (jidAttr qnFrom e) (some e)

/-- The stanza goes through, the contacts follow the items one by one, the handler has the
contacts at the end, and the presences are the latest. -/
def Right (s : XmppRosterModule) (b : Books) (ev : Incoming) : Prop :=
  ∃ t, ev.apply s = some t ∧
    (∀ n, Represents (jidAttr qnJid)
      ((ev.items.take n).foldl (rosterItem s.contacts.isEmpty) s).contacts
      ((ev.items.take n).foldl processItem b.contacts)) ∧
    Represents (jidAttr qnJid) t.contacts (b.take ev).contacts ∧ t.InSync ∧
    t.PresencesRight (b.take ev).presences

/-- A response is an error or a result, and every item asks for what it may. -/
def Ordinary (s : XmppRosterModule) (b : Books) (ev : Incoming) : Prop :=
  (∀ e, ev = .iqResponse e → e.attr qnType = "error" ∨ e.attr qnType = "result") ∧
    Runs.Along processItem (Expected s.contacts.isEmpty) b.contacts ev.items

structure Inv (s : XmppRosterModule) (b : Books) : Prop where
  contacts : Represents (jidAttr qnJid) s.contacts b.contacts
  inSync : s.InSync
  presences : s.PresencesKept b.presences

section Runs

variable {s t : XmppRosterModule} {b : Books} {ev : Incoming}

theorem presences_internalRosterItems (stanza : XmlElement) {p : Jid → Option XmlElement} :
    (s.internalRosterItems stanza).PresencesKept p ↔ s.PresencesKept p := by
  have hitem (allNew : Bool) (s : XmppRosterModule) (item : XmlElement) :
      (rosterItem allNew s item).PresencesKept p ↔ s.PresencesKept p := by
    have hcontacts (contacts : List XmlElement) :
        PresencesKept { s with contacts } p ↔ s.PresencesKept p :=
      ⟨fun h => ⟨h.vector, h.latest, h.bucket⟩, fun h => ⟨h.vector, h.latest, h.bucket⟩⟩
    rcases rosterItem_cases allNew s item with ⟨-, heq⟩ | ⟨-, hcases⟩
    · rw [heq]
    rcases hcases with ⟨l, c, r, -, -, -, ⟨-, heq⟩ | ⟨-, heq⟩⟩ | ⟨-, heq⟩
    · rw [heq, presencesKept_notify, hcontacts]
    · rw [heq, presencesKept_notify, hcontacts]
    · rw [heq]
      cases allNew with
      | true => exact hcontacts _
      | false => exact presencesKept_notify.trans (hcontacts _)
  have hfoldl (allNew : Bool) (items : List XmlElement) (s : XmppRosterModule) :
      (items.foldl (rosterItem allNew) s).PresencesKept p ↔ s.PresencesKept p := by
    induction items generalizing s with
    | nil => exact Iff.rfl
    | cons item items ih => exact (ih _).trans (hitem allNew s item)
  unfold internalRosterItems
  by_cases hquery : (stanza.firstNamed qnRosterQuery).isNone = true
  · rw [if_pos hquery]
  · rw [if_neg hquery]
    by_cases hempty : s.contacts.isEmpty = true
    · rw [if_pos hempty, presencesKept_notify, hfoldl]
    · rw [if_neg hempty, hfoldl]

theorem told_spec (h : Inv s b) {n : RosterNotification}
    (hn : ∀ mirror c, follow mirror (n, c) = mirror) :
    (s.notify n).contacts = s.contacts ∧ (s.notify n).InSync ∧
      (s.notify n).PresencesKept b.presences :=
  ⟨contacts_notify, inSync_notify fun hhandler => (hn _ _).trans (h.inSync hhandler),
    presencesKept_notify.mpr h.presences⟩

theorem incomingPresence_spec (h : Inv s b) (jid : Jid) (stanza : XmlElement) :
    (s.internalIncomingPresence jid stanza).contacts = s.contacts ∧
      (s.internalIncomingPresence jid stanza).InSync := by
  have htold {t : XmppRosterModule} {n : Option Nat} (hcontacts : t.contacts = s.contacts)
      (hsync : t.InSync) : (t.notify (.incomingPresenceChanged n)).contacts = s.contacts ∧
        (t.notify (.incomingPresenceChanged n)).InSync :=
    ⟨contacts_notify.trans hcontacts, inSync_notify fun hhandler => hsync hhandler⟩
  unfold internalIncomingPresence
  dsimp only
  split
  · split <;> exact htold rfl h.inSync
  · exact htold rfl h.inSync

theorem handlePresence_spec (h : Inv s b) {e : XmlElement} (hname : e.name = qnPresence) :
    (s.handleStanza e).1.contacts = s.contacts ∧ (s.handleStanza e).1.InSync ∧
      (s.handleStanza e).1.PresencesKept (b.take (.stanza e)).presences := by
  have hother (hnot : ¬ ((jidAttr qnFrom e).isValid = true ∧
      (e.attr qnType = "unavailable" ∨ e.attr qnType = ""))) :
      (b.take (.stanza e)).presences = b.presences := by
    have hnone : (Incoming.stanza e).presence = none := if_neg fun hyes => hnot hyes.2
    rw [Books.take, hnone]
    rfl
  rw [handleStanza, if_pos hname]
  dsimp only
  cases hvalid : (jidAttr qnFrom e).isValid with
  | false =>
    rw [hother fun hyes => by rw [hvalid] at hyes; cases hyes.1]
    exact ⟨rfl, h.inSync, h.presences⟩
  | true =>
    simp only [Bool.not_true, Bool.false_eq_true, if_false]
    cases hrequest : stringToSubscriptionRequestType (e.attr qnType) with
    | some requestType =>
      have htype : ¬ (e.attr qnType = "unavailable" ∨ e.attr qnType = "") := by
        rintro (htype | htype) <;> rw [htype] at hrequest <;> cases hrequest
      rw [hother fun hyes => htype hyes.2]
      exact told_spec h fun _ _ => rfl
    | none =>
      by_cases htype : e.attr qnType = "unavailable" ∨ e.attr qnType = ""
      · have hsome : (Incoming.stanza e).presence = some e := if_pos ⟨hname, hvalid, htype⟩
        obtain ⟨hcontacts, hsync⟩ := incomingPresence_spec h (jidAttr qnFrom e) e
        dsimp only
        rw [if_pos htype, Books.take, hsome]
        exact ⟨hcontacts, hsync, internalIncomingPresence_kept h.presences hname⟩
      · dsimp only
        rw [if_neg htype, hother fun hyes => htype hyes.2]
        by_cases herror : e.attr qnType = "error"
        · rw [if_pos herror]
          exact told_spec h fun _ _ => rfl
        · rw [if_neg herror]
          exact ⟨rfl, h.inSync, h.presences⟩

theorem apply_spec (h : Inv s b) (hev : ∀ e, ev = .iqResponse e →
    e.attr qnType = "error" ∨ e.attr qnType = "result") :
    ∃ t, ev.apply s = some t ∧
      t.contacts = (ev.items.foldl (rosterItem s.contacts.isEmpty) s).contacts ∧ t.InSync ∧
      t.PresencesKept (b.take ev).presences := by
  cases ev with
  | iqResponse e =>
    by_cases herror : e.attr qnType = "error"
    · have hitems : (Incoming.iqResponse e).items = [] :=
        if_neg fun hresult => absurd (herror.symm.trans hresult) (by decide)
      rw [hitems]
      exact ⟨_, if_pos herror, told_spec h fun _ _ => rfl⟩
    · have hresult := (hev e rfl).resolve_left herror
      have hitems : (Incoming.iqResponse e).items = itemsOf e := if_pos hresult
      rw [hitems]
      exact ⟨_, (if_neg herror).trans (if_pos hresult), contacts_internalRosterItems e,
        internalRosterItems_inSync h.inSync e, (presences_internalRosterItems e).mpr h.presences⟩
  | stanza e =>
    refine ⟨_, rfl, ?_⟩
    by_cases hname : e.name = qnPresence
    · have hitems : (Incoming.stanza e).items = [] :=
        if_neg fun hiq => absurd (hname.symm.trans hiq.1) (by decide)
      rw [hitems]
      exact handlePresence_spec h hname
    · have hnone : (Incoming.stanza e).presence = none := if_neg fun hyes => hname hyes.1
      rw [handleStanza, if_neg hname, Books.take, hnone]
      by_cases hset : e.name = qnIq ∧ e.attr qnType = "set"
      · have hitems : (Incoming.stanza e).items = itemsOf e := if_pos hset
        rw [hitems, if_pos hset.1]
        by_cases hquery : (e.firstNamed qnRosterQuery).isNone
        · rw [if_pos (.inl hquery), itemsOf, Option.isNone_iff_eq_none.mp hquery]
          exact ⟨rfl, h.inSync, h.presences⟩
        · rw [if_neg (not_or.mpr ⟨hquery, not_not.mpr hset.2⟩)]
          have hkept := (presences_internalRosterItems e).mpr h.presences
          exact ⟨contacts_internalRosterItems e, internalRosterItems_inSync h.inSync e,
            ⟨hkept.vector, hkept.latest, hkept.bucket⟩⟩
      · have hitems : (Incoming.stanza e).items = [] := if_neg hset
        rw [hitems]
        by_cases hiq : e.name = qnIq
        · rw [if_pos hiq, if_pos (.inr fun hyes => hset ⟨hiq, hyes⟩)]
          exact ⟨rfl, h.inSync, h.presences⟩
        · rw [if_neg hiq]
          exact ⟨rfl, h.inSync, h.presences⟩

theorem right_iff (h : Inv s b) : Right s b ev ↔ Ordinary s b ev := by
  have hevery := @represents_items_iff s b.contacts s.contacts.isEmpty ev.items h.contacts
  constructor
  · rintro ⟨t, happly, hall, -⟩
    refine ⟨?_, hevery.mp hall⟩
    rintro e rfl
    by_contra hother
    obtain ⟨herror, hresult⟩ := not_or.mp hother
    simp [Incoming.apply, iqResponse, herror, hresult] at happly
  · rintro ⟨hev, hitems⟩
    obtain ⟨t, happly, hcontacts, hsync, hkept⟩ := apply_spec h hev
    have hall := hevery.mpr hitems
    refine ⟨t, happly, hall, ?_, hsync, hkept.right⟩
    have hlast := hall ev.items.length
    rw [List.take_length] at hlast
    rw [hcontacts]
    exact hlast

theorem inv_take (h : Inv s b) (hordinary : Ordinary s b ev) (happly : ev.apply s = some t) :
    Inv t (b.take ev) := by
  obtain ⟨u, hu, hcontacts, hsync, hkept⟩ := apply_spec h hordinary.1
  obtain rfl : u = t := Option.some.inj (hu.symm.trans happly)
  have hall := (@represents_items_iff s b.contacts s.contacts.isEmpty ev.items h.contacts).mpr
    hordinary.2
  refine ⟨?_, hsync, hkept⟩
  have hlast := hall ev.items.length
  rw [List.take_length] at hlast
  rw [hcontacts]
  exact hlast

end Runs

def taken (x : XmppRosterModule × Books) (ev : Incoming) : XmppRosterModule × Books :=
  ((ev.apply x.1).getD x.1, x.2.take ev)

theorem roster_follows_iff (handler : Bool) (events : List Incoming) :
    Runs.Along taken (fun x ev => Right x.1 x.2 ev) ({ rosterHandler := handler }, {}) events ↔
      Runs.Along taken (fun x ev => Ordinary x.1 x.2 ev) ({ rosterHandler := handler }, {})
        events := by
  have hstart : Inv { rosterHandler := handler } {} := by
    refine ⟨⟨List.nodup_nil, ?_⟩, fun _ => rfl, ⟨rfl, ⟨List.nodup_nil, ?_⟩, fun _ => rfl⟩⟩ <;>
      simp
  refine @Runs.along_iff (XmppRosterModule × Books) Incoming _ _ _ (fun x => Inv x.1 x.2)
    (fun x ev h => right_iff h) ?_ _ hstart events
  intro x ev h hright
  have hordinary := (right_iff h).mp hright
  obtain ⟨t, happly, -⟩ := hright
  simp only [taken, happly, Option.getD_some]
  exact inv_take h hordinary happly

def rosterResult (items : List XmlElement) : XmlElement where
  name := qnIq
  attrs := [(qnType, "result")]
  children := [.inr { name := qnRosterQuery, children := items.map .inr }]

def rosterItemOf (jid subscription : String) : XmlElement where
  name := qnRosterItem
  attrs := [(qnJid, jid), (qnSubscription, subscription)]

/-- The first roster lists `a` twice, and then there are two contacts of one address. In an empty
roster the item that removes `a` makes a contact. -/
theorem roster_listed_twice :
    (({ rosterHandler := true } : XmppRosterModule).internalRosterItems
      (rosterResult [rosterItemOf "a" "both", rosterItemOf "a" "both"])).contacts.map
        (jidAttr qnJid) = [Jid.ofString [0x61], Jid.ofString [0x61]] ∧
    (({ rosterHandler := true } : XmppRosterModule).internalRosterItems
      (rosterResult [rosterItemOf "a" "remove"])).contacts.map (jidAttr qnJid) =
        [Jid.ofString [0x61]] ∧
    ¬ Runs.Along taken (fun x ev => Right x.1 x.2 ev) ({ rosterHandler := true }, {})
      [.iqResponse (rosterResult [rosterItemOf "a" "both", rosterItemOf "a" "both"])] ∧
    ¬ Runs.Along taken (fun x ev => Right x.1 x.2 ev) ({ rosterHandler := true }, {})
      [.iqResponse (rosterResult [rosterItemOf "a" "remove"])] := by
  have hstart : Inv { rosterHandler := true } {} := by
    refine ⟨⟨List.nodup_nil, ?_⟩, fun _ => rfl, ⟨rfl, ⟨List.nodup_nil, ?_⟩, fun _ => rfl⟩⟩ <;>
      simp
  refine ⟨by decide, by decide, ?_, ?_⟩
  · rintro ⟨hright, -⟩
    obtain ⟨-, -, htwice, -⟩ := (right_iff hstart).mp hright
    exact absurd (htwice (by decide)).2 (by decide)
  · rintro ⟨hright, -⟩
    obtain ⟨-, hremove, -⟩ := (right_iff hstart).mp hright
    exact absurd (hremove (by decide)).1 (by decide)

end XmppRosterModule

end Libjingle
