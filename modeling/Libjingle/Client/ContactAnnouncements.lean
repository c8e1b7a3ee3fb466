import Libjingle.Xmpp.RosterModule

/-! `RosterHandler::ContactsAdded`: the contacts that the roster module says are new are
signalled one after the other, each with a presence that came in for it. -/

namespace Libjingle

inductive XmppPresenceShow
  | chat
  | default
  | away
  | xa
  | dnd
  deriving DecidableEq, Repr

inductive XmppPresenceAvailable
  | unavailable
  | available
  | error
  deriving DecidableEq, Repr

def XmppPresenceShow.toNat : XmppPresenceShow → Nat
  | chat => 0
  | default => 1
  | away => 2
  | xa => 3
  | dnd => 4

def XmppPresenceAvailable.toNat : XmppPresenceAvailable → Nat
  | unavailable => 0
  | available => 1
  | error => 2

def stringToPresenceShow (input : String) : Option XmppPresenceShow :=
  if input = "away" then some .away
  else if input = "dnd" then some .dnd
  else if input = "xa" then some .xa
  else if input = "chat" then some .chat
  else if input = "" then some .default
  else none

def presenceAvailable (stanza : XmlElement) : XmppPresenceAvailable :=
  if stanza.attr qnType = "unavailable" then .unavailable
  else if stanza.attr qnType = "error" then .error
  else .available

def presenceShow (stanza : XmlElement) : XmppPresenceShow :=
  (stringToPresenceShow (stanza.textNamed qnShow)).getD .default

def XmppRosterModule.stored (s : XmppRosterModule) (jid : Jid) : List XmlElement :=
  s.stanzas ((s.incomingPresenceMap jid).getD [])

def XmppRosterModule.getIncomingPresenceForJid (s : XmppRosterModule) (jid : Jid) (index : Nat) :
    Option XmlElement :=
  (s.stored jid)[index]?

namespace RosterHandler

/-- What `SignalContactAdded` carries. -/
structure ContactAdded where
  jid : List UInt8
  name : String
  available : Nat
  presenceShow : Nat
  deriving DecidableEq, Repr

def announce (s : XmppRosterModule) (contact : XmlElement) (i : Nat) : ContactAdded :=
  let jid := jidAttr qnJid contact
  let presence := s.getIncomingPresenceForJid jid i
  { jid := jid.str
    name := contact.attr qnName
    available := presence.elim 0 fun p => (presenceAvailable p).toNat
    presenceShow := presence.elim 0 fun p => (Libjingle.presenceShow p).toNat }

/-- The loop from turn `i` on, which follows a null pointer where there is no contact. -/
def contactsAddedFrom (s : XmppRosterModule) (index i : Nat) : Nat → Option (List ContactAdded)
  | 0 => some []
  | turns + 1 => do
    let contact ← s.contacts[index + i]?
    let rest ← contactsAddedFrom s index (i + 1) turns
    return announce s contact i :: rest

def contactsAdded (s : XmppRosterModule) (index number : Nat) : Option (List ContactAdded) :=
  contactsAddedFrom s index 0 number

/-- The values of a presence as they are signalled. -/
def values (p : XmlElement) : Nat × Nat := ((presenceAvailable p).toNat, (presenceShow p).toNat)

structure Announces (s : XmppRosterModule) (contact : XmlElement) (a : ContactAdded) : Prop where
  jid : a.jid = (jidAttr qnJid contact).str
  name : a.name = contact.attr qnName
  own : s.stored (jidAttr qnJid contact) ≠ [] →
    ∃ p ∈ s.stored (jidAttr qnJid contact), (a.available, a.presenceShow) = values p
  zero : a.available = 0 → a.presenceShow = 0 → s.stored (jidAttr qnJid contact) = []

/-- Nothing is stored for the contact, or it has a presence at the place of the turn that is
not an unavailable one with the show of a chat. -/
def Fits (s : XmppRosterModule) (contact : XmlElement) (i : Nat) : Prop :=
  s.stored (jidAttr qnJid contact) = [] ∨
    ∃ p, (s.stored (jidAttr qnJid contact))[i]? = some p ∧
      ¬ (presenceAvailable p = .unavailable ∧ presenceShow p = .chat)

section Announcements

variable {s : XmppRosterModule} {contact : XmlElement} {index i turns : Nat}

theorem values_zero (p : XmlElement) :
    (presenceAvailable p).toNat = 0 ∧ (presenceShow p).toNat = 0 ↔
      presenceAvailable p = .unavailable ∧ presenceShow p = .chat := by
  cases presenceAvailable p <;> cases presenceShow p <;>
    simp [XmppPresenceAvailable.toNat, XmppPresenceShow.toNat]

theorem announce_announces_iff : Announces s contact (announce s contact i) ↔ Fits s contact i := by
  by_cases hnone : s.stored (jidAttr qnJid contact) = []
  · have hpresence : s.getIncomingPresenceForJid (jidAttr qnJid contact) i = none := by
      simp [XmppRosterModule.getIncomingPresenceForJid, hnone]
    constructor
    · exact fun _ => .inl hnone
    · intro _
      exact ⟨rfl, rfl, fun h => absurd hnone h, fun _ _ => hnone⟩
  · cases hpresence : (s.stored (jidAttr qnJid contact))[i]? with
    | none =>
      constructor
      · intro h
        have hzero := h.zero
        simp only [announce, XmppRosterModule.getIncomingPresenceForJid, hpresence] at hzero
        exact absurd (hzero rfl rfl) hnone
      · rintro (h | ⟨p, hp, -⟩)
        · exact absurd h hnone
        · simp [hpresence] at hp
    | some p =>
      have hmem : p ∈ s.stored (jidAttr qnJid contact) := List.mem_of_getElem? hpresence
      constructor
      · intro h
        refine .inr ⟨p, hpresence, fun hp => ?_⟩
        obtain ⟨ha, hs⟩ := (values_zero p).mpr hp
        have hzero := h.zero
        simp only [announce, XmppRosterModule.getIncomingPresenceForJid, hpresence] at hzero
        exact hnone (hzero ha hs)
      · rintro (h | ⟨q, hq, hne⟩)
        · exact absurd h hnone
        · obtain rfl : p = q := by simpa [hpresence] using hq
          refine ⟨rfl, rfl, fun _ => ⟨p, hmem, ?_⟩, fun ha hs => ?_⟩
          · simp [announce, XmppRosterModule.getIncomingPresenceForJid, hpresence, values]
          · simp only [announce, XmppRosterModule.getIncomingPresenceForJid, hpresence] at ha hs
            exact absurd ((values_zero p).mp ⟨ha, hs⟩) hne

theorem contactsAddedFrom_eq (h : index + i + turns ≤ s.contacts.length) :
    ∃ signals, contactsAddedFrom s index i turns = some signals ∧
      (List.Forall₂ (Announces s) ((s.contacts.drop (index + i)).take turns) signals ↔
        ∀ j < turns, ∀ contact, s.contacts[index + i + j]? = some contact →
          Fits s contact (i + j)) := by
  induction turns generalizing i with
  | zero => exact ⟨[], rfl, by simp⟩
  | succ turns ih =>
    obtain ⟨rest, hrest, hiff⟩ := ih (i := i + 1) (by omega)
    have hlt : index + i < s.contacts.length := by omega
    have hget : s.contacts[index + i]? = some s.contacts[index + i] := List.getElem?_eq_getElem hlt
    have hdrop : (s.contacts.drop (index + i)).take (turns + 1) =
        s.contacts[index + i] :: (s.contacts.drop (index + (i + 1))).take turns := by
      rw [List.drop_eq_getElem_cons hlt, List.take_succ_cons, Nat.add_assoc]
    refine ⟨announce s s.contacts[index + i] i :: rest, ?_, ?_⟩
    · simp [contactsAddedFrom, hget, hrest]
    · rw [hdrop, List.forall₂_cons, announce_announces_iff, hiff]
      constructor
      · rintro ⟨hfirst, hlater⟩ j hj contact hcontact
        cases j with
        | zero =>
          obtain rfl : s.contacts[index + i] = contact := by simpa [hget] using hcontact
          exact hfirst
        | succ j =>
          have hplace : index + i + (j + 1) = index + (i + 1) + j := by omega
          have hturn : i + (j + 1) = i + 1 + j := by omega
          rw [hplace] at hcontact
          rw [hturn]
          exact hlater j (by omega) contact hcontact
      · intro h
        refine ⟨h 0 (by omega) _ hget, ?_⟩
        intro j hj contact hcontact
        have hplace : index + (i + 1) + j = index + i + (j + 1) := by omega
        have hturn : i + 1 + j = i + (j + 1) := by omega
        rw [hplace] at hcontact
        rw [hturn]
        exact h (j + 1) (by omega) contact hcontact

end Announcements

/-- The contacts are announced in order, each with a presence of its own, exactly if each finds
one at the place of its turn. -/
theorem contactsAdded_right_iff (s : XmppRosterModule) {index number : Nat}
    (h : index + number ≤ s.contacts.length) :
    (∃ signals, contactsAdded s index number = some signals ∧
      List.Forall₂ (Announces s) ((s.contacts.drop index).take number) signals) ↔
      ∀ i < number, ∀ contact, s.contacts[index + i]? = some contact → Fits s contact i := by
  obtain ⟨signals, hsignals, hiff⟩ := contactsAddedFrom_eq (i := 0) h
  simp only [Nat.add_zero, Nat.zero_add] at hiff
  rw [← hiff]
  constructor
  · rintro ⟨signals', hsignals', hall⟩
    obtain rfl : signals = signals' := Option.some.inj (hsignals.symm.trans hsignals')
    exact hall
  · exact fun hall => ⟨signals, hsignals, hall⟩

/-- A presence that comes in before the roster. -/
def earlyPresence : XmlElement := ({ name := qnPresence } : XmlElement).addAttr qnFrom "b@x/r"

def rosterResult : XmlElement :=
  let item (jid : String) := ({ name := qnRosterItem } : XmlElement).addAttr qnJid jid
  (({ name := qnIq } : XmlElement).addAttr qnType "result").addElement
    ((({ name := qnRosterQuery } : XmlElement).addElement (item "a@x")).addElement (item "b@x"))

def afterRoster : Option XmppRosterModule :=
  (((XmppRosterModule.Incoming.stanza earlyPresence).apply { rosterHandler := true }).bind
    (XmppRosterModule.Incoming.iqResponse rosterResult).apply)

theorem contactsAdded_right_first : ∃ s, afterRoster = some s ∧
    ∃ signals, contactsAdded s 0 1 = some signals ∧
      List.Forall₂ (Announces s) ((s.contacts.drop 0).take 1) signals := by
  refine ⟨_, rfl, (contactsAdded_right_iff _ (by decide)).mpr ?_⟩
  intro i hi contact hcontact
  obtain rfl : i = 0 := by omega
  obtain rfl := Option.some.inj hcontact
  exact .inl rfl

/-- The second contact has the presence, and the handler is told of both at once. -/
theorem early_presence_missed : ∃ s, afterRoster = some s ∧ s.contacts.length = 2 ∧
    (∃ n ∈ s.notified, n.1 = .contactsAdded 0 2) ∧
    ¬ ∃ signals, contactsAdded s 0 2 = some signals ∧
      List.Forall₂ (Announces s) ((s.contacts.drop 0).take 2) signals := by
  refine ⟨_, rfl, rfl, ⟨_, List.mem_cons_of_mem _ (List.mem_singleton.mpr rfl), rfl⟩, ?_⟩
  rintro ⟨signals, hsignals, hall⟩
  obtain rfl := Option.some.inj hsignals
  cases hall with
  | cons _ hall =>
    cases hall with
    | cons hsecond _ => exact absurd (hsecond.zero rfl rfl) (List.cons_ne_nil _ _)

end RosterHandler

end Libjingle
