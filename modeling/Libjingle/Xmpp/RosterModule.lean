import Mathlib.Logic.Function.Basic
import Libjingle.Xmpp.Constants
import Libjingle.Xmpp.Jid

/-! The roster: the contacts as the server lists and pushes them, and the presences that come
in. The handler is told of every change of the contacts by its place among them. -/

namespace Libjingle

def jidAttr (name : QName) (e : XmlElement) : Jid :=
  Jid.ofString (e.attr name).toUTF8.data.toList

inductive XmppSubscriptionRequestType
  | subscribe
  | unsubscribe
  | subscribed
  | unsubscribed
  deriving DecidableEq, Repr

def stringToSubscriptionRequestType (type : String) : Option XmppSubscriptionRequestType :=
  if type = "subscribe" then some .subscribe
  else if type = "unsubscribe" then some .unsubscribe
  else if type = "subscribed" then some .subscribed
  else if type = "unsubscribed" then some .unsubscribed
  else none

inductive RosterNotification where
  | subscriptionRequest (jid : Jid) (type : XmppSubscriptionRequestType) (stanza : XmlElement)
  | subscriptionError (jid : Jid) (stanza : XmlElement)
  | rosterError (stanza : XmlElement)
  | incomingPresenceChanged (presence : Option Nat)
  | contactChanged (oldContact : XmlElement) (index : Nat)
  | contactsAdded (index number : Nat)
  | contactRemoved (oldContact : XmlElement) (index : Nat)

/-- A contact is the item it was made from. A presence is known by its place among all that
were created. With each call of the handler stand the contacts that it can read then. -/
structure XmppRosterModule where
  rosterHandler : Bool
  contacts : List XmlElement := []
  presences : List XmlElement := []
  incomingPresenceMap : Jid → Option (List Nat) := fun _ => none
  incomingPresenceVector : List Nat := []
  notified : List (RosterNotification × List XmlElement) := []
  sent : List XmlElement := []

namespace XmppRosterModule

section Module

variable (s : XmppRosterModule)

def notify (n : RosterNotification) : XmppRosterModule :=
  if s.rosterHandler then { s with notified := s.notified ++ [(n, s.contacts)] } else s

/-- The first contact with the address, and its place. -/
def findContact (jid : Jid) : List XmlElement → Option (XmlElement × Nat)
  | [] => none
  | c :: rest =>
      if jidAttr qnJid c = jid then some (c, 0)
      else (findContact jid rest).map fun found => (found.1, found.2 + 1)

def isRemove (item : XmlElement) : Bool := item.attr qnSubscription = "remove"

/-- One turn of the loop over the items. Nothing is searched where all are taken to be new. -/
def rosterItem (allNew : Bool) (s : XmppRosterModule) (item : XmlElement) : XmppRosterModule :=
  let jid := jidAttr qnJid item
  if !jid.isValid then s
  else match if allNew then none else findContact jid s.contacts with
    | some (contact, index) =>
        if isRemove item then
          { s with contacts := s.contacts.eraseIdx index }.notify (.contactRemoved contact index)
        else { s with contacts := s.contacts.set index item }.notify (.contactChanged contact index)
    | none =>
        let added := { s with contacts := s.contacts ++ [item] }
        if allNew then added else added.notify (.contactsAdded (added.contacts.length - 1) 1)

def itemsOf (stanza : XmlElement) : List XmlElement :=
  (stanza.firstNamed qnRosterQuery).elim [] (·.allNamed qnRosterItem)

def internalRosterItems (stanza : XmlElement) : XmppRosterModule :=
  if (stanza.firstNamed qnRosterQuery).isNone then s
  else
    let allNew := s.contacts.isEmpty
    let after := (itemsOf stanza).foldl (rosterItem allNew) s
    if allNew then after.notify (.contactsAdded 0 after.contacts.length) else after

def stanzas (presences : List Nat) : List XmlElement := presences.filterMap (s.presences[·]?)

def internalIncomingPresence (jid : Jid) (stanza : XmlElement) : XmppRosterModule :=
  let bareJid := jid.bareJid
  let bucket := (s.incomingPresenceMap bareJid).getD []
  let store (bucket : List Nat) := Function.update s.incomingPresenceMap bareJid (some bucket)
  match bucket.find? fun p => (s.presences[p]?).map (jidAttr qnFrom) = some jid with
  | none =>
      if stanza.name = qnPresence then
        { s with
          presences := s.presences ++ [stanza]
          incomingPresenceMap := store (bucket ++ [s.presences.length])
          incomingPresenceVector := s.incomingPresenceVector ++ [s.presences.length] }.notify
            (.incomingPresenceChanged (some s.presences.length))
      else { s with incomingPresenceMap := store bucket }.notify (.incomingPresenceChanged none)
  | some p =>
      { s with
        presences := if stanza.name = qnPresence then s.presences.set p stanza else s.presences
        incomingPresenceMap := store bucket }.notify (.incomingPresenceChanged (some p))

/-- `IqResponse`, which asserts that a response that is no error is a result. -/
def iqResponse (stanza : XmlElement) : Option XmppRosterModule :=
  if stanza.attr qnType = "error" then some (s.notify (.rosterError stanza))
  else if stanza.attr qnType = "result" then some (s.internalRosterItems stanza)
  else none

def handleStanza (stanza : XmlElement) : XmppRosterModule × Bool :=
  if stanza.name = qnPresence then
    let jid := jidAttr qnFrom stanza
    let type := stanza.attr qnType
    if !jid.isValid then (s, false)
    else match stringToSubscriptionRequestType type with
      | some requestType => (s.notify (.subscriptionRequest jid requestType stanza), true)
      | none =>
          if type = "unavailable" ∨ type = "" then (s.internalIncomingPresence jid stanza, true)
          else if type = "error" then (s.notify (.subscriptionError jid stanza), true)
          else (s, false)
  else if stanza.name = qnIq then
    if (stanza.firstNamed qnRosterQuery).isNone ∨ stanza.attr qnType ≠ "set" then (s, false)
    else
      let after := s.internalRosterItems stanza
      let result := (({ name := qnIq } : XmlElement).addAttr qnType "result").addAttr qnTo
        (stanza.attr qnFrom)
      ({ after with sent := after.sent ++ [result.addAttr qnId (stanza.attr qnId)] }, true)
  else (s, false)

end Module

inductive Incoming where
  | iqResponse (stanza : XmlElement)
  | stanza (stanza : XmlElement)

namespace Incoming

def apply : Incoming → XmppRosterModule → Option XmppRosterModule
  | iqResponse e, s => s.iqResponse e
  | stanza e, s => some (s.handleStanza e).1

def items : Incoming → List XmlElement
  | iqResponse e => if e.attr qnType = "result" then itemsOf e else []
  | stanza e => if e.name = qnIq ∧ e.attr qnType = "set" then itemsOf e else []

def presence : Incoming → Option XmlElement
  | iqResponse _ => none
  | stanza e =>
      if e.name = qnPresence ∧ (jidAttr qnFrom e).isValid = true ∧
        (e.attr qnType = "unavailable" ∨ e.attr qnType = "") then some e
      else none

end Incoming

end XmppRosterModule

end Libjingle
