import Mathlib.Data.List.AList
import Mathlib.Data.List.Sort
import Mathlib.Logic.Function.Basic
import Libjingle.Lib.Runs

/-! `MediaSessionClient`: which call a session belongs to. The client keeps a call for
each session id, and each call keeps its own sessions. Sessions and calls are objects;
what a pointer to a deleted one does is left out, so that nothing happens then. The
client is the only one of its session manager. -/

namespace Libjingle

namespace MediaSessionClient

/-- A session that was not deleted. `SignalState` of an incoming one is connected to the
client, which hears of the initiate when it was not refused. -/
structure Session where
  id : String
  remoteName : String := ""
  incoming : Bool
  announced : Bool := false
  deriving DecidableEq, Repr

/-- The initiate of the session was refused, and the session stayed. -/
def Session.refused (x : Session) : Bool := x.incoming && !x.announced

/-- A call that was not deleted. -/
structure Call where
  id : UInt32
  mediaSessionMap : AList fun _ : String => Nat := ∅

end MediaSessionClient

open MediaSessionClient in
structure MediaSessionClient where
  multisessionEnabled : Bool := false
  /-- `session_map_` of the session manager -/
  managed : AList fun _ : String => Nat := ∅
  session : Nat → Option Session := fun _ => none
  nextSession : Nat := 0
  calls : AList fun _ : UInt32 => Nat := ∅
  sessionMap : AList fun _ : String => Nat := ∅
  call : Nat → Option Call := fun _ => none
  nextCall : Nat := 0
  /-- The calls that `MSG_CHECKAUTODESTROY` is posted for -/
  queue : List Nat := []
  /-- All assertions of `OnSessionDestroy` held. -/
  asserted : Bool := true

namespace MediaSessionClient

variable (s : MediaSessionClient)

/-- The entries of a `std::map` from ids, as an iterator finds them. -/
def inOrder (m : AList fun _ : String => Nat) : List (String × Nat) :=
  (m.entries.map fun e => (e.1, e.2)).insertionSort fun a b => a.1 ≤ b.1

def modifyCall (c : Nat) (f : Call → Call) : MediaSessionClient :=
  { s with call := Function.update s.call c ((s.call c).map f) }

/-- `SessionManager::CreateSession` -/
def createSession (sid : String) (incoming : Bool) : MediaSessionClient :=
  { s with
    managed := s.managed.insert sid s.nextSession
    session := Function.update s.session s.nextSession (some { id := sid, incoming })
    nextSession := s.nextSession + 1 }

/-- `Call::RemoveSession` -/
def removeSession (c : Nat) (sid : String) : MediaSessionClient :=
  match s.call c with
  | none => s
  | some k =>
    if (k.mediaSessionMap.lookup sid).isNone then s
    else
      { s.modifyCall c fun k => { k with mediaSessionMap := k.mediaSessionMap.erase sid } with
        queue := s.queue ++ [c] }

def onSessionDestroy (sid : String) : MediaSessionClient :=
  match s.sessionMap.lookup sid with
  | none => { s with asserted := false }
  | some c => { s with sessionMap := s.sessionMap.erase sid }.removeSession c sid

/-- `SessionManager::DestroySession`, which goes by the id of the session. -/
def destroySession (o : Nat) : MediaSessionClient :=
  match s.session o with
  | none => s
  | some x =>
    match s.managed.lookup x.id with
    | none => s
    | some _ =>
      let t := s.onSessionDestroy x.id
      { t with
        managed := t.managed.erase x.id
        session := Function.update t.session o none }

def createCall (id : UInt32) : MediaSessionClient :=
  { s with
    calls := s.calls.insert id s.nextCall
    call := Function.update s.call s.nextCall (some { id })
    nextCall := s.nextCall + 1 }

/-- The destructor of a call takes its sessions one after the other. -/
def destroySessions (c : Nat) (sessions : List (String × Nat)) : MediaSessionClient :=
  sessions.foldl (fun s e => (s.removeSession c e.1).destroySession e.2) s

def destroyCall (c : Nat) : MediaSessionClient :=
  match s.call c with
  | none => s
  | some k =>
    let t := { s with calls := s.calls.erase k.id }.destroySessions c (inOrder k.mediaSessionMap)
    { t with
      call := Function.update t.call c none
      queue := t.queue.filter (· ≠ c) }

/-- `AddSession`, where a channel can be created for every content of the offer or not. -/
def addSession (c : Nat) (sid : String) (o : Nat) (channels : Bool) : MediaSessionClient :=
  if channels then
    s.modifyCall c fun k => { k with mediaSessionMap := k.mediaSessionMap.insert sid o }
  else s

/-- `set_remote_name` -/
def rename (o : Nat) (name : String) : MediaSessionClient :=
  { s with session :=
      Function.update s.session o ((s.session o).map fun x => { x with remoteName := name }) }

/-- `Call::InitiateSession`, with the random id of the new session. -/
def initiateSession (c : Nat) (sid receiver : String) (channels : Bool) : MediaSessionClient :=
  match s.call c with
  | none => s
  | some _ =>
    let o := s.nextSession
    let t := s.createSession sid false
    let t := { t with sessionMap := t.sessionMap.insert sid c }
    let t := t.addSession c sid o channels
    t.rename o receiver

def sessionsNamed (c : Nat) (name : String) : List (String × Nat) :=
  match s.call c with
  | none => []
  | some k => (inOrder k.mediaSessionMap).filter fun e =>
      ((s.session e.2).map Session.remoteName) = some name

def findCallByRemoteName (remoteName : String) : Option Nat :=
  ((inOrder s.sessionMap).find? fun e => s.sessionsNamed e.2 remoteName ≠ []).map (·.2)

/-- The call that an incoming session is for, or none if it gets a new one. -/
def callFor (initiator : String) : Option Nat :=
  if s.multisessionEnabled then s.findCallByRemoteName initiator else none

/-- `OnSessionState` when an initiate was received, with the random id of a new call. -/
def onReceivedInitiate (o : Nat) (sid initiator : String) (id : UInt32) (channels : Bool) :
    MediaSessionClient :=
  let c := (s.callFor initiator).getD s.nextCall
  let t := if (s.callFor initiator).isNone then s.createCall id else s
  { t with sessionMap := t.sessionMap.insert sid c }.addSession c sid o channels

/-- `Session::OnInitiateMessage`, when it goes well. -/
def onInitiateMessage (o : Nat) (sender : String) : MediaSessionClient :=
  { s with
    session := Function.update s.session o
      ((s.session o).map fun x => { x with remoteName := sender, announced := true }) }

section Names

variable {Jid : Type} [DecidableEq Jid] (jid : String → Jid)

def findSession (sid sender : String) : Option Nat :=
  (s.managed.lookup sid).filter fun o =>
    decide ((s.session o).map (fun x => jid x.remoteName) = some (jid sender))

/-- What comes of an initiate: it is refused, as its contents or transports are not
understood, or the client hears of it. -/
inductive Fate
  | refused
  | announced (id : UInt32) (channels : Bool)
  deriving DecidableEq, Repr

/-- The session that can take an initiate: a new one, or one that refused an earlier
initiate. -/
def hearing (sid sender : String) : Option Nat × MediaSessionClient :=
  match s.findSession jid sid sender with
  | some o => (if (s.session o).any Session.refused then some o else none, s)
  | none => (some s.nextSession, s.createSession sid true)

def incomingInitiate (sid sender initiator : String) (fate : Fate) : MediaSessionClient :=
  match s.hearing jid sid sender, fate with
  | (some o, t), .announced id channels =>
    (t.onInitiateMessage o sender).onReceivedInitiate o sid initiator id channels
  | (_, t), _ => t

/-- `Call::Join`, which moves the sessions of a call to another one. -/
def join (callToJoin c : Nat) : MediaSessionClient :=
  match s.call c with
  | none => s
  | some k =>
    let t := s.modifyCall callToJoin fun j =>
      { j with
        mediaSessionMap := (inOrder k.mediaSessionMap).foldl (fun m e => m.insert e.1 e.2)
          j.mediaSessionMap }
    t.modifyCall c fun k => { k with mediaSessionMap := ∅ }

def joinCalls (callToJoin c : Nat) : MediaSessionClient :=
  (s.join callToJoin c).destroyCall c

/-- The thread takes the first `MSG_CHECKAUTODESTROY`. -/
def dispatch : MediaSessionClient :=
  match s.queue with
  | [] => s
  | c :: queue =>
    let t := { s with queue := queue }
    match s.call c with
    | none => t
    | some k => if k.mediaSessionMap.entries = [] then t.destroyCall c else t

/-- A session that is redirected has a new name. What else a session does on its own
changes nothing here, until it is destroyed. -/
inductive Event
  | createCall (id : UInt32)
  | initiateSession (c : Nat) (sid receiver : String) (channels : Bool)
  | incomingInitiate (sid sender initiator : String) (fate : Fate)
  | redirect (o : Nat) (target : String)
  | joinCalls (callToJoin c : Nat)
  | destroyCall (c : Nat)
  | destroySession (o : Nat)
  | dispatch

def step (s : MediaSessionClient) : Event → MediaSessionClient
  | .createCall id => s.createCall id
  | .initiateSession c sid receiver channels => s.initiateSession c sid receiver channels
  | .incomingInitiate sid sender initiator fate => s.incomingInitiate jid sid sender initiator fate
  | .redirect o target => s.rename o target
  | .joinCalls callToJoin c =>
    if (s.call callToJoin).isNone then s else s.joinCalls callToJoin c
  | .destroyCall c => s.destroyCall c
  | .destroySession o => s.destroySession o
  | .dispatch => s.dispatch

end Names

end MediaSessionClient

end Libjingle
