import Libjingle.Lib.Runs
import Libjingle.P2p.Session
import Mathlib.Data.List.AList

/-! All sessions of a `SessionManager`: its map from ids to sessions, and the sessions
that were not deleted. A stanza is for the session that the map has under its id, if the
session's remote name and the sender's name are the same JID. -/

namespace Libjingle

namespace SessionTable

/-- A session that was not deleted. -/
structure Entry where
  object : Nat
  id : String
  remoteName : String := ""
  session : Session := {}
  deriving DecidableEq, Repr

/-- A stanza that could be parsed. Its content type may be missing, with an error. -/
structure Stanza where
  sid : String
  sender : String
  contentType : Except String String
  msg : SessionMessage

/-- An answer to a failed send, where a redirect names its target. -/
inductive Failure
  | redirect (target : String) (written readable usable : Bool)
  | error (type : Option String)
  deriving DecidableEq, Repr

inductive Output
  | session (object : Nat) (output : Session.Output)
  | badRequest (text : String)
  deriving DecidableEq, Repr

end SessionTable

open SessionTable in
structure SessionTable where
  clientMap : List String := []
  sessionMap : AList fun _ : String => Nat := ∅
  live : List Entry := []
  next : Nat := 0

namespace SessionTable

variable (s : SessionTable)

def getSession (sid : String) : Option Nat := s.sessionMap.lookup sid

def find (object : Nat) : Option Entry := s.live.find? (·.object = object)

def modify (object : Nat) (f : Entry → Entry) : SessionTable :=
  { s with live := s.live.map fun x => if x.object = object then f x else x }

/-- The private `CreateSession`, of a content type that has a client. -/
def createSession (sid : String) : SessionTable := { s with
  sessionMap := s.sessionMap.insert sid s.next
  live := s.live ++ [{ object := s.next, id := sid }]
  next := s.next + 1 }

/-- `DestroySession` looks for an entry under the session's id, whoever's it is. -/
def destroySession (object : Nat) : SessionTable :=
  match s.find object with
  | none => s
  | some x =>
    match s.getSession x.id with
    | none => s
    | some _ => { s with
        sessionMap := s.sessionMap.erase x.id
        live := s.live.filter (·.object ≠ object) }

section Names

variable {Jid : Type} [DecidableEq Jid] (jid : String → Jid) (bareEqual : Jid → Jid → Bool)

def findSession (sid remoteName : String) : Option Entry :=
  match s.getSession sid with
  | none => none
  | some object => (s.find object).filter fun x => jid remoteName = jid x.remoteName

/-- `Session::OnIncomingMessage`. An initiate that is handled sets the remote name. -/
def deliver (object : Nat) (stanza : Stanza) : SessionTable × List Output :=
  match s.find object with
  | none => (s, [])
  | some x =>
    let handled := x.session.onIncomingMessage stanza.msg
    (s.modify object fun x => { x with
      remoteName := if stanza.msg.type = .sessionInitiate ∧ x.session.state = .init ∧
        stanza.msg.readable then stanza.sender else x.remoteName
      session := (x.session.onIncomingMessage stanza.msg).1 }, handled.2.map (.session object))

def onIncomingMessage (parsed : Except String Stanza) : SessionTable × List Output :=
  match parsed with
  | .error text => (s, [.badRequest text])
  | .ok stanza =>
    match s.findSession jid stanza.sid stanza.sender with
    | some x => s.deliver x.object stanza
    | none =>
      if stanza.msg.type ≠ .sessionInitiate then (s, [.badRequest "unknown session"])
      else match stanza.contentType with
        | .error text => (s, [.badRequest text])
        | .ok type =>
          if type ∉ s.clientMap then (s, [.badRequest ("unknown content type: " ++ type)])
          else (s.createSession stanza.sid).deliver s.next stanza

def onIncomingResponse (sid receiver : String) (type : ActionType) : SessionTable :=
  match s.findSession jid sid receiver with
  | none => s
  | some x => s.modify x.object fun x => { x with session := x.session.onIncomingResponse type }

/-- `Session::OnFailedSend`. A redirect to the same client sets the remote name. -/
def failed (type : ActionType) (failure : Failure) (x : Entry) : Entry × List Session.Output :=
  match failure with
  | .redirect target written readable usable =>
    let sameJid := bareEqual (jid x.remoteName) (jid target)
    let handled := x.session.onFailedSend type (.redirect sameJid written readable usable)
    ({ x with
      remoteName := if x.session.checkSentInitiate ∧ sameJid then target else x.remoteName
      session := handled.1 }, handled.2)
  | .error errorType =>
    let handled := x.session.onFailedSend type (.error errorType)
    ({ x with session := handled.1 }, handled.2)

def onFailedSend (sid receiver : String) (type : ActionType) (failure : Failure) :
    SessionTable × List Output :=
  match s.findSession jid sid receiver with
  | none => (s, [])
  | some x => (s.modify x.object fun x => (failed jid bareEqual type failure x).1,
      (failed jid bareEqual type failure x).2.map (.session x.object))

/-- A call of the client. An initiate sets the remote name, though it may fail later. -/
def call (object : Nat) (receiver : String) (call : Session.Call) : SessionTable × List Output :=
  match s.find object with
  | none => (s, [])
  | some x =>
    (s.modify object fun x => { x with
      remoteName := match call with
        | .initiate .. => if x.session.state = .init then receiver else x.remoteName
        | _ => x.remoteName
      session := (x.session.call call).1 }, (x.session.call call).2.2.map (.session object))

/-- The thread takes the first message that is queued for a session. -/
def dispatch (object : Nat) : SessionTable × List Output :=
  match s.find object with
  | none => (s, [])
  | some x =>
    match x.session.queue with
    | [] => (s, [])
    | id :: queue =>
      let handled := { x.session with queue := queue }.onMessage id
      let t := s.modify object fun x => { x with session := handled.1 }
      (if handled.2.1 then t.destroySession object else t, handled.2.2.map (.session object))

def resume (object : Nat) : SessionTable × List Output :=
  match s.find object with
  | none => (s, [])
  | some x => (s.modify object fun x => { x with session := x.session.resume.1 },
      x.session.resume.2.map (.session object))

inductive Event
  | addClient (contentType : String)
  | removeClient (contentType : String)
  | createSession (sid contentType : String)
  | destroySession (object : Nat)
  | incomingMessage (parsed : Except String Stanza)
  | incomingResponse (sid receiver : String) (type : ActionType)
  | failedSend (sid receiver : String) (type : ActionType) (failure : Failure)
  | setCurrentProtocol (object : Nat) (protocol : SignalingProtocol)
  | call (object : Nat) (receiver : String) (call : Session.Call)
  | transportWritable (object : Nat) (waits : Bool)
  | timer (object : Nat) (id : Session.MessageId)
  | dispatch (object : Nat)
  | resume (object : Nat)

def handle : Event → SessionTable × List Output
  | .addClient type => ({ s with clientMap := type :: s.clientMap }, [])
  | .removeClient type => ({ s with clientMap := s.clientMap.filter (· ≠ type) }, [])
  | .createSession sid type => (if type ∈ s.clientMap then s.createSession sid else s, [])
  | .destroySession object => (s.destroySession object, [])
  | .incomingMessage parsed => s.onIncomingMessage jid parsed
  | .incomingResponse sid receiver type => (s.onIncomingResponse jid sid receiver type, [])
  | .failedSend sid receiver type failure =>
    s.onFailedSend jid bareEqual sid receiver type failure
  | .setCurrentProtocol object protocol =>
    (s.modify object fun x => { x with session := { x.session with protocol := protocol } }, [])
  | .call object receiver call => s.call object receiver call
  | .transportWritable object waits =>
    (s.modify object fun x => { x with session := x.session.onTransportWritable waits }, [])
  | .timer object id => (s.modify object fun x => { x with session := x.session.onTimer id }, [])
  | .dispatch object => s.dispatch object
  | .resume object => s.resume object

def step (s : SessionTable) (e : Event) : SessionTable := (s.handle jid bareEqual e).1

def Event.sender : Event → Option String
  | .incomingMessage (.ok stanza) => some stanza.sender
  | .incomingResponse _ receiver _ | .failedSend _ receiver _ _ => some receiver
  | _ => none

/-- No session is created under an id that the map has. -/
def Fresh (s : SessionTable) : Event → Prop
  | .createSession sid type => type ∈ s.clientMap → s.getSession sid = none
  | .incomingMessage (.ok stanza) =>
    stanza.msg.type = .sessionInitiate → (∃ type, stanza.contentType = .ok type ∧ type ∈ s.clientMap) →
      s.findSession jid stanza.sid stanza.sender = none → s.getSession stanza.sid = none
  | _ => True

structure Isolated (s : SessionTable) : Prop where
  mapped : ∀ x ∈ s.live, s.getSession x.id = some x.object
  distinct : s.live.Pairwise fun x y => x.id ≠ y.id
  destroyed : ∀ x ∈ s.live, x ∉ (s.destroySession x.object).live ∧
    (s.destroySession x.object).getSession x.id = none
  others : ∀ x ∈ s.live, ∀ y ∈ s.live, y ≠ x → y ∈ (s.destroySession x.object).live ∧
    (s.destroySession x.object).getSession y.id = some y.object

/-- An event that comes from another JID leaves a session and its entry alone. -/
def Untouched (s : SessionTable) (e : Event) : Prop :=
  ∀ name, e.sender = some name → ∀ x ∈ s.live, jid name ≠ jid x.remoteName →
    x ∈ (s.step jid bareEqual e).live ∧ (s.step jid bareEqual e).getSession x.id = some x.object

end Names

structure Tabled (s : SessionTable) : Prop where
  mapped : ∀ x ∈ s.live, s.getSession x.id = some x.object
  objects : (s.live.map Entry.object).Nodup
  bound : ∀ x ∈ s.live, x.object < s.next

def Keeping (f : Entry → Entry) : Prop := ∀ x, (f x).object = x.object ∧ (f x).id = x.id

section Tables

variable {s : SessionTable} {x y : Entry}

theorem tabled_empty : Tabled {} where
  mapped _ h := absurd h List.not_mem_nil
  objects := List.nodup_nil
  bound _ h := absurd h List.not_mem_nil

theorem of_find {object : Nat} (h : s.find object = some x) : x ∈ s.live ∧ x.object = object :=
  ⟨List.mem_of_find?_eq_some h, by simpa using List.find?_some h⟩

theorem Tabled.eq (h : Tabled s) (hx : x ∈ s.live) (hy : y ∈ s.live) (he : x.object = y.object) :
    x = y := List.inj_on_of_nodup_map h.objects hx hy he

theorem Tabled.find (h : Tabled s) (hx : x ∈ s.live) : s.find x.object = some x := by
  have hsome : (s.find x.object).isSome := List.find?_isSome.mpr ⟨x, hx, decide_eq_true rfl⟩
  obtain ⟨y, hy⟩ := Option.isSome_iff_exists.mp hsome
  rw [hy, h.eq (of_find hy).1 hx (of_find hy).2]

theorem Tabled.distinct (h : Tabled s) : s.live.Pairwise fun x y => x.id ≠ y.id := by
  refine (List.pairwise_map.mp h.objects).imp_of_mem fun {x y} hx hy hne hid => hne ?_
  have he := h.mapped x hx
  rw [hid, h.mapped y hy] at he
  exact (Option.some.inj he).symm

theorem mem_modify {object : Nat} {f : Entry → Entry} (hy : y ∈ (s.modify object f).live) :
    ∃ x ∈ s.live, y = if x.object = object then f x else x := by
  obtain ⟨x, hx, rfl⟩ := List.mem_map.mp hy
  exact ⟨x, hx, rfl⟩

theorem mem_modify_of_ne {object : Nat} {f : Entry → Entry} (hx : x ∈ s.live)
    (hne : x.object ≠ object) : x ∈ (s.modify object f).live :=
  List.mem_map.mpr ⟨x, hx, if_neg hne⟩

theorem Tabled.modify (h : Tabled s) (object : Nat) {f : Entry → Entry} (hf : Keeping f) :
    Tabled (s.modify object f) := by
  have hkept : ∀ x : Entry, (if x.object = object then f x else x).object = x.object ∧
      (if x.object = object then f x else x).id = x.id := by
    intro x
    split
    · exact hf x
    · exact ⟨rfl, rfl⟩
  refine ⟨fun y hy => ?_, ?_, fun y hy => ?_⟩
  · obtain ⟨x, hx, rfl⟩ := mem_modify hy
    rw [(hkept x).1, (hkept x).2]
    exact h.mapped x hx
  · have hmap : (s.modify object f).live.map Entry.object = s.live.map Entry.object := by
      rw [SessionTable.modify, List.map_map]
      exact List.map_congr_left fun x _ => (hkept x).1
    rw [hmap]
    exact h.objects
  · obtain ⟨x, hx, rfl⟩ := mem_modify hy
    rw [(hkept x).1]
    exact h.bound x hx

theorem Tabled.createSession (h : Tabled s) {sid : String} (hsid : s.getSession sid = none) :
    Tabled (s.createSession sid) := by
  have hne : ∀ x ∈ s.live, x.id ≠ sid := by
    rintro x hx rfl
    rw [h.mapped x hx] at hsid
    cases hsid
  refine ⟨fun x hx => ?_, ?_, fun x hx => ?_⟩
  · rcases List.mem_append.mp hx with hx | hx
    · exact (AList.lookup_insert_ne (hne x hx)).trans (h.mapped x hx)
    · rw [List.mem_singleton.mp hx]
      exact AList.lookup_insert _
  · rw [SessionTable.createSession, List.map_append, List.map_singleton]
    refine List.nodup_append.mpr ⟨h.objects, List.nodup_singleton _, fun a ha b hb => ?_⟩
    obtain ⟨x, hx, rfl⟩ := List.mem_map.mp ha
    rw [List.mem_singleton.mp hb]
    exact Nat.ne_of_lt (h.bound x hx)
  · rcases List.mem_append.mp hx with hx | hx
    · exact Nat.lt_succ_of_lt (h.bound x hx)
    · rw [List.mem_singleton.mp hx]
      exact Nat.lt_succ_self _

theorem Tabled.destroySession_eq (h : Tabled s) (hx : x ∈ s.live) :
    s.destroySession x.object = { s with
      sessionMap := s.sessionMap.erase x.id
      live := s.live.filter (·.object ≠ x.object) } := by
  rw [destroySession, h.find hx]
  dsimp only
  rw [h.mapped x hx]

theorem Tabled.of_destroyed (h : Tabled s) (hx : x ∈ s.live) (hy : y ∈ s.live) (hne : y ≠ x) :
    y ∈ (s.destroySession x.object).live ∧
      (s.destroySession x.object).getSession y.id = some y.object := by
  have hobject : y.object ≠ x.object := fun he => hne (h.eq hy hx he)
  have hid : y.id ≠ x.id := by
    intro he
    have hmap := h.mapped y hy
    rw [he, h.mapped x hx] at hmap
    exact hobject (Option.some.inj hmap).symm
  rw [h.destroySession_eq hx]
  exact ⟨List.mem_filter.mpr ⟨hy, decide_eq_true hobject⟩,
    (AList.lookup_erase_ne hid).trans (h.mapped y hy)⟩

theorem Tabled.destroySession (h : Tabled s) (object : Nat) : Tabled (s.destroySession object) := by
  rcases hfind : s.find object with _ | x
  · rw [SessionTable.destroySession, hfind]
    exact h
  · obtain ⟨hx, rfl⟩ := of_find hfind
    have hback : ∀ y ∈ (s.destroySession x.object).live, y ∈ s.live ∧ y ≠ x := by
      intro y hy
      rw [h.destroySession_eq hx] at hy
      obtain ⟨hy, hne⟩ := List.mem_filter.mp hy
      exact ⟨hy, fun he => of_decide_eq_true hne (congrArg Entry.object he)⟩
    refine ⟨fun y hy => (h.of_destroyed hx (hback y hy).1 (hback y hy).2).2, ?_, fun y hy => ?_⟩
    · rw [h.destroySession_eq hx]
      exact h.objects.sublist (List.filter_sublist.map _)
    · rw [h.destroySession_eq hx]
      exact h.bound y (hback y hy).1

theorem Tabled.isolated (h : Tabled s) : Isolated s where
  mapped := h.mapped
  distinct := h.distinct
  destroyed x hx := by
    rw [h.destroySession_eq hx]
    refine ⟨fun hmem => ?_, AList.lookup_erase _ _⟩
    exact of_decide_eq_true (List.mem_filter.mp hmem).2 rfl
  others x hx y hy hne := h.of_destroyed hx hy hne

end Tables

section Steps

variable {Jid : Type} [DecidableEq Jid] {jid : String → Jid} {bareEqual : Jid → Jid → Bool}
  {s : SessionTable} {x : Entry}

theorem of_findSession {sid name : String} (h : s.findSession jid sid name = some x) :
    x ∈ s.live ∧ jid name = jid x.remoteName := by
  rw [findSession] at h
  split at h
  · cases h
  · obtain ⟨hfind, hjid⟩ := Option.filter_eq_some_iff.mp h
    exact ⟨(of_find hfind).1, of_decide_eq_true hjid⟩

theorem deliver_cases (s : SessionTable) (object : Nat) (stanza : Stanza) :
    (s.deliver object stanza).1 = s ∨
      ∃ f, Keeping f ∧ (s.deliver object stanza).1 = s.modify object f := by
  rw [deliver]
  split
  · exact .inl rfl
  · refine .inr ⟨_, ?_, rfl⟩
    exact fun _ => ⟨rfl, rfl⟩

/-- What a step can do. Only sessions with the sender's name are changed by what comes
from the other side, and only an id that is not in use is given to a new one. -/
inductive Does (jid : String → Jid) (sender : Option String) (s : SessionTable) :
    SessionTable → Prop
  | same : Does jid sender s s
  | clients (types : List String) : Does jid sender s { s with clientMap := types }
  | modify (object : Nat) {f : Entry → Entry} (hf : Keeping f)
    (hname : ∀ name, sender = some name → ∀ x ∈ s.live, x.object = object →
      jid name = jid x.remoteName) : Does jid sender s (s.modify object f)
  | create {sid : String} (hsid : s.getSession sid = none) : Does jid sender s (s.createSession sid)
  | receive {sid : String} (hsid : s.getSession sid = none) {f : Entry → Entry} (hf : Keeping f) :
    Does jid sender s ((s.createSession sid).modify s.next f)
  | destroy (object : Nat) (hsender : sender = none) : Does jid sender s (s.destroySession object)
  | dispatch (object : Nat) {f : Entry → Entry} (hf : Keeping f) (hsender : sender = none) :
    Does jid sender s ((s.modify object f).destroySession object)

omit [DecidableEq Jid] in
theorem Does.tabled {sender : Option String} {t : SessionTable} (h : Does jid sender s t)
    (hs : Tabled s) : Tabled t := by
  cases h with
  | same => exact hs
  | clients types => exact ⟨hs.mapped, hs.objects, hs.bound⟩
  | modify object hf hname => exact hs.modify object hf
  | create hsid => exact hs.createSession hsid
  | receive hsid hf => exact (hs.createSession hsid).modify _ hf
  | destroy object hsender => exact hs.destroySession object
  | dispatch object hf hsender => exact (hs.modify object hf).destroySession object

theorem Tabled.of_created (h : Tabled s) (hx : x ∈ s.live) {sid : String}
    (hsid : s.getSession sid = none) :
    x ∈ (s.createSession sid).live ∧ (s.createSession sid).getSession x.id = some x.object := by
  refine ⟨List.mem_append_left _ hx, (AList.lookup_insert_ne ?_).trans (h.mapped x hx)⟩
  rintro rfl
  rw [h.mapped x hx] at hsid
  cases hsid

omit [DecidableEq Jid] in
theorem Does.untouched {name : String} {t : SessionTable} (h : Does jid (some name) s t)
    (hs : Tabled s) (hx : x ∈ s.live) (hne : jid name ≠ jid x.remoteName) :
    x ∈ t.live ∧ t.getSession x.id = some x.object := by
  cases h with
  | same => exact ⟨hx, hs.mapped x hx⟩
  | clients types => exact ⟨hx, hs.mapped x hx⟩
  | modify object hf hname =>
    exact ⟨mem_modify_of_ne hx fun he => hne (hname name rfl x hx he), hs.mapped x hx⟩
  | create hsid => exact hs.of_created hx hsid
  | receive hsid hf =>
    obtain ⟨hmem, hmap⟩ := hs.of_created hx hsid
    exact ⟨mem_modify_of_ne hmem (Nat.ne_of_lt (hs.bound x hx)), hmap⟩
  | destroy object hsender => cases hsender
  | dispatch object hf hsender => cases hsender

theorem onIncomingMessage_does (hs : Tabled s) {parsed : Except String Stanza}
    (hfresh : Fresh jid s (.incomingMessage parsed)) :
    Does jid (Event.incomingMessage parsed).sender s (s.onIncomingMessage jid parsed).1 := by
  cases parsed with
  | error text => exact .same
  | ok stanza =>
    simp only [onIncomingMessage]
    split
    · rename_i x hfind
      obtain ⟨hx, hjid⟩ := of_findSession hfind
      obtain heq | ⟨f, hf, heq⟩ := deliver_cases s x.object stanza
      · rw [heq]
        exact .same
      · rw [heq]
        refine .modify x.object hf ?_
        rintro name ⟨⟩ y hy he
        rwa [hs.eq hy hx he]
    · rename_i hnone
      split
      · exact .same
      · rename_i htype
        split
        · exact .same
        · rename_i type hcontent
          split
          · exact .same
          · rename_i hclient
            have hsid := hfresh (not_not.mp htype) ⟨type, hcontent, not_not.mp hclient⟩ hnone
            obtain heq | ⟨f, hf, heq⟩ := deliver_cases (s.createSession stanza.sid) s.next stanza
            · rw [heq]
              exact .create hsid
            · rw [heq]
              exact .receive hsid hf

omit [DecidableEq Jid] in
theorem Does.of_local {sender : Option String} (hsender : sender = none) (object : Nat)
    {f : Entry → Entry} (hf : Keeping f) : Does jid sender s (s.modify object f) := by
  refine .modify object hf ?_
  rintro name rfl
  cases hsender

omit [DecidableEq Jid] in
theorem dispatch_does (s : SessionTable) (object : Nat) :
    Does jid none s (s.dispatch object).1 := by
  rw [dispatch]
  split
  · exact .same
  · split
    · exact .same
    · dsimp only
      split
      · exact .dispatch object (fun _ => ⟨rfl, rfl⟩) rfl
      · exact .of_local rfl object fun _ => ⟨rfl, rfl⟩

omit [DecidableEq Jid] in
theorem keeping_failed (type : ActionType) (failure : Failure) :
    Keeping fun x => (failed jid bareEqual type failure x).1 := by
  intro x
  cases failure <;> exact ⟨rfl, rfl⟩

theorem step_does (hs : Tabled s) {e : Event} (hfresh : Fresh jid s e) :
    Does jid e.sender s (s.step jid bareEqual e) := by
  cases e with
  | addClient type => exact .clients _
  | removeClient type => exact .clients _
  | createSession sid type =>
    rw [step, handle]
    dsimp only
    split
    · rename_i hclient
      exact .create (hfresh hclient)
    · exact .same
  | destroySession object => exact .destroy object rfl
  | incomingMessage parsed => exact onIncomingMessage_does hs hfresh
  | incomingResponse sid receiver type =>
    rw [step, handle, onIncomingResponse]
    dsimp only
    split
    · exact .same
    · rename_i x hfind
      obtain ⟨hx, hjid⟩ := of_findSession hfind
      refine .modify x.object (fun _ => ⟨rfl, rfl⟩) ?_
      rintro name ⟨⟩ y hy he
      rwa [hs.eq hy hx he]
  | failedSend sid receiver type failure =>
    rw [step, handle, onFailedSend]
    split
    · exact .same
    · rename_i x hfind
      obtain ⟨hx, hjid⟩ := of_findSession hfind
      refine .modify x.object (keeping_failed type failure) ?_
      rintro name ⟨⟩ y hy he
      rwa [hs.eq hy hx he]
  | setCurrentProtocol object protocol => exact .of_local rfl object fun _ => ⟨rfl, rfl⟩
  | call object receiver call =>
    rw [step, handle, SessionTable.call]
    split
    · exact .same
    · exact .of_local rfl object fun _ => ⟨rfl, rfl⟩
  | transportWritable object waits => exact .of_local rfl object fun _ => ⟨rfl, rfl⟩
  | timer object id => exact .of_local rfl object fun _ => ⟨rfl, rfl⟩
  | dispatch object => exact dispatch_does s object
  | resume object =>
    rw [step, handle, resume]
    split
    · exact .same
    · exact .of_local rfl object fun _ => ⟨rfl, rfl⟩

theorem step_isolated (hs : Tabled s) {e : Event} (hfresh : Fresh jid s e) :
    Tabled (s.step jid bareEqual e) ∧ Isolated s ∧ Untouched jid bareEqual s e := by
  have hdoes : Does jid e.sender s (s.step jid bareEqual e) := step_does hs hfresh
  refine ⟨hdoes.tabled hs, hs.isolated, fun name hname x hx hne => ?_⟩
  rw [hname] at hdoes
  exact hdoes.untouched hs hx hne

/-- While no id is used again, the sessions of a run are isolated. -/
theorem isolated_run {events : List Event} (h : Runs.Along (step jid bareEqual) (Fresh jid) {} events) :
    Runs.Along (step jid bareEqual) (fun s e => Isolated s ∧ Untouched jid bareEqual s e) {} events ∧
      Isolated (events.foldl (step jid bareEqual) {}) := by
  have hstep : ∀ s e, Tabled s → Fresh jid s e → Tabled (step jid bareEqual s e) ∧
      (Isolated s ∧ Untouched jid bareEqual s e) := fun s e hs hfresh => step_isolated hs hfresh
  obtain ⟨hrun, hlast⟩ := h.invariant hstep tabled_empty
  exact ⟨hrun, hlast.isolated⟩

def initiateFrom (sender sid : String) : Event :=
  .incomingMessage (.ok ⟨sid, sender, .ok "rtp", ⟨.jingle, .sessionInitiate, "", true, true⟩⟩)

theorem isolated_run_two :
    Isolated ([Event.addClient "rtp", initiateFrom "romeo@example.net/a" "1",
      initiateFrom "juliet@example.net/b" "2"].foldl (step id fun a b => a == b) {}) := by
  refine (isolated_run ?_).2
  refine ⟨trivial, fun _ _ _ => ?_, fun _ _ _ => ?_, trivial⟩ <;> decide

/-- A second initiate takes the id of the first, and the first session stays without an
entry. -/
theorem displaced_session :
    ¬ Isolated ([Event.addClient "rtp", initiateFrom "romeo@example.net/a" "1",
      initiateFrom "juliet@example.net/b" "1"].foldl (step id fun a b => a == b) {}) := by
  intro h
  have hmapped := h.mapped ⟨0, "1", "romeo@example.net/a", _⟩ List.mem_cons_self
  revert hmapped
  decide

end Steps

end SessionTable

end Libjingle
