import Libjingle.Stun.Message

/-! `StunRequestManager`: requests that are sent again until a response comes or
they time out. A run keeps a record of what was sent and how each request ended. -/

namespace Libjingle

def stunTypeMask : UInt16 := 0x0110

def isStunRequestType (msgType : UInt16) : Bool := msgType &&& stunTypeMask = 0

def isStunSuccessResponseType (msgType : UInt16) : Bool := msgType &&& stunTypeMask = 0x0100

/-- None is the -1 that no type equals. -/
def getStunSuccessResponseType (reqType : UInt16) : Option UInt16 :=
  if isStunRequestType reqType then some (reqType ||| 0x0100) else none

def getStunErrorResponseType (reqType : UInt16) : Option UInt16 :=
  if isStunRequestType reqType then some (reqType ||| 0x0110) else none

def maxSends : Nat := 9

def delayUnit : Nat := 100

def delayMaxFactor : Nat := 16

structure StunRequest where
  msg : StunMessage
  count : Nat := 0
  timeout : Bool := false
  deriving DecidableEq, Repr

/-- The delay after a request was sent `count` times before. -/
def backOff (count : Nat) : Nat := delayUnit * min (1 <<< count) delayMaxFactor

def StunRequest.getNextDelay (request : StunRequest) : Nat × StunRequest :=
  (backOff request.count, { request with
    count := request.count + 1
    timeout := if request.count + 1 = maxSends then true else request.timeout })

inductive RequestEvent
  | sent (request time : Nat)
  | response (request : Nat) (msg : StunMessage)
  | errorResponse (request : Nat) (msg : StunMessage)
  | timeout (request : Nat)
  | removed (request : Nat)
  deriving DecidableEq, Repr

def RequestEvent.request : RequestEvent → Nat
  | sent r _ | response r _ | errorResponse r _ | timeout r | removed r => r

/-- The manager, its requests by the order they were sent in, the map from
transaction ids to requests, and the messages that are queued for them on the thread,
each with the time from which it is due. -/
structure StunRequestManager where
  now : Nat := 0
  objects : List StunRequest := []
  requests : List (List UInt8 × Nat) := []
  queue : List (Nat × Nat) := []
  record : List RequestEvent := []
  deriving DecidableEq, Repr

namespace StunRequestManager

variable (m : StunRequestManager)

def log (e : RequestEvent) : StunRequestManager := { m with record := m.record ++ [e] }

def find (id : List UInt8) : Option Nat := (m.requests.find? (·.1 = id)).map Prod.snd

/-- `Thread::Clear` of the messages for a request. -/
def clearQueue (r : Nat) : StunRequestManager := { m with queue := m.queue.filter (·.2 ≠ r) }

/-- `SendDelayed` of a request whose message was prepared. None where the assertion
fails that no request with the same transaction id is outstanding. -/
def sendDelayed (msg : StunMessage) (delay : Nat) : Option StunRequestManager :=
  if m.find msg.transactionId ≠ none then none
  else some { m with
    objects := m.objects ++ [{ msg := msg }]
    requests := m.requests ++ [(msg.transactionId, m.objects.length)]
    queue := m.queue ++ [(m.now + delay, m.objects.length)] }

/-- `Remove`. None where the assertion fails that the map has this request. -/
def remove (r : Nat) : Option StunRequestManager :=
  match m.objects[r]? with
  | none => some m
  | some request =>
    match m.find request.msg.transactionId with
    | none => some m
    | some r' =>
      if r' ≠ r then none
      else some (({ m with
        requests := m.requests.filter (·.1 ≠ request.msg.transactionId) }.clearQueue r).log (.removed r))

/-- The destructor of a request. -/
def delete (r : Nat) : Option StunRequestManager := (m.remove r).map fun m => m.clearQueue r

def clear : Option StunRequestManager := (m.requests.map Prod.snd).foldlM delete m

/-- What `OnResponse`, `OnErrorResponse` and `OnTimeout` call back. -/
inductive Call
  | sendDelayed (msg : StunMessage) (delay : Nat)
  | remove (r : Nat)
  deriving DecidableEq, Repr

def call (m : StunRequestManager) : Call → Option StunRequestManager
  | .sendDelayed msg delay => m.sendDelayed msg delay
  | .remove r => m.remove r

/-- A request ends: its callback is called, and it is deleted. -/
def finish (r : Nat) (outcome : RequestEvent) (calls : List Call) : Option StunRequestManager :=
  (calls.foldlM call (m.log outcome)).bind fun m => m.delete r

/-- `CheckResponse` of a message, with the result it returns. -/
def checkResponse (msg : StunMessage) (calls : List Call) : Option (Bool × StunRequestManager) :=
  match m.find msg.transactionId with
  | none => some (false, m)
  | some r =>
    match m.objects[r]? with
    | none => some (false, m)
    | some request =>
      if some msg.type = getStunSuccessResponseType request.msg.type then
        (m.finish r (.response r msg) calls).map (true, ·)
      else if some msg.type = getStunErrorResponseType request.msg.type then
        (m.finish r (.errorResponse r msg) calls).map (true, ·)
      else some (false, m)

/-- `CheckResponse` of a packet. -/
def checkPacket (data : List UInt8) (calls : List Call) : Option (Bool × StunRequestManager) :=
  if data.length < 20 then some (false, m)
  else match m.find ((data.drop 8).take stunTransactionIdLength) with
  | none => some (false, m)
  | some r =>
    match m.objects[r]? with
    | none => some (false, m)
    | some request =>
      match StunMessage.read request.msg.cls data with
      | none => some (false, m)
      | some response => m.checkResponse response calls

/-- `OnMessage` of a request whose message was taken off the queue. -/
def onMessage (r : Nat) (calls : List Call) : Option StunRequestManager :=
  match m.objects[r]? with
  | none => some m
  | some request =>
    if request.timeout then m.finish r (.timeout r) calls
    else
      let (delay, request) := request.getNextDelay
      some { m.log (.sent r m.now) with
        objects := m.objects.set r request
        queue := m.queue ++ [(m.now + delay, r)] }

/-- What can happen next: time passes, a method is called, a packet comes in, or the
thread dispatches the message of a request. -/
inductive Event
  | tick (elapsed : Nat)
  | sendDelayed (msg : StunMessage) (delay : Nat)
  | remove (r : Nat)
  | delete (r : Nat)
  | clear
  | message (msg : StunMessage) (calls : List Call)
  | packet (data : List UInt8) (calls : List Call)
  | timer (r : Nat) (calls : List Call)
  deriving DecidableEq, Repr

/-- None where an assertion fails, or where no message of the request is due. -/
def step (m : StunRequestManager) : Event → Option StunRequestManager
  | .tick elapsed => some { m with now := m.now + elapsed }
  | .sendDelayed msg delay => m.sendDelayed msg delay
  | .remove r => m.remove r
  | .delete r => m.delete r
  | .clear => m.clear
  | .message msg calls => (m.checkResponse msg calls).map Prod.snd
  | .packet data calls => (m.checkPacket data calls).map Prod.snd
  | .timer r calls =>
    match m.queue.find? (·.2 = r) with
    | none => none
    | some (due, _) =>
      if due ≤ m.now then { m with queue := m.queue.erase (due, r) }.onMessage r calls else none

def run (m : StunRequestManager) (events : List Event) : Option StunRequestManager :=
  events.foldlM step m

end StunRequestManager

end Libjingle
