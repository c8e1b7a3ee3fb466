import Libjingle.Base.TimeUtils
import Libjingle.Lib.DelayList
import Libjingle.Lib.Runs
import Mathlib.Data.List.Sort
import Mathlib.Data.Multiset.AddSub

/-! The message queue of a thread. Every operation is atomic; a call of `Get` that
waits is a sequence of passes, each with its own reading of the clock. -/

namespace Libjingle

namespace MessageQueue

def mqidAny : UInt32 := 4294967295
def mqidDispose : UInt32 := 4294967294
def mqidQuit : UInt32 := 4294967293
def kMaxMsgLatency : UInt32 := 150
def kForever : Int := -1

/-- No handler and no data are null pointers. -/
structure Message (H D : Type) where
  phandler : Option H
  messageId : UInt32
  pdata : Option D
  tsSensitive : UInt32 := 0
  deriving DecidableEq, Repr

variable {H D : Type}

def Message.isMatch [DecidableEq H] (m : Message H D) (handler : Option H) (id : UInt32) : Bool :=
  (handler = none || handler = m.phandler) && (id = mqidAny || id = m.messageId)

structure DelayedMessage (H D : Type) where
  msTrigger : UInt32
  num : UInt32
  msg : Message H D

/-- `b < a`: of two messages in the priority queue `a` is the one nearer to the top. -/
def DelayedMessage.before (a b : DelayedMessage H D) : Bool :=
  a.msTrigger < b.msTrigger || (a.msTrigger = b.msTrigger && a.num < b.num)

/-- `b` is not nearer to the top than `a`. -/
def DelayedMessage.Le (a b : DelayedMessage H D) : Prop := b.before a = false

instance : DecidableRel (@DelayedMessage.Le H D) :=
  fun a b => inferInstanceAs (Decidable (b.before a = false))

theorem DelayedMessage.le_iff {a b : DelayedMessage H D} :
    a.Le b ↔ a.msTrigger < b.msTrigger ∨ a.msTrigger = b.msTrigger ∧ a.num ≤ b.num := by
  simp only [DelayedMessage.Le, DelayedMessage.before, Bool.or_eq_false_iff, Bool.and_eq_false_iff,
    decide_eq_false_iff_not, UInt32.lt_iff_toNat_lt, UInt32.le_iff_toNat_le, ← UInt32.toNat_inj]
  omega

instance : Std.Total (@DelayedMessage.Le H D) where
  total a b := by
    simp only [DelayedMessage.le_iff, UInt32.lt_iff_toNat_lt, UInt32.le_iff_toNat_le,
      ← UInt32.toNat_inj]
    omega

instance : IsTrans (DelayedMessage H D) DelayedMessage.Le where
  trans a b c := by
    simp only [DelayedMessage.le_iff, UInt32.lt_iff_toNat_lt, UInt32.le_iff_toNat_le,
      ← UInt32.toNat_inj]
    omega

/-- What a pass of `Get` comes to; `wait` has the time to the next trigger, if there is one. -/
inductive Outcome (H D : Type)
  | message (m : Message H D)
  | quit
  | wait (cmsDelayNext : Int)
  deriving DecidableEq, Repr

end MessageQueue

open MessageQueue

/-- `msgPeek` is set while `fPeekKeep_` is. The container of the priority queue has
the top in front. -/
structure MessageQueue (H D : Type) where
  fStop : Bool := false
  msgPeek : Option (Message H D) := none
  msgq : List (Message H D) := []
  dmsgq : List (DelayedMessage H D) := []
  dmsgqNextNum : UInt32 := 0

namespace MessageQueue

variable {H D : Type} [DecidableEq H] (q : MessageQueue H D)

def push (m : DelayedMessage H D) (l : List (DelayedMessage H D)) : List (DelayedMessage H D) :=
  l.orderedInsert DelayedMessage.Le m

def reheap (l : List (DelayedMessage H D)) : List (DelayedMessage H D) :=
  l.insertionSort DelayedMessage.Le

def post (now : UInt32) (handler : Option H) (id : UInt32) (pdata : Option D)
    (timeSensitive : Bool) : MessageQueue H D :=
  if q.fStop then q
  else
    { q with
      fStop := id = mqidQuit
      msgq := q.msgq ++ [⟨handler, id, pdata, if timeSensitive then now + kMaxMsgLatency else 0⟩] }

def doDelayPost (tstamp : UInt32) (handler : Option H) (id : UInt32) (pdata : Option D) :
    MessageQueue H D :=
  if q.fStop then q
  else
    { q with
      fStop := id = mqidQuit
      dmsgq := push ⟨tstamp, q.dmsgqNextNum, ⟨handler, id, pdata, 0⟩⟩ q.dmsgq
      dmsgqNextNum := q.dmsgqNextNum + 1 }

def postDelayed (now : UInt32) (cmsDelay : Nat) (handler : Option H) (id : UInt32)
    (pdata : Option D) : MessageQueue H D :=
  q.doDelayPost (now + UInt32.ofNat cmsDelay) handler id pdata

def postAt (tstamp : UInt32) (handler : Option H) (id : UInt32) (pdata : Option D) :
    MessageQueue H D := q.doDelayPost tstamp handler id pdata

def quit : MessageQueue H D := q.post 0 none mqidQuit none false

/-- The delayed messages that are triggered, `cmsDelayNext` and the others. -/
def release (now : UInt32) :
    List (DelayedMessage H D) → List (Message H D) × Int × List (DelayedMessage H D)
  | [] => ([], kForever, [])
  | top :: rest =>
    if timeIsLater now top.msTrigger then ([], timeDiff top.msTrigger now, top :: rest)
    else
      let (ready, next, left) := release now rest
      (top.msg :: ready, next, left)

/-- The messages pulled off that are not returned, the outcome and the messages left. -/
def pull (next : Int) : List (Message H D) → List (Message H D) × Outcome H D × List (Message H D)
  | [] => ([], .wait next, [])
  | m :: rest =>
    if m.messageId = mqidDispose then
      let (dropped, outcome, left) := pull next rest
      (m :: dropped, outcome, left)
    else if m.messageId = mqidQuit then ([m], .quit, rest)
    else ([], .message m, rest)

/-- A pass of `Get`: what was pulled off but not returned, the outcome and the queue. -/
def get (now : UInt32) : List (Message H D) × Outcome H D × MessageQueue H D :=
  match q.msgPeek with
  | some m => ([], .message m, { q with msgPeek := none })
  | none =>
    let (ready, next, dmsgq) := release now q.dmsgq
    let (dropped, outcome, msgq) := pull next (q.msgq ++ ready)
    (dropped, outcome, { q with msgq, dmsgq })

/-- A pass of the `Get` in `Peek`, if no message is kept. -/
def peek (now : UInt32) : List (Message H D) × Outcome H D × MessageQueue H D :=
  match q.msgPeek with
  | some m => ([], .message m, q)
  | none =>
    match q.get now with
    | (dropped, .message m, q) => (dropped, .message m, { q with msgPeek := some m })
    | r => r

def getDelay (now : UInt32) : Int :=
  if q.msgq ≠ [] then 0
  else
    match q.dmsgq with
    | [] => kForever
    | top :: _ => max 0 (timeDiff top.msTrigger now)

def clear (handler : Option H) (id : UInt32) : List (Message H D) × MessageQueue H D :=
  (q.msgPeek.toList.filter (·.isMatch handler id) ++ q.msgq.filter (·.isMatch handler id) ++
      (q.dmsgq.filter (·.msg.isMatch handler id)).map (·.msg),
    { q with
      msgPeek := q.msgPeek.filter (!·.isMatch handler id)
      msgq := q.msgq.filter (!·.isMatch handler id)
      dmsgq := reheap (q.dmsgq.filter (!·.msg.isMatch handler id)) })

def messages : Multiset (Message H D) := ↑q.msgPeek.toList + ↑q.msgq + ↑(q.dmsgq.map (·.msg))

end MessageQueue

end Libjingle
