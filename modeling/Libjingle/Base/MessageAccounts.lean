import Libjingle.Base.MessageDelivery
import Mathlib.Algebra.Order.Group.Multiset
import Mathlib.Tactic.Abel

/-! Every message that the queue accepts is returned once, removed, dropped, or still
in the queue. -/

namespace Libjingle

open MessageQueue

namespace MessageQueue

variable {H D : Type}

def posted (t : Int) : QueueOp H D → Multiset (Message H D)
  | .post handler id pdata timeSensitive =>
    {⟨handler, id, pdata, if timeSensitive then clockAt t + kMaxMsgLatency else 0⟩}
  | .postDelayed _ handler id pdata | .postAt _ handler id pdata => {⟨handler, id, pdata, 0⟩}
  | .quit => {⟨none, mqidQuit, none, 0⟩}
  | _ => 0

def Outcome.toList : Outcome H D → List (Message H D)
  | .message m => [m]
  | _ => []

theorem release_eq (now : UInt32) (l : List (DelayedMessage H D)) :
    (release now l).1 ++ (release now l).2.2.map (·.msg) = l.map (·.msg) := by
  induction l with
  | nil => rfl
  | cons top rest ih =>
    by_cases hlater : timeIsLater now top.msTrigger = true
    · simp [release, hlater]
    · simp [release, hlater, ih]

theorem mqidQuit_ne : mqidQuit ≠ mqidDispose := by decide

theorem pull_eq (next : Int) (l : List (Message H D)) :
    (pull next l).1 ++ (pull next l).2.1.toList ++ (pull next l).2.2 = l := by
  induction l with
  | nil => rfl
  | cons m rest ih =>
    by_cases hdispose : m.messageId = mqidDispose
    · simpa [pull, hdispose] using ih
    · by_cases hquit : m.messageId = mqidQuit
      · simp [pull, hquit, mqidQuit_ne, Outcome.toList]
      · simp [pull, hdispose, hquit, Outcome.toList]

theorem pull_dropped {next : Int} {l : List (Message H D)} {m : Message H D}
    (hm : m ∈ (pull next l).1) : m.messageId = mqidDispose ∨ m.messageId = mqidQuit := by
  induction l with
  | nil => exact absurd hm List.not_mem_nil
  | cons a rest ih =>
    by_cases hdispose : a.messageId = mqidDispose
    · simp only [pull, hdispose, if_true, List.mem_cons] at hm
      rcases hm with rfl | hm
      · exact .inl hdispose
      · exact ih hm
    · by_cases hquit : a.messageId = mqidQuit
      · simp only [pull, hquit, mqidQuit_ne, if_true, if_false, List.mem_singleton] at hm
        exact .inr (hm ▸ hquit)
      · simp [pull, hdispose, hquit] at hm

structure Gone (H D : Type) where
  returned : Multiset (Message H D) := 0
  removed : Multiset (Message H D) := 0
  dropped : Multiset (Message H D) := 0

def gone [DecidableEq H] (q : MessageQueue H D) (t : Int) : QueueOp H D → Gone H D
  | .get =>
    { returned := (q.get (clockAt t)).2.1.toList
      dropped := (q.get (clockAt t)).1 }
  | .peek => { dropped := (q.peek (clockAt t)).1 }
  | .clear handler id => { removed := (q.clear handler id).1 }
  | _ => {}

theorem messages_post (q : MessageQueue H D) (now : UInt32) (handler : Option H) (id : UInt32)
    (pdata : Option D) (timeSensitive : Bool) :
    (q.post now handler id pdata timeSensitive).messages = q.messages + if q.fStop then 0 else
      {⟨handler, id, pdata, if timeSensitive then now + kMaxMsgLatency else 0⟩} := by
  by_cases hstop : q.fStop = true
  · simp [MessageQueue.post, hstop]
  · simp only [MessageQueue.post, hstop, Bool.false_eq_true, if_false, messages,
      ← Multiset.coe_add, Multiset.coe_singleton]
    abel

theorem messages_doDelayPost (q : MessageQueue H D) (tstamp : UInt32) (handler : Option H)
    (id : UInt32) (pdata : Option D) :
    (q.doDelayPost tstamp handler id pdata).messages =
      q.messages + if q.fStop then 0 else {⟨handler, id, pdata, 0⟩} := by
  by_cases hstop : q.fStop = true
  · simp [doDelayPost, hstop]
  · have hpush := (List.perm_orderedInsert DelayedMessage.Le
      ⟨tstamp, q.dmsgqNextNum, ⟨handler, id, pdata, 0⟩⟩ q.dmsgq).map (·.msg)
    have hcoe := Multiset.coe_eq_coe.mpr hpush
    simp only [doDelayPost, hstop, Bool.false_eq_true, if_false, messages, push, hcoe,
      List.map_cons, ← Multiset.cons_coe, ← Multiset.singleton_add]
    abel

theorem messages_get (q : MessageQueue H D) (now : UInt32) :
    q.messages = (q.get now).2.1.toList + (q.get now).1 + (q.get now).2.2.messages := by
  cases hpeek : q.msgPeek with
  | some m => simp [MessageQueue.get, messages, hpeek, Outcome.toList]
  | none =>
    have hrelease := release_eq now q.dmsgq
    have hpull := pull_eq (release now q.dmsgq).2.1 (q.msgq ++ (release now q.dmsgq).1)
    have hready := congrArg (Multiset.ofList) hpull
    simp only [← Multiset.coe_add] at hready
    simp only [MessageQueue.get, messages, hpeek, Option.toList_none, Multiset.coe_nil, zero_add]
    rw [← hrelease, ← Multiset.coe_add, ← add_assoc, ← hready]
    abel

theorem messages_peek (q : MessageQueue H D) (now : UInt32) :
    q.messages = (q.peek now).1 + (q.peek now).2.2.messages := by
  cases hpeek : q.msgPeek with
  | some m => simp [MessageQueue.peek, hpeek]
  | none =>
    have hget := messages_get q now
    have hkeep : (q.get now).2.2.msgPeek = none := by simp [MessageQueue.get, hpeek]
    rcases hq : q.get now with ⟨dropped, outcome, left⟩
    rw [hq] at hget hkeep
    dsimp only at hget hkeep
    cases outcome with
    | message m =>
      rw [hget]
      simp only [MessageQueue.peek, hpeek, hq, messages, hkeep, Outcome.toList,
        Option.toList_none, Option.toList_some, Multiset.coe_nil, zero_add]
      abel
    | quit => simp [MessageQueue.peek, hpeek, hq, hget, Outcome.toList]
    | wait cms => simp [MessageQueue.peek, hpeek, hq, hget, Outcome.toList]

theorem coe_filter_add {α : Type} (p : α → Bool) (l : List α) :
    (l.filter p : Multiset α) + (l.filter (!p ·) : Multiset α) = l := by
  rw [Multiset.coe_add, Multiset.coe_eq_coe]
  exact List.filter_append_perm p l

theorem messages_clear [DecidableEq H] (q : MessageQueue H D) (handler : Option H) (id : UInt32) :
    q.messages = (q.clear handler id).1 + (q.clear handler id).2.messages := by
  have hpeek : (q.msgPeek.filter (!·.isMatch handler id)).toList =
      q.msgPeek.toList.filter (!·.isMatch handler id) := by
    cases q.msgPeek with
    | none => rfl
    | some m => cases hm : m.isMatch handler id <;> simp [Option.filter, hm]
  have hheap := ((List.perm_insertionSort DelayedMessage.Le
    (q.dmsgq.filter (!·.msg.isMatch handler id))).map (·.msg))
  have hdmsgq := congrArg (Multiset.map (·.msg)) (coe_filter_add (·.msg.isMatch handler id) q.dmsgq)
  rw [Multiset.map_add] at hdmsgq
  simp only [Multiset.map_coe] at hdmsgq
  simp only [MessageQueue.clear, messages, hpeek, reheap, Multiset.coe_eq_coe.mpr hheap,
    ← Multiset.coe_add]
  rw [← coe_filter_add (·.isMatch handler id) q.msgPeek.toList,
    ← coe_filter_add (·.isMatch handler id) q.msgq, ← hdmsgq]
  abel

theorem messages_run [DecidableEq H] (q : MessageQueue H D) (t : Int) (op : QueueOp H D) :
    q.messages + (if q.fStop then 0 else posted t op) = (gone q t op).returned +
      (gone q t op).removed + (gone q t op).dropped + (q.run t op).2.messages := by
  have hidle : (if q.fStop then 0 else (0 : Multiset (Message H D))) = 0 := ite_self 0
  cases op with
  | post handler id pdata timeSensitive =>
    simp only [posted, gone, MessageQueue.run, messages_post, zero_add]
  | postDelayed cmsDelay handler id pdata =>
    simp only [posted, gone, MessageQueue.run, MessageQueue.postDelayed, messages_doDelayPost, zero_add]
  | postAt tstamp handler id pdata =>
    simp only [posted, gone, MessageQueue.run, MessageQueue.postAt, messages_doDelayPost, zero_add]
  | quit => simp [posted, gone, MessageQueue.run, MessageQueue.quit, messages_post]
  | peek =>
    have hpeek := messages_peek q (clockAt t)
    simp only [posted, gone, MessageQueue.run, hidle, add_zero, zero_add]
    exact hpeek
  | get =>
    have hget := messages_get q (clockAt t)
    simp only [posted, gone, MessageQueue.run, hidle, add_zero]
    exact hget
  | clear handler id =>
    have hclear := messages_clear q handler id
    simp only [posted, gone, MessageQueue.run, hidle, add_zero, zero_add]
    exact hclear
  | getDelay => simp only [posted, gone, MessageQueue.run, hidle, add_zero, zero_add]

theorem gone_dropped [DecidableEq H] (q : MessageQueue H D) (t : Int) (op : QueueOp H D) :
    ∀ m ∈ (gone q t op).dropped, m.messageId = mqidDispose ∨ m.messageId = mqidQuit := by
  have hget : ∀ m ∈ (q.get (clockAt t)).1, m.messageId = mqidDispose ∨ m.messageId = mqidQuit := by
    intro m hm
    cases hpeek : q.msgPeek with
    | some kept =>
      simp only [MessageQueue.get, hpeek] at hm
      exact absurd hm List.not_mem_nil
    | none =>
      simp only [MessageQueue.get, hpeek] at hm
      exact pull_dropped hm
  have hpeek : ∀ m ∈ (q.peek (clockAt t)).1, m ∈ (q.get (clockAt t)).1 := by
    intro m hm
    cases hpeek : q.msgPeek with
    | some kept =>
      simp only [MessageQueue.peek, hpeek] at hm
      exact absurd hm List.not_mem_nil
    | none =>
      rcases hq : q.get (clockAt t) with ⟨dropped, outcome, left⟩
      cases outcome <;> simpa [MessageQueue.peek, hpeek, hq] using hm
  intro m hm
  cases op with
  | get => exact hget m hm
  | peek => exact hget m (hpeek m hm)
  | post | postDelayed | postAt | quit | clear | getDelay =>
    exact absurd hm (Multiset.notMem_zero m)

end MessageQueue

structure QueueRun (H D : Type) where
  queue : MessageQueue H D := {}
  delivery : Delivery H D := {}
  now : Int
  accepted : Multiset (Message H D) := 0
  returned : Multiset (Message H D) := 0
  removed : Multiset (Message H D) := 0
  dropped : Multiset (Message H D) := 0

namespace QueueRun

variable {H D : Type} [DecidableEq H]

def step (r : QueueRun H D) (i : Int × QueueOp H D) : QueueRun H D where
  queue := (r.queue.run i.1 i.2).2
  delivery := (r.delivery.run i.1 i.2).2
  now := i.1
  accepted := r.accepted + if r.queue.fStop then 0 else posted i.1 i.2
  returned := r.returned + (gone r.queue i.1 i.2).returned
  removed := r.removed + (gone r.queue i.1 i.2).removed
  dropped := r.dropped + (gone r.queue i.1 i.2).dropped

def Agrees (r : QueueRun H D) (i : Int × QueueOp H D) : Prop :=
  (r.queue.run i.1 i.2).1.Same (r.delivery.run i.1 i.2).1

structure Accounted (r : QueueRun H D) : Prop where
  total : r.accepted = r.returned + r.removed + r.dropped + r.queue.messages
  dropped : ∀ m ∈ r.dropped, m.messageId = mqidDispose ∨ m.messageId = mqidQuit

theorem accounted_step {r : QueueRun H D} (h : r.Accounted) (i : Int × QueueOp H D) :
    (r.step i).Accounted := by
  have hrun := messages_run r.queue i.1 i.2
  constructor
  · simp only [step]
    rw [h.total, add_assoc _ r.queue.messages, hrun]
    abel
  · intro m hm
    rcases Multiset.mem_add.mp hm with hm | hm
    · exact h.dropped m hm
    · exact gone_dropped r.queue i.1 i.2 m hm

theorem accounted_run {r : QueueRun H D} (h : r.Accounted) (ops : List (Int × QueueOp H D)) :
    (ops.foldl step r).Accounted := by
  induction ops generalizing r with
  | nil => exact h
  | cons i rest ih => exact ih (accounted_step h i)

/-- In a fair run the message queue answers like the queue in real time. -/
theorem delivers_in_real_time (now : Int) (ops : List (Int × QueueOp H D))
    (hfair : Runs.Along step (fun r i => Fair r.delivery r.now i.1 i.2) { now } ops) :
    Runs.Along step Agrees { now } ops ∧ (ops.foldl step { now }).Accounted ∧
      Represents (ops.foldl step { now }).queue (ops.foldl step { now }).delivery
        (ops.foldl step { now }).now := by
  have hstart : ({ now } : QueueRun H D).Accounted := ⟨rfl, fun m hm => absurd hm (Multiset.notMem_zero m)⟩
  have hstep : ∀ (r : QueueRun H D) (i : Int × QueueOp H D), Represents r.queue r.delivery r.now →
      Fair r.delivery r.now i.1 i.2 →
      Represents (r.step i).queue (r.step i).delivery (r.step i).now ∧ Agrees r i :=
    fun r i hr hi => (hr.run hi).symm
  obtain ⟨hagrees, hlast⟩ := hfair.invariant hstep (Represents.start now)
  exact ⟨hagrees, accounted_run hstart ops, hlast⟩

/-- Two delayed messages and a pass before and after each of them is due. -/
theorem delivers_two_delayed :
    Runs.Along step Agrees ({ now := 1000 } : QueueRun Nat Nat)
      [(1000, .postDelayed 200 (some 1) 7 none), (1010, .postDelayed 50 (some 1) 8 none),
        (1030, .getDelay), (1070, .get), (1300, .peek), (1300, .get)] := by
  refine (delivers_in_real_time 1000 _ ?_).1
  refine ⟨?_, ?_, ?_, ?_, ?_, ?_, trivial⟩
  · exact ⟨⟨by decide, by decide⟩, fun hscan => hscan.elim⟩
  · exact ⟨⟨by decide, by decide⟩, fun hscan => hscan.elim⟩
  · exact ⟨⟨by decide, by decide⟩, fun _ => ⟨by decide, by decide, by decide⟩⟩
  · exact ⟨⟨by decide, by decide⟩, fun _ => ⟨by decide, by decide, by decide⟩⟩
  · exact ⟨⟨by decide, by decide⟩, fun _ => ⟨by decide, by decide, by decide⟩⟩
  · exact ⟨⟨by decide, by decide⟩, fun _ => ⟨by decide, by decide, by decide⟩⟩

/-- The clock wraps between two triggers: the message that is due stays behind the other. -/
theorem wrapped_trigger_first : ¬ ∀ (now : Int) (ops : List (Int × QueueOp Nat Nat)),
    Runs.Along step (fun r i => Timely r.now i.1 i.2) { now } ops →
      Runs.Along step Agrees { now } ops := by
  intro hall
  have hrun := hall 4294967196 [(4294967196, .postDelayed 50 none 1 none),
    (4294967196, .postDelayed 200 none 2 none), (4294967256, .get)]
    ⟨⟨by decide, by decide⟩, ⟨by decide, by decide⟩, ⟨by decide, by decide⟩, trivial⟩
  have hget : (.outcome (.wait 140) : QueueAnswer Nat Nat) = .outcome (.message ⟨none, 1, none, 0⟩) :=
    hrun.2.2.1
  exact absurd (QueueAnswer.outcome.inj hget) (by decide)

end QueueRun

end Libjingle
