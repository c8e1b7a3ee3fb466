import Libjingle.Base.MessageQueue

/-! The message queue delivers like a queue in real time, in which a message waits
for its trigger time and the clock does not wrap. -/

namespace Libjingle

open MessageQueue DelayList

/-- The queue in real time; `count` delayed messages have been accepted. -/
structure Delivery (H D : Type) where
  stopped : Bool := false
  held : Option (Message H D) := none
  ready : List (Message H D) := []
  delayed : List (Entry (Message H D)) := []
  count : Nat := 0

inductive QueueOp (H D : Type)
  | post (handler : Option H) (id : UInt32) (pdata : Option D) (timeSensitive : Bool)
  | postDelayed (cmsDelay : Nat) (handler : Option H) (id : UInt32) (pdata : Option D)
  | postAt (tstamp : UInt32) (handler : Option H) (id : UInt32) (pdata : Option D)
  | quit
  | peek
  | get
  | clear (handler : Option H) (id : UInt32)
  | getDelay

def QueueOp.cmsDelay {H D : Type} : QueueOp H D → Nat
  | .postDelayed cmsDelay _ _ _ => cmsDelay
  | _ => 0

inductive QueueAnswer (H D : Type)
  | done
  | outcome (o : Outcome H D)
  | removed (l : List (Message H D))
  | delay (cms : Int)

/-- The order in which removed messages are listed does not matter. -/
def QueueAnswer.Same {H D : Type} : QueueAnswer H D → QueueAnswer H D → Prop
  | .removed l, .removed l' => l.Perm l'
  | a, b => a = b

namespace Delivery

variable {H D : Type} [DecidableEq H] (d : Delivery H D)

def post (m : Message H D) : Delivery H D :=
  if d.stopped then d else { d with stopped := m.messageId = mqidQuit, ready := d.ready ++ [m] }

def postDelayed (time : Int) (m : Message H D) : Delivery H D :=
  if d.stopped then d
  else
    { d with
      stopped := m.messageId = mqidQuit
      delayed := insert ⟨time, d.count, m⟩ d.delayed
      count := d.count + 1 }

/-- The time from `now` to the first message of a list. -/
def untilNext (now : Int) : List (Entry (Message H D)) → Int
  | [] => kForever
  | e :: _ => e.time - now

/-- The messages that are due become ready, then the first ready one is pulled. -/
def get (now : Int) : Outcome H D × Delivery H D :=
  match d.held with
  | some m => (.message m, { d with held := none })
  | none =>
    let later := pending now d.delayed
    let (_, outcome, ready) :=
      pull (untilNext now later) (d.ready ++ (due now d.delayed).map Entry.item)
    (outcome, { d with ready, delayed := later })

def peek (now : Int) : Outcome H D × Delivery H D :=
  match d.held with
  | some m => (.message m, d)
  | none =>
    match d.get now with
    | (.message m, d) => (.message m, { d with held := some m })
    | r => r

def getDelay (now : Int) : Int :=
  if d.ready ≠ [] then 0
  else
    match d.delayed with
    | [] => kForever
    | e :: _ => max 0 (e.time - now)

def clear (handler : Option H) (id : UInt32) : List (Message H D) × Delivery H D :=
  (d.held.toList.filter (·.isMatch handler id) ++ d.ready.filter (·.isMatch handler id) ++
      (d.delayed.filter (·.item.isMatch handler id)).map Entry.item,
    { d with
      held := d.held.filter (!·.isMatch handler id)
      ready := d.ready.filter (!·.isMatch handler id)
      delayed := d.delayed.filter (!·.item.isMatch handler id) })

def run (now : Int) : QueueOp H D → QueueAnswer H D × Delivery H D
  | .post handler id pdata timeSensitive =>
    (.done, d.post ⟨handler, id, pdata, if timeSensitive then clockAt now + kMaxMsgLatency else 0⟩)
  | .postDelayed cmsDelay handler id pdata =>
    (.done, d.postDelayed (now + cmsDelay) ⟨handler, id, pdata, 0⟩)
  | .postAt tstamp handler id pdata =>
    (.done, d.postDelayed (timeOf now tstamp) ⟨handler, id, pdata, 0⟩)
  | .quit => (.done, d.post ⟨none, mqidQuit, none, 0⟩)
  | .peek => (.outcome (d.peek now).1, (d.peek now).2)
  | .get => (.outcome (d.get now).1, (d.get now).2)
  | .clear handler id => (.removed (d.clear handler id).1, (d.clear handler id).2)
  | .getDelay => (.delay (d.getDelay now), d)

def Scans : QueueOp H D → Prop
  | .peek | .get => d.held = none
  | .getDelay => d.ready = []
  | _ => False

end Delivery

namespace MessageQueue

variable {H D : Type}

def run [DecidableEq H] (q : MessageQueue H D) (now : Int) :
    QueueOp H D → QueueAnswer H D × MessageQueue H D
  | .post handler id pdata timeSensitive =>
    (.done, q.post (clockAt now) handler id pdata timeSensitive)
  | .postDelayed cmsDelay handler id pdata =>
    (.done, q.postDelayed (clockAt now) cmsDelay handler id pdata)
  | .postAt tstamp handler id pdata => (.done, q.postAt tstamp handler id pdata)
  | .quit => (.done, q.quit)
  | .peek => (.outcome (q.peek (clockAt now)).2.1, (q.peek (clockAt now)).2.2)
  | .get => (.outcome (q.get (clockAt now)).2.1, (q.get (clockAt now)).2.2)
  | .clear handler id => (.removed (q.clear handler id).1, (q.clear handler id).2)
  | .getDelay => (.delay (q.getDelay (clockAt now)), q)

/-- How the message queue has an entry of the queue in real time. -/
def encode (e : Entry (Message H D)) : DelayedMessage H D :=
  ⟨clockAt e.time, UInt32.ofNat e.serial, e.item⟩

/-- The message queue stands for the queue in real time at the time `now`. -/
structure Represents (q : MessageQueue H D) (d : Delivery H D) (now : Int) : Prop where
  stopped : q.fStop = d.stopped
  held : q.msgPeek = d.held
  ready : q.msgq = d.ready
  delayed : q.dmsgq.Perm (d.delayed.map encode)
  heap : q.dmsgq.Pairwise DelayedMessage.Le
  num : q.dmsgqNextNum = UInt32.ofNat d.count
  sorted : d.delayed.Pairwise Before
  serial_lt : ∀ e ∈ d.delayed, e.serial < d.count
  near : ∀ e ∈ d.delayed, e.time - now < 2147483648

/-- The trigger times lie between the same two multiples of `2 ^ 32`, none of them is
more than half a lap ago, and the numbers of equal ones have not wrapped in between. -/
structure Aligned (d : Delivery H D) (now : Int) : Prop where
  lap : ∀ e ∈ d.delayed, ∀ f ∈ d.delayed, e.time / 4294967296 = f.time / 4294967296
  recent : ∀ e ∈ d.delayed, now - e.time ≤ 2147483648
  numbers : ∀ e ∈ d.delayed, ∀ f ∈ d.delayed, e.time = f.time →
    e.serial / 4294967296 = f.serial / 4294967296

theorem before_iff {e f : Entry (Message H D)}
    (hlap : e.time / 4294967296 = f.time / 4294967296)
    (hserial : e.time = f.time → e.serial / 4294967296 = f.serial / 4294967296) :
    (encode e).before (encode f) = true ↔ Before e f := by
  have hte := toNat_clockAt e.time
  have htf := toNat_clockAt f.time
  have hse : (UInt32.ofNat e.serial).toNat = e.serial % 4294967296 := UInt32.toNat_ofNat'
  have hsf : (UInt32.ofNat f.serial).toNat = f.serial % 4294967296 := UInt32.toNat_ofNat'
  simp only [DelayedMessage.before, encode, Before, Bool.or_eq_true, Bool.and_eq_true,
    decide_eq_true_eq, UInt32.lt_iff_toNat_lt, ← UInt32.toNat_inj, hse, hsf]
  omega

theorem Represents.dmsgq_eq {q : MessageQueue H D} {d : Delivery H D} {now now' : Int}
    (h : Represents q d now) (ha : Aligned d now') : q.dmsgq = d.delayed.map encode := by
  have hbefore : ∀ e ∈ d.delayed, ∀ f ∈ d.delayed,
      ((encode e).before (encode f) = true ↔ Before e f) := fun e he f hf =>
    before_iff (ha.lap e he f hf) (ha.numbers e he f hf)
  have hsorted : (d.delayed.map encode).Pairwise DelayedMessage.Le := by
    rw [List.pairwise_map]
    refine h.sorted.imp_of_mem fun {e f} he hf hef => ?_
    rw [DelayedMessage.Le, Bool.eq_false_iff]
    intro hfe
    have hback := (hbefore f hf e he).mp hfe
    simp only [Before] at hef hback
    omega
  refine h.delayed.eq_of_pairwise (fun a b ha' hb hab hba => ?_) h.heap hsorted
  obtain ⟨e, he, rfl⟩ := List.mem_map.mp (h.delayed.mem_iff.mp ha')
  obtain ⟨f, hf, rfl⟩ := List.mem_map.mp hb
  by_contra hne
  have hef : e ≠ f := fun heq => hne (congrArg encode heq)
  rcases before_or_before h.sorted he hf hef with hlt | hlt
  · exact Bool.eq_false_iff.mp hba ((hbefore e he f hf).mpr hlt)
  · exact Bool.eq_false_iff.mp hab ((hbefore f hf e he).mpr hlt)

theorem timeIsLater_clockAt {now time : Int} (hrecent : now - time ≤ 2147483648)
    (hnear : time - now < 2147483648) :
    timeIsLater (clockAt now) (clockAt time) = decide (now < time) := by
  rw [timeIsLater, timeDiff_clockAt (by omega) (by omega)]
  by_cases hlt : now < time
  · simp [hlt]
  · simp [hlt]

theorem release_map_encode {now : Int} {l : List (Entry (Message H D))} (hsorted : l.Pairwise Before)
    (hrecent : ∀ e ∈ l, now - e.time ≤ 2147483648) (hnear : ∀ e ∈ l, e.time - now < 2147483648) :
    release (clockAt now) (l.map encode) = ((due now l).map Entry.item,
      Delivery.untilNext now (pending now l), (pending now l).map encode) := by
  induction l with
  | nil => rfl
  | cons e rest ih =>
    obtain ⟨hfirst, hrest⟩ := List.pairwise_cons.mp hsorted
    have he := timeIsLater_clockAt (hrecent e List.mem_cons_self) (hnear e List.mem_cons_self)
    have hlater : timeIsLater (clockAt now) (encode e).msTrigger = decide (now < e.time) := he
    rw [List.map_cons, release, hlater]
    by_cases hlt : now < e.time
    · have hall := due_append_pending hsorted now
      have hnone : due now (e :: rest) = [] := by
        refine List.filter_eq_nil_iff.mpr fun x hx => ?_
        rcases List.mem_cons.mp hx with rfl | hx
        · simpa using hlt
        · have hbefore := hfirst x hx
          simp only [Before] at hbefore
          simp only [decide_eq_true_eq]
          omega
      rw [hnone, List.nil_append] at hall
      have hdiff : timeDiff (encode e).msTrigger (clockAt now) = e.time - now :=
        timeDiff_clockAt (by omega) (hnear e List.mem_cons_self)
      rw [hnone, hall]
      simp only [hlt, decide_true, if_true, hdiff, List.map_nil, List.map_cons, Delivery.untilNext]
    · have hle : e.time ≤ now := by omega
      have hdue : due now (e :: rest) = e :: due now rest := by simp [due, hle]
      have hpending : pending now (e :: rest) = pending now rest := by simp [pending, hlt]
      rw [hdue, hpending, ih hrest (fun x hx => hrecent x (List.mem_cons_of_mem _ hx)) fun x hx =>
        hnear x (List.mem_cons_of_mem _ hx)]
      simp only [hlt, decide_false, Bool.false_eq_true, if_false, List.map_cons]
      rfl

theorem Represents.start (now : Int) :
    Represents ({} : MessageQueue H D) ({} : Delivery H D) now where
  stopped := rfl
  held := rfl
  ready := rfl
  delayed := List.Perm.refl _
  heap := List.Pairwise.nil
  num := rfl
  sorted := List.Pairwise.nil
  serial_lt _ he := absurd he List.not_mem_nil
  near _ he := absurd he List.not_mem_nil

section Step

variable {q : MessageQueue H D} {d : Delivery H D} {now t : Int}

theorem Represents.later (h : Represents q d now) (hle : now ≤ t) : Represents q d t :=
  { h with
    near := by
      intro e he
      have hnear := h.near e he
      omega }

theorem Represents.post (h : Represents q d now) (handler : Option H) (id : UInt32)
    (pdata : Option D) (timeSensitive : Bool) :
    Represents (q.post (clockAt now) handler id pdata timeSensitive) (d.post ⟨handler, id, pdata,
      if timeSensitive then clockAt now + kMaxMsgLatency else 0⟩) now := by
  simp only [MessageQueue.post, Delivery.post, h.stopped]
  by_cases hstop : d.stopped = true
  · rw [if_pos hstop, if_pos hstop]
    exact h
  · rw [if_neg hstop, if_neg hstop]
    exact { h with
      stopped := rfl
      ready := by rw [h.ready] }

theorem Represents.doDelayPost (h : Represents q d now) {time : Int}
    (hnear : time - now < 2147483648) (handler : Option H) (id : UInt32) (pdata : Option D) :
    Represents (q.doDelayPost (clockAt time) handler id pdata)
      (d.postDelayed time ⟨handler, id, pdata, 0⟩) now := by
  simp only [MessageQueue.doDelayPost, Delivery.postDelayed, h.stopped]
  by_cases hstop : d.stopped = true
  · rw [if_pos hstop, if_pos hstop]
    exact h
  · rw [if_neg hstop, if_neg hstop]
    refine {
      stopped := rfl
      held := h.held
      ready := h.ready
      delayed := ?_
      heap := h.heap.orderedInsert _ _
      num := ?_
      sorted := sorted_insert h.sorted h.serial_lt
      serial_lt := ?_
      near := ?_ }
    · have hpush := List.perm_orderedInsert DelayedMessage.Le
        (⟨clockAt time, q.dmsgqNextNum, ⟨handler, id, pdata, 0⟩⟩ : DelayedMessage H D) q.dmsgq
      have hinsert := (perm_insert ⟨time, d.count, ⟨handler, id, pdata, 0⟩⟩ d.delayed).map encode
      refine hpush.trans (List.Perm.trans ?_ hinsert.symm)
      rw [List.map_cons, h.num]
      exact h.delayed.cons _
    · rw [h.num]
      exact (UInt32.ofNat_add d.count 1).symm
    · intro e he
      rcases mem_insert.mp he with rfl | he
      · exact Nat.lt_succ_self _
      · exact Nat.lt_succ_of_lt (h.serial_lt e he)
    · intro e he
      rcases mem_insert.mp he with rfl | he
      · exact hnear
      · exact h.near e he

theorem Represents.getDelay (h : Represents q d t) (ha : d.ready = [] → Aligned d t) :
    q.getDelay (clockAt t) = d.getDelay t := by
  simp only [MessageQueue.getDelay, Delivery.getDelay, h.ready]
  by_cases hready : d.ready = []
  · rw [if_neg (not_not.mpr hready), if_neg (not_not.mpr hready), h.dmsgq_eq (ha hready)]
    cases hdelayed : d.delayed with
    | nil => rfl
    | cons e rest =>
      have hmem : e ∈ d.delayed := by
        rw [hdelayed]
        exact List.mem_cons_self
      have hrecent := (ha hready).recent e hmem
      have hnear := h.near e hmem
      exact congrArg (max 0) (timeDiff_clockAt (by omega) hnear)
  · rw [if_pos hready, if_pos hready]

theorem Represents.get (h : Represents q d t) (ha : d.held = none → Aligned d t) :
    (q.get (clockAt t)).2.1 = (d.get t).1 ∧ Represents (q.get (clockAt t)).2.2 (d.get t).2 t := by
  cases hheld : d.held with
  | some m =>
    simp only [MessageQueue.get, Delivery.get, h.held, hheld]
    exact ⟨trivial, { h with held := rfl }⟩
  | none =>
    have haligned := ha hheld
    have hrelease := release_map_encode h.sorted haligned.recent h.near
    simp only [MessageQueue.get, Delivery.get, h.held, hheld, h.dmsgq_eq haligned, hrelease, h.ready]
    refine ⟨trivial, {
      stopped := h.stopped
      held := rfl
      ready := rfl
      delayed := List.Perm.refl _
      heap := ?_
      num := h.num
      sorted := h.sorted.filter _
      serial_lt := fun e he => h.serial_lt e (List.mem_of_mem_filter he)
      near := fun e he => h.near e (List.mem_of_mem_filter he) }⟩
    have hheap := h.heap
    rw [h.dmsgq_eq haligned] at hheap
    exact hheap.sublist (List.filter_sublist.map encode)

theorem Represents.peek (h : Represents q d t) (ha : d.held = none → Aligned d t) :
    (q.peek (clockAt t)).2.1 = (d.peek t).1 ∧ Represents (q.peek (clockAt t)).2.2 (d.peek t).2 t := by
  cases hheld : d.held with
  | some m =>
    simp only [MessageQueue.peek, Delivery.peek, h.held, hheld]
    exact ⟨trivial, h⟩
  | none =>
    have hget := h.get ha
    rcases hq : q.get (clockAt t) with ⟨dropped, outcome, left⟩
    rcases hd : d.get t with ⟨outcome', left'⟩
    rw [hq, hd] at hget
    obtain ⟨houtcome, hstate⟩ := hget
    simp only [MessageQueue.peek, Delivery.peek, h.held, hheld, hq, hd]
    dsimp only at houtcome hstate
    subst houtcome
    cases outcome with
    | message m => exact ⟨rfl, { hstate with held := rfl }⟩
    | quit => exact ⟨rfl, hstate⟩
    | wait cms => exact ⟨rfl, hstate⟩

variable [DecidableEq H]

theorem Represents.clear (h : Represents q d t) (handler : Option H) (id : UInt32) :
    (q.clear handler id).1.Perm (d.clear handler id).1 ∧
      Represents (q.clear handler id).2 (d.clear handler id).2 t := by
  have hmatch : ∀ e : Entry (Message H D),
      ((encode e).msg.isMatch handler id) = e.item.isMatch handler id := fun _ => rfl
  refine ⟨?_, {
    stopped := h.stopped
    held := ?_
    ready := ?_
    delayed := ?_
    heap := List.pairwise_insertionSort _ _
    num := h.num
    sorted := h.sorted.filter _
    serial_lt := fun e he => h.serial_lt e (List.mem_of_mem_filter he)
    near := fun e he => h.near e (List.mem_of_mem_filter he) }⟩
  · simp only [MessageQueue.clear, Delivery.clear, h.held, h.ready]
    refine List.Perm.append_left _ ?_
    have hperm := (h.delayed.filter (·.msg.isMatch handler id)).map (·.msg)
    rw [List.filter_map, List.map_map] at hperm
    exact hperm
  · simp only [MessageQueue.clear, Delivery.clear, h.held]
  · simp only [MessageQueue.clear, Delivery.clear, h.ready]
  · refine (List.perm_insertionSort _ _).trans ?_
    have hperm := h.delayed.filter (!·.msg.isMatch handler id)
    rw [List.filter_map] at hperm
    exact hperm

/-- The time does not go back, and a delay is less than half a lap. -/
structure Timely (now t : Int) (op : QueueOp H D) : Prop where
  later : now ≤ t
  delay : op.cmsDelay < 2147483648

/-- The delayed messages are aligned when an operation looks at them. -/
structure Fair (d : Delivery H D) (now t : Int) (op : QueueOp H D) : Prop
    extends Timely now t op where
  aligned : d.Scans op → Aligned d t

theorem Represents.run (h : Represents q d now) {op : QueueOp H D} (hfair : Fair d now t op) :
    (q.run t op).1.Same (d.run t op).1 ∧ Represents (q.run t op).2 (d.run t op).2 t := by
  have hlater := h.later hfair.later
  cases op with
  | post handler id pdata timeSensitive =>
    exact ⟨rfl, hlater.post handler id pdata timeSensitive⟩
  | postDelayed cmsDelay handler id pdata =>
    have hdelay : cmsDelay < 2147483648 := hfair.delay
    have hclock : clockAt t + UInt32.ofNat cmsDelay = clockAt (t + cmsDelay) := clockAt_add t cmsDelay
    refine ⟨rfl, ?_⟩
    simp only [MessageQueue.run, MessageQueue.postDelayed, Delivery.run, hclock]
    exact hlater.doDelayPost (by omega) handler id pdata
  | postAt tstamp handler id pdata =>
    have hbounds := timeDiff_bounds tstamp (clockAt t)
    have hnear : timeOf t tstamp - t < 2147483648 := by
      rw [timeOf]
      omega
    have hpost := hlater.doDelayPost hnear handler id pdata
    rw [clockAt_timeOf] at hpost
    exact ⟨rfl, hpost⟩
  | quit => exact ⟨rfl, hlater.post none mqidQuit none false⟩
  | peek =>
    obtain ⟨houtcome, hstate⟩ := hlater.peek hfair.aligned
    exact ⟨congrArg QueueAnswer.outcome houtcome, hstate⟩
  | get =>
    obtain ⟨houtcome, hstate⟩ := hlater.get hfair.aligned
    exact ⟨congrArg QueueAnswer.outcome houtcome, hstate⟩
  | clear handler id => exact hlater.clear handler id
  | getDelay => exact ⟨congrArg QueueAnswer.delay (hlater.getDelay hfair.aligned), hlater⟩

end Step

end MessageQueue

end Libjingle
