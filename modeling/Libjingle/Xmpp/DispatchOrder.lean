import Libjingle.Lib.IndexedWalk
import Libjingle.Lib.Runs
import Libjingle.Xmpp.StanzaDispatch

/-! In which order the handlers of an engine are given a stanza, while they add and remove handlers,
and which responses the senders of iq stanzas get. -/

namespace Libjingle

namespace StanzaEngine

variable {κ ι : Type}

section Spec

variable (s : StanzaEngine κ ι)

def levels : List HandlerLevel := .peek :: HandlerLevel.peek.later

def turn : Option (HandlerLevel × Registration κ) :=
  match s.phase with
  | .handling _ level _ r => some (level, r)
  | _ => none

def isWaiting (r : Registration κ) : Bool := decide (r.serial ∉ s.given)

/-- The first handler, by level and registration, that has not been given the stanza. -/
def firstWaiting : List HandlerLevel → Option (HandlerLevel × Registration κ)
  | [] => none
  | level :: levels =>
    match (s.stanzaHandlers level).find? s.isWaiting with
    | some r => some (level, r)
    | none => firstWaiting levels

def Dispatches (stanza : XmlElement) : Prop :=
  s.phase = .idle ∧ s.errorCode = none ∧ stanza.name ≠ qnStreamError ∧
    s.answeredEntry stanza = none

/-- A response is one of those to the iq stanza that was sent with the cookie, the first one, and
the handler has not been removed. -/
def Allowed (past : List IqAction) : IqAction → Prop
  | .sent cookie _ _ => ∀ id recipient, .sent cookie id recipient ∉ past
  | .removed _ => True
  | .responded cookie stanza =>
    .sent cookie (stanza.attr qnId) (stanza.attr qnFrom) ∈ past ∧
      stanza.name = qnIq ∧ (stanza.attr qnType = "result" ∨ stanza.attr qnType = "error") ∧
      stanza.hasAttr qnId = true ∧ .removed cookie ∉ past ∧
      ∀ other, .responded cookie other ∉ past

variable [DecidableEq κ]

def Ends (e : Event κ ι) : Prop :=
  (s.handle e).phase = .idle ∧
    ((∃ stanza, e = .stanza stanza ∧ s.Dispatches stanza) ∨
      ∃ handled, e = .callbackReturns handled ∧ s.turn ≠ none)

structure Right (e : Event κ ι) : Prop where
  first : ∀ stanza, e = .stanza stanza → s.Dispatches stanza →
    (s.handle e).turn = s.firstTurn levels
  next : ∀ handled stanza level index r, e = .callbackReturns handled →
    s.phase = .handling stanza level index r → ¬ (handled = true ∧ level ≠ .peek) →
    (s.handle e).turn = s.firstWaiting (level :: level.later)
  stop : ∀ handled stanza level index r, e = .callbackReturns handled →
    s.phase = .handling stanza level index r → handled = true ∧ level ≠ .peek →
    (s.handle e).phase = .idle
  registered : ∀ level r, (s.phase = .idle ∨ ∃ handled, e = .callbackReturns handled) →
    (s.handle e).turn = some (level, r) → r ∈ s.stanzaHandlers level
  peeked : s.Ends e → ∀ r ∈ (s.handle e).stanzaHandlers .peek,
    r.serial < (s.handle e).started → (s.handle e).given.count r.serial = 1
  responses : EventLog.Justified Allowed (s.handle e).log

/-- When a handler returns and the stanza goes on, none of the handlers up to it has been removed
during its turn, or none is left behind them. -/
def Orderly (e : Event κ ι) : Prop :=
  ∀ handled stanza level index r, e = .callbackReturns handled →
    s.phase = .handling stanza level index r → ¬ (handled = true ∧ level ≠ .peek) →
    s.passed = index + 1 ∨ (s.stanzaHandlers level).length ≤ s.passed

end Spec

structure Turn (s : StanzaEngine κ ι) (level : HandlerLevel) (index : Nat) : Prop where
  scanned : level ≠ .none
  split : IndexedWalk.Split (fun r => r.serial ∈ s.given) (s.stanzaHandlers level) s.passed
  passed : s.passed ≤ index + 1
  later : ∀ l ∈ level.later, ∀ r ∈ s.stanzaHandlers l, r.serial ∉ s.given
  peeked : level ≠ .peek → ∀ r ∈ s.stanzaHandlers .peek, r.serial < s.started →
    r.serial ∈ s.given

structure Inv (s : StanzaEngine κ ι) : Prop where
  nodup : ∀ level, ((s.stanzaHandlers level).map (·.serial)).Nodup
  apart : ∀ l l' r r', r ∈ s.stanzaHandlers l → r' ∈ s.stanzaHandlers l' →
    r.serial = r'.serial → l = l'
  fresh : ∀ level, ∀ r ∈ s.stanzaHandlers level, r.serial < s.nextSerial
  given : ∀ n ∈ s.given, n < s.nextSerial
  once : s.given.Nodup
  started : s.started ≤ s.nextSerial
  turn : ∀ stanza level index r, s.phase = .handling stanza level index r → s.Turn level index

section Inv

variable {s t : StanzaEngine κ ι} {level : HandlerLevel} {index : Nat} {stanza : XmlElement}

theorem Inv.list_nodup (h : s.Inv) (level : HandlerLevel) : (s.stanzaHandlers level).Nodup :=
  List.Nodup.of_map _ (h.nodup level)

theorem Inv.congr (h : s.Inv) (hhandlers : t.stanzaHandlers = s.stanzaHandlers)
    (hserial : t.nextSerial = s.nextSerial) (hgiven : t.given = s.given)
    (hpassed : t.passed = s.passed) (hstarted : t.started = s.started)
    (hphase : t.phase = s.phase) : t.Inv where
  nodup := by rw [hhandlers]; exact h.nodup
  apart := by rw [hhandlers]; exact h.apart
  fresh := by rw [hhandlers, hserial]; exact h.fresh
  given := by rw [hgiven, hserial]; exact h.given
  once := by rw [hgiven]; exact h.once
  started := by rw [hstarted, hserial]; exact h.started
  turn stanza level index r hr := by
    obtain ⟨hlevel, hsplit, hle, hlater, hpeeked⟩ := h.turn stanza level index r (hphase ▸ hr)
    constructor
    · exact hlevel
    · rw [hgiven, hhandlers, hpassed]
      exact hsplit
    · rw [hpassed]
      exact hle
    · rw [hgiven, hhandlers]
      exact hlater
    · rw [hgiven, hhandlers, hstarted]
      exact hpeeked

theorem Inv.addStanzaHandler (h : s.Inv) (stanzaHandler : κ) (level : HandlerLevel) :
    (s.addStanzaHandler stanzaHandler level).1.Inv := by
  rw [StanzaEngine.addStanzaHandler]
  split
  · exact h
  have hnew : s.nextSerial ∉ s.given := fun hmem => Nat.lt_irrefl _ (h.given _ hmem)
  have hmem (l : HandlerLevel) (r : Registration κ)
      (hr : r ∈ if l = level then s.stanzaHandlers l ++ [⟨s.nextSerial, stanzaHandler⟩]
        else s.stanzaHandlers l) :
      r ∈ s.stanzaHandlers l ∨ l = level ∧ r.serial = s.nextSerial := by
    split at hr
    · rename_i hl
      rcases List.mem_append.mp hr with hr | hr
      · exact Or.inl hr
      · rw [List.mem_singleton.mp hr]
        exact Or.inr ⟨hl, rfl⟩
    · exact Or.inl hr
  constructor
  · intro l
    simp only
    split
    · rw [List.map_append, List.map_singleton, List.nodup_append]
      refine ⟨h.nodup l, List.nodup_singleton _, fun a ha b hb heq => ?_⟩
      obtain ⟨r, hr, rfl⟩ := List.mem_map.mp ha
      rw [List.mem_singleton.mp hb] at heq
      exact Nat.lt_irrefl _ (heq ▸ h.fresh l r hr)
    · exact h.nodup l
  · intro l l' r r' hr hr' heq
    rcases hmem l r hr with hold | ⟨hl, hserial⟩ <;>
      rcases hmem l' r' hr' with hold' | ⟨hl', hserial'⟩
    · exact h.apart l l' r r' hold hold' heq
    · have := h.fresh l r hold
      omega
    · have := h.fresh l' r' hold'
      omega
    · rw [hl, hl']
  · intro l r hr
    simp only
    rcases hmem l r hr with hold | ⟨-, hserial⟩
    · exact Nat.lt_succ_of_lt (h.fresh l r hold)
    · omega
  · exact fun n hn => Nat.lt_succ_of_lt (h.given n hn)
  · exact h.once
  · exact Nat.le_succ_of_le h.started
  · intro stanza l index r hr
    obtain ⟨hlevel, hsplit, hle, hlater, hpeeked⟩ := h.turn stanza l index r hr
    constructor
    · exact hlevel
    · simp only
      split
      · exact hsplit.append hnew
      · exact hsplit
    · exact hle
    · intro l' hl' r' hr'
      rcases hmem l' r' hr' with hold | ⟨-, hserial⟩
      · exact hlater l' hl' r' hold
      · rw [hserial]
        exact hnew
    · intro hne r' hr' hlt
      rcases hmem .peek r' hr' with hold | ⟨-, hserial⟩
      · exact hpeeked hne r' hold hlt
      · have := h.started
        simp only at hlt
        omega

theorem Inv.removeStanzaHandler [DecidableEq κ] (h : s.Inv) (stanzaHandler : κ) :
    (s.removeStanzaHandler stanzaHandler).1.Inv := by
  rw [StanzaEngine.removeStanzaHandler]
  constructor
  · exact fun l => (h.nodup l).sublist (List.Sublist.map _ List.filter_sublist)
  · exact fun l l' r r' hr hr' => h.apart l l' r r' (List.mem_of_mem_filter hr)
      (List.mem_of_mem_filter hr')
  · exact fun l r hr => h.fresh l r (List.mem_of_mem_filter hr)
  · exact h.given
  · exact h.once
  · exact h.started
  · intro stanza l index r hr
    obtain ⟨hlevel, hsplit, hle, hlater, hpeeked⟩ := h.turn stanza l index r hr
    simp only at hr
    constructor
    · exact hlevel
    · simp only [hr]
      exact hsplit.filter _
    · simp only [hr]
      have hcount := List.countP_le_length (p := others stanzaHandler)
        (l := (s.stanzaHandlers l).take s.passed)
      have := List.length_take_le s.passed (s.stanzaHandlers l)
      omega
    · exact fun l' hl' r' hr' => hlater l' hl' r' (List.mem_of_mem_filter hr')
    · exact fun hne r' hr' => hpeeked hne r' (List.mem_of_mem_filter hr')

theorem Inv.idle (h : s.Inv) : Inv { s with phase := .idle } :=
  ⟨h.nodup, h.apart, h.fresh, h.given, h.once, h.started, fun _ _ _ _ hr => by cases hr⟩

theorem HandlerLevel.mem_later {l l' : HandlerLevel} (h : l ∈ level.later) (h' : l' ∈ l.later) :
    l' ∈ level.later := by
  revert h h'
  cases level <;> cases l <;> cases l' <;> decide

theorem HandlerLevel.not_mem_later {l : HandlerLevel} (h : l ∈ level.later) :
    l ≠ level ∧ l ≠ .none ∧ l ≠ .peek := by
  revert h
  cases level <;> cases l <;> decide

theorem mem_of_firstTurn {levels : List HandlerLevel} {r : Registration κ}
    (h : s.firstTurn levels = some (level, r)) :
    level ∈ levels ∧ (s.stanzaHandlers level)[0]? = some r := by
  induction levels with
  | nil => cases h
  | cons first rest ih =>
    rw [firstTurn] at h
    cases hhead : (s.stanzaHandlers first).head? with
    | none =>
      rw [hhead] at h
      obtain ⟨hmem, hget⟩ := ih h
      exact ⟨List.mem_cons_of_mem _ hmem, hget⟩
    | some r' =>
      rw [hhead] at h
      cases h
      exact ⟨List.mem_cons_self, by rw [← List.head?_eq_getElem?, hhead]⟩

theorem firstWaiting_eq {levels : List HandlerLevel}
    (h : ∀ l ∈ levels, ∀ r ∈ s.stanzaHandlers l, r.serial ∉ s.given) :
    s.firstWaiting levels = s.firstTurn levels := by
  induction levels with
  | nil => rfl
  | cons first rest ih =>
    obtain ⟨hfirst, hrest⟩ := List.forall_mem_cons.mp h
    have hfind : (s.stanzaHandlers first).find? s.isWaiting = (s.stanzaHandlers first).head? := by
      cases hlist : s.stanzaHandlers first with
      | nil => rfl
      | cons r rest =>
        have hr : r.serial ∉ s.given := hfirst r (by rw [hlist]; exact List.mem_cons_self)
        exact List.find?_cons_of_pos (decide_eq_true hr)
    rw [firstWaiting, firstTurn, hfind, ih hrest]
    all_goals cases (s.stanzaHandlers first).head? <;> rfl

/-- The loops have come to an index, and the handlers of the level up to it that are left have been
given the stanza. -/
structure Ready (s : StanzaEngine κ ι) (level : HandlerLevel) (index n : Nat) : Prop where
  scanned : level ≠ .none
  split : IndexedWalk.Split (fun r => r.serial ∈ s.given) (s.stanzaHandlers level) n
  le : n ≤ index
  orderly : n = index ∨ (s.stanzaHandlers level).length ≤ n
  later : ∀ l ∈ level.later, ∀ r ∈ s.stanzaHandlers l, r.serial ∉ s.given
  peeked : level ≠ .peek → ∀ r ∈ s.stanzaHandlers .peek, r.serial < s.started →
    r.serial ∈ s.given

variable {n : Nat} {r : Registration κ}

theorem Ready.peek_done (h : s.Ready level index n)
    (hout : (s.stanzaHandlers level)[index]? = none) :
    ∀ r ∈ s.stanzaHandlers .peek, r.serial < s.started → r.serial ∈ s.given := by
  by_cases hpeek : level = .peek
  · subst hpeek
    intro r hr _
    have hlength : (s.stanzaHandlers .peek).length ≤ n := by
      rcases h.orderly with rfl | hle
      · exact List.getElem?_eq_none_iff.mp hout
      · exact hle
    exact h.split.mem_of_length_le hlength hr
  · exact h.peeked hpeek

theorem Inv.turn_of_split (h : s.Inv) (hlevel : level ≠ .none)
    (hsplit : IndexedWalk.Split (fun r => r.serial ∈ s.given) (s.stanzaHandlers level) index)
    (hget : (s.stanzaHandlers level)[index]? = some r)
    (hlater : ∀ l ∈ level.later, ∀ r ∈ s.stanzaHandlers l, r.serial ∉ s.given)
    (hpeeked : level ≠ .peek → ∀ r ∈ s.stanzaHandlers .peek, r.serial < s.started →
      r.serial ∈ s.given) :
    r.serial ∉ s.given ∧ Turn { s with
      phase := .handling stanza level index r
      given := s.given ++ [r.serial]
      passed := index + 1 } level index := by
  have hmem : r ∈ s.stanzaHandlers level := List.mem_of_getElem? hget
  have hwaiting : r.serial ∉ s.given := by
    obtain ⟨hlt, rfl⟩ := List.getElem?_eq_some_iff.mp hget
    refine hsplit.back _ ?_
    rw [List.drop_eq_getElem_cons hlt]
    exact List.mem_cons_self
  refine ⟨hwaiting, hlevel, ?_, Nat.le_refl _, ?_, ?_⟩
  · refine hsplit.next (h.list_nodup level) hget fun y hy => ?_
    rw [List.mem_append, List.mem_singleton]
    refine or_congr_right ⟨fun heq => ?_, fun heq => heq ▸ rfl⟩
    exact List.inj_on_of_nodup_map (h.nodup level) hy hmem heq
  · intro l hl r' hr'
    rw [List.mem_append, List.mem_singleton, not_or]
    refine ⟨hlater l hl r' hr', fun heq => ?_⟩
    exact (HandlerLevel.not_mem_later hl).1 (h.apart l level r' r hr' hmem heq)
  · exact fun hne r' hr' hlt => List.mem_append_left _ (hpeeked hne r' hr' hlt)

theorem Ready.turn (h : s.Ready level index n) (hinv : s.Inv) (stanza : XmlElement)
    {l : HandlerLevel} {i : Nat}
    (hnext : s.nextTurn level index = some (l, i, r)) :
    (s.stanzaHandlers l)[i]? = some r ∧ r.serial ∉ s.given ∧ Turn { s with
      phase := .handling stanza l i r
      given := s.given ++ [r.serial]
      passed := i + 1 } l i := by
  rw [nextTurn] at hnext
  cases hget : (s.stanzaHandlers level)[index]? with
  | some r' =>
    rw [hget] at hnext
    cases hnext
    have hn : n = index := by
      rcases h.orderly with heq | hle
      · exact heq
      · have hlt := (List.getElem?_eq_some_iff.mp hget).1
        have := h.le
        omega
    have hsplit := h.split
    rw [hn] at hsplit
    exact ⟨hget, hinv.turn_of_split h.scanned hsplit hget h.later h.peeked⟩
  | none =>
    rw [hget, Option.map_eq_some_iff] at hnext
    obtain ⟨⟨l', r'⟩, hfirst, heq⟩ := hnext
    cases heq
    obtain ⟨hmem, hhead⟩ := mem_of_firstTurn hfirst
    have hsplit := IndexedWalk.split_zero (h.later _ hmem)
    refine ⟨hhead, hinv.turn_of_split (HandlerLevel.not_mem_later hmem).2.1 hsplit hhead
      (fun l' hl' => h.later l' (HandlerLevel.mem_later hmem hl')) fun _ => h.peek_done hget⟩

theorem turn_advance : (s.advance stanza level index).turn =
    (s.nextTurn level index).map fun t => (t.1, t.2.2) := by
  rw [advance]
  cases s.nextTurn level index with
  | some t => rfl
  | none =>
    simp only [sendStanzaError, sendStanza]
    split
    · split <;> rfl
    · rfl

theorem advance_of_none (stanza : XmlElement) (h : s.nextTurn level index = none) :
    ∃ output, s.advance stanza level index = { s with phase := .idle, output } := by
  rw [advance, h]
  simp only [sendStanzaError, sendStanza]
  split
  · split
    · exact ⟨s.output, rfl⟩
    · exact ⟨_, rfl⟩
  · exact ⟨s.output, rfl⟩

theorem Ready.advance (h : s.Ready level index n) (hinv : s.Inv) :
    (s.advance stanza level index).Inv := by
  cases hnext : s.nextTurn level index with
  | none =>
    obtain ⟨output, heq⟩ := advance_of_none stanza hnext
    rw [heq]
    exact hinv.idle.congr rfl rfl rfl rfl rfl rfl
  | some t =>
    obtain ⟨l, i, r⟩ := t
    obtain ⟨hget, hwaiting, hturn⟩ := h.turn hinv stanza hnext
    rw [StanzaEngine.advance, hnext]
    refine ⟨hinv.nodup, hinv.apart, hinv.fresh, ?_, ?_, hinv.started, ?_⟩
    · intro n hn
      rcases List.mem_append.mp hn with hn | hn
      · exact hinv.given n hn
      · rw [List.mem_singleton.mp hn]
        exact hinv.fresh l r (List.mem_of_getElem? hget)
    · rw [List.nodup_append]
      refine ⟨hinv.once, List.nodup_singleton _, fun a ha b hb heq => hwaiting ?_⟩
      rw [List.mem_singleton.mp hb] at heq
      exact heq ▸ ha
    · intro stanza' l' i' r' hr'
      cases hr'
      exact hturn

theorem turn_advance_eq : (s.advance stanza level index).turn =
    (((s.stanzaHandlers level)[index]?).map fun r => (level, r)).or (s.firstTurn level.later) := by
  rw [turn_advance, nextTurn]
  cases (s.stanzaHandlers level)[index]? with
  | some r => rfl
  | none => cases s.firstTurn level.later <;> rfl

theorem firstWaiting_of_split
    (hsplit : IndexedWalk.Split (fun r => r.serial ∈ s.given) (s.stanzaHandlers level) n)
    (hlater : ∀ l ∈ level.later, ∀ r ∈ s.stanzaHandlers l, r.serial ∉ s.given) :
    s.firstWaiting (level :: level.later) =
      (((s.stanzaHandlers level)[n]?).map fun r => (level, r)).or (s.firstTurn level.later) := by
  have hfind : (s.stanzaHandlers level).find? s.isWaiting = (s.stanzaHandlers level)[n]? :=
    hsplit.find_eq fun r => decide_eq_true_iff
  rw [firstWaiting, firstWaiting_eq hlater, hfind]
  cases (s.stanzaHandlers level)[n]? <;> rfl

theorem Turn.next_iff (h : s.Turn level index) (hinv : s.Inv) :
    (s.advance stanza level (index + 1)).turn = s.firstWaiting (level :: level.later) ↔
      s.passed = index + 1 ∨ (s.stanzaHandlers level).length ≤ s.passed := by
  rw [turn_advance_eq, firstWaiting_of_split h.split h.later,
    ← IndexedWalk.getElem_eq_iff (hinv.list_nodup level) h.passed]
  have hother (r : Registration κ) : s.firstTurn level.later ≠ some (level, r) := fun heq =>
    (HandlerLevel.not_mem_later (mem_of_firstTurn heq).1).1 rfl
  constructor
  · intro heq
    cases hcode : (s.stanzaHandlers level)[index + 1]? <;>
      cases hspec : (s.stanzaHandlers level)[s.passed]? <;>
      rw [hcode, hspec] at heq
    · exact absurd heq (hother _)
    · exact absurd heq.symm (hother _)
    · cases heq
      rfl
  · intro heq
    rw [heq]

theorem Turn.ready (h : s.Turn level index)
    (horderly : s.passed = index + 1 ∨ (s.stanzaHandlers level).length ≤ s.passed) :
    s.Ready level (index + 1) s.passed :=
  ⟨h.scanned, h.split, h.passed, horderly, h.later, h.peeked⟩

end Inv

section Iq

def IqAction.cookie : IqAction → Nat
  | .sent cookie _ _ => cookie
  | .removed cookie => cookie
  | .responded cookie _ => cookie

structure IqInv (s : StanzaEngine κ ι) : Prop where
  responses : EventLog.Justified Allowed s.log
  sent : ∀ entry ∈ s.iqEntries, .sent entry.cookie entry.id entry.recipient ∈ s.log
  awaited : ∀ entry ∈ s.iqEntries, .removed entry.cookie ∉ s.log ∧
    ∀ stanza, .responded entry.cookie stanza ∉ s.log
  nodup : (s.iqEntries.map (·.cookie)).Nodup
  fresh : ∀ a ∈ s.log, a.cookie < s.nextCookie

variable {s t : StanzaEngine κ ι}

theorem IqInv.congr (h : s.IqInv) (hentries : t.iqEntries = s.iqEntries) (hlog : t.log = s.log)
    (hcookie : t.nextCookie = s.nextCookie) : t.IqInv where
  responses := by rw [hlog]; exact h.responses
  sent := by rw [hentries, hlog]; exact h.sent
  awaited := by rw [hentries, hlog]; exact h.awaited
  nodup := by rw [hentries]; exact h.nodup
  fresh := by rw [hlog, hcookie]; exact h.fresh

theorem IqInv.erase (h : s.IqInv) {p : IqEntry ι → Bool} {entry : IqEntry ι}
    (hfind : s.iqEntries.find? p = some entry) {a : IqAction} (ha : a.cookie = entry.cookie)
    (hsent : ∀ id recipient, a ≠ .sent entry.cookie id recipient) (hallowed : Allowed s.log a) :
    IqInv { s with iqEntries := s.iqEntries.eraseP p, log := s.log ++ [a] } := by
  obtain ⟨hp, before, after, hsplit, hbefore⟩ := List.find?_eq_some_iff_append.mp hfind
  have hmem : entry ∈ s.iqEntries := List.mem_of_find?_eq_some hfind
  have hrest : s.iqEntries.eraseP p = before ++ after := by
    rw [hsplit, List.eraseP_append_right _ (fun b hb => by simpa using hbefore b hb),
      List.eraseP_cons_of_pos hp]
  have hnodup := h.nodup
  rw [hsplit, List.map_append, List.map_cons, List.nodup_middle, List.nodup_cons,
    ← List.map_append] at hnodup
  have hothers : ∀ other ∈ s.iqEntries.eraseP p, other.cookie ≠ entry.cookie := by
    rw [hrest]
    exact fun other hother heq => hnodup.1 (heq ▸ List.mem_map_of_mem hother)
  constructor
  · exact h.responses.concat hallowed
  · exact fun other hother => List.mem_append_left _ (h.sent other (List.mem_of_mem_eraseP hother))
  · intro other hother
    obtain ⟨hremoved, hresponded⟩ := h.awaited other (List.mem_of_mem_eraseP hother)
    have hne := hothers other hother
    rw [List.mem_append, List.mem_singleton, not_or]
    refine ⟨⟨hremoved, ?_⟩, fun stanza => ?_⟩
    · rintro rfl
      exact hne ha
    · rw [List.mem_append, List.mem_singleton, not_or]
      refine ⟨hresponded stanza, ?_⟩
      rintro rfl
      exact hne ha
  · rw [hrest]
    exact hnodup.2
  · intro b hb
    rcases List.mem_append.mp hb with hb | hb
    · exact h.fresh b hb
    · rw [List.mem_singleton.mp hb, ha]
      exact h.fresh _ (h.sent entry hmem)

theorem IqInv.removeIqHandler (h : s.IqInv) (cookie : Nat) :
    (s.removeIqHandler cookie).1.IqInv := by
  rw [StanzaEngine.removeIqHandler]
  split
  · rename_i hany
    obtain ⟨entry, hfind⟩ := Option.isSome_iff_exists.mp
      (List.find?_isSome.mpr (List.any_eq_true.mp hany))
    have hcookie : entry.cookie = cookie := by simpa using List.find?_some hfind
    exact h.erase hfind hcookie.symm (fun _ _ heq => by cases heq) trivial
  · exact h

theorem IqInv.sendIq (h : s.IqInv) (element : Option XmlElement) (iqHandler : Option ι) :
    (s.sendIq element iqHandler).1.IqInv := by
  by_cases hclosed : s.state = .closed
  · simpa only [StanzaEngine.sendIq, if_pos hclosed] using h
  rcases iqHandler with _ | iqHandler
  · simpa only [StanzaEngine.sendIq, if_neg hclosed] using h
  rcases element with _ | element
  · simpa only [StanzaEngine.sendIq, if_neg hclosed] using h
  · simp only [StanzaEngine.sendIq, if_neg hclosed]
    split
    · have hnew : ∀ a ∈ s.log, a.cookie ≠ s.nextCookie := fun a ha heq =>
        Nat.lt_irrefl _ (heq ▸ h.fresh a ha)
      simp only [sendStanza, if_neg hclosed]
      constructor
      · exact h.responses.concat fun id recipient hmem => hnew _ hmem rfl
      · intro entry hentry
        rcases List.mem_append.mp hentry with hentry | hentry
        · exact List.mem_append_left _ (h.sent entry hentry)
        · rw [List.mem_singleton.mp hentry]
          exact List.mem_append_right _ List.mem_cons_self
      · intro entry hentry
        simp only [List.mem_append, List.mem_singleton, reduceCtorEq, or_false]
        rcases List.mem_append.mp hentry with hentry | hentry
        · exact h.awaited entry hentry
        · rw [List.mem_singleton.mp hentry]
          exact ⟨fun hmem => hnew _ hmem rfl, fun stanza hmem => hnew _ hmem rfl⟩
      · simp only [List.map_append, List.map_singleton, List.nodup_append]
        refine ⟨h.nodup, List.nodup_singleton _, fun a ha b hb heq => ?_⟩
        obtain ⟨entry, hentry, rfl⟩ := List.mem_map.mp ha
        rw [List.mem_singleton.mp hb] at heq
        exact hnew _ (h.sent entry hentry) heq
      · intro a ha
        rcases List.mem_append.mp ha with ha | ha
        · exact Nat.lt_succ_of_lt (h.fresh a ha)
        · rw [List.mem_singleton.mp ha]
          exact Nat.lt_succ_self _
    · exact h

theorem IqInv.incomingStanza (h : s.IqInv) (stanza : XmlElement) :
    (s.incomingStanza stanza).IqInv := by
  rw [StanzaEngine.incomingStanza]
  split
  · exact h
  split
  · rw [signalStreamError]
    split
    · exact h
    · exact h.congr rfl rfl rfl
  split
  · rename_i entry hentry
    rw [answeredEntry] at hentry
    split at hentry
    · rename_i hresponse
      have hmem := List.mem_of_find?_eq_some hentry
      have hmatch := List.find?_some hentry
      rw [isAnsweredBy, Bool.and_eq_true, decide_eq_true_iff, decide_eq_true_iff] at hmatch
      obtain ⟨hid, hrecipient⟩ := hmatch
      have hsent := h.sent entry hmem
      rw [hid, hrecipient] at hsent
      have hname : stanza.name = qnIq ∧
          (stanza.attr qnType = "result" ∨ stanza.attr qnType = "error") ∧
          stanza.hasAttr qnId = true := by
        simpa [isIqResponse, and_assoc] using hresponse
      obtain ⟨hremoved, hresponded⟩ := h.awaited entry hmem
      have hnext := h.erase hentry (a := .responded entry.cookie stanza) rfl
        (fun _ _ heq => by cases heq)
        ⟨hsent, hname.1, hname.2.1, hname.2.2, hremoved, hresponded⟩
      exact hnext.congr rfl rfl rfl
    · cases hentry
  · cases hnext : nextTurn { s with started := s.nextSerial, given := [] } .peek 0 with
    | none =>
      obtain ⟨output, heq⟩ := advance_of_none stanza hnext
      rw [heq]
      exact h.congr rfl rfl rfl
    | some t =>
      rw [StanzaEngine.advance, hnext]
      exact h.congr rfl rfl rfl

theorem IqInv.advance (h : s.IqInv) (stanza : XmlElement) (level : HandlerLevel) (index : Nat) :
    (s.advance stanza level index).IqInv := by
  cases hnext : s.nextTurn level index with
  | none =>
    obtain ⟨output, heq⟩ := advance_of_none stanza hnext
    rw [heq]
    exact h.congr rfl rfl rfl
  | some t =>
    rw [StanzaEngine.advance, hnext]
    exact h.congr rfl rfl rfl

end Iq

section Begin

variable {s : StanzaEngine κ ι}

theorem Inv.ready (h : s.Inv) :
    Inv { s with phase := .idle, started := s.nextSerial, given := [] } ∧
      Ready { s with phase := .idle, started := s.nextSerial, given := [] } .peek 0 0 := by
  constructor
  · exact ⟨h.nodup, h.apart, h.fresh, fun n hn => absurd hn List.not_mem_nil, List.nodup_nil,
      Nat.le_refl _, fun _ _ _ _ hr => by cases hr⟩
  · exact ⟨by decide, IndexedWalk.split_zero fun r _ => List.not_mem_nil, Nat.le_refl _, Or.inl rfl,
      fun l _ r _ => List.not_mem_nil, fun hne => absurd rfl hne⟩

theorem incomingStanza_of_dispatches {stanza : XmlElement} (h : s.Dispatches stanza) :
    s.incomingStanza stanza =
      advance { s with phase := .idle, started := s.nextSerial, given := [] } stanza .peek 0 := by
  obtain ⟨hidle, herror, hname, hentry⟩ := h
  rw [incomingStanza, herror, if_neg (by decide), if_neg hname, hentry, hidle]

structure Sound (s : StanzaEngine κ ι) : Prop where
  inv : s.Inv
  iq : s.IqInv

theorem Sound.incomingStanza (h : s.Sound) (hidle : s.phase = .idle) (stanza : XmlElement) :
    (s.incomingStanza stanza).Sound := by
  refine ⟨?_, h.iq.incomingStanza stanza⟩
  by_cases hdispatch : s.Dispatches stanza
  · obtain ⟨hinv, hready⟩ := h.inv.ready
    rw [incomingStanza_of_dispatches hdispatch]
    exact hready.advance hinv
  · rw [StanzaEngine.incomingStanza]
    split
    · exact h.inv
    rename_i herror
    split
    · rw [signalStreamError]
      split
      · exact h.inv
      · exact h.inv.congr rfl rfl rfl rfl rfl rfl
    rename_i hname
    cases hentry : s.answeredEntry stanza with
    | none => exact absurd ⟨hidle, by simpa using herror, hname, hentry⟩ hdispatch
    | some entry =>
      exact ⟨h.inv.nodup, h.inv.apart, h.inv.fresh, h.inv.given, h.inv.once, h.inv.started,
        fun _ _ _ _ hr => by cases hr⟩

theorem mem_of_turn_advance {stanza : XmlElement} {level l : HandlerLevel} {index : Nat}
    {r : Registration κ} (h : (s.advance stanza level index).turn = some (l, r)) :
    r ∈ s.stanzaHandlers l := by
  rw [turn_advance_eq] at h
  cases hget : (s.stanzaHandlers level)[index]? with
  | some r' =>
    rw [hget] at h
    cases h
    exact List.mem_of_getElem? hget
  | none =>
    rw [hget] at h
    exact List.mem_of_getElem? (mem_of_firstTurn h).2

/-- When nobody is left, each of the first level that has been there all along was given the stanza
once. -/
theorem Ready.peeked_once {stanza : XmlElement} {level : HandlerLevel} {index n : Nat}
    (h : s.Ready level index n) (hinv : s.Inv)
    (hidle : (s.advance stanza level index).phase = .idle) :
    ∀ r ∈ (s.advance stanza level index).stanzaHandlers .peek,
      r.serial < (s.advance stanza level index).started →
      (s.advance stanza level index).given.count r.serial = 1 := by
  cases hnext : s.nextTurn level index with
  | some t =>
    rw [StanzaEngine.advance, hnext] at hidle
    cases hidle
  | none =>
    obtain ⟨output, heq⟩ := advance_of_none stanza hnext
    rw [heq]
    intro r hr hlt
    have hout : (s.stanzaHandlers level)[index]? = none := by
      cases hget : (s.stanzaHandlers level)[index]? with
      | none => rfl
      | some r' =>
        rw [nextTurn, hget] at hnext
        cases hnext
    exact List.count_eq_one_of_mem hinv.once (h.peek_done hout r hr hlt)

theorem sound_initial : Sound ({} : StanzaEngine κ ι) where
  inv := by
    constructor
    · exact fun _ => List.nodup_nil
    · exact fun l l' r r' hr => absurd hr List.not_mem_nil
    · exact fun _ r hr => absurd hr List.not_mem_nil
    · exact fun n hn => absurd hn List.not_mem_nil
    · exact List.nodup_nil
    · exact Nat.le_refl _
    · exact fun _ _ _ _ hr => by cases hr
  iq := by
    constructor
    · exact EventLog.justified_nil
    · exact fun entry hentry => absurd hentry List.not_mem_nil
    · exact fun entry hentry => absurd hentry List.not_mem_nil
    · exact List.nodup_nil
    · exact fun a ha => absurd ha List.not_mem_nil

end Begin

section Run

variable [DecidableEq κ] {s : StanzaEngine κ ι}

theorem Sound.call (h : s.Sound) (c : Call κ ι) : (s.call c).1.Sound := by
  cases c with
  | addStanzaHandler stanzaHandler level =>
    refine ⟨h.inv.addStanzaHandler stanzaHandler level, ?_⟩
    rw [StanzaEngine.call, addStanzaHandler]
    split
    · exact h.iq
    · exact h.iq.congr rfl rfl rfl
  | removeStanzaHandler stanzaHandler =>
    exact ⟨h.inv.removeStanzaHandler stanzaHandler, h.iq.congr rfl rfl rfl⟩
  | sendStanza element =>
    rw [StanzaEngine.call, sendStanza]
    split
    · exact h
    · exact ⟨h.inv.congr rfl rfl rfl rfl rfl rfl, h.iq.congr rfl rfl rfl⟩
  | sendIq element iqHandler =>
    refine ⟨?_, h.iq.sendIq element iqHandler⟩
    rw [StanzaEngine.call]
    by_cases hclosed : s.state = .closed
    · simpa only [sendIq, if_pos hclosed] using h.inv
    rcases iqHandler with _ | iqHandler
    · simpa only [sendIq, if_neg hclosed] using h.inv
    rcases element with _ | element
    · simpa only [sendIq, if_neg hclosed] using h.inv
    · simp only [sendIq, if_neg hclosed]
      split
      · simp only [sendStanza, if_neg hclosed]
        exact h.inv.congr rfl rfl rfl rfl rfl rfl
      · exact h.inv
  | removeIqHandler cookie =>
    refine ⟨?_, h.iq.removeIqHandler cookie⟩
    rw [StanzaEngine.call, removeIqHandler]
    split
    · exact h.inv.congr rfl rfl rfl rfl rfl rfl
    · exact h.inv
  | disconnect => exact ⟨h.inv.congr rfl rfl rfl rfl rfl rfl, h.iq.congr rfl rfl rfl⟩

theorem Sound.handle (h : s.Sound) {e : Event κ ι} (he : s.Orderly e) : (s.handle e).Sound := by
  cases e with
  | stanza stanza =>
    rw [StanzaEngine.handle]
    cases hphase : s.phase with
    | idle => exact h.incomingStanza hphase stanza
    | responding entry other => exact h
    | handling other level index r => exact h
  | call c => exact h.call c
  | callbackReturns handled =>
    rw [StanzaEngine.handle, callbackReturns]
    cases hphase : s.phase with
    | idle => exact h
    | responding entry other => exact ⟨h.inv.idle, h.iq.congr rfl rfl rfl⟩
    | handling stanza level index r =>
      simp only
      split
      · exact ⟨h.inv.idle, h.iq.congr rfl rfl rfl⟩
      · rename_i hgoes
        have hready := (h.inv.turn stanza level index r hphase).ready
          (he handled stanza level index r rfl hphase hgoes)
        exact ⟨hready.advance h.inv, h.iq.advance stanza level (index + 1)⟩

theorem phase_call (s : StanzaEngine κ ι) (c : Call κ ι) : (s.call c).1.phase = s.phase := by
  cases c with
  | addStanzaHandler stanzaHandler level =>
    rw [call, addStanzaHandler]
    split <;> rfl
  | removeStanzaHandler stanzaHandler => rfl
  | sendStanza element =>
    rw [call, sendStanza]
    split <;> rfl
  | sendIq element iqHandler =>
    rw [call]
    by_cases hclosed : s.state = .closed
    · simp only [sendIq, if_pos hclosed]
    rcases iqHandler with _ | iqHandler
    · simp only [sendIq, if_neg hclosed]
    rcases element with _ | element
    · simp only [sendIq, if_neg hclosed]
    · simp only [sendIq, sendStanza, if_neg hclosed]
      split <;> rfl
  | removeIqHandler cookie =>
    rw [call, removeIqHandler]
    split <;> rfl
  | disconnect => rfl

theorem handle_of_handling {handled : Bool} {stanza : XmlElement} {level : HandlerLevel}
    {index : Nat} {r : Registration κ} (hphase : s.phase = .handling stanza level index r)
    (hgoes : ¬ (handled = true ∧ level ≠ .peek)) :
    s.handle (.callbackReturns handled) = s.advance stanza level (index + 1) := by
  rw [handle, callbackReturns, hphase]
  exact if_neg hgoes

theorem handle_of_handled {handled : Bool} {stanza : XmlElement} {level : HandlerLevel}
    {index : Nat} {r : Registration κ} (hphase : s.phase = .handling stanza level index r)
    (hstops : handled = true ∧ level ≠ .peek) :
    s.handle (.callbackReturns handled) = { s with phase := .idle } := by
  rw [handle, callbackReturns, hphase]
  exact if_pos hstops

theorem handle_of_dispatches {stanza : XmlElement} (h : s.Dispatches stanza) :
    s.handle (.stanza stanza) =
      advance { s with phase := .idle, started := s.nextSerial, given := [] } stanza .peek 0 := by
  rw [handle, h.1]
  exact incomingStanza_of_dispatches h

theorem turn_handle (e : Event κ ι)
    (hwhen : s.phase = .idle ∨ ∃ handled, e = .callbackReturns handled) :
    (s.handle e).turn = none ∨ (∃ stanza, e = .stanza stanza ∧ s.Dispatches stanza) ∨
      ∃ handled stanza level index r, e = .callbackReturns handled ∧
        s.phase = .handling stanza level index r ∧ ¬ (handled = true ∧ level ≠ .peek) := by
  have hnone (t : StanzaEngine κ ι) (ht : t.phase = .idle) : t.turn = none := by
    rw [turn, ht]
  cases e with
  | call c =>
    rcases hwhen with hidle | ⟨handled, heq⟩
    · exact Or.inl (hnone _ ((s.phase_call c).trans hidle))
    · cases heq
  | callbackReturns handled =>
    cases hphase : s.phase with
    | idle =>
      rw [handle, callbackReturns, hphase]
      exact Or.inl (hnone s hphase)
    | responding entry other =>
      rw [handle, callbackReturns, hphase]
      exact Or.inl rfl
    | handling stanza level index r =>
      by_cases hstops : handled = true ∧ level ≠ .peek
      · rw [handle_of_handled hphase hstops]
        exact Or.inl rfl
      · exact Or.inr (Or.inr ⟨handled, stanza, level, index, r, rfl, rfl, hstops⟩)
  | stanza stanza =>
    by_cases hdispatch : s.Dispatches stanza
    · exact Or.inr (Or.inl ⟨stanza, rfl, hdispatch⟩)
    · rcases hwhen with hidle | ⟨handled, heq⟩
      · refine Or.inl ?_
        rw [handle, hidle]
        simp only [incomingStanza]
        split
        · exact hnone s hidle
        rename_i herror
        split
        · rw [signalStreamError]
          split <;> exact hnone _ hidle
        rename_i hname
        cases hentry : s.answeredEntry stanza with
        | none => exact absurd ⟨hidle, by simpa using herror, hname, hentry⟩ hdispatch
        | some entry => rfl
      · cases heq

theorem Sound.right_iff (h : s.Sound) (e : Event κ ι) : s.Right e ↔ s.Orderly e := by
  constructor
  · intro hright handled stanza level index r he hphase hgoes
    have hnext := hright.next handled stanza level index r he hphase hgoes
    subst he
    rw [handle_of_handling hphase hgoes] at hnext
    exact ((h.inv.turn stanza level index r hphase).next_iff h.inv).mp hnext
  · intro horderly
    obtain ⟨hinv, hready⟩ := h.inv.ready
    constructor
    · rintro stanza rfl hdispatch
      rw [handle_of_dispatches hdispatch, turn_advance_eq, levels, firstTurn,
        List.head?_eq_getElem?]
      cases (s.stanzaHandlers .peek)[0]? <;> rfl
    · rintro handled stanza level index r rfl hphase hgoes
      rw [handle_of_handling hphase hgoes]
      exact ((h.inv.turn stanza level index r hphase).next_iff h.inv).mpr
        (horderly handled stanza level index r rfl hphase hgoes)
    · rintro handled stanza level index r rfl hphase hstops
      rw [handle_of_handled hphase hstops]
    · intro level r hwhen hturn
      rcases turn_handle e hwhen with hnone | ⟨stanza, rfl, hdispatch⟩ |
        ⟨handled, stanza, level', index, r', rfl, hphase, hgoes⟩
      · rw [hnone] at hturn
        cases hturn
      · rw [handle_of_dispatches hdispatch] at hturn
        have hmem := mem_of_turn_advance hturn
        exact hmem
      · rw [handle_of_handling hphase hgoes] at hturn
        exact mem_of_turn_advance hturn
    · rintro ⟨hidle, ⟨stanza, rfl, hdispatch⟩ | ⟨handled, rfl, hturn⟩⟩
      · rw [handle_of_dispatches hdispatch] at hidle ⊢
        exact hready.peeked_once hinv hidle
      · cases hphase : s.phase with
        | idle => exact absurd (by rw [turn, hphase]) hturn
        | responding entry other => exact absurd (by rw [turn, hphase]) hturn
        | handling stanza level index r =>
          have hat := h.inv.turn stanza level index r hphase
          by_cases hstops : handled = true ∧ level ≠ .peek
          · rw [handle_of_handled hphase hstops]
            exact fun r' hr' hlt =>
              List.count_eq_one_of_mem h.inv.once (hat.peeked hstops.2 r' hr' hlt)
          · have hgo := hat.ready (horderly handled stanza level index r rfl hphase hstops)
            rw [handle_of_handling hphase hstops] at hidle ⊢
            exact hgo.peeked_once h.inv hidle
    · exact (h.handle horderly).iq.responses

theorem dispatch_right_iff (events : List (Event κ ι)) :
    Runs.Along handle (fun s e => s.Right e) ({} : StanzaEngine κ ι) events ↔
      Runs.Along handle (fun s e => s.Orderly e) ({} : StanzaEngine κ ι) events :=
  Runs.along_iff (fun _ e h => h.right_iff e)
    (fun _ e h hright => h.handle ((h.right_iff e).mp hright)) sound_initial events

/-- Of two handlers that see all stanzas the first one removes itself. -/
def selfRemoval : List (Event Nat Unit) :=
  [.call (.addStanzaHandler 0 .peek), .call (.addStanzaHandler 1 .peek),
    .stanza { name := ⟨nsClient, "message"⟩ }, .call (.removeStanzaHandler 0),
    .callbackReturns false]

/-- The second one is still registered and has not been given the stanza. -/
theorem self_removal_skips :
    (selfRemoval.foldl handle {}).given = [0] ∧
      (selfRemoval.foldl handle {}).stanzaHandlers .peek = [⟨1, 1⟩] ∧
      ¬ Runs.Along handle (fun s e => s.Right e) {} selfRemoval := by
  refine ⟨by decide, by decide, fun h => ?_⟩
  have hlast := h.2.2.2.2.1.next false { name := ⟨nsClient, "message"⟩ } .peek 0 ⟨0, 0⟩ rfl rfl
    (by decide)
  exact absurd hlast (by decide)

end Run

end StanzaEngine

end Libjingle
