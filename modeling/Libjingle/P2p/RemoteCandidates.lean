import Libjingle.P2p.ConnectionAttempts
import Libjingle.Base.AddressOrder
import Libjingle.Lib.Runs

/-! The remote candidates that a channel remembers for the ports to come. No two of them are
equivalent. A candidate makes it forget those of older generations, but is not itself compared
with what is newer, so only those that arrive in order leave one generation behind. -/

namespace Libjingle

theorem SocketAddress.equal_comm (a b : SocketAddress) : a.equal b = b.equal a := by
  rw [Bool.eq_iff_iff, equal_iff, equal_iff]
  exact eq_comm

theorem Candidate.isEquivalent_comm (a c : Candidate) : a.isEquivalent c = c.isEquivalent a := by
  simp only [isEquivalent, eq_comm, SocketAddress.equal_comm]

namespace P2PTransportChannel

variable {P : Type}

def Distinct (l : List (RemoteCandidate P)) : Prop :=
  l.Pairwise fun a b =>
    a.candidate.isEquivalent b.candidate = false ∧ b.candidate.isEquivalent a.candidate = false

section Remember

variable {ch : P2PTransportChannel P} {remote : Candidate} {originPort : Option P}

/-- What is remembered is of no older generation, and is what was remembered or the new
candidate. -/
theorem mem_rememberRemoteCandidate {c : RemoteCandidate P}
    (h : c ∈ (ch.rememberRemoteCandidate remote originPort).remoteCandidates) :
    ¬ c.candidate.generation < remote.generation ∧
      (c ∈ ch.remoteCandidates ∨ c = ⟨remote, originPort⟩) := by
  have hkept : ∀ c ∈ ch.remoteCandidates.filter fun c =>
      !(c.candidate.generation < remote.generation),
      ¬ c.candidate.generation < remote.generation ∧ c ∈ ch.remoteCandidates := by
    intro c hc
    obtain ⟨hmem, hnot⟩ := List.mem_filter.mp hc
    exact ⟨by simpa using hnot, hmem⟩
  rw [rememberRemoteCandidate] at h
  split at h
  · exact ⟨(hkept c h).1, .inl (hkept c h).2⟩
  · rcases List.mem_append.mp h with h | h
    · exact ⟨(hkept c h).1, .inl (hkept c h).2⟩
    · rw [List.mem_singleton.mp h]
      exact ⟨UInt32.lt_irrefl _, .inr rfl⟩

theorem generation_mem_rememberRemoteCandidate (ch : P2PTransportChannel P) (remote : Candidate)
    (originPort : Option P) :
    ∃ c ∈ (ch.rememberRemoteCandidate remote originPort).remoteCandidates,
      c.candidate.generation = remote.generation := by
  rw [rememberRemoteCandidate]
  split
  · next hany =>
    obtain ⟨c, hc, hequiv⟩ := List.any_eq_true.mp hany
    refine ⟨c, hc, ?_⟩
    simp only [Candidate.isEquivalent, Bool.and_eq_true, decide_eq_true_eq] at hequiv
    exact hequiv.1.1.2
  · exact ⟨_, List.mem_append_right _ (List.mem_singleton_self _), rfl⟩

theorem distinct_rememberRemoteCandidate (h : Distinct ch.remoteCandidates) :
    Distinct (ch.rememberRemoteCandidate remote originPort).remoteCandidates := by
  have hkept := h.filter fun c => !(c.candidate.generation < remote.generation)
  rw [rememberRemoteCandidate]
  split
  · exact hkept
  · next hany =>
    refine List.pairwise_append.mpr ⟨hkept, List.pairwise_singleton _ _, ?_⟩
    intro c hc new hnew
    rw [List.mem_singleton.mp hnew, Candidate.isEquivalent_comm remote c.candidate]
    have hdiffers : c.candidate.isEquivalent remote = false := by
      apply Bool.eq_false_iff.mpr
      intro hequiv
      exact hany (List.any_eq_true.mpr ⟨c, hc, hequiv⟩)
    exact ⟨hdiffers, hdiffers⟩

theorem rememberRemoteCandidate_congr {ch' : P2PTransportChannel P}
    (h : ch'.remoteCandidates = ch.remoteCandidates) :
    (ch'.rememberRemoteCandidate remote originPort).remoteCandidates =
      (ch.rememberRemoteCandidate remote originPort).remoteCandidates := by
  rw [rememberRemoteCandidate, rememberRemoteCandidate, h]
  split <;> rfl

end Remember

variable [DecidableEq P]

/-- The generation that an event's candidate states: one that is made up states none. -/
def statedGeneration (ch : P2PTransportChannel P) : Event P → Option UInt32
  | .candidate candidate => some candidate.generation
  | .unknownAddress r =>
    if ch.knowsUsername r.remoteUsername then
      some (((ch.matching r).map (·.generation)).getD 0)
    else none
  | _ => none

def givenGeneration (ch : P2PTransportChannel P) (e : Event P) : Option UInt32 :=
  (ch.statedGeneration e).map fun g =>
    if ch.protocolType = .google then g else ch.remoteCandidateGeneration

inductive Remembers (ch : P2PTransportChannel P) (e : Event P) : List (RemoteCandidate P) → Prop
  | remembered (remote : Candidate) (originPort : Option P)
    (hgiven : ch.givenGeneration e = some remote.generation) :
    Remembers ch e (ch.rememberRemoteCandidate remote originPort).remoteCandidates
  | unchanged (hgiven : ch.givenGeneration e = none) (hreset : ∀ b, e ≠ .reset b) :
    Remembers ch e ch.remoteCandidates
  | forgotten (b : Bool) (he : e = .reset b) : Remembers ch e []

theorem remoteCandidates_createConnections (ch : P2PTransportChannel P) (remote : Candidate)
    (originPort : Option P) (readable : Bool) :
    (ch.createConnections remote originPort readable).1.remoteCandidates =
      (ch.rememberRemoteCandidate (ch.completed remote) originPort).remoteCandidates := by
  obtain ⟨tried, -, hresult, hadds⟩ := createConnections_eq ch remote originPort readable
  rw [hresult]
  exact rememberRemoteCandidate_congr hadds.remoteCandidates_eq

omit [DecidableEq P] in
theorem generation_requestCandidate (ch : P2PTransportChannel P)
    (computeCrc32 : List UInt8 → UInt32) (r : Request P) :
    (ch.requestCandidate computeCrc32 r).generation =
      ((ch.matching r).map (·.generation)).getD 0 := by
  rw [requestCandidate]
  cases ch.matching r with
  | none => rfl
  | some candidate =>
    dsimp only
    split <;> rfl

theorem remembers_step (ch : P2PTransportChannel P) (computeCrc32 : List UInt8 → UInt32)
    (e : Event P) (henabled : ch.Enabled e = true) :
    Remembers ch e (ch.step computeCrc32 e).remoteCandidates := by
  rw [P2PTransportChannel.step, if_pos henabled]
  cases e with
  | setRole role =>
    have h : (ch.setRole role).remoteCandidates = ch.remoteCandidates := by
      rw [setRole]
      split <;> rfl
    exact h ▸ .unchanged rfl fun _ he => by cases he
  | setTiebreaker tiebreaker =>
    have h : (ch.setTiebreaker tiebreaker).remoteCandidates = ch.remoteCandidates := by
      rw [setTiebreaker]
      split <;> rfl
    exact h ▸ .unchanged rfl fun _ he => by cases he
  | setIceProtocolType type => exact .unchanged rfl fun _ he => by cases he
  | setIceCredentials iceUfrag icePwd =>
    have h : (ch.setIceCredentials iceUfrag icePwd).remoteCandidates = ch.remoteCandidates := by
      rw [setIceCredentials]
      split <;> rfl
    exact h ▸ .unchanged rfl fun _ he => by cases he
  | setRemoteIceCredentials iceUfrag icePwd =>
    have h : (ch.setRemoteIceCredentials iceUfrag icePwd).remoteCandidates =
        ch.remoteCandidates := by
      rw [setRemoteIceCredentials]
      dsimp only
      split <;> rfl
    exact h ▸ .unchanged rfl fun _ he => by cases he
  | setRemoteIceMode mode => exact .unchanged rfl fun _ he => by cases he
  | connect =>
    have h : ch.connect.remoteCandidates = ch.remoteCandidates := by
      rw [connect]
      split <;> rfl
    exact h ▸ .unchanged rfl fun _ he => by cases he
  | signalingReady =>
    have h : ch.onSignalingReady.remoteCandidates = ch.remoteCandidates := by
      rw [onSignalingReady]
      split <;> rfl
    exact h ▸ .unchanged rfl fun _ he => by cases he
  | portReady p port =>
    have h := (adds_onPortReady ch p port).remoteCandidates_eq
    exact h ▸ .unchanged rfl fun _ he => by cases he
  | candidate candidate =>
    have h := remoteCandidates_createConnections ch candidate none false
    exact h ▸ .remembered (ch.completed candidate) none rfl
  | unknownAddress r =>
    rw [handle, onUnknownAddress]
    by_cases hknown : ch.knowsUsername r.remoteUsername = false
    · rw [if_pos hknown]
      refine .unchanged ?_ fun _ he => by cases he
      simp [givenGeneration, statedGeneration, hknown]
    · rw [if_neg hknown]
      have hgiven : ch.givenGeneration (.unknownAddress r) =
          some (ch.completed (ch.requestCandidate computeCrc32 r)).generation := by
        have hstated := generation_requestCandidate ch computeCrc32 r
        simp [givenGeneration, statedGeneration, hknown, completed, getRemoteCandidateGeneration,
          hstated]
      have h := remoteCandidates_createConnections ch (ch.requestCandidate computeCrc32 r) r.port true
      dsimp only
      split
      · exact h ▸ .remembered _ _ hgiven
      · exact h ▸ .remembered _ _ hgiven
  | portDestroyed p => exact .unchanged rfl fun _ he => by cases he
  | connectionDestroyed c => exact .unchanged rfl fun _ he => by cases he
  | reset connectRequested =>
    have h : (ch.reset connectRequested).remoteCandidates = [] := by
      rw [reset]
      split <;> rfl
    exact h ▸ .forgotten connectRequested rfl

/-- A channel with the generations of the candidates it was given since it was last reset. -/
structure Memory (P : Type) where
  channel : P2PTransportChannel P
  seen : List UInt32

namespace Memory

def start (component : Int) (filter : UInt32) (heap : P → LocalPort) : Memory P :=
  ⟨.start component filter heap, []⟩

def noted (m : Memory P) : Event P → List UInt32
  | .reset _ => []
  | e => m.seen ++ (m.channel.givenGeneration e).toList

def step (computeCrc32 : List UInt8 → UInt32) (m : Memory P) (e : Event P) : Memory P where
  channel := m.channel.step computeCrc32 e
  seen := if m.channel.Enabled e then m.noted e else m.seen

def Newest (m : Memory P) (g : UInt32) : Prop := g ∈ m.seen ∧ ∀ x ∈ m.seen, x ≤ g

/-- All that is remembered is of the newest generation, and so is what a port that is made
ready next is connected to. -/
structure Current (m : Memory P) : Prop where
  distinct : Distinct m.channel.remoteCandidates
  newest : ∀ c ∈ m.channel.remoteCandidates, m.Newest c.candidate.generation
  later : ∀ p port, p ∉ m.channel.live → ∀ c ∈ (m.channel.onPortReady p port).connections,
    c.port = p → m.Newest c.remoteCandidate.generation

/-- No candidate is of an older generation than one before it. -/
def InOrder (m : Memory P) (e : Event P) : Prop :=
  m.channel.Enabled e = true → ∀ g ∈ m.channel.givenGeneration e, ∀ x ∈ m.seen, x ≤ g

variable {m : Memory P} {computeCrc32 : List UInt8 → UInt32}

theorem distinct_step (h : Distinct m.channel.remoteCandidates) (e : Event P) :
    Distinct (m.step computeCrc32 e).channel.remoteCandidates := by
  by_cases henabled : m.channel.Enabled e = true
  · have hremembers := remembers_step m.channel computeCrc32 e henabled
    generalize hl : (m.channel.step computeCrc32 e).remoteCandidates = l at hremembers
    rw [step, hl]
    cases hremembers with
    | remembered remote originPort hgiven => exact distinct_rememberRemoteCandidate h
    | unchanged hgiven hreset => exact h
    | forgotten b he => exact List.Pairwise.nil
  · rw [step, P2PTransportChannel.step, if_neg henabled]
    exact h

theorem seen_step {e : Event P} (henabled : m.channel.Enabled e = true)
    (hreset : ∀ b, e ≠ .reset b) :
    (m.step computeCrc32 e).seen = m.seen ++ (m.channel.givenGeneration e).toList := by
  rw [step, if_pos henabled]
  cases e with
  | reset b => exact absurd rfl (hreset b)
  | _ => rfl

theorem newest_step (h : ∀ c ∈ m.channel.remoteCandidates, m.Newest c.candidate.generation)
    {e : Event P} (horder : m.InOrder e) :
    ∀ c ∈ (m.step computeCrc32 e).channel.remoteCandidates,
      (m.step computeCrc32 e).Newest c.candidate.generation := by
  by_cases henabled : m.channel.Enabled e = true
  · have hremembers := remembers_step m.channel computeCrc32 e henabled
    have hseen : (∀ b, e ≠ .reset b) → (m.step computeCrc32 e).seen = _ := seen_step henabled
    generalize hl : (m.channel.step computeCrc32 e).remoteCandidates = l at hremembers
    intro c hc
    have hc : c ∈ l := hl ▸ hc
    cases hremembers with
    | remembered remote originPort hgiven =>
      have hbound := horder henabled _ hgiven
      have hgeneration : c.candidate.generation = remote.generation := by
        obtain ⟨hnot, hold | rfl⟩ := mem_rememberRemoteCandidate hc
        · have hle := hbound _ (h c hold).1
          exact UInt32.le_antisymm hle (UInt32.not_lt.mp hnot)
        · rfl
      have hreset : ∀ b, e ≠ .reset b := by
        rintro b rfl
        cases hgiven
      rw [Newest, hseen hreset, hgiven, hgeneration]
      refine ⟨List.mem_append_right _ (List.mem_singleton_self _), ?_⟩
      intro x hx
      rcases List.mem_append.mp hx with hx | hx
      · exact hbound x hx
      · rw [List.mem_singleton.mp hx]
        exact UInt32.le_refl _
    | unchanged hgiven hreset =>
      rw [Newest, hseen hreset, hgiven, Option.toList_none, List.append_nil]
      exact h c hc
    | forgotten b he => exact absurd hc List.not_mem_nil
  · rw [step, P2PTransportChannel.step, if_neg henabled, if_neg henabled]
    exact h

/-- A candidate that is older than one before it is remembered together with newer ones, or in
their place. -/
theorem inOrder_of_newest {e : Event P}
    (h : ∀ c ∈ (m.step computeCrc32 e).channel.remoteCandidates,
      (m.step computeCrc32 e).Newest c.candidate.generation) : m.InOrder e := by
  intro henabled g hg x hx
  have hremembers := remembers_step m.channel computeCrc32 e henabled
  have hseen : (∀ b, e ≠ .reset b) → (m.step computeCrc32 e).seen = _ := seen_step henabled
  generalize hl : (m.channel.step computeCrc32 e).remoteCandidates = l at hremembers
  have h : ∀ c ∈ l, (m.step computeCrc32 e).Newest c.candidate.generation := hl ▸ h
  cases hremembers with
  | remembered remote originPort hgiven =>
    have hreset : ∀ b, e ≠ .reset b := by
      rintro b rfl
      cases hgiven
    obtain ⟨c, hc, hgeneration⟩ :=
      generation_mem_rememberRemoteCandidate m.channel remote originPort
    obtain ⟨-, hmax⟩ := h c hc
    have heq : remote.generation = g := Option.some_inj.mp (hgiven.symm.trans hg)
    rw [hgeneration, heq, hseen hreset] at hmax
    exact hmax x (List.mem_append_left _ hx)
  | unchanged hgiven hreset =>
    rw [hgiven] at hg
    cases hg
  | forgotten b he =>
    subst he
    cases hg

theorem later_of_newest (hwired : m.channel.Wired)
    (h : ∀ c ∈ m.channel.remoteCandidates, m.Newest c.candidate.generation) :
    ∀ p port, p ∉ m.channel.live → ∀ c ∈ (m.channel.onPortReady p port).connections,
      c.port = p → m.Newest c.remoteCandidate.generation := by
  intro p port hp c hc hport
  rcases (adds_onPortReady m.channel p port).mem c hc with ⟨old, hold, hsame, -⟩ | hnew
  · have hlive := hwired.connections old hold
    rw [hsame, hport] at hlive
    exact absurd hlive hp
  · obtain ⟨-, known, hknown, hremote, -⟩ := hnew
    exact hremote ▸ h known hknown

theorem current_step_iff (hwired : m.channel.Wired) (h : m.Current) (e : Event P) :
    m.InOrder e ↔ (m.step computeCrc32 e).Current := by
  constructor
  · intro horder
    have hnewest := @newest_step P _ m computeCrc32 h.newest e horder
    exact ⟨distinct_step h.distinct e, hnewest,
      later_of_newest (hwired.step computeCrc32 e) hnewest⟩
  · intro hcurrent
    exact inOrder_of_newest hcurrent.newest

variable (computeCrc32) (component : Int) (filter : UInt32) (heap : P → LocalPort)

theorem current_start : (start component filter heap).Current := by
  have hnewest : ∀ c ∈ (start component filter heap).channel.remoteCandidates,
      (start component filter heap).Newest c.candidate.generation :=
    fun _ hc => absurd hc List.not_mem_nil
  exact ⟨List.Pairwise.nil, hnewest, later_of_newest (.start component filter heap) hnewest⟩

theorem remembers_newest_iff (events : List (Event P)) :
    Distinct (events.foldl (step computeCrc32) (start component filter heap)).channel.remoteCandidates ∧
    (Runs.Along (step computeCrc32) InOrder (start component filter heap) events ↔
      ∀ n, ((events.take n).foldl (step computeCrc32) (start component filter heap)).Current) := by
  have hstart := current_start component filter heap
  constructor
  · have h : ∀ m : Memory P, Distinct m.channel.remoteCandidates →
        Distinct (events.foldl (step computeCrc32) m).channel.remoteCandidates := by
      induction events with
      | nil => exact fun m h => h
      | cons e rest ih => exact fun m h => ih _ (distinct_step h e)
    exact h _ hstart.distinct
  · rw [← Runs.along_after_iff hstart]
    apply @Runs.along_iff _ _ _ _ _ fun m : Memory P => m.channel.Wired ∧ m.Current
    · intro m e h
      exact current_step_iff h.1 h.2 e
    · intro m e h horder
      exact ⟨h.1.step computeCrc32 e, (current_step_iff h.1 h.2 e).mp horder⟩
    · exact ⟨.start component filter heap, hstart⟩

def somePort : LocalPort where
  iceUsernameFragment := [97]
  password := []
  kind := .udp
  type := localPortType
  ip := .inet 1

def runOf (events : List (Event Unit)) : Memory Unit :=
  events.foldl (step fun _ => 0) (start 1 portAllocatorFilterAllowNone fun _ => somePort)

/-- A candidate of the generation before arrives late. -/
def lateEvents : List (Event Unit) :=
  [.candidate { generation := 1 }, .candidate { generation := 0 }]

/-- After a candidate of generation 1, a request comes from an address that was not signaled. -/
def unsignaledEvents : List (Event Unit) :=
  [.portReady () somePort, .candidate { generation := 1, username := [98], password := [99] },
    .unknownAddress
      { port := (), address := .ofIP (.inet 2) 7, proto := .udp, remoteUsername := [98],
        portMuxed := false, id := [100] }]

theorem older_remembered : ¬ (runOf lateEvents).Current ∧ ¬ (runOf unsignaledEvents).Current := by
  have hlate : (runOf lateEvents).channel.remoteCandidates.map (·.candidate.generation) = [1, 0] ∧
      (runOf lateEvents).seen = [1, 0] := by decide +kernel
  have hunsignaled :
      (runOf unsignaledEvents).channel.remoteCandidates.map (·.candidate.generation) = [1, 0] ∧
        (runOf unsignaledEvents).seen = [1, 0] := by decide +kernel
  have hnot : ∀ m : Memory Unit,
      m.channel.remoteCandidates.map (·.candidate.generation) = [1, 0] ∧ m.seen = [1, 0] →
        ¬ m.Current := by
    rintro m ⟨hgenerations, hseen⟩ hcurrent
    have hmem : (0 : UInt32) ∈ m.channel.remoteCandidates.map (·.candidate.generation) := by
      rw [hgenerations]
      decide
    obtain ⟨c, hc, hzero⟩ := List.mem_map.mp hmem
    have hmax := (hcurrent.newest c hc).2 1 (by rw [hseen]; decide)
    rw [hzero] at hmax
    exact absurd hmax (by decide)
  exact ⟨hnot _ hlate, hnot _ hunsignaled⟩

end Memory

end P2PTransportChannel

end Libjingle
