import Libjingle.P2p.Port

/-! How the two ends of a check come to agree on the username it carries. The sender puts the
fragment of the other end in front of its own, and the receiver takes the two apart again. -/

namespace Libjingle

theorem isSome_getNextBase64Char {ch : UInt8} :
    (getNextBase64Char ch).isSome = true ↔ ch ∈ base64Table := by
  by_cases h : ch ∈ base64Table
  · have hlt : (base64Table.idxOf ch + 1) % base64Table.length < base64Table.length :=
      Nat.mod_lt _ (by decide)
    simp [getNextBase64Char, h, List.getElem?_eq_getElem hlt]
  · simp [getNextBase64Char, h]

theorem next_ne_self : ∀ ch ∈ base64Table, getNextBase64Char ch ≠ some ch := by
  decide +kernel

section Rtcp

variable {rtpUfrag rtcpUfrag : List UInt8}

theorem getRtcpUfrag_eq_some (h : getRtcpUfragFromRtpUfrag rtpUfrag = some rtcpUfrag) :
    ∃ last next, rtpUfrag = rtpUfrag.dropLast ++ [last] ∧ getNextBase64Char last = some next ∧
      rtcpUfrag = rtpUfrag.dropLast ++ [next] := by
  obtain ⟨last, hlast, next, hnext, hrtcp⟩ : ∃ last, rtpUfrag.getLast? = some last ∧
      ∃ next, getNextBase64Char last = some next ∧ rtpUfrag.dropLast ++ [next] = rtcpUfrag := by
    simpa [getRtcpUfragFromRtpUfrag, Option.bind_eq_some_iff] using h
  refine ⟨last, next, ?_, hnext, hrtcp.symm⟩
  exact (List.dropLast_append_getLast? last hlast).symm

theorem isSome_getRtcpUfrag : (getRtcpUfragFromRtpUfrag rtpUfrag).isSome = true ↔
    ∃ last ∈ rtpUfrag.getLast?, last ∈ base64Table := by
  cases hlast : rtpUfrag.getLast? with
  | none => simp [getRtcpUfragFromRtpUfrag, hlast]
  | some last =>
    have hnext := @isSome_getNextBase64Char last
    cases hch : getNextBase64Char last with
    | none => simpa [getRtcpUfragFromRtpUfrag, hlast, hch] using hnext
    | some next => simpa [getRtcpUfragFromRtpUfrag, hlast, hch] using hnext

theorem length_getRtcpUfrag (h : getRtcpUfragFromRtpUfrag rtpUfrag = some rtcpUfrag) :
    rtcpUfrag.length = rtpUfrag.length := by
  obtain ⟨last, next, hrtp, -, hrtcp⟩ := getRtcpUfrag_eq_some h
  have hlength := congrArg List.length hrtp
  rw [hrtcp, hlength]
  simp

theorem getRtcpUfrag_ne (h : getRtcpUfragFromRtpUfrag rtpUfrag = some rtcpUfrag) :
    rtcpUfrag ≠ rtpUfrag := by
  obtain ⟨last, next, hrtp, hnext, hrtcp⟩ := getRtcpUfrag_eq_some h
  have hmem : last ∈ base64Table := isSome_getNextBase64Char.mp (by simp [hnext])
  intro heq
  rw [hrtcp, hrtp] at heq
  have hlast : next = last := by simpa using heq
  exact next_ne_self last hmem (hlast ▸ hnext)

end Rtcp

namespace Port

variable {port sender receiver : Port}

/-- The assertions about the fragment hold: one that is changed for RTCP has a last character,
which is in the table. -/
def UfragDefined (port : Port) : Prop :=
  port.iceProtocol = .google → port.component = iceCandidateComponentRtcp →
    (getRtcpUfragFromRtpUfrag port.iceUsernameFragment).isSome = true

theorem length_usernameFragment (port : Port) :
    port.usernameFragment.length = port.iceUsernameFragment.length := by
  rw [usernameFragment]
  split
  · cases h : getRtcpUfragFromRtpUfrag port.iceUsernameFragment with
    | none => rfl
    | some rtcpUfrag => exact length_getRtcpUfrag h
  · rfl

theorem usernameFragment_eq (h : port.iceProtocol ≠ .google) :
    port.usernameFragment = port.iceUsernameFragment :=
  if_neg fun hrtcp => h hrtcp.1

/-- The message has the attribute made of the username. Its length is kept in sixteen bits, and
so much of the text is read back. -/
def Carries (msg : StunMessage) (username : List UInt8) : Prop :=
  msg.getByteString stunAttrUsername =
    some ⟨stunAttrUsername, (StunAttributeValue.byteString username).encoded⟩

def carried (username : List UInt8) : List UInt8 :=
  username.take (UInt16.ofNat username.length).toNat

theorem length_carried (username : List UInt8) :
    (carried username).length = username.length % 65536 := by
  simp [carried]
  omega

theorem carried_eq (username : List UInt8) (h : username.length < 65536) :
    carried username = username := by
  apply List.take_of_length_le
  simp
  omega

def splitUsername (receiver : Port) (username : List UInt8) : Option (List UInt8 × List UInt8) :=
  match receiver.iceProtocol with
  | .rfc5245 =>
    if colon ∈ username then
      some (username.take (username.idxOf colon), username.drop (username.idxOf colon + 1))
    else none
  | .google =>
    if username.length < receiver.usernameFragment.length then none
    else
      some (username.take receiver.usernameFragment.length,
        username.drop receiver.usernameFragment.length)
  | .hybrid => some ([], [])

theorem parseStunUsername_of_carries {msg : StunMessage} {username : List UInt8}
    (h : Carries msg username) :
    receiver.parseStunUsername msg = receiver.splitUsername (carried username) := by
  unfold Carries at h
  rw [parseStunUsername, h]
  rfl

def separatorLength (port : Port) : Nat := if port.iceProtocol = .rfc5245 then 1 else 0

theorem length_createStunUsername (h : sender.iceProtocol = receiver.iceProtocol) :
    (sender.createStunUsername receiver.usernameFragment).length =
      receiver.usernameFragment.length + sender.usernameFragment.length +
        receiver.separatorLength := by
  rw [createStunUsername, separatorLength, h]
  by_cases hprotocol : receiver.iceProtocol = .rfc5245
  · simp [hprotocol]
    omega
  · simp [hprotocol]

theorem splitUsername_createStunUsername (h : sender.iceProtocol = receiver.iceProtocol)
    (hhybrid : receiver.iceProtocol ≠ .hybrid)
    (hcolon : receiver.iceProtocol = .rfc5245 → colon ∉ receiver.iceUsernameFragment) :
    receiver.splitUsername (sender.createStunUsername receiver.usernameFragment) =
      some (receiver.usernameFragment, sender.usernameFragment) := by
  rw [splitUsername, createStunUsername, h]
  cases hprotocol : receiver.iceProtocol with
  | hybrid => exact absurd hprotocol hhybrid
  | google => simp
  | rfc5245 =>
    have hfragment := @usernameFragment_eq receiver (by rw [hprotocol]; decide)
    have hnot : colon ∉ receiver.usernameFragment := hfragment ▸ hcolon hprotocol
    have hidx : (receiver.usernameFragment ++ colon :: sender.usernameFragment).idxOf colon =
        receiver.usernameFragment.length := by
      rw [List.idxOf_append_of_notMem hnot]
      simp
    simp [hidx, List.drop_append]

theorem length_splitUsername {username localUfrag remoteUfrag : List UInt8}
    (hhybrid : receiver.iceProtocol ≠ .hybrid)
    (h : receiver.splitUsername username = some (localUfrag, remoteUfrag)) :
    username.length = localUfrag.length + remoteUfrag.length + receiver.separatorLength := by
  rw [splitUsername] at h
  rw [separatorLength]
  cases hprotocol : receiver.iceProtocol with
  | hybrid => exact absurd hprotocol hhybrid
  | google =>
    simp only [hprotocol] at h
    split at h
    · cases h
    · cases h
      simp
      omega
  | rfc5245 =>
    simp only [hprotocol] at h
    split at h
    · next hmem =>
      have hidx := List.idxOf_lt_length_of_mem hmem
      cases h
      simp
      omega
    · cases h

/-- The receiver reads from a check the fragments that the two ports go by. -/
def Agrees (sender receiver : Port) : Prop :=
  sender.UfragDefined ∧ receiver.UfragDefined ∧
    ∀ msg, Carries msg (sender.createStunUsername receiver.usernameFragment) →
      receiver.parseStunUsername msg = some (receiver.usernameFragment, sender.usernameFragment)

def ofComponent (port : Port) (component : Int) : Port := { port with component := component }

/-- A request that any port makes for the first is refused by the second. -/
def Refuses (addressee receiver : Port) : Prop :=
  ∀ (sender : Port) (computeHmac : List UInt8 → List UInt8 → List UInt8) (data : List UInt8)
    (msg : StunMessage), msg.type = stunBindingRequest →
    Carries msg (sender.createStunUsername addressee.usernameFragment) →
      receiver.checkStunMessage computeHmac data msg = .handled (some (msg, .unauthorized))

def Separates (port : Port) : Prop :=
  (port.ofComponent iceCandidateComponentRtcp).UfragDefined ∧
    Refuses (port.ofComponent 1) (port.ofComponent iceCandidateComponentRtcp) ∧
      Refuses (port.ofComponent iceCandidateComponentRtcp) (port.ofComponent 1)

def EndsInTable (port : Port) : Prop :=
  ∃ last ∈ port.iceUsernameFragment.getLast?, last ∈ base64Table

/-- The username fits the sixteen bits of its length, the ports have been told which of the
two protocols they use, and a fragment that RTCP changes ends in a character of the table. -/
structure Agreeable (sender receiver : Port) : Prop where
  fits : receiver.iceUsernameFragment.length + sender.iceUsernameFragment.length +
    (if receiver.iceProtocol = .rfc5245 then 1 else 0) < 65536
  settled : receiver.iceProtocol = .hybrid →
    receiver.iceUsernameFragment = [] ∧ sender.iceUsernameFragment = []
  rtcp : receiver.iceProtocol = .google → receiver.component = iceCandidateComponentRtcp →
    sender.EndsInTable ∧ receiver.EndsInTable

theorem ufragDefined_iff (hprotocol : port.iceProtocol = .google)
    (hcomponent : port.component = iceCandidateComponentRtcp) :
    port.UfragDefined ↔ port.EndsInTable := by
  rw [UfragDefined, EndsInTable, isSome_getRtcpUfrag]
  exact ⟨fun h => h hprotocol hcomponent, fun h _ _ => h⟩

theorem exists_carries (username : List UInt8) : ∃ msg, Carries msg username :=
  ⟨{ StunMessage.new .ice with
    attrs := [⟨stunAttrUsername, (StunAttributeValue.byteString username).encoded⟩] }, rfl⟩

theorem agrees_of_agreeable (hprotocol : sender.iceProtocol = receiver.iceProtocol)
    (hcomponent : sender.component = receiver.component)
    (hcolon : receiver.iceProtocol = .rfc5245 → colon ∉ receiver.iceUsernameFragment)
    (h : Agreeable sender receiver) : Agrees sender receiver := by
  refine ⟨?_, ?_, ?_⟩
  · intro hgoogle hrtcp
    exact isSome_getRtcpUfrag.mpr (h.rtcp (hprotocol ▸ hgoogle) (hcomponent ▸ hrtcp)).1
  · intro hgoogle hrtcp
    exact isSome_getRtcpUfrag.mpr (h.rtcp hgoogle hrtcp).2
  · intro msg hmsg
    have hlength := length_createStunUsername hprotocol
    have hfits := h.fits
    rw [length_usernameFragment, length_usernameFragment, separatorLength] at hlength
    rw [parseStunUsername_of_carries hmsg, carried_eq _ (by omega)]
    by_cases hhybrid : receiver.iceProtocol = .hybrid
    · have hne : receiver.iceProtocol ≠ .google := by rw [hhybrid]; decide
      rw [splitUsername, hhybrid, usernameFragment_eq hne, usernameFragment_eq (hprotocol ▸ hne),
        (h.settled hhybrid).1, (h.settled hhybrid).2]
    · exact splitUsername_createStunUsername hprotocol hhybrid hcolon

theorem agreeable_of_agrees (hprotocol : sender.iceProtocol = receiver.iceProtocol)
    (hcomponent : sender.component = receiver.component) (h : Agrees sender receiver) :
    Agreeable sender receiver := by
  obtain ⟨hsender, hreceiver, hparse⟩ := h
  obtain ⟨msg, hmsg⟩ := exists_carries (sender.createStunUsername receiver.usernameFragment)
  have hsplit := hparse msg hmsg
  rw [parseStunUsername_of_carries hmsg] at hsplit
  have hrtcp : receiver.iceProtocol = .google → receiver.component = iceCandidateComponentRtcp →
      sender.EndsInTable ∧ receiver.EndsInTable := fun hgoogle hcomp =>
    ⟨(ufragDefined_iff (hprotocol.trans hgoogle) (hcomponent.trans hcomp)).mp hsender,
      (ufragDefined_iff hgoogle hcomp).mp hreceiver⟩
  by_cases hhybrid : receiver.iceProtocol = .hybrid
  · have hne : receiver.iceProtocol ≠ .google := by rw [hhybrid]; decide
    rw [splitUsername, hhybrid, usernameFragment_eq hne, usernameFragment_eq (hprotocol ▸ hne)]
      at hsplit
    have hempty : receiver.iceUsernameFragment = [] ∧ sender.iceUsernameFragment = [] := by
      simpa [eq_comm] using hsplit
    refine ⟨?_, fun _ => hempty, hrtcp⟩
    simp [hempty.1, hempty.2, hhybrid]
  · have hwhole := length_splitUsername hhybrid hsplit
    have hcarried := length_carried (sender.createStunUsername receiver.usernameFragment)
    have hlength := length_createStunUsername hprotocol
    refine ⟨?_, fun h => absurd h hhybrid, hrtcp⟩
    rw [length_usernameFragment, length_usernameFragment, separatorLength] at hwhole hlength
    omega

section Components

variable {addressee : Port}

theorem refuses_of_ne (hprotocol : receiver.iceProtocol = .google)
    (hlength : addressee.usernameFragment.length = receiver.usernameFragment.length)
    (hne : addressee.usernameFragment ≠ receiver.usernameFragment) :
    Refuses addressee receiver := by
  intro sender computeHmac data msg htype hmsg
  have hpresent : msg.getByteString stunAttrUsername ≠ none := by
    rw [hmsg]
    exact Option.some_ne_none _
  have hparse := @parseStunUsername_of_carries receiver _ _ hmsg
  rw [checkStunMessage, if_pos htype, if_neg (by simp [hpresent, hprotocol]), hparse, splitUsername,
    hprotocol]
  dsimp only
  by_cases hshort : (carried (sender.createStunUsername addressee.usernameFragment)).length <
      receiver.usernameFragment.length
  · rw [if_pos hshort]
  · have htake : (carried (sender.createStunUsername addressee.usernameFragment)).take
        receiver.usernameFragment.length = addressee.usernameFragment := by
      rw [carried, List.length_take] at hshort
      rw [carried, List.take_take, Nat.min_eq_left (by omega), ← hlength, createStunUsername,
        List.append_assoc, List.take_left]
    rw [if_neg hshort]
    simp [htake, hne]

theorem separates_iff (hprotocol : port.iceProtocol = .google) :
    Separates port ↔ port.EndsInTable := by
  have hdefined : (port.ofComponent iceCandidateComponentRtcp).UfragDefined ↔ port.EndsInTable :=
    ufragDefined_iff hprotocol rfl
  constructor
  · intro h
    exact hdefined.mp h.1
  · intro h
    obtain ⟨rtcpUfrag, hrtcp⟩ := Option.isSome_iff_exists.mp (isSome_getRtcpUfrag.mpr h)
    have hrtp : (port.ofComponent 1).usernameFragment = port.iceUsernameFragment :=
      if_neg fun h => absurd h.2 (show (1 : Int) ≠ 2 by decide)
    have hchanged : (port.ofComponent iceCandidateComponentRtcp).usernameFragment = rtcpUfrag := by
      rw [usernameFragment, if_pos ⟨hprotocol, rfl⟩]
      simp [ofComponent, hrtcp]
    have hlength := length_getRtcpUfrag hrtcp
    have hne := getRtcpUfrag_ne hrtcp
    refine ⟨hdefined.mpr h, ?_, ?_⟩
    · apply @refuses_of_ne (port.ofComponent iceCandidateComponentRtcp) _ hprotocol
      · rw [hrtp, hchanged, hlength]
      · rw [hrtp, hchanged]
        exact hne.symm
    · apply @refuses_of_ne (port.ofComponent 1) _ hprotocol
      · rw [hrtp, hchanged, hlength]
      · rw [hrtp, hchanged]
        exact hne

end Components

theorem usernames_agree_iff (sender receiver : Port) :
    (sender.iceProtocol = receiver.iceProtocol → sender.component = receiver.component →
      (receiver.iceProtocol = .rfc5245 →
        colon ∉ sender.iceUsernameFragment ∧ colon ∉ receiver.iceUsernameFragment) →
      (Agrees sender receiver ↔ Agreeable sender receiver)) ∧
    (receiver.iceProtocol = .google → (Separates receiver ↔ receiver.EndsInTable)) := by
  refine ⟨?_, separates_iff⟩
  intro hprotocol hcomponent hcolon
  exact ⟨agreeable_of_agrees hprotocol hcomponent,
    agrees_of_agreeable hprotocol hcomponent fun h => (hcolon h).2⟩

def ofRepeated (protocol : TransportProtocol) (ch : UInt8) (n : Nat) (component : Int) : Port where
  component := component
  iceUsernameFragment := List.replicate n ch
  password := []
  iceProtocol := protocol

theorem not_agrees_of_long {n : Nat} (h : 65535 ≤ n) :
    ¬ Agrees (ofRepeated .rfc5245 97 n 1) (ofRepeated .rfc5245 98 1 1) := by
  intro hagrees
  have hagreeable : Agreeable (ofRepeated .rfc5245 97 n 1) (ofRepeated .rfc5245 98 1 1) :=
    agreeable_of_agrees rfl rfl hagrees
  have hfits := hagreeable.fits
  simp [ofRepeated] at hfits
  omega

/-- A port that has not settled for a protocol reads no fragments, and a username that is too
long for its attribute loses its end. -/
theorem usernames_differ :
    ¬ Agrees (ofRepeated .hybrid 97 1 1) (ofRepeated .hybrid 98 1 1) ∧
    ¬ Agrees (ofRepeated .rfc5245 97 65535 1) (ofRepeated .rfc5245 98 1 1) := by
  refine ⟨?_, not_agrees_of_long (Nat.le_refl _)⟩
  intro h
  have hhybrid : Agreeable (ofRepeated .hybrid 97 1 1) (ofRepeated .hybrid 98 1 1) :=
    agreeable_of_agrees rfl rfl h
  exact absurd (hhybrid.settled rfl).1 (by decide)

theorem usernames_agree_rtcp :
    Agrees (ofRepeated .google 97 3 2) (ofRepeated .google 98 4 2) ∧
      Separates (ofRepeated .google 47 1 1) := by
  constructor
  · apply ((usernames_agree_iff (ofRepeated .google 97 3 2) (ofRepeated .google 98 4 2)).1 rfl rfl
      nofun).mpr
    exact ⟨by decide, nofun, fun _ _ => ⟨⟨97, rfl, by decide⟩, ⟨98, rfl, by decide⟩⟩⟩
  · exact ((usernames_agree_iff (ofRepeated .google 47 1 1) (ofRepeated .google 47 1 1)).2 rfl).mpr
      ⟨47, rfl, by decide⟩

end Port

end Libjingle
