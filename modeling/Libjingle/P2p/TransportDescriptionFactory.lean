import Libjingle.Base.Random
import Libjingle.P2p.ContentMessages

/-! The transport descriptions of offers and answers. -/

namespace Libjingle

def nsJingleIceUdp : String := "urn:xmpp:jingle:transports:ice-udp:1"
def iceOptionGice : String := "google-ice"
def iceUfragLength : Nat := 16
def icePwdLength : Nat := 24

inductive SecurePolicy
  | disabled
  | enabled
  | required
  deriving DecidableEq, Repr

structure TransportOptions where
  iceRestart : Bool := false
  deriving DecidableEq, Repr

/-- An identity is given by its fingerprints, one for each digest algorithm that it has. -/
structure TransportDescriptionFactory where
  protocol : TransportProtocol := .google
  secure : SecurePolicy := .disabled
  identity : Option (String → Option SSLFingerprint) := none
  digestAlg : String := "sha-1"

namespace TransportDescriptionFactory

variable (f : TransportDescriptionFactory) (rng : RandomGenerator)

def credentials (options : TransportOptions)
    (current : Option SessionDescription.TransportDescription) : Draw (String × String) :=
  match current, options.iceRestart with
  | some description, false => pure (description.iceUfrag, description.icePwd)
  | _, _ => do
    let ufrag ← rng.createRandomString iceUfragLength
    let pwd ← rng.createRandomString icePwdLength
    pure (ufrag.getD "", pwd.getD "")

def isSecure : Bool := f.secure ≠ .disabled

/-- `CreateIdentityDigest` -/
def createIdentityDigest : Option SSLFingerprint := f.identity.bind (· f.digestAlg)

def fingerprint (wanted : Bool) : Draw (Option SSLFingerprint) :=
  if wanted then do
    let digest ← Draw.orElse f.createIdentityDigest .null
    pure (some digest)
  else pure none

def createOffer (options : TransportOptions)
    (current : Option SessionDescription.TransportDescription) :
    Draw SessionDescription.TransportDescription := do
  let (iceUfrag, icePwd) ← credentials rng options current
  let identityFingerprint ← f.fingerprint f.isSecure
  pure {
    transportType := if f.protocol = .google then nsGingleP2p else nsJingleIceUdp
    transportOptions := if f.protocol = .hybrid then [iceOptionGice] else []
    iceUfrag
    icePwd
    identityFingerprint }

/-- The variant of ICE that an answer has. No offer is one of the Google variant. -/
def answerType (offer : Option SessionDescription.TransportDescription) : Option String :=
  let isIce := offer.any (·.transportType = nsJingleIceUdp)
  if isIce ∧ f.protocol ≠ .google then some nsJingleIceUdp
  else if isIce ∧ offer.any (·.transportOptions.contains iceOptionGice) ∧ f.protocol = .google then
    some nsGingleP2p
  else if offer.all (·.transportType = nsGingleP2p) ∧ f.protocol ≠ .rfc5245 then some nsGingleP2p
  else none

def createAnswer (offer : Option SessionDescription.TransportDescription)
    (options : TransportOptions) (current : Option SessionDescription.TransportDescription) :
    Draw SessionDescription.TransportDescription := do
  let transportType ← Draw.orElse (f.answerType offer) .null
  let (iceUfrag, icePwd) ← credentials rng options current
  let offered := offer.any (·.identityFingerprint.isSome)
  Draw.require (offered || f.secure ≠ .required)
  let identityFingerprint ← f.fingerprint (offered && f.isSecure)
  pure { transportType, iceUfrag, icePwd, identityFingerprint }

theorem secure_createAnswer {offer current : Option SessionDescription.TransportDescription}
    {options : TransportOptions} {n k : Nat} {answer : SessionDescription.TransportDescription}
    (h : f.createAnswer rng offer options current n = .ok (answer, k)) :
    answer.identityFingerprint.isSome = (offer.any (·.identityFingerprint.isSome) && f.isSecure) := by
  obtain ⟨_, _, -, h⟩ := Draw.bind_ok.mp h
  obtain ⟨_, _, -, h⟩ := Draw.bind_ok.mp h
  obtain ⟨_, _, -, h⟩ := Draw.bind_ok.mp h
  obtain ⟨identityFingerprint, _, hfingerprint, h⟩ := Draw.bind_ok.mp h
  obtain ⟨rfl, -⟩ := Draw.pure_ok.mp h
  unfold fingerprint at hfingerprint
  split at hfingerprint
  next hwanted =>
    obtain ⟨digest, _, -, h⟩ := Draw.bind_ok.mp hfingerprint
    obtain ⟨rfl, -⟩ := Draw.pure_ok.mp h
    exact hwanted.symm
  next hwanted =>
    obtain ⟨rfl, -⟩ := Draw.pure_ok.mp hfingerprint
    exact (eq_false_of_ne_true hwanted).symm

end TransportDescriptionFactory

end Libjingle
