import Libjingle.Base.Md5
import Libjingle.Base.Sha1

/-! Message digests as objects that are fed piece by piece and asked for the digest, and the
keyed digests that are built from them. -/

namespace Libjingle.Digest

open BlockHash

/-- What the subclasses of `MessageDigest` define. `finish` returns the bytes that it writes. -/
structure MessageDigest where
  Context : Type
  init : Context
  size : Nat
  update : Context → List UInt8 → Context
  finish : Context → Nat → Context × List UInt8

def md5Size : Nat := 16

/-- `memory` is what is in the context before it is initialised. -/
def md5Digest (memory : Vector UInt8 64) : MessageDigest where
  Context := MD5Context
  init := md5Init memory.toList
  size := md5Size
  update := md5Update
  finish ctx len :=
    if len < md5Size then (ctx, []) else (md5Init (List.replicate 64 0), md5Final ctx)

def sha1Digest (memory : Vector UInt8 64) : MessageDigest where
  Context := SHA1Context
  init := sha1Init memory.toList
  size := sha1DigestSize
  update := sha1Update
  finish ctx len :=
    if len < sha1DigestSize then (ctx, []) else (sha1Init (List.replicate 64 0), sha1Final ctx)

def digestMd5 : String := "md5"
def digestSha1 : String := "sha-1"

/-- `MessageDigestFactory::Create` without OpenSSL. -/
def create (memory : Vector UInt8 64) (alg : String) : Option MessageDigest :=
  if alg = digestMd5 then some (md5Digest memory)
  else if alg = digestSha1 then some (sha1Digest memory)
  else none

def kBlockSize : Nat := 64

namespace MessageDigest

variable (D : MessageDigest)

def computeDigest (digest : D.Context) (input : List UInt8) (outLen : Nat) :
    D.Context × List UInt8 :=
  D.finish (D.update digest input) outLen

def computeHmac (digest : D.Context) (key input : List UInt8) (outLen : Nat) :
    D.Context × List UInt8 :=
  if D.size > 32 then (digest, [])
  else
    let (digest, newKey) :=
      if key.length > kBlockSize then
        let (digest, output) := D.computeDigest digest key kBlockSize
        (digest, output ++ List.replicate (kBlockSize - D.size) 0)
      else (digest, key ++ List.replicate (kBlockSize - key.length) 0)
    let oPad := newKey.map (0x5c ^^^ ·)
    let iPad := newKey.map (0x36 ^^^ ·)
    let (digest, inner) := D.finish (D.update (D.update digest iPad) input) D.size
    D.finish (D.update (D.update digest oPad) inner) outLen

end MessageDigest

/-- `ComputeHmac` of an algorithm by its name. -/
def computeHmac (memory : Vector UInt8 64) (alg : String) (key input : List UInt8) (outLen : Nat) :
    List UInt8 :=
  match create memory alg with
  | none => []
  | some D => (D.computeHmac D.init key input outLen).2

/-! What the objects compute. -/

inductive DigestCall
  | update (data : List UInt8)
  | finish (len : Nat)

/-- What the calls of `Finish` return. -/
def MessageDigest.run (D : MessageDigest) : D.Context → List DigestCall → List (List UInt8)
  | _, [] => []
  | digest, .update data :: rest => D.run (D.update digest data) rest
  | digest, .finish len :: rest => (D.finish digest len).2 :: D.run (D.finish digest len).1 rest

/-- A digest is asked of all that came since the last one was given. -/
def answers (hash : List UInt8 → List UInt8) (size : Nat) :
    List UInt8 → List DigestCall → List (List UInt8)
  | _, [] => []
  | message, .update data :: rest => answers hash size (message ++ data) rest
  | message, .finish len :: rest =>
    if len < size then [] :: answers hash size message rest
    else hash message :: answers hash size [] rest

/-- An object computes a digest. -/
structure Computes (D : MessageDigest) (hash : List UInt8 → List UInt8)
    (hashed : D.Context → List UInt8 → Prop) : Prop where
  init : hashed D.init []
  update : ∀ {digest message}, hashed digest message → ∀ data,
    hashed (D.update digest data) (message ++ data)
  short : ∀ digest len, len < D.size → D.finish digest len = (digest, [])
  finish : ∀ {digest message len}, hashed digest message → D.size ≤ len →
    (D.finish digest len).2 = hash message ∧ hashed (D.finish digest len).1 []
  length : ∀ message, (hash message).length = D.size

section Computes

variable {D : MessageDigest} {hash : List UInt8 → List UInt8}
  {hashed : D.Context → List UInt8 → Prop}

theorem Computes.run (h : Computes D hash hashed) {digest : D.Context} {message : List UInt8}
    (hmessage : hashed digest message) (calls : List DigestCall) :
    D.run digest calls = answers hash D.size message calls := by
  induction calls generalizing digest message with
  | nil => rfl
  | cons call rest ih =>
    cases call with
    | update data => exact ih (h.update hmessage data)
    | finish len =>
      rw [MessageDigest.run, answers]
      by_cases hlen : len < D.size
      · rw [if_pos hlen, h.short digest len hlen]
        exact congrArg _ (ih hmessage)
      · obtain ⟨hout, hnext⟩ := h.finish hmessage (Nat.le_of_not_lt hlen)
        rw [if_neg hlen, hout, ih hnext]

/-- HMAC as in RFC 2104, for blocks of 64 bytes. -/
def hmac (hash : List UInt8 → List UInt8) (key text : List UInt8) : List UInt8 :=
  let k := if key.length > 64 then hash key else key
  let padded := k ++ List.replicate (64 - k.length) 0
  hash (padded.map (0x5c ^^^ ·) ++ hash (padded.map (0x36 ^^^ ·) ++ text))

theorem Computes.computeHmac (h : Computes D hash hashed) (hsize : D.size ≤ 32)
    {digest : D.Context} (hfresh : hashed digest []) (key input : List UInt8) (outLen : Nat) :
    (D.computeHmac digest key input outLen).2 =
      if outLen < D.size then [] else hmac hash key input := by
  have hpads : ∀ {digest : D.Context} (newKey : List UInt8), hashed digest [] →
      (D.finish (D.update (D.update (D.finish (D.update (D.update digest
        (newKey.map (0x36 ^^^ ·))) input) D.size).1 (newKey.map (0x5c ^^^ ·)))
          (D.finish (D.update (D.update digest (newKey.map (0x36 ^^^ ·))) input) D.size).2)
            outLen).2 =
        if outLen < D.size then []
        else hash (newKey.map (0x5c ^^^ ·) ++ hash (newKey.map (0x36 ^^^ ·) ++ input)) := by
    intro digest newKey hdigest
    have hinput := h.update (h.update hdigest (newKey.map (0x36 ^^^ ·))) input
    obtain ⟨hinner, hnext⟩ := h.finish hinput (Nat.le_refl _)
    rw [hinner]
    have houter := h.update (h.update hnext (newKey.map (0x5c ^^^ ·)))
      (hash ([] ++ newKey.map (0x36 ^^^ ·) ++ input))
    by_cases hlen : outLen < D.size
    · rw [if_pos hlen, h.short _ _ hlen]
    · rw [if_neg hlen, (h.finish houter (Nat.le_of_not_lt hlen)).1]
      simp only [List.nil_append]
  rw [MessageDigest.computeHmac, if_neg (Nat.not_lt.mpr hsize), hmac]
  by_cases hlong : key.length > 64
  · have hroom : D.size ≤ kBlockSize := by
      rw [kBlockSize]
      omega
    obtain ⟨hout, hnext⟩ := h.finish (h.update hfresh key) hroom
    simp only [kBlockSize, hlong, if_true, MessageDigest.computeDigest, h.length] at hout ⊢
    rw [hout]
    exact hpads _ hnext
  · simp only [kBlockSize, hlong, if_false]
    exact hpads _ hfresh

end Computes

theorem length_md5 (message : List UInt8) : (md5 message).length = md5Size := by
  simp [md5, List.length_flatMap, wordBytes, md5Size]

theorem length_sha1 (message : List UInt8) : (sha1 message).length = sha1DigestSize := by
  simp [sha1, List.length_flatMap, sha1DigestSize]

theorem computes_md5 (memory : Vector UInt8 64) :
    Computes (md5Digest memory) md5 MD5Context.Hashed where
  init := hashed_md5Init memory.length_toList
  update h data := hashed_md5Update h data
  short _ _ h := if_pos h
  finish {ctx _ len} h hlen := by
    have hfinish : (md5Digest memory).finish ctx len =
        (md5Init (List.replicate 64 0), md5Final ctx) := if_neg (Nat.not_lt.mpr hlen)
    rw [hfinish]
    exact ⟨md5Final_eq h, hashed_md5Init List.length_replicate⟩
  length := length_md5

theorem computes_sha1 (memory : Vector UInt8 64) :
    Computes (sha1Digest memory) sha1 SHA1Context.Hashed where
  init := hashed_sha1Init memory.length_toList
  update h data := hashed_sha1Update h data
  short _ _ h := if_pos h
  finish {ctx _ len} h hlen := by
    have hfinish : (sha1Digest memory).finish ctx len =
        (sha1Init (List.replicate 64 0), sha1Final ctx) := if_neg (Nat.not_lt.mpr hlen)
    rw [hfinish]
    exact ⟨sha1Final_eq h, hashed_sha1Init List.length_replicate⟩
  length := length_sha1

/-- However a message is cut into updates, the object gives its MD5 digest, and is as new after
that. A buffer that is too short changes nothing. -/
theorem md5Digest_run (memory : Vector UInt8 64) (calls : List DigestCall) :
    (md5Digest memory).run (md5Digest memory).init calls = answers md5 md5Size [] calls :=
  (computes_md5 memory).run (computes_md5 memory).init calls

theorem sha1Digest_run (memory : Vector UInt8 64) (calls : List DigestCall) :
    (sha1Digest memory).run (sha1Digest memory).init calls =
      answers sha1 sha1DigestSize [] calls :=
  (computes_sha1 memory).run (computes_sha1 memory).init calls

/-- The digests that the factory knows. -/
def hashOf (alg : String) : Option (List UInt8 → List UInt8) :=
  if alg = "md5" then some md5 else if alg = "sha-1" then some sha1 else none

theorem computeHmac_rfc2104 (memory : Vector UInt8 64) (alg : String) (key input : List UInt8)
    (outLen : Nat) :
    computeHmac memory alg key input outLen =
      match hashOf alg with
      | none => []
      | some hash =>
        if outLen < (hash []).length then [] else hmac hash key input := by
  have hmd5 : (md5Digest memory).size ≤ 32 := Nat.le_of_ble_eq_true rfl
  have hsha1 : (sha1Digest memory).size ≤ 32 := Nat.le_of_ble_eq_true rfl
  unfold computeHmac create hashOf digestMd5 digestSha1
  by_cases h5 : alg = "md5"
  · simp only [if_pos h5]
    rw [(computes_md5 memory).computeHmac hmd5 (computes_md5 memory).init, length_md5]
    rfl
  · by_cases h1 : alg = "sha-1"
    · simp only [if_neg h5, if_pos h1]
      rw [(computes_sha1 memory).computeHmac hsha1 (computes_sha1 memory).init, length_sha1]
      rfl
    · simp only [if_neg h5, if_neg h1]

end Libjingle.Digest
