import Libjingle.Base.TimeUtils
import Libjingle.Turn.Server
import Mathlib.Data.Nat.Find

/-! How long a nonce of the server is valid, in real time and not as the 32-bit clock
tells it. -/

namespace Libjingle

section Hex

theorem hexDecodeChar_hexEncodeChar (n : Fin 16) :
    hexDecodeChar (hexEncodeChar (UInt8.ofNat n)) = some (UInt8.ofNat n) := by
  revert n
  decide

theorem low_nibble (b : UInt8) : b &&& 15 = UInt8.ofNat (b.toNat % 16) := by
  apply UInt8.toNat_inj.mp
  have hand : (b &&& 15).toNat = b.toNat &&& 15 := UInt8.toNat_and b 15
  have hmod : b.toNat &&& 15 = b.toNat % 16 := Nat.and_two_pow_sub_one_eq_mod b.toNat 4
  have hof := UInt8.toNat_ofNat_of_lt' (n := b.toNat % 16)
    (show b.toNat % 16 < UInt8.size by simp only [UInt8.size]; omega)
  omega

theorem high_nibble (b : UInt8) : b >>> 4 &&& 15 = UInt8.ofNat (b.toNat / 16) := by
  have hlt := b.toNat_lt
  have hshift : (b >>> 4).toNat = b.toNat / 16 := by
    rw [UInt8.toNat_shiftRight, Nat.shiftRight_eq_div_pow]
    rfl
  rw [low_nibble, hshift, Nat.mod_eq_of_lt (by omega)]

theorem join_nibbles (b : UInt8) : (b >>> 4 &&& 15) <<< 4 ||| b &&& 15 = b := by
  have hall : ∀ n : Fin 256, (UInt8.ofNat n >>> 4 &&& 15) <<< 4 ||| UInt8.ofNat n &&& 15 =
      UInt8.ofNat n := by
    decide +kernel
  have hb := hall ⟨b.toNat, b.toNat_lt⟩
  simpa using hb

theorem hexDecode_hexEncode (bytes : List UInt8) : hexDecode (hexEncode bytes) = some bytes := by
  induction bytes with
  | nil => rfl
  | cons b rest ih =>
    have hlt := b.toNat_lt
    have hhigh : hexDecodeChar (hexEncodeChar (b >>> 4 &&& 15)) = some (b >>> 4 &&& 15) := by
      rw [high_nibble]
      exact hexDecodeChar_hexEncodeChar ⟨b.toNat / 16, by omega⟩
    have hlow : hexDecodeChar (hexEncodeChar (b &&& 15)) = some (b &&& 15) := by
      rw [low_nibble]
      exact hexDecodeChar_hexEncodeChar ⟨b.toNat % 16, by omega⟩
    have hcons : hexEncode (b :: rest) = hexEncodeChar (b >>> 4 &&& 15) ::
        hexEncodeChar (b &&& 15) :: hexEncode rest := rfl
    rw [hcons, hexDecode]
    simp [hhigh, hlow, ih, join_nibbles]

theorem length_hexEncode (bytes : List UInt8) : (hexEncode bytes).length = 2 * bytes.length := by
  induction bytes with
  | nil => rfl
  | cons b rest ih =>
    have hcons : (hexEncode (b :: rest)).length = (hexEncode rest).length + 2 := rfl
    rw [hcons, ih, List.length_cons]
    omega

end Hex

theorem timeSince_elapsed {now time : Nat} (hpast : time ≤ now) (hlap : now ≤ time + 4294967296) :
    timeSince now (UInt32.ofNat time) =
      if now - time < 2147483648 then ((now - time : Nat) : Int)
      else ((now - time : Nat) : Int) - 4294967296 := by
  have hdiff : timeSince now (UInt32.ofNat time) =
      timeDiff (UInt32.ofNat now) (UInt32.ofNat time) := rfl
  have hn : (UInt32.ofNat now).toNat = now % 4294967296 := UInt32.toNat_ofNat'
  have ht : (UInt32.ofNat time).toNat = time % 4294967296 := UInt32.toNat_ofNat'
  have hsub := UInt32.toNat_sub (UInt32.ofNat now) (UInt32.ofNat time)
  rw [hdiff, timeDiff_eq]
  by_cases hage : now - time < 2147483648
  · rw [if_pos hage]
    split <;> omega
  · rw [if_neg hage]
    split <;> omega

namespace TurnServer

theorem length_timeBytes (time : UInt32) : (timeBytes time).length = 4 := by
  rw [timeBytes, List.length_reverse, length_longToBytes]

theorem bytesToLong_timeBytes (time : UInt32) : bytesToLong (timeBytes time).reverse = time := by
  rw [timeBytes, List.reverse_reverse, bytesToLong_longToBytes]

theorem timeBytes_bytesToLong {input : List UInt8} (h : input.length = 4) :
    timeBytes (bytesToLong input.reverse) = input := by
  rw [timeBytes, longToBytes_bytesToLong (by rw [List.length_reverse, h]), List.reverse_reverse]

theorem timeBytes_inj {time time' : UInt32} (h : timeBytes time = timeBytes time') :
    time = time' := by
  rw [← bytesToLong_timeBytes time, h, bytesToLong_timeBytes]

/-- A string of the size of a nonce that decodes to a time and has the digest of it. -/
structure Spells (cfg : Settings) (nonce : List UInt8) (time : UInt32) : Prop where
  size : nonce.length = nonceSize
  stamp : hexDecode (nonce.take 8) = some (timeBytes time)
  hmac : nonce.drop 8 = cfg.computeNonceHmac cfg.nonceKey (timeBytes time)

theorem Spells.time_eq {cfg : Settings} {nonce : List UInt8} {time time' : UInt32}
    (h : Spells cfg nonce time) (h' : Spells cfg nonce time') : time = time' :=
  timeBytes_inj (Option.some.inj (h.stamp.symm.trans h'.stamp))

theorem validateNonce_iff {cfg : Settings} {now : Nat} {nonce : List UInt8} :
    validateNonce cfg now nonce = true ↔
      ∃ time, Spells cfg nonce time ∧ timeSince now time < nonceTimeout := by
  rw [validateNonce]
  constructor
  · intro h
    by_cases hsize : nonce.length = nonceSize
    · rw [if_neg (not_not.mpr hsize)] at h
      split at h
      · cases h
      · rename_i input hinput
        by_cases hlen : input.length = 4
        · rw [if_neg (not_not.mpr hlen)] at h
          have hbytes := timeBytes_bytesToLong hlen
          by_cases hmac : nonce.drop 8 = cfg.computeNonceHmac cfg.nonceKey input
          · rw [if_neg (not_not.mpr hmac)] at h
            refine ⟨bytesToLong input.reverse, ⟨hsize, ?_, ?_⟩, of_decide_eq_true h⟩
            · rw [hbytes, hinput]
            · rw [hbytes, hmac]
          · rw [if_pos hmac] at h
            cases h
        · rw [if_pos hlen] at h
          cases h
    · rw [if_pos hsize] at h
      cases h
  · rintro ⟨time, hspells, hage⟩
    rw [if_neg (not_not.mpr hspells.size), hspells.stamp]
    dsimp only
    rw [if_neg (not_not.mpr (length_timeBytes time)), if_neg (not_not.mpr hspells.hmac),
      bytesToLong_timeBytes]
    exact decide_eq_true hage

/-- What holds when a string is validated: the times at which the server has made a nonce
are at most a lap of the clock ago, the digest has 32 characters, and nobody else has
made the one that is in the string. -/
structure Issued (cfg : Settings) (made : Nat → Prop) (now : Nat) (nonce : List UInt8) : Prop where
  past : ∀ t, made t → t ≤ now
  lap : ∀ t, made t → now ≤ t + 4294967296
  digest : ∀ time, (cfg.computeNonceHmac cfg.nonceKey (timeBytes time)).length = 32
  unforged : ∀ time, nonce.drop 8 = cfg.computeNonceHmac cfg.nonceKey (timeBytes time) →
    ∃ t, made t ∧ UInt32.ofNat t = time

/-- The server made this nonce and the timeout has not passed since. -/
def Fresh (cfg : Settings) (made : Nat → Prop) (now : Nat) (nonce : List UInt8) : Prop :=
  ∃ t, made t ∧ nonce = generateNonce cfg t ∧ now - t < nonceTimeout

/-- The last time at which the server made a nonce of the time and digest in the string. -/
structure LastMade (cfg : Settings) (made : Nat → Prop) (nonce : List UInt8) (t : Nat) : Prop where
  was : made t
  spells : Spells cfg nonce (UInt32.ofNat t)
  last : ∀ u, made u → Spells cfg nonce (UInt32.ofNat u) → u ≤ t

section Lifetime

variable {cfg : Settings} {made : Nat → Prop} {now : Nat} {nonce : List UInt8}

theorem spells_generateNonce (t : Nat)
    (hdigest : ∀ time, (cfg.computeNonceHmac cfg.nonceKey (timeBytes time)).length = 32) :
    Spells cfg (generateNonce cfg t) (UInt32.ofNat t) := by
  have hstamp : (hexEncode (timeBytes (UInt32.ofNat t))).length = 8 := by
    rw [length_hexEncode, length_timeBytes]
  refine ⟨?_, ?_, ?_⟩
  · rw [generateNonce, List.length_append, hstamp, hdigest]
    rfl
  · rw [generateNonce, List.take_left' hstamp, hexDecode_hexEncode]
  · rw [generateNonce, List.drop_left' hstamp]

theorem generateNonce_congr {t u : Nat} (h : UInt32.ofNat t = UInt32.ofNat u) :
    generateNonce cfg t = generateNonce cfg u := by
  rw [generateNonce, generateNonce, h]

theorem Issued.exists_last (h : Issued cfg made now nonce) {time : UInt32}
    (hspells : Spells cfg nonce time) : ∃ t, LastMade cfg made nonce t := by
  classical
  obtain ⟨t, hmade, rfl⟩ := h.unforged time hspells.hmac
  have hspec := Nat.findGreatest_spec
    (P := fun u => made u ∧ Spells cfg nonce (UInt32.ofNat u)) (h.past t hmade) ⟨hmade, hspells⟩
  exact ⟨_, hspec.1, hspec.2, fun u hu hs => Nat.le_findGreatest (h.past u hu) ⟨hu, hs⟩⟩

theorem LastMade.validateNonce_iff {t : Nat} (h : LastMade cfg made nonce t) :
    validateNonce cfg now nonce = true ↔ timeSince now (UInt32.ofNat t) < nonceTimeout := by
  rw [TurnServer.validateNonce_iff]
  constructor
  · rintro ⟨time, hspells, hage⟩
    rwa [hspells.time_eq h.spells] at hage
  · exact fun hage => ⟨_, h.spells, hage⟩

theorem LastMade.fresh_iff {t : Nat} (h : LastMade cfg made nonce t)
    (hissued : Issued cfg made now nonce) :
    Fresh cfg made now nonce ↔ nonce = generateNonce cfg t ∧ now - t < nonceTimeout := by
  constructor
  · rintro ⟨u, hu, rfl, hage⟩
    have hspells : Spells cfg (generateNonce cfg u) (UInt32.ofNat u) :=
      spells_generateNonce u hissued.digest
    have hle := h.last u hu hspells
    exact ⟨generateNonce_congr (hspells.time_eq h.spells), by omega⟩
  · exact fun hfresh => ⟨t, h.was, hfresh⟩

/-- A string is taken for a fresh nonce as it should be, except if the server last made
the nonce half a lap of the clock ago or earlier, or the time in it is spelled otherwise
than the server does and not yet old. -/
theorem validates_fresh_nonces (hissued : Issued cfg made now nonce) :
    (validateNonce cfg now nonce = true ↔ Fresh cfg made now nonce) ↔
      ∀ t, LastMade cfg made nonce t → now - t < 2147483648 ∧
        (nonce = generateNonce cfg t ∨ nonceTimeout ≤ now - t) := by
  by_cases hspelled : ∃ time, Spells cfg nonce time
  · obtain ⟨time, hspells⟩ := hspelled
    obtain ⟨t, hlast⟩ := hissued.exists_last hspells
    have hpast := hissued.past t hlast.was
    have hlap := hissued.lap t hlast.was
    have htimeout : nonceTimeout = 3600000 := rfl
    have honly : (∀ u, LastMade cfg made nonce u → now - u < 2147483648 ∧
        (nonce = generateNonce cfg u ∨ nonceTimeout ≤ now - u)) ↔ now - t < 2147483648 ∧
        (nonce = generateNonce cfg t ∨ nonceTimeout ≤ now - t) := by
      constructor
      · exact fun h => h t hlast
      · intro h u hu
        have hut : u = t :=
          Nat.le_antisymm (hlast.last u hu.was hu.spells) (hu.last t hlast.was hlast.spells)
        rwa [hut]
    rw [honly, hlast.validateNonce_iff, hlast.fresh_iff hissued, timeSince_elapsed hpast hlap]
    by_cases hmine : nonce = generateNonce cfg t
    · simp only [eq_true hmine, true_and, true_or, and_true]
      split <;> omega
    · simp only [eq_false hmine, false_and, false_or, iff_false]
      split <;> omega
  · have hinvalid : validateNonce cfg now nonce ≠ true := by
      rw [Ne, TurnServer.validateNonce_iff]
      rintro ⟨time, hspells, -⟩
      exact hspelled ⟨time, hspells⟩
    have hstale : ¬ Fresh cfg made now nonce := by
      rintro ⟨t, -, rfl, -⟩
      exact hspelled ⟨_, spells_generateNonce t hissued.digest⟩
    constructor
    · exact fun _ t hlast => absurd ⟨_, hlast.spells⟩ hspelled
    · exact fun _ => iff_of_false hinvalid hstale

end Lifetime

def hexSettings : Settings where
  computeHmac key data := List.replicate 20 (UInt8.ofNat (key.length + data.length))
  computeNonceHmac _ input := List.replicate 24 48 ++ hexEncode input
  authHook _ _ := none
  nonceKey := []
  realm := [114]
  software := []
  enableOtuNonce := false

theorem issued_hexSettings {t now : Nat} (hpast : t ≤ now) (hlap : now ≤ t + 4294967296) :
    Issued hexSettings (· = t) now (generateNonce hexSettings t) := by
  have hdigest : ∀ time, (hexSettings.computeNonceHmac hexSettings.nonceKey
      (timeBytes time)).length = 32 := by
    intro time
    have hlen : (List.replicate 24 (48 : UInt8) ++ hexEncode (timeBytes time)).length = 32 := by
      simp [length_hexEncode, length_timeBytes]
    exact hlen
  refine ⟨?_, ?_, hdigest, ?_⟩
  · rintro u rfl
    exact hpast
  · rintro u rfl
    exact hlap
  · intro time hmac
    have hdrop := (spells_generateNonce t hdigest).hmac
    have hhex : hexEncode (timeBytes (UInt32.ofNat t)) = hexEncode (timeBytes time) :=
      List.append_cancel_left (hdrop.symm.trans hmac)
    have hbytes := congrArg hexDecode hhex
    rw [hexDecode_hexEncode, hexDecode_hexEncode] at hbytes
    exact ⟨t, rfl, timeBytes_inj (Option.some.inj hbytes)⟩

/-- A nonce is valid a second after it was made. -/
theorem validates_nonce_of_a_second :
    Issued hexSettings (· = 5) 1005 (generateNonce hexSettings 5) ∧
      (validateNonce hexSettings 1005 (generateNonce hexSettings 5) = true ↔
        Fresh hexSettings (· = 5) 1005 (generateNonce hexSettings 5)) := by
  have hissued := @issued_hexSettings 5 1005 (by decide) (by decide)
  refine ⟨hissued, (validates_fresh_nonces hissued).mpr ?_⟩
  rintro t ⟨rfl, -, -⟩
  exact ⟨by decide, .inl rfl⟩

/-- Half a lap of the clock after it was made the nonce is valid again. -/
theorem expired_nonce_valid_again : ¬ ∀ cfg made now nonce, Issued cfg made now nonce →
    (validateNonce cfg now nonce = true ↔ Fresh cfg made now nonce) := by
  intro h
  have hissued := @issued_hexSettings 0 2147483648 (by decide) (by decide)
  obtain ⟨t, rfl, -, hage⟩ := (h _ _ _ _ hissued).mp (by decide +kernel)
  exact absurd hage (by decide)

end TurnServer

end Libjingle
