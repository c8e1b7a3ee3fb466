import Libjingle.PseudoTcp.Input

/-! The options of a connect message: how `parseOptions` divides the payload, and what
the window scale is afterwards. -/

namespace Libjingle.PseudoTcp

structure ConnectOption where
  kind : UInt8
  value : List UInt8
  deriving DecidableEq, Repr

/-- How a payload divides into options up to the first end of the list. It is whole unless
a length says more than what is left. -/
inductive Divides : List UInt8 → List ConnectOption → Bool → Prop
  | nil : Divides [] [] true
  | eol (rest : List UInt8) : Divides (tcpOptEol :: rest) [] true
  | noop {rest opts whole} (h : Divides rest opts whole) : Divides (tcpOptNoop :: rest) opts whole
  | option {kind length : UInt8} {value rest opts whole} (hkind : kind ≠ tcpOptEol ∧ kind ≠ tcpOptNoop)
      (hlength : value.length = length.toNat) (h : Divides rest opts whole) :
      Divides (kind :: length :: (value ++ rest)) (⟨kind, value⟩ :: opts) whole
  -- a missing length counts as zero
  | last {kind : UInt8} (hkind : kind ≠ tcpOptEol ∧ kind ≠ tcpOptNoop) :
      Divides [kind] [⟨kind, []⟩] true
  | malformed {kind length : UInt8} {rest} (hkind : kind ≠ tcpOptEol ∧ kind ≠ tcpOptNoop)
      (hlength : rest.length < length.toNat) : Divides (kind :: length :: rest) [] false

/-- How many bytes the loop of `parseOptions` takes out of its buffer. -/
def optionBytes : Nat → List UInt8 → Nat
  | 0, _ => 0
  | _ + 1, [] => 0
  | fuel + 1, kind :: buf =>
    if kind = tcpOptEol then 1
    else if kind = tcpOptNoop then 1 + optionBytes fuel buf
    else
      let optLen := (buf.headD 0).toNat
      let buf' := buf.tail
      if optLen ≤ buf'.length then
        1 + (buf.length - buf'.length) + (optLen + optionBytes fuel (buf'.drop optLen))
      else 1 + (buf.length - buf'.length)

def applyOptions (s : PseudoTcp) (opts : List ConnectOption) : PseudoTcp :=
  opts.foldl (fun s o => s.applyOption o.kind o.value) s

/-- Without the option for it the peer does not support window scaling. -/
def fallBack (s : PseudoTcp) (opts : List ConnectOption) : PseudoTcp :=
  if (∀ o ∈ opts, o.kind ≠ tcpOptWndScale) ∧ s.rwndScale > 0 then
    { s.resizeReceiveBuffer defaultRcvBufSize with swndScale := 0 }
  else s

/-- A window on the wire shifted by the scale: the shift is one of a 32-bit number, and no
bit is lost. -/
def Lossless (scale : UInt8) : Prop :=
  scale.toNat < 32 ∧
    ∀ wnd : UInt16, (wnd.toUInt32 <<< scale.toUInt32).toNat = wnd.toNat * 2 ^ scale.toNat

def lastScale : List ConnectOption → Option UInt8
  | [] => none
  | o :: rest =>
    match lastScale rest with
    | some scale => some scale
    | none => match o.value with
      | [scale] => if o.kind = tcpOptWndScale then some scale else none
      | _ => none

section Parse

variable {s : PseudoTcp} {data kinds : List UInt8} {opts : List ConnectOption} {whole : Bool}
  {fuel : Nat}

theorem exists_divides (data : List UInt8) : ∃ opts whole, Divides data opts whole := by
  induction hn : data.length using Nat.strongRecOn generalizing data with
  | ind n ih =>
    subst hn
    cases data with
    | nil => exact ⟨[], true, .nil⟩
    | cons kind buf =>
      by_cases heol : kind = tcpOptEol
      · subst heol
        exact ⟨[], true, .eol buf⟩
      · by_cases hnoop : kind = tcpOptNoop
        · subst hnoop
          obtain ⟨opts, whole, h⟩ := ih buf.length (by simp) buf rfl
          exact ⟨opts, whole, .noop h⟩
        · cases buf with
          | nil => exact ⟨_, true, .last ⟨heol, hnoop⟩⟩
          | cons length rest =>
            by_cases hlong : rest.length < length.toNat
            · exact ⟨[], false, .malformed ⟨heol, hnoop⟩ hlong⟩
            · obtain ⟨opts, whole, h⟩ := ih (rest.drop length.toNat).length
                (by simp only [List.length_drop, List.length_cons]; omega) _ rfl
              have hcut : (rest.take length.toNat).length = length.toNat := by
                rw [List.length_take]
                omega
              have hall := Divides.option ⟨heol, hnoop⟩ hcut h
              rw [List.take_append_drop] at hall
              exact ⟨_, whole, hall⟩

/-- With rounds for every byte of the payload the loop applies the options it divides
into, notes their kinds, and takes no more bytes than there are. -/
theorem Divides.parse (h : Divides data opts whole) (hfuel : data.length ≤ fuel) :
    s.parseOptionList fuel data kinds =
        (if whole then some ((opts.map ConnectOption.kind).reverse ++ kinds) else none,
          s.applyOptions opts) ∧
      optionBytes fuel data ≤ data.length := by
  induction h generalizing fuel kinds s with
  | nil => cases fuel <;> exact ⟨rfl, Nat.le_refl 0⟩
  | eol rest =>
    obtain ⟨fuel, rfl⟩ : ∃ k, fuel = k + 1 := ⟨fuel - 1, by simp at hfuel; omega⟩
    rw [parseOptionList, optionBytes, if_pos rfl, if_pos rfl]
    exact ⟨rfl, by simp⟩
  | noop h ih =>
    obtain ⟨fuel, rfl⟩ : ∃ k, fuel = k + 1 := ⟨fuel - 1, by simp at hfuel; omega⟩
    have hne : tcpOptNoop ≠ tcpOptEol := by decide
    have hrest := @ih s kinds fuel (by simpa using hfuel)
    rw [parseOptionList, optionBytes, if_neg hne, if_neg hne, if_pos rfl, if_pos rfl]
    refine ⟨hrest.1, ?_⟩
    have hle := hrest.2
    simp only [List.length_cons]
    omega
  | @option kind length value rest opts whole hkind hlength h ih =>
    obtain ⟨fuel, rfl⟩ : ∃ k, fuel = k + 1 := ⟨fuel - 1, by simp at hfuel; omega⟩
    simp only [List.length_cons, List.length_append] at hfuel
    have hrest := @ih (s.applyOption kind value) (kind :: kinds) fuel (by omega)
    have hfits : length.toNat ≤ (value ++ rest).length := by
      rw [List.length_append]
      omega
    have hdrop : (value ++ rest).drop length.toNat = rest := List.drop_left' hlength
    have htake : (value ++ rest).take length.toNat = value := List.take_left' hlength
    rw [parseOptionList, optionBytes, if_neg hkind.1, if_neg hkind.1, if_neg hkind.2, if_neg hkind.2]
    simp only [List.headD_cons, List.tail_cons, if_pos hfits, hdrop, htake]
    refine ⟨?_, ?_⟩
    · rw [hrest.1]
      simp [applyOptions]
    · have hle := hrest.2
      simp only [List.length_cons, List.length_append]
      omega
  | @last kind hkind =>
    obtain ⟨fuel, rfl⟩ : ∃ k, fuel = k + 1 := ⟨fuel - 1, by simp at hfuel; omega⟩
    rw [parseOptionList, optionBytes, if_neg hkind.1, if_neg hkind.1, if_neg hkind.2, if_neg hkind.2]
    have hzero : ((0 : UInt8)).toNat = 0 := rfl
    cases fuel <;> simp [parseOptionList, optionBytes, applyOptions, hzero]
  | @malformed kind length rest hkind hlength =>
    obtain ⟨fuel, rfl⟩ : ∃ k, fuel = k + 1 := ⟨fuel - 1, by simp at hfuel; omega⟩
    have hlong : ¬ length.toNat ≤ rest.length := Nat.not_le.mpr hlength
    rw [parseOptionList, optionBytes, if_neg hkind.1, if_neg hkind.1, if_neg hkind.2, if_neg hkind.2]
    simp only [List.headD_cons, List.tail_cons, hlong, if_false]
    refine ⟨rfl, ?_⟩
    simp only [List.length_cons]
    omega

theorem Divides.parseOptions (h : Divides data opts whole) :
    s.parseOptions data =
      if whole then (s.applyOptions opts).fallBack opts else s.applyOptions opts := by
  rw [PseudoTcp.parseOptions, (h.parse (Nat.le_refl _)).1]
  cases whole with
  | false => rfl
  | true =>
    have hkinds : tcpOptWndScale ∉ (opts.map ConnectOption.kind).reverse ++ [] ↔
        ∀ o ∈ opts, o.kind ≠ tcpOptWndScale := by
      simp
    simp only [if_true, fallBack, hkinds]

end Parse

section Scale

variable {s : PseudoTcp} {data : List UInt8} {opts : List ConnectOption}

theorem swndScale_applyOption (o : ConnectOption) :
    (s.applyOption o.kind o.value).swndScale = (lastScale [o]).getD s.swndScale := by
  obtain ⟨kind, value⟩ := o
  by_cases hkind : kind = tcpOptWndScale
  · rcases value with - | ⟨scale, - | ⟨_, _⟩⟩ <;> simp [applyOption, lastScale, hkind]
  · rcases value with - | ⟨scale, - | ⟨_, _⟩⟩ <;> simp [applyOption, lastScale, hkind]

theorem rwndScale_applyOption (o : ConnectOption) :
    (s.applyOption o.kind o.value).rwndScale = s.rwndScale := by
  by_cases hkind : o.kind = tcpOptWndScale
  · simp only [applyOption, hkind, if_true]
    split <;> rfl
  · simp only [applyOption, hkind, if_false]

theorem scales_applyOptions :
    (s.applyOptions opts).swndScale = (lastScale opts).getD s.swndScale ∧
      (s.applyOptions opts).rwndScale = s.rwndScale := by
  induction opts generalizing s with
  | nil => exact ⟨rfl, rfl⟩
  | cons o rest ih =>
    have hrest := ih (s := s.applyOption o.kind o.value)
    have hcons : s.applyOptions (o :: rest) =
        (s.applyOption o.kind o.value).applyOptions rest := rfl
    have hlast : lastScale (o :: rest) =
        match lastScale rest with
        | some scale => some scale
        | none => lastScale [o] := rfl
    rw [hcons, hrest.1, hrest.2, swndScale_applyOption, rwndScale_applyOption, hlast]
    cases lastScale rest <;> exact ⟨rfl, rfl⟩

theorem lastScale_none (h : ∀ o ∈ opts, o.kind ≠ tcpOptWndScale) : lastScale opts = none := by
  induction opts with
  | nil => rfl
  | cons o rest ih =>
    have hkind := h o (by simp)
    have hrest := ih fun o ho => h o (by simp [ho])
    simp only [lastScale, hrest]
    split
    · rw [if_neg hkind]
    · rfl

theorem lossless_iff (scale : UInt8) : Lossless scale ↔ scale.toNat ≤ 16 := by
  constructor
  · rintro ⟨hdefined, hall⟩
    by_contra hlarge
    have hlt := (((65535 : UInt16).toUInt32) <<< scale.toUInt32).toNat_lt
    have hfull := hall 65535
    have hpow : 2 ^ 17 ≤ 2 ^ scale.toNat := Nat.pow_le_pow_right (by decide) (by omega)
    have hval : (65535 : UInt16).toNat = 65535 := rfl
    rw [hval] at hfull
    omega
  · intro hsmall
    refine ⟨by omega, fun wnd => ?_⟩
    have hwnd := wnd.toNat_lt
    have hpow : 2 ^ scale.toNat ≤ 2 ^ 16 := Nat.pow_le_pow_right (by decide) hsmall
    have hprod : wnd.toNat * 2 ^ scale.toNat < 2 ^ 32 := by
      have hle := Nat.mul_le_mul (Nat.le_of_lt_succ hwnd) hpow
      omega
    have hshift : scale.toUInt32.toNat % 32 = scale.toNat := by
      rw [UInt8.toNat_toUInt32]
      omega
    rw [UInt32.toNat_shiftLeft, hshift, Nat.shiftLeft_eq, UInt16.toNat_toUInt32,
      Nat.mod_eq_of_lt hprod]

/-- The parse of a payload: the loop ends, takes no more than the payload, applies the
options and nothing that is malformed, and leaves a scale that loses nothing. -/
structure ParsesWell (s : PseudoTcp) (data : List UInt8) : Prop where
  ends : ∀ fuel, data.length ≤ fuel →
    s.parseOptionList fuel data [] = s.parseOptionList data.length data []
  inside : ∀ fuel, data.length ≤ fuel → optionBytes fuel data ≤ data.length
  applied : ∀ opts whole, Divides data opts whole → s.parseOptions data =
    if whole then (s.applyOptions opts).fallBack opts else s.applyOptions opts
  lossless : Lossless (s.parseOptions data).swndScale

/-- The last scale that the payload sets is at most 16, or else the one before. -/
def ScaleFits (s : PseudoTcp) (data : List UInt8) : Prop :=
  ∃ opts whole, Divides data opts whole ∧
    match lastScale opts with
    | some scale => scale.toNat ≤ 16
    | none => s.swndScale.toNat ≤ 16 ∨
        whole = true ∧ (∀ o ∈ opts, o.kind ≠ tcpOptWndScale) ∧ s.rwndScale > 0

theorem swndScale_parseOptions {whole : Bool} (h : Divides data opts whole) :
    (s.parseOptions data).swndScale =
      if whole = true ∧ (∀ o ∈ opts, o.kind ≠ tcpOptWndScale) ∧ s.rwndScale > 0 then 0
      else (lastScale opts).getD s.swndScale := by
  have hscales := @scales_applyOptions s opts
  rw [h.parseOptions]
  cases whole with
  | false => simp [hscales.1]
  | true =>
    rw [if_pos rfl, fallBack, hscales.2]
    simp only [true_and]
    split
    · rfl
    · exact hscales.1

/-- A payload of any bytes is parsed as it should be if and only if the scale fits. -/
theorem parses_options : ParsesWell s data ↔ ScaleFits s data := by
  obtain ⟨opts, whole, hdivides⟩ := exists_divides data
  have hscale := swndScale_parseOptions (s := s) hdivides
  have hiff : ∀ opts whole, Divides data opts whole → (Lossless (s.parseOptions data).swndScale ↔
      match lastScale opts with
      | some scale => scale.toNat ≤ 16
      | none => s.swndScale.toNat ≤ 16 ∨
          whole = true ∧ (∀ o ∈ opts, o.kind ≠ tcpOptWndScale) ∧ s.rwndScale > 0) := by
    intro opts whole h
    rw [swndScale_parseOptions h, lossless_iff]
    by_cases hback : whole = true ∧ (∀ o ∈ opts, o.kind ≠ tcpOptWndScale) ∧ s.rwndScale > 0
    · rw [if_pos hback, lastScale_none hback.2.1]
      exact iff_of_true (by decide) (.inr hback)
    · rw [if_neg hback]
      cases lastScale opts with
      | none => exact (or_iff_left hback).symm
      | some scale => exact Iff.rfl
  constructor
  · exact fun h => ⟨opts, whole, hdivides, (hiff opts whole hdivides).mp h.lossless⟩
  · rintro ⟨opts', whole', hdivides', hfits⟩
    refine ⟨fun fuel hfuel => ?_, fun fuel hfuel => ?_, fun _ _ h => h.parseOptions, ?_⟩
    · rw [(hdivides'.parse hfuel).1, (hdivides'.parse (Nat.le_refl _)).1]
    · exact (@Divides.parse s data [] opts' whole' fuel hdivides' hfuel).2
    · exact (hiff opts' whole' hdivides').mpr hfits

/-- A connect message with a window scale of 17. -/
theorem scale_loses_bits : ¬ ∀ s data, ParsesWell s data := by
  intro h
  have hlossless := (h (.new .still 7) [tcpOptWndScale, 1, 17]).lossless
  exact absurd hlossless.2 fun hall => absurd (hall 65535) (by decide)

end Scale

end Libjingle.PseudoTcp
