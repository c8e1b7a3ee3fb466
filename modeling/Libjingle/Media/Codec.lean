import Mathlib.Data.List.Sort
import Mathlib.Data.String.Basic

/-! The codecs of audio, video and data, and when a codec matches one of the other side. -/

namespace Libjingle

/-- A string up to the zero that ends it for C. -/
def cString (s : String) : List Char := s.toList.takeWhile (· ≠ Char.ofNat 0)

/-- Whether `stricmp` finds no difference. -/
def stricmpEq (a b : String) : Bool := (cString a).map Char.toLower = (cString b).map Char.toLower

structure FeedbackParam where
  id : String
  param : String := ""
  deriving DecidableEq, Repr

def FeedbackParam.isEqual (a b : FeedbackParam) : Bool :=
  stricmpEq b.id a.id && stricmpEq b.param a.param

structure FeedbackParams where
  params : List FeedbackParam := []
  deriving DecidableEq, Repr

namespace FeedbackParams

variable (p : FeedbackParams)

def has (param : FeedbackParam) : Bool := p.params.any (·.isEqual param)

def add (param : FeedbackParam) : FeedbackParams :=
  if param.id = "" ∨ p.has param then p else ⟨p.params ++ [param]⟩

/-- Only what `source` has too is left. -/
def intersect (source : FeedbackParams) : FeedbackParams := ⟨p.params.filter source.has⟩

end FeedbackParams

theorem sorted_nil : ([] : List (String × String)).Pairwise (·.1 < ·.1) := List.Pairwise.nil

/-- A `std::map` of strings, its entries in the order of the keys. -/
structure CodecParameterMap where
  entries : List (String × String) := []
  sorted : entries.Pairwise (·.1 < ·.1) := by exact sorted_nil
  deriving DecidableEq, Repr

namespace CodecParameterMap

def insertEntry (key value : String) : List (String × String) → List (String × String)
  | [] => [(key, value)]
  | e :: rest =>
    if key < e.1 then (key, value) :: e :: rest
    else if key = e.1 then (key, value) :: rest
    else e :: insertEntry key value rest

theorem fst_mem_insertEntry {key value : String} {l : List (String × String)}
    {e : String × String} (h : e ∈ insertEntry key value l) : e = (key, value) ∨ e ∈ l := by
  induction l with
  | nil => exact .inl (List.mem_singleton.mp h)
  | cons head rest ih =>
    unfold insertEntry at h
    split_ifs at h with hlt heq
    · exact List.mem_cons.mp h
    · exact (List.mem_cons.mp h).imp_right (List.mem_cons_of_mem _)
    · rcases List.mem_cons.mp h with rfl | hrest
      · exact .inr List.mem_cons_self
      · exact (ih hrest).imp_right (List.mem_cons_of_mem _)

theorem sorted_insertEntry {key value : String} {l : List (String × String)}
    (h : l.Pairwise (·.1 < ·.1)) : (insertEntry key value l).Pairwise (·.1 < ·.1) := by
  induction l with
  | nil => exact List.pairwise_singleton _ _
  | cons head rest ih =>
    obtain ⟨hhead, hrest⟩ := List.pairwise_cons.mp h
    unfold insertEntry
    split_ifs with hlt heq
    · refine List.pairwise_cons.mpr ⟨fun e he => ?_, h⟩
      rcases List.mem_cons.mp he with rfl | he
      · exact hlt
      · exact hlt.trans (hhead e he)
    · exact List.pairwise_cons.mpr ⟨fun e he => heq ▸ hhead e he, hrest⟩
    · refine List.pairwise_cons.mpr ⟨fun e he => ?_, ih hrest⟩
      rcases fst_mem_insertEntry he with rfl | he
      · exact lt_of_le_of_ne (not_lt.mp hlt) (Ne.symm heq)
      · exact hhead e he

theorem insertEntry_insertEntry (key a b : String) (l : List (String × String)) :
    insertEntry key b (insertEntry key a l) = insertEntry key b l := by
  induction l with
  | nil => simp [insertEntry]
  | cons e rest ih =>
    by_cases hlt : key < e.1
    · simp [insertEntry, hlt]
    · by_cases heq : key = e.1
      · simp [insertEntry, heq]
      · simp [insertEntry, hlt, heq, ih]

theorem find?_insertEntry (key value : String) (l : List (String × String)) :
    (insertEntry key value l).find? (·.1 = key) = some (key, value) := by
  induction l with
  | nil => simp [insertEntry]
  | cons e rest ih =>
    by_cases hlt : key < e.1
    · simp [insertEntry, hlt]
    · by_cases heq : key = e.1
      · simp [insertEntry, heq]
      · have hne : ¬ e.1 = key := fun h => heq h.symm
        simp [insertEntry, hlt, heq, hne, ih]

theorem insertEntry_of_find? {key value : String} {l : List (String × String)}
    (hsorted : l.Pairwise (·.1 < ·.1)) (h : l.find? (·.1 = key) = some (key, value)) :
    insertEntry key value l = l := by
  induction l with
  | nil => cases h
  | cons e rest ih =>
    obtain ⟨hhead, hrest⟩ := List.pairwise_cons.mp hsorted
    by_cases heq : e.1 = key
    · rw [List.find?_cons_of_pos (by simpa using heq)] at h
      obtain rfl := Option.some.inj h
      simp [insertEntry]
    · rw [List.find?_cons_of_neg (by simpa using heq)] at h
      have hlt := hhead _ (List.mem_of_find?_eq_some h)
      have hne : ¬ key = e.1 := fun h => heq h.symm
      simp [insertEntry, not_lt.mpr hlt.le, hne, ih hrest h]

variable (m : CodecParameterMap)

/-- `params[key] = value` -/
def insert (key value : String) : CodecParameterMap :=
  ⟨insertEntry key value m.entries, sorted_insertEntry m.sorted⟩

def find (key : String) : Option String := (m.entries.find? (·.1 = key)).map (·.2)

variable {m}

@[simp] theorem insert_insert (key a b : String) :
    (m.insert key a).insert key b = m.insert key b := by
  simp [insert, insertEntry_insertEntry]

@[simp] theorem find_insert (key value : String) : (m.insert key value).find key = some value := by
  simp [insert, find, find?_insertEntry]

theorem insert_of_find {key value : String} (h : m.find key = some value) :
    m.insert key value = m := by
  obtain ⟨entries, hsorted⟩ := m
  obtain ⟨e, he, rfl⟩ := Option.map_eq_some_iff.mp h
  have hkey : e.1 = key := by simpa using List.find?_some he
  have hsame : e = (key, e.2) := Prod.ext hkey rfl
  have hentries : insertEntry key e.2 entries = entries :=
    insertEntry_of_find? hsorted (hsame ▸ he)
  simp [insert, hentries]

end CodecParameterMap

def kVideoCodecClockrate : Int := 90000
def kDataCodecClockrate : Int := 90000
def kDataMaxBandwidth : Int := 30720
def kRtxCodecName : String := "rtx"
def kCodecParamAssociatedPayloadType : String := "apt"
def kComfortNoiseCodecName : String := "CN"
def kMaxStaticPayloadId : Int := 95

structure Codec where
  id : Int := 0
  name : String := ""
  clockrate : Int := 0
  preference : Int := 0
  params : CodecParameterMap := {}
  feedbackParams : FeedbackParams := {}
  deriving DecidableEq, Repr

/-- `Codec::Matches`: codecs with a static id by the id, others by the name. -/
def Codec.isMatch (ours theirs : Codec) : Bool :=
  if theirs.id ≤ kMaxStaticPayloadId then ours.id = theirs.id
  else stricmpEq ours.name theirs.name

structure AudioCodec extends Codec where
  bitrate : Int := 0
  channels : Int := 0
  deriving DecidableEq, Repr

/-- `AudioCodec::Matches` -/
def AudioCodec.isMatch (ours theirs : AudioCodec) : Bool :=
  ours.toCodec.isMatch theirs.toCodec &&
    (theirs.clockrate = 0 || ours.clockrate = theirs.clockrate) &&
    (theirs.bitrate = 0 || ours.bitrate ≤ 0 || ours.bitrate = theirs.bitrate) &&
    ((theirs.channels < 2 && ours.channels < 2) || ours.channels = theirs.channels)

structure VideoCodec extends Codec where
  clockrate := kVideoCodecClockrate
  width : Int := 0
  height : Int := 0
  framerate : Int := 0
  deriving DecidableEq, Repr

structure DataCodec extends Codec where
  clockrate := kDataCodecClockrate
  deriving DecidableEq, Repr

/-- What the templates over codecs use. -/
class IsCodec (C : Type) where
  codec : C → Codec
  setCodec : C → Codec → C
  isMatch : C → C → Bool
  /-- The assignment of a codec to another one. -/
  assign : C → C → C

instance : IsCodec AudioCodec where
  codec := AudioCodec.toCodec
  setCodec c codec := { c with toCodec := codec }
  isMatch := AudioCodec.isMatch
  assign _ c := c

instance : IsCodec VideoCodec where
  codec := VideoCodec.toCodec
  setCodec c codec := { c with toCodec := codec }
  isMatch a b := a.toCodec.isMatch b.toCodec
  assign _ c := c

/-- `DataCodec` is assigned by `Codec::operator=`, which leaves the parameters. -/
instance : IsCodec DataCodec where
  codec := DataCodec.toCodec
  setCodec _ codec := { toCodec := codec }
  isMatch a b := a.toCodec.isMatch b.toCodec
  assign slot c :=
    { slot with
      id := c.id
      name := c.name
      clockrate := c.clockrate
      preference := c.preference }

namespace IsCodec

variable {C : Type} [IsCodec C]

def id (c : C) : Int := (codec c).id

def setId (c : C) (id : Int) : C := setCodec c { codec c with id }

def getParam (c : C) (key : String) : Option String := (codec c).params.find key

def setParam (c : C) (key value : String) : C :=
  setCodec c { codec c with params := (codec c).params.insert key value }

def isRtxCodec (c : C) : Bool := stricmpEq (codec c).name kRtxCodecName

def containsRtxCodec (codecs : List C) : Bool := codecs.any isRtxCodec

def intersectFeedbackParams (ours theirs : C) : C :=
  setCodec ours
    { codec ours with
      feedbackParams := (codec ours).feedbackParams.intersect (codec theirs).feedbackParams }

/-- `SortCodecs`, the preferred ones first. The sorted codecs are assigned to the places. -/
def sortCodecs (codecs : List C) : List C :=
  List.zipWith assign codecs
    (codecs.insertionSort fun a b => (codec a).preference ≥ (codec b).preference)

end IsCodec

/-- The codecs of the three kinds: an id that is set is there, an assigned codec has the id of the
other, and a change of a dynamic id is not seen by a match. -/
class LawfulCodec (C : Type) [IsCodec C] : Prop where
  codec_setCodec : ∀ (c : C) (codec : Codec), IsCodec.codec (IsCodec.setCodec c codec) = codec
  setCodec_codec : ∀ c : C, IsCodec.setCodec c (IsCodec.codec c) = c
  assign_self : ∀ c : C, IsCodec.assign c c = c
  name_assign : ∀ a b : C, (IsCodec.codec (IsCodec.assign a b)).name = (IsCodec.codec b).name
  id_assign : ∀ a b : C, IsCodec.id (IsCodec.assign a b) = IsCodec.id b
  preference_assign : ∀ a b : C,
    (IsCodec.codec (IsCodec.assign a b)).preference = (IsCodec.codec b).preference
  isMatch_setId : ∀ (a b : C) (id : Int), kMaxStaticPayloadId < IsCodec.id a →
    kMaxStaticPayloadId < id → IsCodec.isMatch (IsCodec.setId a id) b = IsCodec.isMatch a b

theorem Codec.isMatch_setId {a b : Codec} {id : Int} (ha : kMaxStaticPayloadId < a.id)
    (hid : kMaxStaticPayloadId < id) : Codec.isMatch { a with id } b = a.isMatch b := by
  rw [isMatch, isMatch]
  by_cases hb : b.id ≤ kMaxStaticPayloadId
  · have hne : ¬ id = b.id := by omega
    have hne' : ¬ a.id = b.id := by omega
    rw [if_pos hb, if_pos hb, decide_eq_false hne, decide_eq_false hne']
  · rw [if_neg hb, if_neg hb]

instance : LawfulCodec AudioCodec where
  codec_setCodec _ _ := rfl
  setCodec_codec _ := rfl
  assign_self _ := rfl
  name_assign _ _ := rfl
  id_assign _ _ := rfl
  preference_assign _ _ := rfl
  isMatch_setId a b id ha hid := by
    change AudioCodec.isMatch _ b = AudioCodec.isMatch a b
    rw [AudioCodec.isMatch, AudioCodec.isMatch]
    exact congrArg (fun m => m && _ && _ && _) (Codec.isMatch_setId ha hid)

instance : LawfulCodec VideoCodec where
  codec_setCodec _ _ := rfl
  setCodec_codec _ := rfl
  assign_self _ := rfl
  name_assign _ _ := rfl
  id_assign _ _ := rfl
  preference_assign _ _ := rfl
  isMatch_setId _ _ _ ha hid := Codec.isMatch_setId ha hid

instance : LawfulCodec DataCodec where
  codec_setCodec _ _ := rfl
  setCodec_codec _ := rfl
  assign_self _ := rfl
  name_assign _ _ := rfl
  id_assign _ _ := rfl
  preference_assign _ _ := rfl
  isMatch_setId _ _ _ ha hid := Codec.isMatch_setId ha hid

end Libjingle
