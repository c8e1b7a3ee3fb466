import Mathlib.Data.List.Nodup
import Libjingle.P2p.Candidate

/-! What the two sides of a session describe to each other: contents, a transport for each
of them, and groups of contents. -/

namespace Libjingle

structure ContentInfo (Description : Type) where
  name : String
  type : String
  rejected : Bool := false
  description : Description
  deriving DecidableEq, Repr

/-- No content is in a group twice. -/
structure ContentGroup where
  semantics : String
  contentNames : List String := []
  nodup : contentNames.Nodup := by exact List.nodup_nil
  deriving DecidableEq, Repr

namespace ContentGroup

variable (g : ContentGroup) (name : String)

def firstContentName : Option String := g.contentNames.head?

def hasContentName : Bool := g.contentNames.contains name

def addContentName : ContentGroup :=
  if h : name ∈ g.contentNames then g
  else
    { g with
      contentNames := g.contentNames ++ [name]
      nodup := by
        rw [List.nodup_append]
        refine ⟨g.nodup, List.nodup_singleton name, fun a ha b hb => ?_⟩
        rw [List.mem_singleton.mp hb]
        exact fun hab => h (hab ▸ ha) }

def removeContentName : ContentGroup :=
  { g with
    contentNames := g.contentNames.erase name
    nodup := g.nodup.erase name }

variable {g name}

@[simp] theorem semantics_addContentName : (g.addContentName name).semantics = g.semantics := by
  unfold addContentName
  split <;> rfl

theorem mem_addContentName {other : String} :
    other ∈ (g.addContentName name).contentNames ↔ other ∈ g.contentNames ∨ other = name := by
  unfold addContentName
  split_ifs with h
  · exact ⟨.inl, fun ho => ho.elim id fun he => he ▸ h⟩
  · simp

@[simp] theorem semantics_foldl {names : List String} :
    (names.foldl addContentName g).semantics = g.semantics := by
  induction names generalizing g with
  | nil => rfl
  | cons name names ih => rw [List.foldl_cons, ih, semantics_addContentName]

theorem mem_foldl_addContentName {names : List String} {other : String} :
    other ∈ (names.foldl addContentName g).contentNames ↔
      other ∈ g.contentNames ∨ other ∈ names := by
  induction names generalizing g with
  | nil => simp
  | cons name names ih => rw [List.foldl_cons, ih, mem_addContentName, List.mem_cons, or_assoc]

end ContentGroup

def groupTypeBundle : String := "BUNDLE"

structure SSLFingerprint where
  algorithm : String
  digest : List UInt8
  deriving DecidableEq, Repr

namespace SessionDescription

/-- A transport as it is described, with all that is not used by a channel. -/
structure TransportDescription where
  transportType : String
  transportOptions : List String := []
  iceUfrag : String := ""
  icePwd : String := ""
  iceMode : IceMode := .full
  identityFingerprint : Option SSLFingerprint := none
  candidates : List Candidate := []
  deriving DecidableEq, Repr

structure TransportInfo where
  contentName : String
  description : TransportDescription
  deriving DecidableEq, Repr

end SessionDescription

open SessionDescription in
structure SessionDescription (Description : Type) where
  contents : List (ContentInfo Description) := []
  transportInfos : List TransportInfo := []
  groups : List ContentGroup := []
  deriving DecidableEq, Repr

def findContentInfoByName {Description : Type} (contents : List (ContentInfo Description))
    (name : String) : Option (ContentInfo Description) :=
  contents.find? (·.name = name)

def getTransportInfoByContentName (tinfos : List SessionDescription.TransportInfo)
    (name : String) : Option SessionDescription.TransportInfo :=
  tinfos.find? (·.contentName = name)

/-- `GetGroupByName` -/
def getGroupByName (groups : List ContentGroup) (name : String) : Option ContentGroup :=
  groups.find? (·.semantics = name)

end Libjingle
