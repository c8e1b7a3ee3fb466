import Libjingle.Lib.BatchEdits
import Libjingle.Lib.Runs
import Libjingle.Media.MediaContentDescription

/-! The streams that a call receives in a session, as the updates of the remote description change
them. The entries of an update are all compared with the streams before it. -/

namespace Libjingle

namespace StreamParams

variable (s : StreamParams)

def hasSsrcs : Bool := !s.ssrcs.isEmpty

def firstSsrc : UInt32 := s.ssrcs.head?.getD 0

def ids : String × String := (s.groupid, s.id)

end StreamParams

def removeStream (streams : List StreamParams) (selector : StreamSelector) : List StreamParams :=
  streams.filter fun stream => !selector.isMatch stream

def removeStreamByIds (streams : List StreamParams) (groupid streamid : String) :
    List StreamParams := removeStream streams { groupid, streamid }

inductive ChannelCall
  | addRecvStream (stream : StreamParams)
  | removeRecvStream (ssrc : UInt32)
  deriving DecidableEq, Repr

structure RecvStreams where
  streams : List StreamParams
  calls : List ChannelCall := []
  deriving DecidableEq, Repr

namespace RecvStreams

variable (channel : Bool) (r : RecvStreams)

def addRecvStream (stream : StreamParams) : RecvStreams where
  streams := r.streams ++ [stream]
  calls := if channel && stream.hasSsrcs then r.calls ++ [.addRecvStream stream] else r.calls

def addRecvStreams (addedStreams : List StreamParams) : RecvStreams :=
  addedStreams.foldl (addRecvStream channel) r

def removeRecvStream (stream : StreamParams) : RecvStreams where
  streams := removeStreamByIds r.streams stream.groupid stream.id
  calls :=
    if channel && stream.hasSsrcs then r.calls ++ [.removeRecvStream stream.firstSsrc]
    else r.calls

def removeRecvStreams (removedStreams : List StreamParams) : RecvStreams :=
  removedStreams.foldl (removeRecvStream channel) r

end RecvStreams

/-- What one entry of an update adds to the two lists. A new stream without ssrcs is ignored. -/
def findStreamChange (streams : List StreamParams)
    (changes : List StreamParams × List StreamParams) (update : StreamParams) :
    List StreamParams × List StreamParams :=
  match getStreamByIds streams update.groupid update.id with
  | some stream =>
    if !update.hasSsrcs then (changes.1, changes.2 ++ [stream]) else changes
  | none => if update.hasSsrcs then (changes.1 ++ [update], changes.2) else changes

def findStreamChanges (streams updates : List StreamParams) :
    List StreamParams × List StreamParams :=
  updates.foldl (findStreamChange streams) ([], [])

structure StreamsUpdate extends RecvStreams where
  added : List StreamParams := []
  removed : List StreamParams := []
  deriving DecidableEq, Repr

def updateRecvStreams (updateStreams : List StreamParams) (channel : Bool)
    (recvStreams : List StreamParams) : StreamsUpdate :=
  let changes := findStreamChanges recvStreams updateStreams
  let recv := RecvStreams.addRecvStreams channel { streams := recvStreams } changes.1
  { RecvStreams.removeRecvStreams channel recv changes.2 with
    added := changes.1
    removed := changes.2 }

abbrev MediaStreams := MediaType → List StreamParams

def MediaStreams.empty (m : MediaStreams) : Bool :=
  (m .audio).isEmpty && (m .video).isEmpty && (m .data).isEmpty

/-- The contents of a remote description, or those that an update of it has, and the channels that
the session has. An initial description does not change these. -/
structure RemoteContents where
  contents : List MediaContentInfo
  updateChannels : Bool
  channels : MediaType → Bool

namespace RemoteContents

variable (u : RemoteContents) (recvStreams : MediaStreams)

def updateStreamsOf (type : MediaType) : StreamsUpdate :=
  match (getFirstMediaContent u.contents type).bind mediaDescription with
  | some description =>
    updateRecvStreams description.media.streams (u.updateChannels && u.channels type)
      (recvStreams type)
  | none => { streams := recvStreams type }

/-- `UpdateRemoteMediaStreams`, for the streams that it leaves. -/
def updateRemoteMediaStreams : MediaStreams :=
  fun type => (u.updateStreamsOf recvStreams type).streams

def addedStreams : MediaStreams := fun type => (u.updateStreamsOf recvStreams type).added

def removedStreams : MediaStreams := fun type => (u.updateStreamsOf recvStreams type).removed

/-- `SignalMediaStreamsUpdate`, with the streams added and those removed. -/
def signalMediaStreamsUpdate : Option (MediaStreams × MediaStreams) :=
  if !(u.addedStreams recvStreams).empty || !(u.removedStreams recvStreams).empty then
    some (u.addedStreams recvStreams, u.removedStreams recvStreams)
  else none

def signalled : MediaStreams × MediaStreams :=
  (u.signalMediaStreamsUpdate recvStreams).getD (fun _ => [], fun _ => [])

def entriesOf (type : MediaType) : List StreamParams :=
  ((getFirstMediaContent u.contents type).bind mediaDescription).elim [] (·.media.streams)

end RemoteContents

section Batch

open BatchEdits StreamParams

variable {streams updates : List StreamParams} {channel : Bool} {r : RecvStreams}

theorem StreamSelector.isMatch_ids {groupid streamid : String} {stream : StreamParams} :
    ({ groupid, streamid } : StreamSelector).isMatch stream =
      decide (stream.ids = (groupid, streamid)) := by
  simp [isMatch, ids, Prod.mk.injEq]

theorem getStreamByIds_ids (u : StreamParams) : getStreamByIds streams u.groupid u.id =
    streams.find? fun x => decide (x.ids = u.ids) := by
  rw [getStreamByIds, getStream]
  exact congrArg (List.find? · streams) (funext fun x => StreamSelector.isMatch_ids)

theorem removeStreamByIds_ids (u : StreamParams) : removeStreamByIds streams u.groupid u.id =
    streams.filter fun x => decide (x.ids ≠ u.ids) := by
  rw [removeStreamByIds, removeStream]
  refine List.filter_congr fun x _ => ?_
  rw [StreamSelector.isMatch_ids, decide_not]
  rfl

/-- One entry applied by itself: with ssrcs it adds its stream unless that is there, without it
removes it. -/
def applyEntry (streams : List StreamParams) (entry : StreamParams) : List StreamParams :=
  if entry.hasSsrcs then
    if (getStreamByIds streams entry.groupid entry.id).isSome then streams
    else streams ++ [entry]
  else removeStreamByIds streams entry.groupid entry.id

theorem applyEntry_eq : applyEntry = edit ids hasSsrcs := by
  funext streams entry
  have hiff : (streams.find? fun x => decide (x.ids = entry.ids)).isSome = true ↔
      entry.ids ∈ streams.map ids := by
    simp [List.find?_isSome, List.mem_map]
  rw [applyEntry, edit, getStreamByIds_ids, removeStreamByIds_ids]
  by_cases hk : entry.ids ∈ streams.map ids
  · rw [if_pos (hiff.mpr hk), if_pos hk]
  · rw [if_neg (mt hiff.mp hk), if_neg hk]

theorem findStreamChanges_eq : findStreamChanges streams updates =
    (added ids hasSsrcs streams updates, removed ids hasSsrcs streams updates) := by
  have hfold (changes : List StreamParams × List StreamParams) :
      updates.foldl (findStreamChange streams) changes =
        (changes.1 ++ added ids hasSsrcs streams updates,
          changes.2 ++ removed ids hasSsrcs streams updates) := by
    induction updates generalizing changes with
    | nil => simp [added, removed]
    | cons u updates ih =>
      rw [List.foldl_cons, ih, findStreamChange, getStreamByIds_ids]
      have hnone : (streams.find? fun x => decide (x.ids = u.ids)) = none ↔
          u.ids ∉ streams.map ids := by
        simp [List.find?_eq_none, List.mem_map]
      cases hfind : streams.find? fun x => decide (x.ids = u.ids) with
      | some stream =>
        have hk : u.ids ∈ streams.map ids := by
          by_contra hk
          rw [hnone.mpr hk] at hfind
          cases hfind
        rw [added_cons fun _ => hk]
        cases hssrcs : u.hasSsrcs with
        | true => simp [removed_cons_of_adds hssrcs]
        | false => simp [removed_cons hssrcs, hfind]
      | none =>
        have hk := hnone.mp hfind
        cases hssrcs : u.hasSsrcs with
        | true => simp [removed_cons_of_adds hssrcs, added_cons_of_new hssrcs hk]
        | false => simp [removed_cons hssrcs, hfind, added_cons, hssrcs]
  rw [findStreamChanges, hfold]
  simp

theorem RecvStreams.addRecvStreams_eq (h : ∀ stream ∈ streams, stream.hasSsrcs = true) :
    r.addRecvStreams channel streams =
      { streams := r.streams ++ streams
        calls := r.calls ++ if channel then streams.map .addRecvStream else [] } := by
  rw [addRecvStreams]
  induction streams generalizing r with
  | nil => simp
  | cons stream streams ih =>
    obtain ⟨hfirst, hrest⟩ := List.forall_mem_cons.mp h
    rw [List.foldl_cons, ih hrest, addRecvStream]
    cases channel <;> simp [hfirst]

theorem RecvStreams.removeRecvStreams_eq (h : ∀ stream ∈ streams, stream.hasSsrcs = true) :
    r.removeRecvStreams channel streams =
      { streams := r.streams.filter fun x => decide (x.ids ∉ streams.map ids)
        calls := r.calls ++
          if channel then streams.map fun x => .removeRecvStream x.firstSsrc else [] } := by
  rw [removeRecvStreams]
  induction streams generalizing r with
  | nil => simp
  | cons stream streams ih =>
    obtain ⟨hfirst, hrest⟩ := List.forall_mem_cons.mp h
    rw [List.foldl_cons, ih hrest, removeRecvStream, removeStreamByIds_ids, List.filter_filter]
    congr 1
    · refine List.filter_congr fun x _ => ?_
      rw [← Bool.decide_and, decide_eq_decide, List.map_cons, List.mem_cons, not_or, and_comm]
    · cases channel <;> simp [hfirst]

/-- With streams that all have ssrcs, an update is a batch of edits and the channel is told of
each change. -/
theorem updateRecvStreams_eq (h : ∀ stream ∈ streams, stream.hasSsrcs = true) :
    updateRecvStreams updates channel streams =
      { streams := batch ids hasSsrcs streams updates
        calls := if channel then
            (added ids hasSsrcs streams updates).map .addRecvStream ++
              (removed ids hasSsrcs streams updates).map fun x => .removeRecvStream x.firstSsrc
          else []
        added := added ids hasSsrcs streams updates
        removed := removed ids hasSsrcs streams updates } := by
  have hadded : ∀ x ∈ added ids hasSsrcs streams updates, x.hasSsrcs = true :=
    fun x hx => (mem_added.mp hx).2.1
  have hremoved : ∀ x ∈ removed ids hasSsrcs streams updates, x.hasSsrcs = true :=
    fun x hx => h x (mem_of_mem_removed hx)
  rw [updateRecvStreams, findStreamChanges_eq]
  simp only [RecvStreams.addRecvStreams_eq hadded, RecvStreams.removeRecvStreams_eq hremoved]
  cases channel <;> simp [batch]

end Batch

theorem MediaStreams.eq_nil_of_empty {m : MediaStreams} (h : m.empty = true) (type : MediaType) :
    m type = [] := by
  simp only [MediaStreams.empty, Bool.and_eq_true, List.isEmpty_iff] at h
  obtain ⟨⟨haudio, hvideo⟩, hdata⟩ := h
  cases type <;> assumption

namespace RemoteContents

open BatchEdits StreamParams

variable {u : RemoteContents} {recvStreams : MediaStreams} {type : MediaType}

theorem updateStreamsOf_eq : u.updateStreamsOf recvStreams type =
    updateRecvStreams (u.entriesOf type) (u.updateChannels && u.channels type)
      (recvStreams type) := by
  rw [updateStreamsOf, entriesOf]
  cases (getFirstMediaContent u.contents type).bind mediaDescription <;> rfl

theorem signalled_eq : u.signalled recvStreams =
    (u.addedStreams recvStreams, u.removedStreams recvStreams) := by
  rw [signalled, signalMediaStreamsUpdate]
  split
  · rfl
  · rename_i hempty
    rw [Bool.or_eq_true, not_or, Bool.not_eq_true', Bool.not_eq_true',
      Bool.not_eq_false, Bool.not_eq_false] at hempty
    obtain ⟨hadded, hremoved⟩ := hempty
    rw [Option.getD_none, funext (MediaStreams.eq_nil_of_empty hadded),
      funext (MediaStreams.eq_nil_of_empty hremoved)]

variable (u recvStreams type)

/-- What is to hold of the streams of one kind after an update: none has the ids of another, they
are those that the entries leave one after another, and the application and the channel, if it is
to be told, are told of just the difference. -/
structure RightOf (old new : List StreamParams) (told : List StreamParams × List StreamParams) :
    Prop where
  nodup : (new.map ids).Nodup
  eq_foldl : new = (u.entriesOf type).foldl applyEntry old
  added : told.1.Perm (new.filter fun x => decide (x ∉ old))
  removed : told.2.Perm (old.filter fun x => decide (x ∉ new))
  calls : (u.updateStreamsOf recvStreams type).calls =
    if u.updateChannels && u.channels type then
      told.1.map .addRecvStream ++ told.2.map fun x => .removeRecvStream x.firstSsrc
    else []

def Right : Prop := ∀ type,
  u.RightOf recvStreams type (recvStreams type) (u.updateRemoteMediaStreams recvStreams type)
    ((u.signalled recvStreams).1 type, (u.signalled recvStreams).2 type)

/-- An entry that is followed by another one for the same ids adds a stream that is there or removes
one that is not. -/
def Orderly : Prop := ∀ type, (u.entriesOf type).Pairwise fun x y => x.ids = y.ids →
  (x.hasSsrcs = true ↔ x.ids ∈ (recvStreams type).map ids)

end RemoteContents

namespace MediaStreams

open StreamParams

variable {u : RemoteContents} {m : MediaStreams} {type : MediaType}

structure Inv (m : MediaStreams) : Prop where
  nodup : ∀ type, ((m type).map ids).Nodup
  hasSsrcs : ∀ type, ∀ stream ∈ m type, stream.hasSsrcs = true

theorem Inv.update_eq (h : Inv m) : u.updateStreamsOf m type =
    { streams := BatchEdits.batch ids StreamParams.hasSsrcs (m type) (u.entriesOf type)
      calls := if u.updateChannels && u.channels type then
          (BatchEdits.added ids StreamParams.hasSsrcs (m type) (u.entriesOf type)).map
              .addRecvStream ++
            (BatchEdits.removed ids StreamParams.hasSsrcs (m type) (u.entriesOf type)).map
              fun x => .removeRecvStream x.firstSsrc
        else []
      added := BatchEdits.added ids StreamParams.hasSsrcs (m type) (u.entriesOf type)
      removed := BatchEdits.removed ids StreamParams.hasSsrcs (m type) (u.entriesOf type) } := by
  rw [RemoteContents.updateStreamsOf_eq, updateRecvStreams_eq (h.hasSsrcs type)]

theorem Inv.rightOf_iff (h : Inv m) :
    u.RightOf m type (m type) (u.updateRemoteMediaStreams m type)
        ((u.signalled m).1 type, (u.signalled m).2 type) ↔
      BatchEdits.Exact ids StreamParams.hasSsrcs (m type) (u.entriesOf type) := by
  rw [RemoteContents.signalled_eq]
  simp only [RemoteContents.updateRemoteMediaStreams, RemoteContents.addedStreams,
    RemoteContents.removedStreams]
  constructor
  · rintro ⟨hnodup, heq, hadded, hremoved, -⟩
    rw [h.update_eq] at hnodup heq hadded hremoved
    exact ⟨hnodup, applyEntry_eq ▸ heq, hadded, hremoved⟩
  · rintro ⟨hnodup, heq, hadded, hremoved⟩
    constructor
    · rw [h.update_eq]
      exact hnodup
    · rw [h.update_eq, applyEntry_eq]
      exact heq
    · rw [h.update_eq]
      exact hadded
    · rw [h.update_eq]
      exact hremoved
    · rw [h.update_eq]

theorem Inv.right_iff (h : Inv m) : u.Right m ↔ u.Orderly m :=
  forall_congr' fun type => h.rightOf_iff.trans (BatchEdits.exact_iff (h.nodup type))

theorem Inv.update (h : Inv m) (hright : u.Right m) : Inv (u.updateRemoteMediaStreams m) := by
  constructor
  · exact fun type => (hright type).nodup
  · intro type stream hstream
    rw [RemoteContents.updateRemoteMediaStreams, h.update_eq] at hstream
    rcases List.mem_append.mp (List.mem_of_mem_filter hstream) with hold | hnew
    · exact h.hasSsrcs type stream hold
    · exact (BatchEdits.mem_added.mp hnew).2.1

def noStreams : MediaStreams := fun _ => []

theorem inv_noStreams : Inv noStreams := by
  constructor
  · exact fun type => List.nodup_nil
  · exact fun type stream hstream => absurd hstream List.not_mem_nil

def handle (m : MediaStreams) (u : RemoteContents) : MediaStreams := u.updateRemoteMediaStreams m

theorem recv_streams_right_iff (updates : List RemoteContents) :
    Runs.Along handle (fun m u => u.Right m) noStreams updates ↔
      Runs.Along handle (fun m u => u.Orderly m) noStreams updates :=
  Runs.along_iff (fun _ _ h => h.right_iff) (fun _ _ h hright => h.update hright) inv_noStreams
    updates

def addedThenRemoved : RemoteContents where
  contents := [{
    name := "audio"
    type := nsJingleRtp
    description := some (.audio { streams := [{ id := "a", ssrcs := [1] }, { id := "a" }] }) }]
  updateChannels := true
  channels := fun _ => true

/-- It is kept, and the channel and the application have been told that it has come. -/
theorem added_then_removed :
    noStreams.handle addedThenRemoved .audio = [{ id := "a", ssrcs := [1] }] ∧
      (addedThenRemoved.entriesOf .audio).foldl applyEntry [] = [] ∧
      ¬ Runs.Along handle (fun m u => u.Right m) noStreams [addedThenRemoved] := by
  have hkept : noStreams.handle addedThenRemoved .audio = [{ id := "a", ssrcs := [1] }] := by decide
  have hgone : (addedThenRemoved.entriesOf .audio).foldl applyEntry [] = [] := by decide
  refine ⟨hkept, hgone, fun h => ?_⟩
  have heq := (h.1 .audio).eq_foldl
  have : noStreams.handle addedThenRemoved .audio = [] := heq.trans hgone
  rw [hkept] at this
  cases this

end MediaStreams

end Libjingle
