import Libjingle.Lib.Paired
import Libjingle.Media.MediaSession
import Mathlib.Data.List.Nodup
import Mathlib.Data.List.Pairwise

/-! The streams that the options ask for, one after the other: each is the first known stream with
its id, of whatever kind, or a new one. -/

namespace Libjingle

open Paired (exists_of_mem_left exists_of_mem_right)

def currentStreams (current : Option MediaSessionDescription) (type : MediaType) :
    List StreamParams :=
  current.elim [] fun sdesc => sdesc.contents.flatMap fun content =>
    (mediaDescription content).elim [] fun m => if m.type = type then m.media.streams else []

/-- What holds of the streams of a description, each with the kind of its content: no ssrc is in
two of them, those with the same label have the same CNAME, and one that was there with its kind
keeps its ssrcs. -/
structure UniqueStreams (current : Option MediaSessionDescription)
    (streams : List (MediaType × StreamParams)) : Prop where
  unique : (streams.flatMap (·.2.ssrcs)).Nodup
  synced : ∀ a ∈ streams, ∀ b ∈ streams, a.2.syncLabel = b.2.syncLabel → a.2.cname = b.2.cname
  kept : ∀ a ∈ streams, ∀ p ∈ currentStreams current a.1, p.groupid = a.2.groupid →
    p.id = a.2.id → a.2.ssrcs = p.ssrcs

/-- Where a CNAME comes from: a current stream, or it was drawn for the stream with an id. -/
inductive CnameOrigin
  | current (cname : String)
  | drawn (id : String)
  deriving DecidableEq, Repr

structure LabelledStream where
  id : String
  syncLabel : String
  origin : CnameOrigin
  deriving DecidableEq, Repr

section Labels

variable (all : List MediaSessionOptions.Stream)

def labelled (params : List StreamParams) : List LabelledStream :=
  (params.filter (·.groupid = "")).map fun p => ⟨p.id, p.syncLabel, .current p.cname⟩

/-- A new stream takes the CNAME of the first stream that is named for its label and known. -/
def labelNew (known : List LabelledStream) (stream : MediaSessionOptions.Stream) :
    LabelledStream where
  id := stream.id
  syncLabel := stream.syncLabel
  origin := (((all.filter (·.syncLabel = stream.syncLabel)).findSome? fun s =>
    known.find? (·.id = s.id)).map (·.origin)).getD (.drawn stream.id)

def labelStreams : List LabelledStream → List MediaSessionOptions.Stream → List LabelledStream
  | _, [] => []
  | known, stream :: rest =>
    match known.find? (·.id = stream.id) with
    | some e => e :: labelStreams known rest
    | none => labelNew all known stream :: labelStreams (known ++ [labelNew all known stream]) rest

/-- The streams that are asked for can be told apart: by their ids, unless a current one has no
ssrcs; current ones of their kind from those of other kinds; and by the CNAMEs of their labels. -/
structure StreamsApart (current : Option MediaSessionDescription)
    (requests : List MediaSessionOptions.Stream) : Prop where
  ids : requests.Pairwise fun a b => a.id = b.id →
    ∃ p, getStreamByIds (getCurrentStreamParams current) "" a.id = some p ∧ p.ssrcs = []
  kinds : ∀ s ∈ requests, ∀ p ∈ currentStreams current s.type, p.groupid = "" → p.id = s.id →
    ∃ q, getStreamByIds (getCurrentStreamParams current) "" s.id = some q ∧ q.ssrcs = p.ssrcs
  labels : ∀ a ∈ labelStreams all (labelled (getCurrentStreamParams current)) requests,
    ∀ b ∈ labelStreams all (labelled (getCurrentStreamParams current)) requests,
      a.syncLabel = b.syncLabel → a.origin = b.origin

/-- What `GenerateCname` looks for. -/
def syncedStream (known : List StreamParams) (label : String) : Option StreamParams :=
  (all.filter (·.syncLabel = label)).findSome? fun s => getStreamByIds known "" s.id

/-- One or more ssrcs that are not known. -/
structure DrawnSsrcs (known : List StreamParams) (ssrcs : List UInt32) : Prop where
  ne_nil : ssrcs ≠ []
  nodup : ssrcs.Nodup
  fresh : ∀ p ∈ known, p.ssrcs.Disjoint ssrcs

structure IsNew (known : List StreamParams) (stream : MediaSessionOptions.Stream)
    (param : StreamParams) : Prop where
  groupid : param.groupid = ""
  id : param.id = stream.id
  syncLabel : param.syncLabel = stream.syncLabel
  ssrcs : DrawnSsrcs known param.ssrcs
  taken : ∀ p, syncedStream all known stream.syncLabel = some p → param.cname = p.cname
  drawn : syncedStream all known stream.syncLabel = none → ∀ p ∈ known, p.cname ≠ param.cname

/-- What `AddStreamParams` does for the streams that are asked for, and what is known then. -/
inductive Requested : List StreamParams → List MediaSessionOptions.Stream →
    List (MediaType × StreamParams) → List StreamParams → Prop
  | nil (known : List StreamParams) : Requested known [] [] known
  | known {known last : List StreamParams} {stream : MediaSessionOptions.Stream}
    {rest : List MediaSessionOptions.Stream} {param : StreamParams}
    {params : List (MediaType × StreamParams)}
    (h : getStreamByIds known "" stream.id = some param)
    (later : Requested known rest params last) :
    Requested known (stream :: rest) ((stream.type, param) :: params) last
  | new {known last : List StreamParams} {stream : MediaSessionOptions.Stream}
    {rest : List MediaSessionOptions.Stream} {param : StreamParams}
    {params : List (MediaType × StreamParams)}
    (h : getStreamByIds known "" stream.id = none) (hnew : IsNew all known stream param)
    (later : Requested (known ++ [param]) rest params last) :
    Requested known (stream :: rest) ((stream.type, param) :: params) last

end Labels

theorem getStreamByIds_eq (streams : List StreamParams) (id : String) :
    getStreamByIds streams "" id = streams.find? fun p => p.groupid = "" && p.id = id := rfl

section Lookup

variable {streams more : List StreamParams} {id : String} {p : StreamParams}

theorem getStreamByIds_append : getStreamByIds (streams ++ more) "" id =
    (getStreamByIds streams "" id).or (getStreamByIds more "" id) :=
  List.find?_append

theorem mem_of_getStreamByIds (h : getStreamByIds streams "" id = some p) :
    p ∈ streams ∧ p.groupid = "" ∧ p.id = id := by
  have hmatch := List.find?_some h
  rw [StreamSelector.isMatch, if_pos rfl, Bool.and_eq_true, decide_eq_true_eq,
    decide_eq_true_eq] at hmatch
  exact ⟨List.mem_of_find?_eq_some h, hmatch⟩

theorem isSome_getStreamByIds (hmem : p ∈ streams) (hgroup : p.groupid = "") :
    ∃ q, getStreamByIds streams "" p.id = some q := by
  refine Option.isSome_iff_exists.mp (List.find?_isSome.mpr ⟨p, hmem, ?_⟩)
  simp [StreamSelector.isMatch, hgroup]

end Lookup

namespace Requested

variable {all : List MediaSessionOptions.Stream} {known last : List StreamParams}
  {requests : List MediaSessionOptions.Stream} {params : List (MediaType × StreamParams)}

theorem append {requests' : List MediaSessionOptions.Stream} {last' : List StreamParams}
    {params' : List (MediaType × StreamParams)} (h : Requested all known requests params last)
    (h' : Requested all last requests' params' last') :
    Requested all known (requests ++ requests') (params ++ params') last' := by
  induction h with
  | nil known => exact h'
  | known h _ ih => exact .known h (ih h')
  | new h hnew _ ih => exact .new h hnew (ih h')

theorem known_append (h : Requested all known requests params last) :
    ∃ more, last = known ++ more ∧ ∀ p ∈ more, p.ssrcs ≠ [] := by
  induction h with
  | nil known => exact ⟨[], (List.append_nil _).symm, fun _ hp => absurd hp List.not_mem_nil⟩
  | known h _ ih => exact ih
  | @new known _ _ _ param _ h hnew _ ih =>
    obtain ⟨more, rfl, hmore⟩ := ih
    refine ⟨param :: more, by rw [List.append_assoc]; rfl, fun p hp => ?_⟩
    rcases List.mem_cons.mp hp with rfl | hp
    · exact hnew.ssrcs.ne_nil
    · exact hmore p hp

theorem found_mono (h : Requested all known requests params last) {id : String}
    {p : StreamParams} (hp : getStreamByIds known "" id = some p) :
    getStreamByIds last "" id = some p := by
  obtain ⟨more, rfl, -⟩ := h.known_append
  rw [getStreamByIds_append, hp, Option.some_or]

theorem found (h : Requested all known requests params last) :
    List.Forall₂ (fun s a => a.1 = s.type ∧ getStreamByIds last "" s.id = some a.2)
      requests params := by
  induction h with
  | nil known => exact .nil
  | known h later ih => exact .cons ⟨rfl, later.found_mono h⟩ ih
  | @new known _ stream _ param _ h hnew later ih =>
    refine .cons ⟨rfl, later.found_mono ?_⟩ ih
    have hlast : getStreamByIds [param] "" stream.id = some param := by
      simp [getStreamByIds_eq, hnew.groupid, hnew.id]
    rw [getStreamByIds_append, h, hlast]
    rfl

theorem nodup (h : Requested all known requests params last)
    (hknown : (known.flatMap (·.ssrcs)).Nodup) : (last.flatMap (·.ssrcs)).Nodup := by
  induction h with
  | nil known => exact hknown
  | known h later ih => exact ih hknown
  | @new known _ stream _ param _ h hnew later ih =>
    apply ih
    rw [List.flatMap_append, List.nodup_append]
    refine ⟨hknown, by simpa using hnew.ssrcs.nodup, fun a ha b hb => ?_⟩
    obtain ⟨p, hp, hap⟩ := List.mem_flatMap.mp ha
    rintro rfl
    exact hnew.ssrcs.fresh p hp hap (by simpa using hb)

theorem without_ssrcs (h : Requested all known requests params last) (id : String) :
    (∃ p, getStreamByIds last "" id = some p ∧ p.ssrcs = []) ↔
      ∃ p, getStreamByIds known "" id = some p ∧ p.ssrcs = [] := by
  constructor
  · rintro ⟨p, hp, hssrcs⟩
    obtain ⟨more, rfl, hmore⟩ := h.known_append
    rw [getStreamByIds_append] at hp
    cases hfound : getStreamByIds known "" id with
    | some q =>
      rw [hfound] at hp
      exact ⟨q, rfl, (Option.some.inj hp) ▸ hssrcs⟩
    | none =>
      rw [hfound, Option.none_or] at hp
      exact absurd hssrcs (hmore p (mem_of_getStreamByIds hp).1)
  · rintro ⟨p, hp, hssrcs⟩
    exact ⟨p, h.found_mono hp, hssrcs⟩

end Requested

section Apart

variable {all : List MediaSessionOptions.Stream} {known last : List StreamParams}
  {requests : List MediaSessionOptions.Stream} {params : List (MediaType × StreamParams)}

/-- Different streams have different ssrcs, so that the streams for some ids have them twice only
if an id is there twice. -/
theorem nodup_found_iff (hlast : (last.flatMap (·.ssrcs)).Nodup)
    (hfound : List.Forall₂ (fun s a => a.1 = s.type ∧ getStreamByIds last "" s.id = some a.2)
      requests params) :
    (params.flatMap (·.2.ssrcs)).Nodup ↔ requests.Pairwise fun a b => a.id = b.id →
      ∃ p, getStreamByIds last "" a.id = some p ∧ p.ssrcs = [] := by
  obtain ⟨hnodup, hpairwise⟩ := List.nodup_flatMap.mp hlast
  have hdisjoint : ∀ p ∈ last, ∀ q ∈ last, p.id ≠ q.id → p.ssrcs.Disjoint q.ssrcs := by
    intro p hp q hq hne
    have hsymm : Std.Symm (Function.onFun List.Disjoint StreamParams.ssrcs) :=
      ⟨fun _ _ h => List.disjoint_symm h⟩
    exact hpairwise.forall hp hq fun h => hne (congrArg _ h)
  induction hfound with
  | nil => simp
  | @cons s a requests params hs hrest ih =>
    obtain ⟨hmem, -, hid⟩ := mem_of_getStreamByIds hs.2
    rw [List.flatMap_cons, List.nodup_append, List.pairwise_cons]
    constructor
    · rintro ⟨-, hrest', hapart⟩
      refine ⟨fun t ht hst => ⟨a.2, hs.2, ?_⟩, ih.mp hrest'⟩
      obtain ⟨b, hb, -, hfound⟩ := exists_of_mem_left hrest ht
      rw [← hst, hs.2] at hfound
      obtain hab := Option.some.inj hfound
      by_contra hne
      obtain ⟨x, hx⟩ := List.exists_mem_of_ne_nil _ hne
      exact hapart x hx x (List.mem_flatMap.mpr ⟨b, hb, hab ▸ hx⟩) rfl
    · rintro ⟨hapart, hrest'⟩
      refine ⟨hnodup _ hmem, ih.mpr hrest', fun x hx y hy => ?_⟩
      rintro rfl
      obtain ⟨b, hb, hxb⟩ := List.mem_flatMap.mp hy
      obtain ⟨t, ht, -, hfound⟩ := exists_of_mem_right hrest hb
      obtain ⟨hmem', -, hid'⟩ := mem_of_getStreamByIds hfound
      by_cases hst : s.id = t.id
      · obtain ⟨p, hp, hempty⟩ := hapart t ht hst
        obtain rfl := Option.some.inj (hs.2.symm.trans hp)
        rw [hempty] at hx
        exact absurd hx List.not_mem_nil
      · exact hdisjoint _ hmem _ hmem' (fun h => hst (hid ▸ hid' ▸ h)) hx hxb

theorem mem_getCurrentStreamParams {current : Option MediaSessionDescription} {type : MediaType}
    {p : StreamParams} (h : p ∈ currentStreams current type) :
    p ∈ getCurrentStreamParams current := by
  cases current with
  | none => exact absurd h List.not_mem_nil
  | some sdesc =>
    obtain ⟨content, hcontent, h⟩ := List.mem_flatMap.mp h
    refine List.mem_flatMap.mpr ⟨content, hcontent, ?_⟩
    cases hm : mediaDescription content with
    | none =>
      rw [hm] at h
      exact absurd h List.not_mem_nil
    | some m =>
      rw [hm, Option.elim_some] at h
      split at h
      · exact h
      · exact absurd h List.not_mem_nil

theorem kept_found_iff {current : Option MediaSessionDescription}
    (h : Requested all (getCurrentStreamParams current) requests params last) :
    (∀ a ∈ params, ∀ p ∈ currentStreams current a.1, p.groupid = a.2.groupid → p.id = a.2.id →
        a.2.ssrcs = p.ssrcs) ↔
      ∀ s ∈ requests, ∀ p ∈ currentStreams current s.type, p.groupid = "" → p.id = s.id →
        ∃ q, getStreamByIds (getCurrentStreamParams current) "" s.id = some q ∧
          q.ssrcs = p.ssrcs := by
  constructor
  · intro hkept s hs p hp hgroup hid
    obtain ⟨a, ha, htype, hfound⟩ := exists_of_mem_left h.found hs
    obtain ⟨-, hagroup, haid⟩ := mem_of_getStreamByIds hfound
    obtain ⟨q, hq⟩ := isSome_getStreamByIds (mem_getCurrentStreamParams hp) hgroup
    rw [hid] at hq
    obtain rfl := Option.some.inj ((h.found_mono hq).symm.trans hfound)
    exact ⟨a.2, hq, hkept a ha p (htype ▸ hp) (hgroup.trans hagroup.symm) (hid.trans haid.symm)⟩
  · intro hkinds a ha p hp hgroup hid
    obtain ⟨s, hs, htype, hfound⟩ := exists_of_mem_right h.found ha
    obtain ⟨-, hagroup, haid⟩ := mem_of_getStreamByIds hfound
    obtain ⟨q, hq, hssrcs⟩ :=
      hkinds s hs p (htype ▸ hp) (hgroup.trans hagroup) (hid.trans haid)
    obtain rfl := Option.some.inj ((h.found_mono hq).symm.trans hfound)
    exact hssrcs

end Apart

section Cnames

variable {all : List MediaSessionOptions.Stream} {known last : List StreamParams}
  {requests : List MediaSessionOptions.Stream} {params : List (MediaType × StreamParams)}

structure Matches (zs : List (StreamParams × LabelledStream)) (known : List StreamParams) :
    Prop where
  streams : zs.map (·.1) = known.filter (·.groupid = "")
  same : ∀ z ∈ zs, z.1.id = z.2.id ∧ z.1.syncLabel = z.2.syncLabel
  cnames : ∀ z ∈ zs, ∀ z' ∈ zs, z.1.cname = z'.1.cname ↔ z.2.origin = z'.2.origin
  drawn : ∀ z ∈ zs, ∀ id, z.2.origin = .drawn id → ∃ z' ∈ zs, z'.2.id = id

namespace Matches

variable {zs : List (StreamParams × LabelledStream)}

theorem getStreamByIds_eq (h : Matches zs known) (id : String) :
    getStreamByIds known "" id = (zs.find? (·.2.id = id)).map (·.1) := by
  have hfilter : getStreamByIds known "" id = (zs.map (·.1)).find? (·.id = id) := by
    rw [h.streams, List.find?_filter, Libjingle.getStreamByIds_eq]
    congr 1
    funext p
    simp
  rw [hfilter, List.find?_map]
  congr 1
  have hall : ∀ ws : List (StreamParams × LabelledStream), (∀ z ∈ ws, z ∈ zs) →
      (ws.find? fun z => decide (z.1.id = id)) = ws.find? fun z => decide (z.2.id = id) := by
    intro ws hws
    induction ws with
    | nil => rfl
    | cons z ws ih =>
      have hz := (h.same z (hws z List.mem_cons_self)).1
      have hrest := ih fun z hz => hws z (List.mem_cons_of_mem _ hz)
      rw [List.find?_cons, List.find?_cons, hz, hrest]
  exact hall zs fun _ hz => hz

theorem find_labels (zs : List (StreamParams × LabelledStream)) (id : String) :
    (zs.map (·.2)).find? (·.id = id) = (zs.find? (·.2.id = id)).map (·.2) := by
  rw [List.find?_map]
  rfl

theorem synced (h : Matches zs known) (all : List MediaSessionOptions.Stream) (label : String) :
    ∃ z : Option (StreamParams × LabelledStream), (∀ e, z = some e → e ∈ zs) ∧
      syncedStream all known label = z.map (·.1) ∧
      ((all.filter (·.syncLabel = label)).findSome? fun s =>
        (zs.map (·.2)).find? (·.id = s.id)) = z.map (·.2) := by
  refine ⟨(all.filter (·.syncLabel = label)).findSome? fun s => zs.find? (·.2.id = s.id),
    fun e he => ?_, ?_, ?_⟩
  · obtain ⟨s, -, hs⟩ := List.exists_of_findSome?_eq_some he
    exact List.mem_of_find?_eq_some hs
  · rw [syncedStream, List.map_findSome?]
    congr 1
    funext s
    exact h.getStreamByIds_eq s.id
  · rw [List.map_findSome?]
    congr 1
    funext s
    exact find_labels zs s.id

theorem new (h : Matches zs known) {stream : MediaSessionOptions.Stream} {param : StreamParams}
    (hnone : getStreamByIds known "" stream.id = none) (hnew : IsNew all known stream param) :
    Matches (zs ++ [(param, labelNew all (zs.map (·.2)) stream)]) (known ++ [param]) := by
  obtain ⟨z, hz, hsynced, hlabel⟩ := h.synced all stream.syncLabel
  have hmem : ∀ e ∈ zs, e.1 ∈ known := fun e he =>
    (List.mem_filter.mp (h.streams ▸ List.mem_map_of_mem he)).1
  have hcname : ∀ e ∈ zs, param.cname = e.1.cname ↔
      (labelNew all (zs.map (·.2)) stream).origin = e.2.origin := by
    intro e he
    rw [labelNew, hlabel]
    cases z with
    | some z =>
      rw [hnew.taken z.1 hsynced]
      exact h.cnames z (hz z rfl) e he
    | none =>
      refine iff_of_false (fun heq => hnew.drawn hsynced e.1 (hmem e he) heq.symm) fun heq => ?_
      obtain ⟨z', hz', hid⟩ := h.drawn e he stream.id heq.symm
      rw [h.getStreamByIds_eq, Option.map_eq_none_iff] at hnone
      exact absurd hid (by simpa using List.find?_eq_none.mp hnone z' hz')
  constructor
  · rw [List.map_append, h.streams, List.filter_append]
    simp [hnew.groupid]
  · intro e he
    rcases List.mem_append.mp he with he | he
    · exact h.same e he
    · obtain rfl := List.mem_singleton.mp he
      exact ⟨hnew.id, hnew.syncLabel⟩
  · intro e he e' he'
    rcases List.mem_append.mp he with he | he
    · rcases List.mem_append.mp he' with he' | he'
      · exact h.cnames e he e' he'
      · obtain rfl := List.mem_singleton.mp he'
        exact eq_comm.trans ((hcname e he).trans eq_comm)
    · obtain rfl := List.mem_singleton.mp he
      rcases List.mem_append.mp he' with he' | he'
      · exact hcname e' he'
      · obtain rfl := List.mem_singleton.mp he'
        exact iff_of_true rfl rfl
  · intro e he id hid
    rcases List.mem_append.mp he with he | he
    · obtain ⟨e', he', hid'⟩ := h.drawn e he id hid
      exact ⟨e', List.mem_append_left _ he', hid'⟩
    · obtain rfl := List.mem_singleton.mp he
      rw [labelNew, hlabel] at hid
      cases z with
      | some z =>
        obtain ⟨e', he', hid'⟩ := h.drawn z (hz z rfl) id hid
        exact ⟨e', List.mem_append_left _ he', hid'⟩
      | none =>
        cases hid
        exact ⟨_, List.mem_append_right _ (List.mem_singleton.mpr rfl), rfl⟩

theorem labelled (known : List StreamParams) : ∃ zs, Matches zs known ∧
    zs.map (·.2) = Libjingle.labelled known := by
  refine ⟨(known.filter (·.groupid = "")).map fun p => (p, ⟨p.id, p.syncLabel, .current p.cname⟩),
    ?_, by rw [List.map_map]; rfl⟩
  constructor
  · rw [List.map_map]
    exact List.map_id _
  · intro z hz
    obtain ⟨p, -, rfl⟩ := List.mem_map.mp hz
    exact ⟨rfl, rfl⟩
  · intro z hz z' hz'
    obtain ⟨p, -, rfl⟩ := List.mem_map.mp hz
    obtain ⟨q, -, rfl⟩ := List.mem_map.mp hz'
    simp
  · intro z hz id hid
    obtain ⟨p, -, rfl⟩ := List.mem_map.mp hz
    cases hid

end Matches

theorem labels_of_requested (h : Requested all known requests params last)
    {zs : List (StreamParams × LabelledStream)} (hzs : Matches zs known) :
    ∃ zs' ws : List (StreamParams × LabelledStream), Matches zs' last ∧ (∀ z ∈ zs, z ∈ zs') ∧
      (∀ w ∈ ws, w ∈ zs') ∧ ws.map (·.1) = params.map (·.2) ∧
        ws.map (·.2) = labelStreams all (zs.map (·.2)) requests := by
  induction h generalizing zs with
  | nil known => exact ⟨zs, [], hzs, fun _ hz => hz, fun _ hw => absurd hw List.not_mem_nil, rfl, rfl⟩
  | @known _ _ stream _ param _ h later ih =>
    obtain ⟨zs', ws, hlast, hsub, hws, hparams, hlabels⟩ := ih hzs
    rw [hzs.getStreamByIds_eq] at h
    obtain ⟨z, hz, rfl⟩ := Option.map_eq_some_iff.mp h
    refine ⟨zs', z :: ws, hlast, hsub, fun w hw => ?_, ?_, ?_⟩
    · rcases List.mem_cons.mp hw with rfl | hw
      · exact hsub _ (List.mem_of_find?_eq_some hz)
      · exact hws w hw
    · rw [List.map_cons, hparams]
      rfl
    · rw [labelStreams, Matches.find_labels, hz, List.map_cons, hlabels]
      rfl
  | @new _ _ stream _ param _ h hnew later ih =>
    obtain ⟨zs', ws, hlast, hsub, hws, hparams, hlabels⟩ := ih (hzs.new h hnew)
    rw [hzs.getStreamByIds_eq, Option.map_eq_none_iff] at h
    refine ⟨zs', (param, labelNew all (zs.map (·.2)) stream) :: ws, hlast,
      fun z hz => hsub z (List.mem_append_left _ hz), fun w hw => ?_, ?_, ?_⟩
    · rcases List.mem_cons.mp hw with rfl | hw
      · exact hsub _ (List.mem_append_right _ (List.mem_singleton.mpr rfl))
      · exact hws w hw
    · rw [List.map_cons, hparams]
      rfl
    · rw [labelStreams, Matches.find_labels, h, List.map_cons, hlabels, List.map_append]
      rfl

theorem synced_iff (h : Requested all known requests params last) :
    (∀ a ∈ params, ∀ b ∈ params, a.2.syncLabel = b.2.syncLabel → a.2.cname = b.2.cname) ↔
      ∀ a ∈ labelStreams all (labelled known) requests,
        ∀ b ∈ labelStreams all (labelled known) requests,
          a.syncLabel = b.syncLabel → a.origin = b.origin := by
  obtain ⟨zs, hzs, hlabelled⟩ := Matches.labelled known
  obtain ⟨zs', ws, hlast, -, hws, hparams, hlabels⟩ := labels_of_requested h hzs
  rw [← hlabelled, ← hlabels]
  have hpair : (∀ w ∈ ws, ∀ w' ∈ ws, w.1.syncLabel = w'.1.syncLabel → w.1.cname = w'.1.cname) ↔
      ∀ w ∈ ws, ∀ w' ∈ ws, w.2.syncLabel = w'.2.syncLabel → w.2.origin = w'.2.origin := by
    refine forall₂_congr fun w hw => forall₂_congr fun w' hw' => ?_
    rw [(hlast.same w (hws w hw)).2, (hlast.same w' (hws w' hw')).2,
      hlast.cnames w (hws w hw) w' (hws w' hw')]
  have hstreams : (∀ a ∈ params.map (·.2), ∀ b ∈ params.map (·.2),
      a.syncLabel = b.syncLabel → a.cname = b.cname) ↔
        ∀ a ∈ params, ∀ b ∈ params, a.2.syncLabel = b.2.syncLabel → a.2.cname = b.2.cname := by
    simp only [List.forall_mem_map]
  rw [← hstreams, ← hparams]
  simp only [List.forall_mem_map]
  exact hpair

end Cnames

theorem uniqueStreams_iff_apart {all requests : List MediaSessionOptions.Stream}
    {current : Option MediaSessionDescription} {last : List StreamParams}
    {params : List (MediaType × StreamParams)}
    (hcurrent : ((getCurrentStreamParams current).flatMap (·.ssrcs)).Nodup)
    (h : Requested all (getCurrentStreamParams current) requests params last) :
    UniqueStreams current params ↔ StreamsApart all current requests := by
  have hunique := nodup_found_iff (h.nodup hcurrent) h.found
  simp only [h.without_ssrcs] at hunique
  constructor
  · rintro ⟨hnodup, hsynced, hkept⟩
    exact ⟨hunique.mp hnodup, (kept_found_iff h).mp hkept, (synced_iff h).mp hsynced⟩
  · rintro ⟨hids, hkinds, hlabels⟩
    exact ⟨hunique.mpr hids, (synced_iff h).mpr hlabels, (kept_found_iff h).mpr hkinds⟩

end Libjingle
