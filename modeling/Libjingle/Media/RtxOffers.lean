import Libjingle.Lib.Paired
import Libjingle.Media.AnswerCodecs

/-! The codecs for retransmissions that are offered. Each names the codec that it is for by an id,
and the ids are assigned anew. -/

namespace Libjingle

open UsedIds

section Codecs

open IsCodec

variable {C : Type} [IsCodec C]

def associatedId (c : C) : Option Int :=
  (getParam c kCodecParamAssociatedPayloadType).bind fromStringInt

structure IsFor (r c : C) : Prop where
  rtx : isRtxCodec r = true
  plain : isRtxCodec c = false
  id : associatedId r = some (IsCodec.id c)

instance (r c : C) : Decidable (IsFor r c) :=
  decidable_of_iff (isRtxCodec r = true ∧ isRtxCodec c = false ∧
    associatedId r = some (IsCodec.id c)) ⟨fun h => ⟨h.1, h.2.1, h.2.2⟩, fun h => ⟨h.1, h.2, h.3⟩⟩

def AptsRefer (codecs : List C) : Prop :=
  ∀ r ∈ codecs, isRtxCodec r = true → ∃ c ∈ codecs, IsFor r c

instance (codecs : List C) : Decidable (AptsRefer codecs) :=
  inferInstanceAs (Decidable (∀ r ∈ codecs, isRtxCodec r = true → ∃ c ∈ codecs, IsFor r c))

structure StaysAttached (sources offered : List C) (r x : C) : Prop where
  same : ∃ (id : Int) (apt : String), codec x = { codec r with
    id
    params := (codec r).params.insert kCodecParamAssociatedPayloadType apt }
  attached : ∃ c ∈ sources, IsFor r c ∧
    ∃ y ∈ offered, IsFor x y ∧ (codec y).name = (codec c).name

/-- The codecs for retransmissions that are offered, each with what it was before: all of the
current ones, and at least those for the codecs that no current one matches. -/
structure Attachment (current reference offered : List C) (kept added : List (C × C)) : Prop where
  all : (offered.filter isRtxCodec).Perm ((kept ++ added).map (·.2))
  all_kept : kept.map (·.1) = current.filter isRtxCodec
  some_added : (added.map (·.1)).Subperm (reference.filter isRtxCodec)
  kept_attached : ∀ p ∈ kept, StaysAttached current offered p.1 p.2
  added_attached : ∀ p ∈ added, StaysAttached reference offered p.1 p.2
  none_lost : ∀ r ∈ reference, ∀ c ∈ reference, IsFor r c → findMatchingCodec current c = false →
    r ∈ added.map (·.1)

def RtxAttached (current reference offered : List C) : Prop :=
  ∃ kept added, Attachment current reference offered kept added

def numbered (u : UsedIds) (codecs : List C) : List C × UsedIds :=
  findAndSetIdsUsed IsCodec.id setId u codecs

/-- The id of a current codec is not used yet when its turn comes. -/
def KeepsId (u : UsedIds) (codecs : List C) (c : C) : Prop :=
  ∃ before after, codecs = before ++ c :: after ∧
    ((numbered u before).2.contains (IsCodec.id c) = true →
      (numbered u before).2.isIdUsed (IsCodec.id c) = false)

/-- The new codecs, but for those for retransmissions, which follow them. -/
def offerPlain (reference offered : List C) (used : UsedIds) (rtx : List (Int × C)) :
    List C × UsedIds × List (Int × C) :=
  reference.foldl (fun s c => offerCodec s.1 s.2.1 s.2.2 c) (offered, used, rtx)

/-- No codec that is there when its turn comes matches a codec. -/
def IsAdded (used : UsedIds) (offered reference : List C) (c : C) : Prop :=
  ∃ before after, reference = before ++ c :: after ∧ isRtxCodec c = false ∧
    findMatchingCodec (offerPlain before offered used []).1 c = false

/-- The current codecs for retransmissions are for codecs that keep their ids. A new one is for a
codec that is added too, or that is there under the same id, and the only one for it. It is new
where its own codec is. -/
structure RtxFollows (u w : UsedIds) (stays : String → Bool) (current reference : List C) :
    Prop where
  kept : ∀ r ∈ current, isRtxCodec r = true →
    ∃ c, IsFor r c ∧ KeepsId u current c ∧ stays (codec c).name = true
  added : ∀ r ∈ reference, isRtxCodec r = true →
    findMatchingCodec (numbered u current).1 r = false →
      (∀ c ∈ reference, IsFor r c → stays (codec c).name = true) ∧
        ((∃ c, IsFor r c ∧ IsAdded w (numbered u current).1 reference c) ∨
          ∃ c ∈ reference, IsFor r c ∧ ∃ d ∈ (numbered u current).1, codecEntry d = codecEntry c)
  own : ∀ r ∈ reference, ∀ c ∈ reference, IsFor r c → findMatchingCodec current c = false →
    findMatchingCodec (numbered u current).1 r = false ∧
      ∀ other ∈ reference, IsFor other c →
        findMatchingCodec (numbered u current).1 other = false → other = r

theorem findAndSetIdsUsed_append {α : Type} {getId : α → Int} {setId : α → Int → α}
    (l more : List α) (u : UsedIds) :
    findAndSetIdsUsed getId setId u (l ++ more) =
      ((findAndSetIdsUsed getId setId u l).1 ++
          (findAndSetIdsUsed getId setId (findAndSetIdsUsed getId setId u l).2 more).1,
        (findAndSetIdsUsed getId setId (findAndSetIdsUsed getId setId u l).2 more).2) := by
  induction l generalizing u with
  | nil => rfl
  | cons a rest ih => simp [findAndSetIdsUsed, ih]

theorem forall₂_numbered (u : UsedIds) (codecs : List C) :
    List.Forall₂ (fun a b => ∃ id, b = setId a id) codecs (numbered u codecs).1 := by
  induction codecs generalizing u with
  | nil => exact .nil
  | cons a rest ih => exact .cons ⟨_, rfl⟩ (ih _)

theorem numbered_cons (u : UsedIds) (c : C) (codecs : List C) :
    (numbered u (c :: codecs)).1 = setId c (u.findAndSetIdUsed (IsCodec.id c)).1 ::
      (numbered (u.findAndSetIdUsed (IsCodec.id c)).2 codecs).1 := rfl

theorem findAndSetIdUsed_of_free {u : UsedIds} {id : Int}
    (h : u.contains id = true → u.isIdUsed id = false) : (u.findAndSetIdUsed id).1 = id := by
  rw [findAndSetIdUsed]
  by_cases hout : u.maxAllowedId < id ∨ id < u.minAllowedId
  · rw [if_pos hout]
  · have hin : u.contains id = true := isInRange_iff.mpr (by omega)
    rw [if_neg hout, if_neg (by simp [h hin])]

structure Bounded (u : UsedIds) : Prop where
  min : u.minAllowedId = 96
  low : 95 ≤ u.nextId
  high : u.nextId ≤ 127

theorem unusedFrom_bounds (u : UsedIds) (n : Nat) (start : Int) :
    start - n ≤ u.unusedFrom n start ∧ u.unusedFrom n start ≤ start := by
  induction n generalizing start with
  | zero => simp [unusedFrom]
  | succ n ih =>
    have hrest := ih (start - 1)
    rw [unusedFrom]
    split
    · push_cast
      omega
    · push_cast
      omega

theorem findUnusedId_bounds {u : UsedIds} (h : Bounded u) :
    95 ≤ u.findUnusedId ∧ u.findUnusedId ≤ 127 := by
  have hbounds := unusedFrom_bounds u (u.nextId - u.minAllowedId + 1).toNat u.nextId
  have hmin := h.min
  have hlow := h.low
  have hhigh := h.high
  rw [findUnusedId]
  omega

theorem findAndSetIdUsed_bounds {u : UsedIds} (h : Bounded u) (id : Int) :
    Bounded (u.findAndSetIdUsed id).2 ∧ ((u.findAndSetIdUsed id).1 = id ∨
      95 ≤ (u.findAndSetIdUsed id).1 ∧ (u.findAndSetIdUsed id).1 ≤ 127) := by
  have hfound := findUnusedId_bounds h
  rw [findAndSetIdUsed]
  split
  · exact ⟨h, .inl rfl⟩
  · split
    · exact ⟨⟨h.min, hfound.1, hfound.2⟩, .inr hfound⟩
    · exact ⟨⟨h.min, h.low, h.high⟩, .inl rfl⟩

theorem bounded_numbered {u : UsedIds} (h : Bounded u) (codecs : List C) :
    Bounded (numbered u codecs).2 := by
  induction codecs generalizing u with
  | nil => exact h
  | cons a rest ih => exact ih (findAndSetIdUsed_bounds h (IsCodec.id a)).1

theorem offerCodec_of_new {offered : List C} {c : C} (hnew : findMatchingCodec offered c = false)
    (hplain : isRtxCodec c = false) (used : UsedIds) (rtx : List (Int × C)) :
    offerCodec offered used rtx c = (offered ++ [setId c (used.findAndSetIdUsed (IsCodec.id c)).1],
      (used.findAndSetIdUsed (IsCodec.id c)).2, rtx.map fun e =>
        if e.1 = IsCodec.id c then (e.1, setParam e.2 kCodecParamAssociatedPayloadType
          (toStringInt (used.findAndSetIdUsed (IsCodec.id c)).1)) else e) := by
  simp [offerCodec, hnew, hplain]

theorem offerCodec_of_old {offered : List C} {c : C}
    (hold : ¬ (findMatchingCodec offered c = false ∧ isRtxCodec c = false)) (used : UsedIds)
    (rtx : List (Int × C)) : offerCodec offered used rtx c = (offered, used, rtx) := by
  rw [offerCodec, if_neg]
  simpa using hold

theorem offerPlain_cons (c : C) (reference offered : List C) (used : UsedIds)
    (rtx : List (Int × C)) : offerPlain (c :: reference) offered used rtx =
      offerPlain reference (offerCodec offered used rtx c).1 (offerCodec offered used rtx c).2.1
        (offerCodec offered used rtx c).2.2 := rfl

theorem isAdded_cons {used : UsedIds} {offered reference : List C} {c d : C}
    (h : IsAdded used offered (c :: reference) d) :
    (d = c ∧ isRtxCodec c = false ∧ findMatchingCodec offered c = false) ∨
      IsAdded (offerCodec offered used [] c).2.1 (offerCodec offered used [] c).1 reference d := by
  obtain ⟨before, after, hsplit, hplain, hnew⟩ := h
  cases before with
  | nil =>
    obtain ⟨rfl, rfl⟩ := List.cons.inj hsplit
    exact .inl ⟨rfl, hplain, hnew⟩
  | cons first before =>
    obtain ⟨rfl, rfl⟩ := List.cons.inj hsplit
    refine .inr ⟨before, after, rfl, hplain, ?_⟩
    have hrtx : (offerCodec offered used [] c).2.2 = [] := by
      by_cases hold : findMatchingCodec offered c = false ∧ isRtxCodec c = false
      · rw [offerCodec_of_new hold.1 hold.2]
        rfl
      · rw [offerCodec_of_old hold]
    rw [offerPlain_cons, hrtx] at hnew
    exact hnew

def Retargeted (reference offered : List C) (e e' : Int × C) : Prop :=
  ∃ c ∈ reference, isRtxCodec c = false ∧ IsCodec.id c = e.1 ∧
    ∃ newId, setId c newId ∈ offered ∧ (newId = IsCodec.id c ∨ 95 ≤ newId ∧ newId ≤ 127) ∧
      e'.1 = e.1 ∧ codec e'.2 = { codec e.2 with
        params := (codec e.2).params.insert kCodecParamAssociatedPayloadType
          (toStringInt newId) }

/-- What the new codecs add, and what becomes of the entries: one for a codec that is added follows
its id. -/
structure Offering (reference offered : List C) (used : UsedIds) (rtx : List (Int × C))
    (result : List C × UsedIds × List (Int × C)) : Prop where
  added : ∃ added, result.1 = offered ++ added ∧
    ∀ y ∈ added, ∃ c ∈ reference, isRtxCodec c = false ∧ ∃ id, y = setId c id
  bounded : Bounded result.2.1
  entries : List.Forall₂ (fun e e' => Retargeted reference result.1 e e' ∨
    e' = e ∧ ∀ c, IsAdded used offered reference c → IsCodec.id c ≠ e.1) rtx result.2.2

section Lawful

variable [LawfulCodec C]

@[simp] theorem codec_setId (c : C) (id : Int) : codec (setId c id) = { codec c with id } :=
  LawfulCodec.codec_setCodec _ _

@[simp] theorem codec_setParam (c : C) (key value : String) :
    codec (setParam c key value) =
      { codec c with params := (codec c).params.insert key value } :=
  LawfulCodec.codec_setCodec _ _

@[simp] theorem isRtxCodec_setId (c : C) (id : Int) : isRtxCodec (setId c id) = isRtxCodec c := by
  simp [isRtxCodec]

@[simp] theorem isRtxCodec_setParam (c : C) (key value : String) :
    isRtxCodec (setParam c key value) = isRtxCodec c := by
  simp [isRtxCodec]

@[simp] theorem getParam_setId (c : C) (id : Int) (key : String) :
    getParam (setId c id) key = getParam c key := by
  simp [getParam]

@[simp] theorem getParam_setParam (c : C) (key value : String) :
    getParam (setParam c key value) key = some value := by
  simp [getParam]

theorem setId_self (c : C) : setId c (IsCodec.id c) = c := LawfulCodec.setCodec_codec c

theorem setParam_of_getParam {c : C} {key value : String} (h : getParam c key = some value) :
    setParam c key value = c := by
  rw [setParam, CodecParameterMap.insert_of_find h]
  exact LawfulCodec.setCodec_codec c

theorem mem_of_keepsId {u : UsedIds} {codecs : List C} {c : C} (h : KeepsId u codecs c) :
    c ∈ (numbered u codecs).1 := by
  obtain ⟨before, after, rfl, hfree⟩ := h
  rw [numbered, findAndSetIdsUsed_append]
  apply List.mem_append_right
  rw [← numbered, ← numbered, numbered_cons, findAndSetIdUsed_of_free hfree, setId_self]
  exact List.mem_cons_self

omit [LawfulCodec C] in
theorem retargeted_mono {reference more offered : List C} {e e' : Int × C}
    (hsub : reference ⊆ more) (h : Retargeted reference offered e e') :
    Retargeted more offered e e' := by
  obtain ⟨c, hc, hrest⟩ := h
  exact ⟨c, hsub hc, hrest⟩

theorem offering_offerPlain (reference : List C) {offered : List C} {used : UsedIds}
    (h : Bounded used) (rtx : List (Int × C)) :
    Offering reference offered used rtx (offerPlain reference offered used rtx) := by
  induction reference generalizing offered used rtx with
  | nil =>
    refine ⟨⟨[], (List.append_nil _).symm, fun y hy => absurd hy List.not_mem_nil⟩, h,
      List.forall₂_same.mpr fun e _ => .inr ⟨rfl, ?_⟩⟩
    rintro c ⟨before, after, hsplit, -⟩
    simp at hsplit
  | cons c reference ih =>
    have hsub := List.subset_cons_self c reference
    rw [offerPlain_cons]
    by_cases hnew : findMatchingCodec offered c = false ∧ isRtxCodec c = false
    · have hcodec := offerCodec_of_new hnew.1 hnew.2 used
      obtain ⟨hbounded, hid⟩ := findAndSetIdUsed_bounds h (IsCodec.id c)
      rw [hcodec]
      generalize hnewId : (used.findAndSetIdUsed (IsCodec.id c)).1 = newId at hid hcodec ⊢
      obtain ⟨⟨added, hadded, horigin⟩, hused, hentries⟩ := ih hbounded (rtx.map fun e =>
        if e.1 = IsCodec.id c then
          (e.1, setParam e.2 kCodecParamAssociatedPayloadType (toStringInt newId))
        else e)
      refine ⟨⟨setId c newId :: added, ?_, fun y hy => ?_⟩, hused, ?_⟩
      · rw [hadded, List.append_assoc]
        rfl
      · rcases List.mem_cons.mp hy with rfl | hy
        · exact ⟨c, List.mem_cons_self, hnew.2, newId, rfl⟩
        · obtain ⟨d, hd, hrest⟩ := horigin y hy
          exact ⟨d, hsub hd, hrest⟩
      · rw [List.forall₂_map_left_iff] at hentries
        refine hentries.imp fun e e' he => ?_
        by_cases hkey : e.1 = IsCodec.id c
        · rw [if_pos hkey] at he
          rcases he with ⟨d, hd, hplain, hdkey, other, hother, hbound, hfst, hsnd⟩ | ⟨rfl, -⟩
          · -- a later codec with the same id takes the entry over
            refine .inl ⟨d, hsub hd, hplain, hdkey, other, hother, hbound, hfst, ?_⟩
            rw [hsnd, codec_setParam, CodecParameterMap.insert_insert]
          · refine .inl ⟨c, List.mem_cons_self, hnew.2, hkey.symm, newId, ?_, hid, rfl,
              codec_setParam _ _ _⟩
            rw [hadded]
            exact List.mem_append_left _ (List.mem_append_right _ List.mem_cons_self)
        · rw [if_neg hkey] at he
          rcases he with he | ⟨rfl, hnone⟩
          · exact .inl (retargeted_mono hsub he)
          · refine .inr ⟨rfl, fun d hd => ?_⟩
            rcases isAdded_cons hd with ⟨rfl, -⟩ | hd
            · exact fun heq => hkey heq.symm
            · rw [hcodec] at hd
              exact hnone d hd
    · have hcodec := offerCodec_of_old hnew used
      rw [hcodec]
      obtain ⟨⟨added, hadded, horigin⟩, hused, hentries⟩ := ih h rtx
      refine ⟨⟨added, hadded, fun y hy => ?_⟩, hused, hentries.imp fun e e' he => ?_⟩
      · obtain ⟨d, hd, hrest⟩ := horigin y hy
        exact ⟨d, hsub hd, hrest⟩
      · refine he.imp (retargeted_mono hsub) fun hsame => ⟨hsame.1, fun d hd => ?_⟩
        rcases isAdded_cons hd with ⟨rfl, hplain, hfound⟩ | hd
        · exact absurd ⟨hfound, hplain⟩ hnew
        · rw [hcodec] at hd
          exact hsame.2 d hd

omit [LawfulCodec C] in
theorem findCodecsToOffer_some {reference offered codecs : List C} {used used' : UsedIds}
    (h : findCodecsToOffer reference offered used = some (codecs, used')) :
    ∃ rtx, newRtxCodecs reference offered = some rtx ∧
      codecs = (offerPlain reference offered used rtx).1 ++
        (numbered (offerPlain reference offered used rtx).2.1
          ((offerPlain reference offered used rtx).2.2.map (·.2))).1 ∧
      used' = (numbered (offerPlain reference offered used rtx).2.1
        ((offerPlain reference offered used rtx).2.2.map (·.2))).2 := by
  obtain ⟨rtx, hrtx, hresult⟩ := Option.map_eq_some_iff.mp h
  obtain ⟨hcodecs, hused⟩ := Prod.mk.inj hresult
  exact ⟨rtx, hrtx, hcodecs.symm, hused.symm⟩

theorem withApt_of_isFor {r c : C} (h : IsFor r c) :
    withApt r = r ∧ (extractInt (aptText r)).1 = some (IsCodec.id c) := by
  obtain ⟨text, htext, hid⟩ := Option.bind_eq_some_iff.mp h.id
  have hapt : aptText r = text := by
    rw [aptText, htext]
    rfl
  rw [withApt, hapt, extractInt_of_fromStringInt hid]
  exact ⟨setParam_of_getParam htext, rfl⟩

structure NewRtx (reference offered : List C) (rtx : List (Int × C)) : Prop where
  few : (rtx.map (·.2)).Subperm (reference.filter isRtxCodec)
  sound : ∀ e ∈ rtx, e.2 ∈ reference ∧ isRtxCodec e.2 = true ∧
    findMatchingCodec offered e.2 = false ∧ associatedId e.2 = some e.1
  complete : ∀ r ∈ reference, ∀ c, IsFor r c → findMatchingCodec offered r = false →
    ∃ e ∈ rtx, e.1 = IsCodec.id c

theorem newRtx_newRtxCodecs {reference offered : List C} {rtx : List (Int × C)}
    (hrefer : AptsRefer reference) (h : newRtxCodecs reference offered = some rtx) :
    NewRtx reference offered rtx := by
  have hentries := rtxEntries_newRtxCodecs h
  have hmem : ∀ r, r ∈ (newCodecs reference offered).filter isRtxCodec ↔
      (r ∈ reference ∧ findMatchingCodec offered r = false) ∧ isRtxCodec r = true := by
    intro r
    rw [List.mem_filter, newCodecs, List.mem_filter, Bool.not_eq_true']
  have hsame : ((newCodecs reference offered).filter isRtxCodec).map withApt =
      (newCodecs reference offered).filter isRtxCodec := by
    conv_rhs => rw [← List.map_id ((newCodecs reference offered).filter isRtxCodec)]
    refine List.map_congr_left fun r hr => ?_
    obtain ⟨⟨hr, -⟩, hrtx⟩ := (hmem r).mp hr
    obtain ⟨c, -, hfor⟩ := hrefer r hr hrtx
    exact (withApt_of_isFor hfor).1
  refine ⟨?_, fun e he => ?_, fun r hr c hfor hnew => ?_⟩
  · have hfew := hentries.few
    rw [hsame] at hfew
    exact hfew.trans (List.filter_sublist.filter _).subperm
  · obtain ⟨r, hr, hcodec, hkey⟩ := hentries.sound e he
    obtain ⟨⟨hr, hnew⟩, hrtx⟩ := (hmem r).mp hr
    obtain ⟨c, -, hfor⟩ := hrefer r hr hrtx
    obtain ⟨hwith, hid⟩ := withApt_of_isFor hfor
    rw [hwith] at hcodec
    rw [hcodec, hfor.id, ← hid, hkey]
    exact ⟨hr, hrtx, hnew, rfl⟩
  · obtain ⟨e, he, hkey⟩ := hentries.complete r ((hmem r).mpr ⟨⟨hr, hnew⟩, hfor.rtx⟩)
    rw [(withApt_of_isFor hfor).2] at hkey
    exact ⟨e, he, (Option.some.inj hkey).symm⟩

def OfferedAs (reference offered : List C) (used : UsedIds) (plain : List C) (e : Int × C) (x : C) :
    Prop :=
  ∃ e', (Retargeted reference plain e e' ∨
    e' = e ∧ ∀ c, IsAdded used offered reference c → IsCodec.id c ≠ e.1) ∧
      ∃ id, x = setId e'.2 id

theorem exists_offeredAs {reference offered codecs : List C} {used used' : UsedIds}
    (hrefer : AptsRefer reference) (hused : Bounded used)
    (h : findCodecsToOffer reference offered used = some (codecs, used')) :
    ∃ (rtx : List (Int × C)) (plain rtxCodecs : List C), codecs = offered ++ plain ++ rtxCodecs ∧
      NewRtx reference offered rtx ∧ (∀ y ∈ plain, isRtxCodec y = false) ∧
      List.Forall₂ (OfferedAs reference offered used (offered ++ plain)) rtx rtxCodecs := by
  obtain ⟨rtx, hrtx, hcodecs, -⟩ := findCodecsToOffer_some h
  obtain ⟨⟨plain, hplain, horigin⟩, -, hentries⟩ := offering_offerPlain reference hused rtx
  have hnumbered := forall₂_numbered (offerPlain reference offered used rtx).2.1
    ((offerPlain reference offered used rtx).2.2.map (·.2))
  rw [List.forall₂_map_left_iff] at hnumbered
  rw [hplain] at hcodecs hentries
  refine ⟨rtx, plain, _, hcodecs, newRtx_newRtxCodecs hrefer hrtx, fun y hy => ?_,
    Paired.comp hentries hnumbered⟩
  obtain ⟨c, -, hc, id, rfl⟩ := horigin y hy
  rw [isRtxCodec_setId, hc]

theorem staysAttached_setId {sources offered : List C} {r c y : C} {id : Int} (hc : c ∈ sources)
    (hfor : IsFor r c) (hy : y ∈ offered) (hsame : codecEntry y = codecEntry c) :
    StaysAttached sources offered r (setId r id) := by
  obtain ⟨text, htext, -⟩ := Option.bind_eq_some_iff.mp hfor.id
  obtain ⟨hname, hid⟩ := Prod.ext_iff.mp hsame
  refine ⟨⟨id, text, by
    rw [CodecParameterMap.insert_of_find htext, codec_setId]⟩,
    c, hc, hfor, y, hy, ⟨?_, ?_, ?_⟩, hname⟩
  · rw [isRtxCodec_setId, hfor.rtx]
  · rw [← hfor.plain, isRtxCodec, isRtxCodec]
    exact congrArg (stricmpEq · kRtxCodecName) hname
  · rw [associatedId, getParam_setId, ← associatedId, hfor.id]
    exact congrArg some hid.symm

theorem staysAttached_retargeted {reference plain offered : List C} {e e' : Int × C} {id : Int}
    (hrtx : isRtxCodec e.2 = true) (hid : associatedId e.2 = some e.1)
    (h : Retargeted reference plain e e')
    (hoffered : ∀ c ∈ reference, IsFor e.2 c → ∀ newId, setId c newId ∈ plain →
      setId c newId ∈ offered) :
    StaysAttached reference offered e.2 (setId e'.2 id) := by
  obtain ⟨c, hc, hplain, hkey, newId, hmem, hbounds, -, hcodec⟩ := h
  have hfor : IsFor e.2 c := ⟨hrtx, hplain, by rw [hid, hkey]⟩
  obtain ⟨text, -, htext⟩ := Option.bind_eq_some_iff.mp hid
  obtain ⟨hlow, hhigh⟩ := bounds_of_fromStringInt htext
  have hread : fromStringInt (toStringInt newId) = some newId := by
    refine fromStringInt_toStringInt ?_ ?_ <;> omega
  refine ⟨⟨id, toStringInt newId, by rw [codec_setId, hcodec]⟩, c, hc, hfor, setId c newId,
    hoffered c hc hfor newId hmem, ⟨?_, ?_, ?_⟩, ?_⟩
  · rw [isRtxCodec_setId, ← hrtx, isRtxCodec, isRtxCodec, hcodec]
  · rw [isRtxCodec_setId, hplain]
  · have hparam : getParam e'.2 kCodecParamAssociatedPayloadType = some (toStringInt newId) := by
      rw [getParam, hcodec]
      exact CodecParameterMap.find_insert _ _
    rw [associatedId, getParam_setId, hparam]
    simpa [IsCodec.id] using hread
  · rw [codec_setId]

/-- Where the condition holds, each codec for retransmissions in the list that is found stays
attached. -/
theorem rtxAttached_findCodecsToOffer {current reference codecs : List C} {u w w' : UsedIds}
    {stays : String → Bool} (hrefer : AptsRefer reference) (hw : Bounded w)
    (hstays : ∀ c : C, isRtxCodec c = true → stays (codec c).name = true)
    (h : RtxFollows u w stays current reference)
    (hfound : findCodecsToOffer reference (numbered u current).1 w = some (codecs, w')) :
    RtxAttached current reference (codecs.filter fun c => stays (codec c).name) := by
  obtain ⟨rtx, plain, rtxCodecs, rfl, hrtx, hplain, hall⟩ := exists_offeredAs hrefer hw hfound
  have hnumbered : List.Forall₂ (fun a b => ∃ id, b = setId a id) (current.filter isRtxCodec)
      ((numbered u current).1.filter isRtxCodec) :=
    List.rel_filter (fun a b hab => by
      obtain ⟨id, rfl⟩ := hab
      simp) (forall₂_numbered u current)
  obtain ⟨kept, hkept, hkept', hkeptId⟩ := Paired.exists_pairs hnumbered
  have hadds : List.Forall₂ (fun r x => ∃ e ∈ rtx, e.2 = r ∧
      OfferedAs reference (numbered u current).1 w ((numbered u current).1 ++ plain) e x)
      (rtx.map (·.2)) rtxCodecs := by
    rw [List.forall₂_map_left_iff]
    exact (Paired.forall₂_mem hall).imp fun e x hex => ⟨e, hex.1, rfl, hex.2.2⟩
  obtain ⟨added, hadded, hadded', haddedAs⟩ := Paired.exists_pairs hadds
  have hrtxCodecs : ∀ x ∈ rtxCodecs, isRtxCodec x = true := by
    intro x hx
    obtain ⟨e, he, e', hentry, id, rfl⟩ := Paired.exists_of_mem_right hall hx
    have hsame : isRtxCodec e'.2 = isRtxCodec e.2 := by
      rcases hentry with ⟨_, -, -, -, _, -, -, -, hcodec⟩ | ⟨rfl, -⟩
      · rw [isRtxCodec, isRtxCodec, hcodec]
      · rfl
    rw [isRtxCodec_setId, hsame, (hrtx.sound e he).2.1]
  have hstay : ∀ x ∈ (numbered u current).1 ++ plain, stays (codec x).name = true →
      x ∈ ((numbered u current).1 ++ plain ++ rtxCodecs).filter fun c => stays (codec c).name :=
    fun x hx hx' => List.mem_filter.mpr ⟨List.mem_append_left _ hx, hx'⟩
  refine ⟨kept, added, ?_, hkept, hadded ▸ hrtx.few, fun p hp => ?_, fun p hp => ?_, ?_⟩
  · have hnone : plain.filter isRtxCodec = [] :=
      List.filter_eq_nil_iff.mpr fun y hy => by simp [hplain y hy]
    have hsome : rtxCodecs.filter isRtxCodec = rtxCodecs := List.filter_eq_self.mpr hrtxCodecs
    have hboth : ∀ l : List C, (l.filter fun c => stays (codec c).name).filter isRtxCodec =
        l.filter isRtxCodec := by
      intro l
      rw [List.filter_filter]
      refine List.filter_congr fun c _ => ?_
      cases hc : isRtxCodec c with
      | false => rfl
      | true => rw [hstays c hc]; rfl
    rw [hboth, List.filter_append, List.filter_append, hnone, hsome, List.append_nil,
      List.map_append, hkept', hadded']
  · obtain ⟨id, hid⟩ := hkeptId p hp
    have hr : p.1 ∈ current.filter isRtxCodec := hkept ▸ List.mem_map_of_mem hp
    obtain ⟨hr, hrtx⟩ := List.mem_filter.mp hr
    obtain ⟨c, hfor, hkeeps, hc⟩ := h.kept p.1 hr hrtx
    have hcurrent : c ∈ current := by
      obtain ⟨before, after, rfl, -⟩ := hkeeps
      exact List.mem_append_right _ List.mem_cons_self
    rw [hid]
    exact staysAttached_setId hcurrent hfor
      (hstay c (List.mem_append_left _ (mem_of_keepsId hkeeps)) hc) rfl
  · obtain ⟨e, he, hr, e', hentry, id, hx⟩ := haddedAs p hp
    obtain ⟨hmem, hisRtx, hnew, hid⟩ := hrtx.sound e he
    obtain ⟨hallStay, hor⟩ := h.added e.2 hmem hisRtx hnew
    rw [hx, ← hr]
    rcases hentry with hentry | ⟨rfl, hnone⟩
    · refine staysAttached_retargeted hisRtx hid hentry fun c hc hfor newId hnewId => ?_
      refine hstay _ hnewId ?_
      rw [codec_setId]
      exact hallStay c hc hfor
    · rcases hor with ⟨c, hfor, hadds⟩ | ⟨c, hc, hfor, d, hd, hsame⟩
      · exact absurd (Option.some.inj (hfor.id.symm.trans hid)) (hnone c hadds)
      · refine staysAttached_setId hc hfor (hstay d (List.mem_append_left _ hd) ?_) hsame
        have hname : (codec d).name = (codec c).name := congrArg Prod.fst hsame
        rw [hname]
        exact hallStay c hc hfor
  · intro r hr c hc hfor hnew
    obtain ⟨hunmatched, honly⟩ := h.own r hr c hc hfor hnew
    obtain ⟨e, he, hkey⟩ := hrtx.complete r hr c hfor hunmatched
    obtain ⟨hmem, hisRtx, hnone, hid⟩ := hrtx.sound e he
    have hsame := honly e.2 hmem ⟨hisRtx, hfor.plain, by rw [hid, hkey]⟩ hnone
    rw [hadded, ← hsame]
    exact List.mem_map_of_mem he

omit [LawfulCodec C] in
theorem rtxAttached_perm {current reference offered offered' : List C}
    (hperm : offered.Perm offered') (h : RtxAttached current reference offered) :
    RtxAttached current reference offered' := by
  obtain ⟨kept, added, h⟩ := h
  have hattached : ∀ {sources : List C} {r x : C}, StaysAttached sources offered r x →
      StaysAttached sources offered' r x := by
    rintro sources r x ⟨hsame, c, hc, hfor, y, hy, hrest⟩
    exact ⟨hsame, c, hc, hfor, y, hperm.mem_iff.mp hy, hrest⟩
  exact ⟨kept, added, (hperm.symm.filter _).trans h.all, h.all_kept, h.some_added,
    fun p hp => hattached (h.kept_attached p hp), fun p hp => hattached (h.added_attached p hp),
    h.none_lost⟩

omit [LawfulCodec C] in
theorem rtxAttached_of_none {current reference offered : List C}
    (hnone : ∀ c ∈ current ++ reference, isRtxCodec c = false)
    (hoffered : ∀ x ∈ offered, isRtxCodec x = false) : RtxAttached current reference offered := by
  have hempty : ∀ l : List C, (∀ c ∈ l, isRtxCodec c = false) → l.filter isRtxCodec = [] :=
    fun l hl => List.filter_eq_nil_iff.mpr fun c hc => by simp [hl c hc]
  refine ⟨[], [], ?_, ?_, List.nil_subperm, fun p hp => absurd hp List.not_mem_nil,
    fun p hp => absurd hp List.not_mem_nil, fun r hr c hc hfor => ?_⟩
  · rw [hempty _ hoffered]
    exact List.Perm.refl _
  · rw [hempty _ fun c hc => hnone c (List.mem_append_left _ hc)]
    rfl
  · have hr := hnone r (List.mem_append_right _ hr)
    rw [hfor.rtx] at hr
    cases hr

omit [LawfulCodec C] in
theorem aptsRefer_of_rtxAttached {current reference offered : List C}
    (h : RtxAttached current reference offered) : AptsRefer offered := by
  obtain ⟨kept, added, h⟩ := h
  intro x hx hrtx
  obtain ⟨p, hp, rfl⟩ := List.mem_map.mp (h.all.subset (List.mem_filter.mpr ⟨hx, hrtx⟩))
  rcases List.mem_append.mp hp with hp | hp
  · obtain ⟨-, -, -, -, y, hy, hfor, -⟩ := h.kept_attached p hp
    exact ⟨y, hy, hfor⟩
  · obtain ⟨-, -, -, -, y, hy, hfor, -⟩ := h.added_attached p hp
    exact ⟨y, hy, hfor⟩

omit [LawfulCodec C] in
theorem length_of_rtxAttached {current reference offered : List C} {r c : C}
    (h : RtxAttached current reference offered) (hr : r ∈ reference) (hc : c ∈ reference)
    (hfor : IsFor r c) (hnew : findMatchingCodec current c = false) :
    (current.filter isRtxCodec).length < (offered.filter isRtxCodec).length := by
  obtain ⟨kept, added, h⟩ := h
  have hadded := List.length_pos_of_mem (h.none_lost r hr c hc hfor hnew)
  rw [List.length_map] at hadded
  rw [h.all.length_eq, List.length_map, List.length_append, ← h.all_kept, List.length_map]
  omega

/-- A list is sorted in its place, if the assignment of a codec leaves something of the one that is
there. -/
def SortsInPlace (current reference codecs : List C) : Prop :=
  (∀ a b : C, assign a b = b) ∨ (∀ c ∈ current ++ reference, isRtxCodec c = false) ∨
    codecs.Pairwise fun a b => preference b ≤ preference a

theorem rtxAttached_sortCodecs {current reference codecs : List C}
    (hsort : SortsInPlace current reference codecs) (h : RtxAttached current reference codecs) :
    RtxAttached current reference (sortCodecs codecs) := by
  rcases hsort with hcopies | hnone | hsorted
  · have hsame : ∀ slots sorted : List C, slots.length = sorted.length →
        List.zipWith assign slots sorted = sorted := by
      intro slots sorted hlength
      induction slots generalizing sorted with
      | nil => rw [List.length_eq_zero_iff.mp hlength.symm, List.zipWith_nil_left]
      | cons slot slots ih =>
        cases sorted with
        | nil => cases hlength
        | cons c sorted => rw [List.zipWith_cons_cons, hcopies, ih sorted (Nat.succ.inj hlength)]
    refine rtxAttached_perm ?_ h
    rw [sortCodecs, hsame _ _ (List.length_insertionSort _ _).symm]
    exact (List.perm_insertionSort _ _).symm
  · refine rtxAttached_of_none hnone fun x hx => ?_
    obtain ⟨kept, added, h⟩ := h
    have hentry : codecEntry x ∈ codecs.map codecEntry :=
      (map_codecEntry_sortCodecs codecs).subset (List.mem_map_of_mem hx)
    obtain ⟨c, hc, hsame⟩ := List.mem_map.mp hentry
    have hname : isRtxCodec c = isRtxCodec x :=
      congrArg (fun e : NamedId => stricmpEq e.1 kRtxCodecName) hsame
    rw [← hname, ← Bool.not_eq_true]
    intro hrtx
    obtain ⟨p, hp, -⟩ := List.mem_map.mp (h.all.subset (List.mem_filter.mpr ⟨hc, hrtx⟩))
    have hsource : p.1 ∈ (current ++ reference).filter isRtxCodec := by
      rw [List.filter_append]
      refine List.mem_append.mpr ((List.mem_append.mp hp).imp (fun hp => ?_) fun hp => ?_)
      · exact h.all_kept ▸ List.mem_map_of_mem hp
      · exact h.some_added.subset (List.mem_map_of_mem hp)
    obtain ⟨hmem, hisRtx⟩ := List.mem_filter.mp hsource
    rw [hnone _ hmem] at hisRtx
    cases hisRtx
  · have hsame : codecs.insertionSort (fun a b => (codec a).preference ≥ (codec b).preference) =
        codecs := hsorted.insertionSort_eq
    rw [sortCodecs, hsame, zipWith_assign_self]
    exact h

theorem bounded_findCodecsToOffer {reference offered codecs : List C} {used used' : UsedIds}
    (hused : Bounded used) (h : findCodecsToOffer reference offered used = some (codecs, used')) :
    Bounded used' := by
  obtain ⟨rtx, -, -, rfl⟩ := findCodecsToOffer_some h
  exact bounded_numbered (offering_offerPlain reference hused rtx).bounded _

end Lawful

end Codecs

end Libjingle
