import Libjingle.Media.AnswerContents
import Libjingle.Media.UsedIds
import Mathlib.Data.List.Perm.Basic
import Mathlib.Data.List.Perm.Subperm

/-! The ids of the codecs and the header extensions that are offered. Those of the current
description are gone over first, and then those that are new, with the same used ids. -/

namespace Libjingle

open UsedIds

section Codecs

open IsCodec

variable {C : Type} [IsCodec C]

def codecEntry (c : C) : NamedId := ((codec c).name, IsCodec.id c)

/-- The codecs that are not there yet. -/
def newCodecs (reference offered : List C) : List C :=
  reference.filter fun c => !findMatchingCodec offered c

end Codecs

def extensionEntry (ext : RtpHeaderExtension) : NamedId := (ext.uri, ext.id)

def newExtensions (reference offered : List RtpHeaderExtension) : List RtpHeaderExtension :=
  reference.filter fun ext => (findByUri offered ext.uri).isNone

namespace UsedIds

variable {u v w : UsedIds}

def Renumbered (u : UsedIds) (sources ids : List NamedId) : Prop :=
  ∃ originals : List NamedId, originals.Subperm sources ∧
    List.Forall₂ (Kept u.minAllowedId u.maxAllowedId) originals ids

/-- Lists with no id of the range twice, each of them from its own sources. -/
structure Chosen (u : UsedIds) (lists : List (List NamedId × List NamedId)) : Prop where
  distinct : (((lists.flatMap (·.2)).map (·.2)).filter u.contains).Nodup
  kept : ∀ l ∈ lists, Renumbered u l.1 l.2

theorem kept_of_subperm {lo hi : Int} {originals ids ids' : List NamedId}
    (h : List.Forall₂ (Kept lo hi) originals ids) (hsub : ids'.Subperm ids) :
    ∃ originals' : List NamedId, originals'.Subperm originals ∧
      List.Forall₂ (Kept lo hi) originals' ids' := by
  obtain ⟨middle, hperm, hsublist⟩ := hsub
  have hfew : ∃ few : List NamedId, few.Sublist originals ∧
      List.Forall₂ (Kept lo hi) few middle := by
    induction h generalizing middle ids' with
    | nil =>
      rw [List.sublist_nil] at hsublist
      rw [hsublist]
      exact ⟨[], List.Sublist.refl _, .nil⟩
    | @cons a b originals ids hab _ ih =>
      rcases List.sublist_cons_iff.mp hsublist with hrest | ⟨rest, rfl, hrest⟩
      · obtain ⟨few, hfew, hkept⟩ := ih middle (.refl _) hrest
        exact ⟨few, hfew.cons _, hkept⟩
      · obtain ⟨few, hfew, hkept⟩ := ih rest (.refl _) hrest
        exact ⟨a :: few, hfew.cons_cons _, .cons hab hkept⟩
  obtain ⟨few, hfew, hkept⟩ := hfew
  have hboth : Relation.Comp (List.Forall₂ (Kept lo hi)) List.Perm few ids' :=
    ⟨middle, hkept, hperm⟩
  rw [List.forall₂_comp_perm_eq_perm_comp_forall₂] at hboth
  obtain ⟨originals', hperm', hkept'⟩ := hboth
  exact ⟨originals', hperm'.symm.subperm.trans hfew.subperm, hkept'⟩

theorem Renumbered.subperm {sources ids ids' : List NamedId} (h : Renumbered u sources ids)
    (hsub : ids'.Subperm ids) : Renumbered u sources ids' := by
  obtain ⟨originals, hsources, hkept⟩ := h
  obtain ⟨originals', hsub', hkept'⟩ := kept_of_subperm hkept hsub
  exact ⟨originals', hsub'.trans hsources, hkept'⟩

/-- From the same sources, and no others of the ids. -/
def Fewer (a b : List NamedId × List NamedId) : Prop := a.1 = b.1 ∧ a.2.Subperm b.2

theorem Chosen.fewer {lists middle lists' : List (List NamedId × List NamedId)}
    (h : Chosen u lists) (hsub : middle.Sublist lists) (hfewer : List.Forall₂ Fewer lists' middle) :
    Chosen u lists' := by
  have hmiddle : (middle.flatMap (·.2)).Sublist (lists.flatMap (·.2)) := by
    clear hfewer h
    induction hsub with
    | slnil => exact List.Sublist.refl _
    | cons a _ ih => exact ih.trans (List.sublist_append_right _ _)
    | cons_cons a _ ih => exact (List.Sublist.refl a.2).append ih
  have hids : (lists'.flatMap (·.2)).Subperm (middle.flatMap (·.2)) := by
    clear hmiddle hsub
    induction hfewer with
    | nil => exact List.Subperm.refl _
    | cons hab _ ih => exact hab.2.append ih
  have hkept : ∀ l ∈ lists', Renumbered u l.1 l.2 := by
    have hall : ∀ l ∈ middle, Renumbered u l.1 l.2 := fun l hl => h.kept l (hsub.subset hl)
    clear hmiddle hids hsub
    induction hfewer with
    | nil => exact fun l hl => absurd hl List.not_mem_nil
    | @cons a b _ _ hab _ ih =>
      intro l hl
      rcases List.mem_cons.mp hl with rfl | hl
      · rw [hab.1]
        exact (hall b List.mem_cons_self).subperm hab.2
      · exact ih (fun l hl => hall l (List.mem_cons_of_mem _ hl)) l hl
  refine ⟨?_, hkept⟩
  obtain ⟨some, hperm, hsome⟩ := (hids.trans hmiddle.subperm)
  exact ((hperm.map _).filter _).nodup_iff.mp (h.distinct.sublist ((hsome.map _).filter _))

end UsedIds

section Codecs

open IsCodec

variable {C : Type} [IsCodec C] [LawfulCodec C] {u v w : UsedIds}

@[simp] theorem codecEntry_setId (c : C) (id : Int) :
    codecEntry (setId c id) = ((codecEntry c).1, id) := by
  simp [codecEntry, setId, IsCodec.id, LawfulCodec.codec_setCodec]

@[simp] theorem codecEntry_setParam (c : C) (key value : String) :
    codecEntry (setParam c key value) = codecEntry c := by
  simp [codecEntry, setParam, IsCodec.id, LawfulCodec.codec_setCodec]

theorem codecEntry_assign (a b : C) : codecEntry (assign a b) = codecEntry b :=
  Prod.ext (LawfulCodec.name_assign a b) (LawfulCodec.id_assign a b)

theorem map_codecEntry_sortCodecs (codecs : List C) :
    ((sortCodecs codecs).map codecEntry).Perm (codecs.map codecEntry) := by
  have hsame : ∀ slots sorted : List C, slots.length = sorted.length →
      (List.zipWith assign slots sorted).map codecEntry = sorted.map codecEntry := by
    intro slots sorted hlength
    induction slots generalizing sorted with
    | nil =>
      rw [List.length_eq_zero_iff.mp hlength.symm]
      rfl
    | cons slot slots ih =>
      cases sorted with
      | nil => cases hlength
      | cons c sorted =>
        rw [List.zipWith_cons_cons, List.map_cons, List.map_cons, codecEntry_assign,
          ih sorted (Nat.succ.inj hlength)]
  rw [sortCodecs, hsame _ _ (List.length_insertionSort _ _).symm]
  exact (List.perm_insertionSort _ _).map codecEntry

theorem codecEntry_stripCNCodecs (codecs : List AudioCodec) :
    ((stripCNCodecs codecs).map codecEntry).Sublist (codecs.map codecEntry) :=
  List.filter_sublist.map codecEntry

omit [LawfulCodec C] in
theorem findMatchingCodec_append {l more : List C} {c : C}
    (h : findMatchingCodec (l ++ more) c = false) : findMatchingCodec l c = false := by
  rw [findMatchingCodec, List.any_append, Bool.or_eq_false_iff] at h
  exact h.1

omit [IsCodec C] [LawfulCodec C] in
theorem subperm_insertNew (key : Int) (c : C) (rtx : List (Int × C)) :
    (insertNew key c rtx).Subperm ((key, c) :: rtx) := by
  induction rtx with
  | nil => exact List.Subperm.refl _
  | cons e rest ih =>
    rw [insertNew]
    by_cases hlt : key < e.1
    · simp only [if_pos hlt]
      exact List.Subperm.refl _
    · rw [if_neg hlt]
      by_cases heq : key = e.1
      · rw [if_pos heq]
        exact (List.sublist_cons_self _ _).subperm
      · rw [if_neg heq]
        exact ((List.subperm_cons _).mpr ih).trans (List.Perm.swap _ _ _).subperm

omit [IsCodec C] [LawfulCodec C] in
theorem exists_key_insertNew {key : Int} {c : C} {rtx : List (Int × C)} {k : Int}
    (h : k = key ∨ ∃ e ∈ rtx, e.1 = k) : ∃ e ∈ insertNew key c rtx, e.1 = k := by
  induction rtx with
  | nil =>
    rcases h with rfl | ⟨e, he, -⟩
    · exact ⟨_, List.mem_cons_self, rfl⟩
    · exact absurd he List.not_mem_nil
  | cons e rest ih =>
    rw [insertNew]
    by_cases hlt : key < e.1
    · rw [if_pos hlt]
      rcases h with rfl | ⟨other, hother, hk⟩
      · exact ⟨_, List.mem_cons_self, rfl⟩
      · exact ⟨other, List.mem_cons_of_mem _ hother, hk⟩
    · rw [if_neg hlt]
      by_cases heq : key = e.1
      · rw [if_pos heq]
        rcases h with rfl | hold
        · exact ⟨e, List.mem_cons_self, heq.symm⟩
        · exact hold
      · rw [if_neg heq]
        by_cases hhead : e.1 = k
        · exact ⟨e, List.mem_cons_self, hhead⟩
        · obtain ⟨other, hother, hk⟩ := ih (h.imp_right (by
            rintro ⟨other, hother, hk⟩
            rcases List.mem_cons.mp hother with rfl | hother
            · exact absurd hk hhead
            · exact ⟨other, hother, hk⟩))
          exact ⟨other, List.mem_cons_of_mem _ hother, hk⟩

def aptText (c : C) : String := (getParam c kCodecParamAssociatedPayloadType).getD ""

def withApt (c : C) : C := setParam c kCodecParamAssociatedPayloadType (aptText c)

def IsEntryOf (e : Int × C) (r : C) : Prop :=
  e.2 = withApt r ∧ (extractInt (aptText r)).1 = some e.1

structure RtxEntries (codecs : List C) (rtx : List (Int × C)) : Prop where
  few : (rtx.map (·.2)).Subperm (codecs.map withApt)
  sound : ∀ e ∈ rtx, ∃ r ∈ codecs, IsEntryOf e r
  complete : ∀ r ∈ codecs, ∃ e ∈ rtx, (extractInt (aptText r)).1 = some e.1

omit [LawfulCodec C] in
theorem rtxEntries_insertNew {codecs : List C} {rtx : List (Int × C)} {c : C} {key : Int}
    (h : RtxEntries codecs rtx) (hkey : (extractInt (aptText c)).1 = some key) :
    RtxEntries (codecs ++ [c]) (insertNew key (withApt c) rtx) := by
  have hsub := subperm_insertNew key (withApt c) rtx
  refine ⟨?_, fun e he => ?_, fun r hr => ?_⟩
  · obtain ⟨middle, hperm, hsublist⟩ := hsub
    rw [List.map_append, List.map_singleton]
    refine List.Subperm.trans ⟨middle.map (·.2), hperm.map _, hsublist.map _⟩ ?_
    rw [List.map_cons]
    exact ((List.subperm_cons _).mpr h.few).trans (List.perm_append_singleton _ _).symm.subperm
  · rcases List.mem_cons.mp (hsub.subset he) with rfl | hold
    · exact ⟨c, List.mem_append_right _ List.mem_cons_self, rfl, hkey⟩
    · obtain ⟨r, hr, hentry⟩ := h.sound e hold
      exact ⟨r, List.mem_append_left _ hr, hentry⟩
  · rcases List.mem_append.mp hr with hold | hnew
    · obtain ⟨e, he, hk⟩ := h.complete r hold
      obtain ⟨e', he', hsame⟩ := exists_key_insertNew (c := withApt c)
        (.inr ⟨e, he, rfl⟩)
      exact ⟨e', he', hsame ▸ hk⟩
    · rw [List.mem_singleton.mp hnew]
      obtain ⟨e, he, hk⟩ := exists_key_insertNew (c := withApt c)
        (.inl (rfl : key = key))
      exact ⟨e, he, hk ▸ hkey⟩

omit [LawfulCodec C] in
theorem rtxEntries_newRtxCodecs {reference offered : List C} {rtx : List (Int × C)}
    (h : newRtxCodecs reference offered = some rtx) :
    RtxEntries ((newCodecs reference offered).filter isRtxCodec) rtx := by
  have hall : ∀ (codecs before : List C) (start result : List (Int × C)),
      RtxEntries before start →
      codecs.foldlM (fun rtx c =>
        let apt := (getParam c kCodecParamAssociatedPayloadType).getD ""
        (extractInt apt).1.map fun referenced =>
          insertNew referenced (setParam c kCodecParamAssociatedPayloadType apt) rtx) start =
        some result →
      RtxEntries (before ++ codecs) result := by
    intro codecs
    induction codecs with
    | nil =>
      intro before start result hstart hresult
      cases hresult
      rw [List.append_nil]
      exact hstart
    | cons c codecs ih =>
      intro before start result hstart hresult
      rw [List.foldlM_cons] at hresult
      obtain ⟨next, hnext, hresult⟩ := Option.bind_eq_some_iff.mp hresult
      obtain ⟨key, hkey, rfl⟩ := Option.map_eq_some_iff.mp hnext
      have hrest := ih (before ++ [c]) _ result (rtxEntries_insertNew hstart hkey) hresult
      rw [List.append_assoc] at hrest
      exact hrest
  have hfilter : (reference.filter fun c => !findMatchingCodec offered c && isRtxCodec c) =
      (newCodecs reference offered).filter isRtxCodec := by
    rw [newCodecs, List.filter_filter]
    exact List.filter_congr fun c _ => Bool.and_comm _ _
  rw [newRtxCodecs, hfilter] at h
  exact hall _ [] [] rtx ⟨List.Subperm.refl _, fun e he => absurd he List.not_mem_nil,
    fun r hr => absurd hr List.not_mem_nil⟩ h

theorem newRtxCodecs_subperm {reference offered : List C} {rtx : List (Int × C)}
    (h : newRtxCodecs reference offered = some rtx) :
    (rtx.map fun e => codecEntry e.2).Subperm
      (((newCodecs reference offered).filter isRtxCodec).map codecEntry) := by
  obtain ⟨middle, hperm, hsublist⟩ := (rtxEntries_newRtxCodecs h).few
  have hentries : ∀ l : List C, (l.map withApt).map codecEntry = l.map codecEntry := by
    intro l
    rw [List.map_map]
    exact List.map_congr_left fun c _ => codecEntry_setParam c _ _
  have hsub := hsublist.map codecEntry
  have hperm := hperm.map codecEntry
  rw [hentries] at hsub
  rw [List.map_map] at hperm
  exact ⟨middle.map codecEntry, hperm, hsub⟩

theorem findMatchingCodec_findAndSetIdsUsed {l : List C} {c : C}
    (hmin : kMaxStaticPayloadId < u.minAllowedId)
    (h : List.Forall₂ (Kept u.minAllowedId u.maxAllowedId) (l.map codecEntry)
      ((findAndSetIdsUsed IsCodec.id setId v l).1.map codecEntry)) :
    findMatchingCodec (findAndSetIdsUsed IsCodec.id setId v l).1 c = findMatchingCodec l c := by
  induction l generalizing v with
  | nil => rfl
  | cons a rest ih =>
    rw [findAndSetIdsUsed] at h ⊢
    dsimp only at h ⊢
    obtain ⟨hkept, hrest⟩ := List.forall₂_cons.mp h
    rw [codecEntry_setId] at hkept
    have hmatch : isMatch (setId a (v.findAndSetIdUsed (IsCodec.id a)).1) c = isMatch a c := by
      by_cases hin : isInRange u.minAllowedId u.maxAllowedId (IsCodec.id a) = true
      · have hnew := isInRange_iff.mp (hkept.range.trans hin)
        have hold := isInRange_iff.mp hin
        exact LawfulCodec.isMatch_setId _ _ _ (by omega) (by
          have := hnew.1
          dsimp only at this
          omega)
      · have hsame := hkept.outside (Bool.eq_false_iff.mpr hin)
        dsimp only at hsame
        rw [hsame]
        exact congrArg (isMatch · c) (LawfulCodec.setCodec_codec a)
    rw [findMatchingCodec, findMatchingCodec, List.any_cons, List.any_cons, hmatch]
    exact congrArg _ (ih hrest)

theorem assigned_codecs (h : Valid u) {l : List C}
    (hroom : u.count (l.map codecEntry) + u.idSet.length ≤ u.size) :
    Assigned u (l.map codecEntry) ((findAndSetIdsUsed IsCodec.id setId u l).1.map codecEntry)
      (findAndSetIdsUsed IsCodec.id setId u l).2 :=
  assigned_findAndSetIdsUsed (fun c id => codecEntry_setId c id) h hroom

theorem newCodecs_findAndSetIdsUsed (reference : List C) {l : List C}
    (hmin : kMaxStaticPayloadId < u.minAllowedId)
    (h : List.Forall₂ (Kept u.minAllowedId u.maxAllowedId) (l.map codecEntry)
      ((findAndSetIdsUsed IsCodec.id setId v l).1.map codecEntry)) :
    newCodecs reference (findAndSetIdsUsed IsCodec.id setId v l).1 = newCodecs reference l := by
  rw [newCodecs, newCodecs]
  refine List.filter_congr fun c _ => ?_
  rw [findMatchingCodec_findAndSetIdsUsed hmin h]

theorem foldl_offerCodec {base reference offered : List C} {rtx : List (Int × C)}
    (hbase : ∀ c, findMatchingCodec offered c = false → findMatchingCodec base c = false)
    (h : Valid u) (hroom : u.count (((newCodecs reference base).filter fun c => !isRtxCodec c).map
      codecEntry) + u.idSet.length ≤ u.size)
    {result : List C × UsedIds × List (Int × C)}
    (hresult : reference.foldl (fun s c => offerCodec s.1 s.2.1 s.2.2 c) (offered, u, rtx) =
      result) :
    ∃ (originals : List NamedId) (added : List C), result.1 = offered ++ added ∧
      originals.Sublist (((newCodecs reference base).filter fun c => !isRtxCodec c).map
        codecEntry) ∧
      Assigned u originals (added.map codecEntry) result.2.1 ∧
      (result.2.2.map fun e => codecEntry e.2) = rtx.map fun e => codecEntry e.2 := by
  induction reference generalizing offered u rtx with
  | nil =>
    cases hresult
    exact ⟨[], [], (List.append_nil _).symm, List.Sublist.refl _, .refl h, rfl⟩
  | cons c reference ih =>
    rw [List.foldl_cons] at hresult
    have hnew : newCodecs (c :: reference) base =
        (if findMatchingCodec base c then [] else [c]) ++ newCodecs reference base := by
      rw [newCodecs, List.filter_cons]
      by_cases hc : findMatchingCodec base c = true
      · simp [hc, newCodecs]
      · simp [hc, newCodecs]
    by_cases hadd : (!findMatchingCodec offered c && !isRtxCodec c) = true
    · obtain ⟨hmatch, hrtx⟩ := Bool.and_eq_true_iff.mp hadd
      have hfound := hbase c (by simpa using hmatch)
      rw [hnew, hfound, if_neg (by simp), List.filter_append, List.map_append,
        List.filter_cons, if_pos hrtx, List.filter_nil, List.map_singleton] at hroom ⊢
      have hfirst := assigned_findAndSetIdUsed h (codecEntry c).1 fun hin => by
        have hcount : u.count [codecEntry c] = 1 := by
          rw [count, List.countP_singleton]
          exact if_pos hin
        have hle : u.count [codecEntry c] ≤ u.count ([codecEntry c] ++
            ((newCodecs reference base).filter fun c => !isRtxCodec c).map codecEntry) := by
          rw [count, count, List.countP_append]
          omega
        omega
      rw [offerCodec, if_pos hadd] at hresult
      dsimp only at hresult
      obtain ⟨originals, added, hcodecs, hsub, hassigned, hsame⟩ := ih (fun d hd =>
        hbase d (findMatchingCodec_append hd)) hfirst.valid (hfirst.room hroom) hresult
      refine ⟨codecEntry c :: originals, setId c (u.findAndSetIdUsed (IsCodec.id c)).1 :: added, ?_,
        hsub.cons_cons _, ?_, ?_⟩
      · rw [hcodecs, List.append_assoc]
        rfl
      · rw [List.map_cons, codecEntry_setId]
        exact hfirst.trans hassigned
      · rw [hsame, List.map_map]
        refine List.map_congr_left fun e _ => ?_
        rw [Function.comp_apply]
        split
        · exact codecEntry_setParam _ _ _
        · rfl
    · rw [offerCodec, if_neg hadd] at hresult
      have hmore : (((newCodecs reference base).filter fun c => !isRtxCodec c).map
          codecEntry).Sublist (((newCodecs (c :: reference) base).filter fun c =>
            !isRtxCodec c).map codecEntry) := by
        rw [hnew, List.filter_append, List.map_append]
        exact List.sublist_append_right _ _
      obtain ⟨originals, added, hcodecs, hsub, hrest⟩ := ih hbase h
        (le_trans (Nat.add_le_add_right hmore.countP_le _) hroom) hresult
      exact ⟨originals, added, hcodecs, hsub.trans hmore, hrest⟩

theorem assigned_findCodecsToOffer {reference offered codecs : List C} (h : Valid u)
    (hroom : u.count ((newCodecs reference offered).map codecEntry) + u.idSet.length ≤ u.size)
    (hcodecs : findCodecsToOffer reference offered u = some (codecs, v)) :
    ∃ (originals : List NamedId) (added : List C), codecs = offered ++ added ∧
      originals.Subperm ((newCodecs reference offered).map codecEntry) ∧
      Assigned u originals (added.map codecEntry) v := by
  obtain ⟨rtx, hrtx, hcodecs⟩ := Option.map_eq_some_iff.mp hcodecs
  have hrtx := newRtxCodecs_subperm hrtx
  have hparts : (((newCodecs reference offered).filter fun c => !isRtxCodec c).map codecEntry ++
      ((newCodecs reference offered).filter isRtxCodec).map codecEntry).Perm
        ((newCodecs reference offered).map codecEntry) := by
    rw [← List.map_append]
    exact (List.perm_append_comm.trans (List.filter_append_perm _ _)).map codecEntry
  have hcount := hparts.countP_eq fun e => u.contains e.2
  rw [List.countP_append] at hcount
  cases hfold : reference.foldl (fun s c => offerCodec s.1 s.2.1 s.2.2 c) (offered, u, rtx) with
  | mk plain rest =>
    obtain ⟨originals, added, hplain, hsub, hassigned, hsame⟩ := foldl_offerCodec
      (fun c hc => hc) h (by
        rw [count] at hroom ⊢
        omega) hfold
    rw [hfold] at hcodecs
    dsimp only at hcodecs hplain hassigned hsame
    have hentries : ((rest.2.map (·.2)).map codecEntry) = rtx.map fun e => codecEntry e.2 := by
      rw [List.map_map]
      exact hsame
    have hrest := assigned_codecs hassigned.valid (l := rest.2.map (·.2)) (hassigned.room (by
        rw [hentries, count, List.countP_append]
        have hfirst := hsub.countP_le (p := fun e => u.contains e.2)
        have hsecond := hrtx.countP_le fun e => u.contains e.2
        rw [count] at hroom
        omega))
    obtain ⟨hall, hused⟩ := Prod.mk.inj hcodecs
    refine ⟨originals ++ (rest.2.map (·.2)).map codecEntry,
      added ++ (findAndSetIdsUsed IsCodec.id setId rest.1 (rest.2.map (·.2))).1, ?_, ?_, ?_⟩
    · rw [← hall, hplain, List.append_assoc]
    · rw [hentries]
      exact (hsub.subperm.append hrtx).trans hparts.subperm
    · rw [← hused, List.map_append]
      exact hassigned.trans hrest

end Codecs

section Extensions

variable {u v : UsedIds}

theorem assigned_findRtpHdrExtsToOffer (reference : List RtpHeaderExtension)
    {offered : List RtpHeaderExtension} (h : Valid u)
    {base : List RtpHeaderExtension} (hbase : ∀ ext : RtpHeaderExtension,
      (findByUri offered ext.uri).isSome = false → (findByUri base ext.uri).isNone = true)
    (hroom : u.count ((newExtensions reference base).map extensionEntry) + u.idSet.length ≤
      u.size) :
    ∃ (originals : List NamedId) (added : List RtpHeaderExtension),
      (findRtpHdrExtsToOffer reference offered u).1 = offered ++ added ∧
      originals.Sublist ((newExtensions reference base).map extensionEntry) ∧
      Assigned u originals (added.map extensionEntry)
        (findRtpHdrExtsToOffer reference offered u).2 := by
  induction reference generalizing offered u with
  | nil => exact ⟨[], [], (List.append_nil _).symm, List.Sublist.refl _, .refl h⟩
  | cons ext reference ih =>
    have hmore : ((newExtensions reference base).map extensionEntry).Sublist
        ((newExtensions (ext :: reference) base).map extensionEntry) :=
      ((List.sublist_cons_self _ _).filter _).map _
    by_cases hfound : (findByUri offered ext.uri).isSome = true
    · have hskip : findRtpHdrExtsToOffer (ext :: reference) offered u =
          findRtpHdrExtsToOffer reference offered u := by
        rw [findRtpHdrExtsToOffer, List.foldl_cons]
        dsimp only
        rw [if_pos hfound]
        rfl
      obtain ⟨originals, added, hexts, hsub, hassigned⟩ := ih h hbase
        (le_trans (Nat.add_le_add_right hmore.countP_le _) hroom)
      rw [hskip]
      exact ⟨originals, added, hexts, hsub.trans hmore, hassigned⟩
    · have hadd : findRtpHdrExtsToOffer (ext :: reference) offered u =
          findRtpHdrExtsToOffer reference
            (offered ++ [{ ext with id := (u.findAndSetIdUsed ext.id).1 }])
            (u.findAndSetIdUsed ext.id).2 := by
        rw [findRtpHdrExtsToOffer, List.foldl_cons]
        dsimp only
        rw [if_neg hfound]
        rfl
      have hnew : (newExtensions (ext :: reference) base).map extensionEntry =
          extensionEntry ext :: (newExtensions reference base).map extensionEntry := by
        rw [newExtensions, List.filter_cons, if_pos (hbase ext (Bool.eq_false_iff.mpr hfound))]
        rfl
      rw [hnew] at hroom ⊢
      have hfirst := @assigned_findAndSetIdUsed u h ext.uri ext.id fun hin => by
        have hcons : u.count (extensionEntry ext ::
            (newExtensions reference base).map extensionEntry) =
              u.count ((newExtensions reference base).map extensionEntry) + 1 := by
          rw [count, List.countP_cons]
          exact congrArg _ (if_pos hin)
        omega
      have hnext : ∀ other : RtpHeaderExtension,
          (findByUri (offered ++ [{ ext with id := (u.findAndSetIdUsed ext.id).1 }])
            other.uri).isSome = false → (findByUri base other.uri).isNone = true := by
        intro other hother
        refine hbase other ?_
        rw [findByUri, List.find?_append, Option.isSome_or, Bool.or_eq_false_iff] at hother
        exact hother.1
      obtain ⟨originals, added, hexts, hsub, hassigned⟩ :=
        ih hfirst.valid hnext (hfirst.room hroom)
      rw [hadd]
      refine ⟨extensionEntry ext :: originals,
        { ext with id := (u.findAndSetIdUsed ext.id).1 } :: added, ?_, hsub.cons_cons _,
        hfirst.trans hassigned⟩
      rw [hexts, List.append_assoc]
      rfl

theorem isSome_findByUri {extensions : List RtpHeaderExtension} {uri : String} :
    (findByUri extensions uri).isSome = true ↔ uri ∈ (extensions.map extensionEntry).map (·.1) := by
  rw [findByUri, List.find?_isSome, List.map_map]
  simp [extensionEntry]

theorem isNone_findByUri {extensions extensions' : List RtpHeaderExtension} {lo hi : Int}
    (h : List.Forall₂ (Kept lo hi) (extensions.map extensionEntry)
      (extensions'.map extensionEntry)) (ext : RtpHeaderExtension)
    (hnot : (findByUri extensions' ext.uri).isSome = false) :
    (findByUri extensions ext.uri).isNone = true := by
  have hnames : ∀ l l' : List NamedId, List.Forall₂ (Kept lo hi) l l' →
      l'.map (·.1) = l.map (·.1) := by
    intro l l' hkept
    induction hkept with
    | nil => rfl
    | cons hab _ ih => rw [List.map_cons, List.map_cons, hab.name, ih]
  rw [← Option.not_isSome, Bool.not_eq_true', Bool.eq_false_iff]
  intro hfound
  have hmem := isSome_findByUri.mp hfound
  rw [← hnames _ _ h, ← isSome_findByUri, hnot] at hmem
  cases hmem

theorem assigned_extensions (h : Valid u) {l : List RtpHeaderExtension}
    (hroom : u.count (l.map extensionEntry) + u.idSet.length ≤ u.size) :
    Assigned u (l.map extensionEntry)
      ((findAndSetIdsUsed (·.id) (fun ext id => { ext with id }) u l).1.map extensionEntry)
      (findAndSetIdsUsed (·.id) (fun ext id => { ext with id }) u l).2 :=
  assigned_findAndSetIdsUsed (fun _ _ => rfl) h hroom

end Extensions

def MediaDescription.codecEntries : MediaDescription → List NamedId
  | .audio d => d.codecs.map codecEntry
  | .video d => d.codecs.map codecEntry
  | .data d => d.codecs.map codecEntry

def MediaDescription.extensionEntries (d : MediaDescription) : List NamedId :=
  d.media.rtpHeaderExtensions.map extensionEntry

def listed (sources : MediaType → List NamedId) (g : MediaDescription → List NamedId)
    (content : MediaContentInfo) : List NamedId × List NamedId :=
  (mediaDescription content).elim ([], []) fun d => (sources d.type, g d)

theorem listed_withCryptos {sources : MediaType → List NamedId}
    {g : MediaDescription → List NamedId}
    (hg : ∀ (d : MediaDescription) (cryptos : List CryptoParams), g (d.setCryptos cryptos) = g d)
    (cryptos : List CryptoParams) (content : MediaContentInfo) :
    listed sources g (withCryptos cryptos content) = listed sources g content := by
  rw [listed, listed, mediaDescription_withCryptos]
  cases mediaDescription content with
  | none => rfl
  | some d =>
    rw [Option.map_some, Option.elim_some, Option.elim_some, hg, MediaDescription.type_setCryptos]

namespace MediaSessionDescriptionFactory

section Chosen

variable (f : MediaSessionDescriptionFactory) (current : Option MediaSessionDescription)

/-- What the first content of a kind in the current description has. -/
def currentOf {α : Type} (type : MediaType) (g : MediaDescription → List α) : List α :=
  (getFirstMediaContentDescription current type).elim [] g

def currentExtensions (type : MediaType) : List RtpHeaderExtension :=
  currentOf current type (·.media.rtpHeaderExtensions)

/-- The current codecs, and those that are supported and match none of them. -/
def codecsToOffer : List NamedId :=
  (currentOf current .audio (·.audioCodecs)).map codecEntry ++
    (currentOf current .video (·.videoCodecs)).map codecEntry ++
    (currentOf current .data (·.dataCodecs)).map codecEntry ++
    (newCodecs f.audioCodecs (currentOf current .audio (·.audioCodecs))).map codecEntry ++
    (newCodecs f.videoCodecs (currentOf current .video (·.videoCodecs))).map codecEntry ++
    (newCodecs f.dataCodecs (currentOf current .data (·.dataCodecs))).map codecEntry

def extensionsToOffer : List NamedId :=
  (currentExtensions current .audio).map extensionEntry ++
    (currentExtensions current .video).map extensionEntry ++
    (newExtensions f.audioRtpExtensions (currentExtensions current .audio)).map extensionEntry ++
    (newExtensions f.videoRtpExtensions (currentExtensions current .video)).map extensionEntry

def codecSources : MediaType → List NamedId
  | .audio => (currentOf current .audio (·.audioCodecs) ++ f.audioCodecs).map codecEntry
  | .video => (currentOf current .video (·.videoCodecs) ++ f.videoCodecs).map codecEntry
  | .data => (currentOf current .data (·.dataCodecs) ++ f.dataCodecs).map codecEntry

def extensionSources : MediaType → List NamedId
  | .audio => (currentExtensions current .audio ++ f.audioRtpExtensions).map extensionEntry
  | .video => (currentExtensions current .video ++ f.videoRtpExtensions).map extensionEntry
  | .data => []

end Chosen

variable {f : MediaSessionDescriptionFactory} {current : Option MediaSessionDescription}

theorem valid_usedPayloadTypes : Valid usedPayloadTypes where
  nodup := List.nodup_nil
  range _ hid := absurd hid List.not_mem_nil
  above _ hlt hle := absurd hle (not_le.mpr hlt)
  next := le_refl _

theorem valid_usedRtpHeaderExtensionIds : Valid usedRtpHeaderExtensionIds where
  nodup := List.nodup_nil
  range _ hid := absurd hid List.not_mem_nil
  above _ hlt hle := absurd hle (not_le.mpr hlt)
  next := le_refl _

theorem elim_currentOf {α : Type} {type : MediaType} {g : MediaDescription → List α} :
    (getFirstMediaContentDescription current type).elim [] g = currentOf current type g := rfl

theorem renumbered_append {u v v' w w' : UsedIds} {here here' originals added new : List NamedId}
    (h : Assigned v here here' v') (h' : Assigned w originals added w')
    (hv : v.minAllowedId = u.minAllowedId ∧ v.maxAllowedId = u.maxAllowedId)
    (hw : w.minAllowedId = u.minAllowedId ∧ w.maxAllowedId = u.maxAllowedId)
    (hsub : originals.Subperm new) : Renumbered u (here ++ new) (here' ++ added) := by
  have hkept := h.kept
  have hkept' := h'.kept
  rw [hv.1, hv.2] at hkept
  rw [hw.1, hw.2] at hkept'
  exact ⟨here ++ originals, (List.Subperm.refl _).append hsub, List.rel_append hkept hkept'⟩

theorem chosen_of_assigned {u v : UsedIds} {originals ids : List NamedId}
    {lists : List (List NamedId × List NamedId)} (hstart : u.idSet = [])
    (h : Assigned u originals ids v) (hlists : (lists.flatMap (·.2)).Perm ids)
    (hkept : ∀ l ∈ lists, Renumbered u l.1 l.2) : Chosen u lists := by
  refine ⟨?_, hkept⟩
  have hused := h.used
  rw [hstart, List.append_nil] at hused
  exact ((hlists.map _).filter _).nodup_iff.mpr (hused.nodup_iff.mp h.valid.nodup)

theorem chosen_getCodecsToOffer {audio : List AudioCodec} {video : List VideoCodec}
    {data : List DataCodec} (h : f.getCodecsToOffer current = some (audio, video, data))
    (hroom : usedPayloadTypes.count (codecsToOffer f current) ≤ usedPayloadTypes.size) :
    Chosen usedPayloadTypes [(codecSources f current .audio, audio.map codecEntry),
      (codecSources f current .video, video.map codecEntry),
      (codecSources f current .data, data.map codecEntry)] := by
  unfold getCodecsToOffer at h
  dsimp only at h
  obtain ⟨⟨a, u₄⟩, ha, h⟩ := Option.bind_eq_some_iff.mp h
  obtain ⟨⟨v, u₅⟩, hv, h⟩ := Option.bind_eq_some_iff.mp h
  obtain ⟨⟨d, u₆⟩, hd, h⟩ := Option.bind_eq_some_iff.mp h
  dsimp only at ha hv hd
  simp only [elim_currentOf] at ha hv hd
  cases h
  rw [codecsToOffer, count_append, count_append, count_append, count_append, count_append] at hroom
  have hmin : kMaxStaticPayloadId < usedPayloadTypes.minAllowedId := by decide
  have hstart : usedPayloadTypes.idSet.length = 0 := rfl
  have h₁ := assigned_codecs valid_usedPayloadTypes
    (l := currentOf current .audio (·.audioCodecs)) (by omega)
  have h₂ := assigned_codecs h₁.valid (l := currentOf current .video (·.videoCodecs))
    (h₁.room (by
      rw [count_append]
      omega))
  have h₂₂ := h₁.trans h₂
  have h₃ := assigned_codecs h₂.valid (l := currentOf current .data (·.dataCodecs))
    (h₂₂.room (by
      rw [count_append, count_append]
      omega))
  have h₃₃ := h₂₂.trans h₃
  have haudio := newCodecs_findAndSetIdsUsed f.audioCodecs hmin h₁.kept
  have hvideo := newCodecs_findAndSetIdsUsed f.videoCodecs
    (h₁.bounds.1.symm ▸ hmin) h₂.kept
  have hdata := newCodecs_findAndSetIdsUsed f.dataCodecs
    (h₂₂.bounds.1.symm ▸ hmin) h₃.kept
  obtain ⟨audios, newAudio, rfl, haudios, h₄⟩ := assigned_findCodecsToOffer h₃.valid
    (h₃₃.room (by
      rw [haudio, count_append, count_append, count_append]
      omega)) ha
  rw [haudio] at haudios
  have hfew₁ := count_le (u := usedPayloadTypes) haudios
  have h₄₄ := h₃₃.trans h₄
  obtain ⟨videos, newVideo, rfl, hvideos, h₅⟩ := assigned_findCodecsToOffer h₄.valid
    (h₄₄.room (by
      rw [hvideo, count_append, count_append, count_append, count_append]
      omega)) hv
  rw [hvideo] at hvideos
  have hfew₂ := count_le (u := usedPayloadTypes) hvideos
  have h₅₅ := h₄₄.trans h₅
  obtain ⟨datas, newData, rfl, hdatas, h₆⟩ := assigned_findCodecsToOffer h₅.valid
    (h₅₅.room (by
      rw [hdata, count_append, count_append, count_append, count_append, count_append]
      omega)) hd
  rw [hdata] at hdatas
  refine chosen_of_assigned rfl (h₅₅.trans h₆) ?_ ?_
  · refine List.perm_iff_count.mpr fun e => ?_
    simp only [List.flatMap_cons, List.flatMap_nil, List.append_nil, List.map_append,
      List.count_append]
    omega
  · have hsource : ∀ {C : Type} [IsCodec C] (reference offered : List C),
        ((newCodecs reference offered).map codecEntry).Subperm (reference.map codecEntry) :=
      fun _ _ => (List.filter_sublist.map _).subperm
    intro l hl
    rw [List.mem_cons, List.mem_cons, List.mem_singleton] at hl
    rcases hl with rfl | rfl | rfl
    · dsimp only
      rw [codecSources, List.map_append, List.map_append]
      exact renumbered_append h₁ h₄ ⟨rfl, rfl⟩ h₃₃.bounds (haudios.trans (hsource _ _))
    · dsimp only
      rw [codecSources, List.map_append, List.map_append]
      exact renumbered_append h₂ h₅ h₁.bounds h₄₄.bounds (hvideos.trans (hsource _ _))
    · dsimp only
      rw [codecSources, List.map_append, List.map_append]
      exact renumbered_append h₃ h₆ h₂₂.bounds h₅₅.bounds (hdatas.trans (hsource _ _))

theorem chosen_getRtpHdrExtsToOffer (hroom : usedRtpHeaderExtensionIds.count
      (extensionsToOffer f current) ≤ usedRtpHeaderExtensionIds.size) :
    Chosen usedRtpHeaderExtensionIds [(extensionSources f current .audio,
        (f.getRtpHdrExtsToOffer current).1.map extensionEntry),
      (extensionSources f current .video,
        (f.getRtpHdrExtsToOffer current).2.map extensionEntry),
      (extensionSources f current .data, [])] := by
  rw [extensionsToOffer, count_append, count_append, count_append] at hroom
  have hstart : usedRtpHeaderExtensionIds.idSet.length = 0 := rfl
  have h₁ := assigned_extensions valid_usedRtpHeaderExtensionIds
    (l := currentExtensions current .audio) (by omega)
  have h₂ := assigned_extensions h₁.valid (l := currentExtensions current .video)
    (h₁.room (by
      rw [count_append]
      omega))
  have h₂₂ := h₁.trans h₂
  obtain ⟨audios, newAudio, haudio, haudios, h₃⟩ := assigned_findRtpHdrExtsToOffer
    f.audioRtpExtensions h₂.valid (isNone_findByUri h₁.kept)
    (h₂₂.room (by
      rw [count_append, count_append]
      omega))
  have hfew := count_le (u := usedRtpHeaderExtensionIds) haudios.subperm
  have h₃₃ := h₂₂.trans h₃
  obtain ⟨videos, newVideo, hvideo, hvideos, h₄⟩ := assigned_findRtpHdrExtsToOffer
    f.videoRtpExtensions h₃.valid (isNone_findByUri h₂.kept)
    (h₃₃.room (by
      rw [count_append, count_append, count_append]
      omega))
  have hresult : f.getRtpHdrExtsToOffer current = (_ ++ newAudio, _ ++ newVideo) :=
    Prod.ext haudio hvideo
  rw [hresult]
  refine chosen_of_assigned rfl (h₃₃.trans h₄) ?_ ?_
  · refine List.perm_iff_count.mpr fun e => ?_
    simp only [List.flatMap_cons, List.flatMap_nil, List.append_nil, List.map_append,
      List.count_append]
    omega
  · have hsource : ∀ reference offered : List RtpHeaderExtension,
        ((newExtensions reference offered).map extensionEntry).Subperm
          (reference.map extensionEntry) := fun _ _ => (List.filter_sublist.map _).subperm
    intro l hl
    rw [List.mem_cons, List.mem_cons, List.mem_singleton] at hl
    rcases hl with rfl | rfl | rfl
    · dsimp only
      rw [extensionSources, List.map_append, List.map_append]
      exact renumbered_append h₁ h₃ ⟨rfl, rfl⟩ h₂₂.bounds (haudios.subperm.trans (hsource _ _))
    · dsimp only
      rw [extensionSources, List.map_append, List.map_append]
      exact renumbered_append h₂ h₄ h₁.bounds h₃₃.bounds (hvideos.subperm.trans (hsource _ _))
    · exact ⟨[], List.Subperm.refl _, .nil⟩

section Offer

variable {rng : RandomGenerator} {rounds : Nat} {options : MediaSessionOptions}
  {sources : MediaType → List NamedId} {g : MediaDescription → List NamedId}

theorem createMediaContentOffer_lists {C : Type} [IsCodec C] [LawfulCodec C] {type : MediaType}
    {codecs : List C} {policy : SecurePolicy} {cryptos : Option (List CryptoParams)}
    {suites : List String} {extensions : List RtpHeaderExtension} {legacy : Bool}
    {streams : List StreamParams} {protocol : String} {n k : Nat}
    {d : MediaContentDescriptionImpl C × List StreamParams}
    (h : createMediaContentOffer rng rounds type options codecs policy cryptos suites extensions
      legacy streams protocol n = .ok (d, k)) :
    (d.1.codecs.map codecEntry).Perm (codecs.map codecEntry) ∧
      d.1.rtpHeaderExtensions = extensions := by
  obtain ⟨next, _, hnext, h⟩ := Draw.bind_ok.mp h
  obtain ⟨_, _, -, h⟩ := Draw.bind_ok.mp h
  obtain ⟨_, _, -, h⟩ := Draw.bind_ok.mp h
  obtain ⟨rfl, -⟩ := Draw.pure_ok.mp h
  exact ⟨map_codecEntry_sortCodecs codecs,
    addStreamParams_same (φ := (·.rtpHeaderExtensions)) (fun _ _ _ => rfl) hnext⟩

theorem listed_offerContent {wanted : Bool} {name type : String} {p : List NamedId × List NamedId}
    {create : List StreamParams → Draw (MediaDescription × List StreamParams)} {n k : Nat}
    {s s' : MediaSessionDescription × List StreamParams}
    (hcreate : ∀ streams n d k, create streams n = .ok (d, k) →
      Fewer (listed sources g ⟨name, type, false, some d.1⟩) p)
    (h : f.offerContent rng options current wanted name type create s n = .ok (s', k)) :
    ∃ part middle : List (List NamedId × List NamedId),
      s'.1.contents.map (listed sources g) = s.1.contents.map (listed sources g) ++ part ∧
        middle.Sublist [p] ∧ List.Forall₂ Fewer part middle := by
  have hspec := offerContent_spec h
  cases wanted with
  | false =>
    obtain rfl := hspec
    exact ⟨[], [], (List.append_nil _).symm, List.nil_sublist _, .nil⟩
  | true =>
    obtain ⟨d, _, _, hd, -, hcontents⟩ := hspec
    refine ⟨[_], [p], ?_, List.Sublist.refl _, .cons (hcreate _ _ _ _ hd) .nil⟩
    rw [hcontents, List.map_append, List.map_singleton]

def CreatesLists (type : MediaType) (codecs extensions : List NamedId)
    (create : List StreamParams → Draw (MediaDescription × List StreamParams)) : Prop :=
  ∀ streams n d k, create streams n = .ok (d, k) →
    d.1.type = type ∧ d.1.codecEntries.Perm codecs ∧ d.1.extensionEntries = extensions

theorem createsLists_offerAudio {secureTransport : Bool} {codecs : List AudioCodec}
    {extensions : List RtpHeaderExtension} :
    CreatesLists .audio (codecs.map codecEntry) (extensions.map extensionEntry)
      (f.offerAudio rng rounds options current secureTransport codecs extensions) := by
  intro streams n d k h
  obtain ⟨audio, _, haudio, h⟩ := Draw.bind_ok.mp h
  obtain ⟨rfl, -⟩ := Draw.pure_ok.mp h
  obtain ⟨hcodecs, hextensions⟩ := createMediaContentOffer_lists haudio
  exact ⟨rfl, hcodecs, congrArg (List.map extensionEntry) hextensions⟩

theorem createsLists_offerVideo {secureTransport : Bool} {codecs : List VideoCodec}
    {extensions : List RtpHeaderExtension} :
    CreatesLists .video (codecs.map codecEntry) (extensions.map extensionEntry)
      (f.offerVideo rng rounds options current secureTransport codecs extensions) := by
  intro streams n d k h
  obtain ⟨video, _, hvideo, h⟩ := Draw.bind_ok.mp h
  obtain ⟨rfl, -⟩ := Draw.pure_ok.mp h
  obtain ⟨hcodecs, hextensions⟩ := createMediaContentOffer_lists hvideo
  exact ⟨rfl, hcodecs, congrArg (List.map extensionEntry) hextensions⟩

theorem createsLists_offerData {secureTransport : Bool} {codecs : List DataCodec} :
    CreatesLists .data (codecs.map codecEntry) []
      (f.offerData rng rounds options current secureTransport codecs) := by
  intro streams n d k h
  unfold offerData at h
  by_cases hsctp : options.dataChannelType = .sctp
  · rw [if_pos hsctp] at h
    obtain ⟨data, _, hdata, h⟩ := Draw.bind_ok.mp h
    obtain ⟨rfl, -⟩ := Draw.pure_ok.mp h
    obtain ⟨hcodecs, hextensions⟩ := createMediaContentOffer_lists hdata
    exact ⟨rfl, hcodecs, congrArg (List.map extensionEntry) hextensions⟩
  · rw [if_neg hsctp] at h
    obtain ⟨data, _, hdata, h⟩ := Draw.bind_ok.mp h
    obtain ⟨rfl, -⟩ := Draw.pure_ok.mp h
    obtain ⟨hcodecs, hextensions⟩ := createMediaContentOffer_lists hdata
    exact ⟨rfl, hcodecs, congrArg (List.map extensionEntry) hextensions⟩

theorem listed_media {name type : String} {d : MediaDescription}
    (htype : type = nsJingleRtp ∨ type = nsJingleDraftSctp) :
    listed sources g ⟨name, type, false, some d⟩ = (sources d.type, g d) := by
  have hmedia : mediaDescription (⟨name, type, false, some d⟩ : MediaContentInfo) = some d := by
    rcases htype with rfl | rfl <;> rfl
  rw [listed, hmedia]
  rfl

theorem listed_createOffer {offer : MediaSessionDescription} {n k : Nat}
    (h : f.createOffer rng rounds options current n = .ok (offer, k)) :
    ∃ audio video data, f.getCodecsToOffer current = some (audio, video, data) ∧
      ∀ (g : MediaDescription → List NamedId) (sources : MediaType → List NamedId)
        (a v d : List NamedId),
        (∀ (m : MediaDescription) (cryptos : List CryptoParams), g (m.setCryptos cryptos) = g m) →
        (∀ m codecs, m.type = .audio → m.codecEntries.Perm codecs →
          codecs.Sublist (audio.map codecEntry) →
          m.extensionEntries = (f.getRtpHdrExtsToOffer current).1.map extensionEntry →
            (g m).Subperm a) →
        (∀ m, m.type = .video → m.codecEntries.Perm (video.map codecEntry) →
          m.extensionEntries = (f.getRtpHdrExtsToOffer current).2.map extensionEntry →
            (g m).Subperm v) →
        (∀ m, m.type = .data → m.codecEntries.Perm (data.map codecEntry) →
          m.extensionEntries = [] → (g m).Subperm d) →
        ∃ middle : List (List NamedId × List NamedId),
          middle.Sublist [(sources .audio, a), (sources .video, v), (sources .data, d)] ∧
            List.Forall₂ Fewer (offer.contents.map (listed sources g)) middle := by
  obtain ⟨factory, _, -, h⟩ := Draw.bind_ok.mp h
  obtain ⟨⟨audio, video, data⟩, _, hfound, h⟩ := Draw.bind_ok.mp h
  obtain ⟨s₁, _, haudio, h⟩ := Draw.bind_ok.mp h
  obtain ⟨s₂, _, hvideo, h⟩ := Draw.bind_ok.mp h
  obtain ⟨s₃, _, hdata, h⟩ := Draw.bind_ok.mp h
  refine ⟨audio, video, data, (Draw.orElse_ok.mp hfound).1, ?_⟩
  intro g sources a v d hg ha hv hd
  obtain ⟨part₁, middle₁, hpart₁, hsub₁, hfewer₁⟩ := listed_offerContent (g := g)
    (p := (sources .audio, a)) (fun streams n m k hm => by
      obtain ⟨htype, hcodecs, hextensions⟩ := createsLists_offerAudio streams n m k hm
      rw [listed_media (.inl rfl), htype]
      refine ⟨rfl, ha _ _ htype hcodecs ?_ hextensions⟩
      split
      · exact List.Sublist.refl _
      · exact codecEntry_stripCNCodecs _) haudio
  obtain ⟨part₂, middle₂, hpart₂, hsub₂, hfewer₂⟩ := listed_offerContent (g := g)
    (p := (sources .video, v)) (fun streams n m k hm => by
      obtain ⟨htype, hcodecs, hextensions⟩ := createsLists_offerVideo streams n m k hm
      rw [listed_media (.inl rfl), htype]
      exact ⟨rfl, hv _ htype hcodecs hextensions⟩) hvideo
  obtain ⟨part₃, middle₃, hpart₃, hsub₃, hfewer₃⟩ := listed_offerContent (g := g)
    (p := (sources .data, d)) (fun streams n m k hm => by
      obtain ⟨htype, hcodecs, hextensions⟩ := createsLists_offerData streams n m k hm
      have hmedia : (if options.dataChannelType = .sctp then nsJingleDraftSctp else nsJingleRtp) =
          nsJingleRtp ∨ (if options.dataChannelType = .sctp then nsJingleDraftSctp else
            nsJingleRtp) = nsJingleDraftSctp := by
        split
        · exact .inr rfl
        · exact .inl rfl
      rw [listed_media hmedia, htype]
      exact ⟨rfl, hd _ htype hcodecs hextensions⟩) hdata
  have hcontents : offer.contents.map (listed sources g) =
      s₃.1.contents.map (listed sources g) := by
    split at h
    · exact map_contents_bundle (listed_withCryptos hg) (Draw.orElse_ok.mp h).1
    · obtain ⟨rfl, -⟩ := Draw.pure_ok.mp h
      rfl
  refine ⟨middle₁ ++ middle₂ ++ middle₃, (hsub₁.append hsub₂).append hsub₃, ?_⟩
  rw [hcontents, hpart₃, hpart₂, hpart₁]
  exact List.rel_append (List.rel_append hfewer₁ hfewer₂) hfewer₃

/-- The codecs and the extensions of the contents of an offer have ids of their own. -/
structure OffersOwnIds (f : MediaSessionDescriptionFactory)
    (current : Option MediaSessionDescription) (offer : MediaSessionDescription) : Prop where
  codecs : Chosen usedPayloadTypes
    (offer.contents.map (listed (codecSources f current) (·.codecEntries)))
  extensions : Chosen usedRtpHeaderExtensionIds
    (offer.contents.map (listed (extensionSources f current) (·.extensionEntries)))

/-- All that is found to be offered has ids of its own, so that each search ended in the range,
at an id that was free. -/
structure FindsOwnIds (f : MediaSessionDescriptionFactory)
    (current : Option MediaSessionDescription) : Prop where
  codecs : ∀ audio video data, f.getCodecsToOffer current = some (audio, video, data) →
    Chosen usedPayloadTypes [(codecSources f current .audio, audio.map codecEntry),
      (codecSources f current .video, video.map codecEntry),
      (codecSources f current .data, data.map codecEntry)]
  extensions : Chosen usedRtpHeaderExtensionIds
    [(extensionSources f current .audio, (f.getRtpHdrExtsToOffer current).1.map extensionEntry),
      (extensionSources f current .video, (f.getRtpHdrExtsToOffer current).2.map extensionEntry),
      (extensionSources f current .data, [])]

/-- Where there are ids for all, no two codecs of an offer share one, and no two extensions. -/
theorem offersOwnIds_createOffer (f : MediaSessionDescriptionFactory) (rng : RandomGenerator)
    (rounds : Nat) (options : MediaSessionOptions) (current : Option MediaSessionDescription)
    (hcodecs : usedPayloadTypes.count (codecsToOffer f current) ≤ 32)
    (hextensions : usedRtpHeaderExtensionIds.count (extensionsToOffer f current) ≤ 255) :
    FindsOwnIds f current ∧ ∀ n k offer,
      f.createOffer rng rounds options current n = .ok (offer, k) →
        OffersOwnIds f current offer := by
  have hfinds : FindsOwnIds f current :=
    ⟨fun _ _ _ h => chosen_getCodecsToOffer h hcodecs, chosen_getRtpHdrExtsToOffer hextensions⟩
  refine ⟨hfinds, fun n k offer h => ?_⟩
  obtain ⟨audio, video, data, hfound, hlists⟩ := listed_createOffer h
  refine ⟨?_, ?_⟩
  · obtain ⟨middle, hsub, hfewer⟩ := hlists (·.codecEntries) (codecSources f current)
      (audio.map codecEntry) (video.map codecEntry) (data.map codecEntry)
      (fun m cryptos => by cases m <;> rfl)
      (fun m codecs _ hcodecs hsub _ => hcodecs.subperm.trans hsub.subperm)
      (fun m _ hcodecs _ => hcodecs.subperm) (fun m _ hcodecs _ => hcodecs.subperm)
    exact (hfinds.codecs audio video data hfound).fewer hsub hfewer
  · obtain ⟨middle, hsub, hfewer⟩ := hlists (·.extensionEntries) (extensionSources f current)
      ((f.getRtpHdrExtsToOffer current).1.map extensionEntry)
      ((f.getRtpHdrExtsToOffer current).2.map extensionEntry) []
      (fun m cryptos => by cases m <;> rfl)
      (fun m codecs _ _ _ hextensions => hextensions ▸ List.Subperm.refl _)
      (fun m _ _ hextensions => hextensions ▸ List.Subperm.refl _)
      (fun m _ _ hextensions => hextensions ▸ List.Subperm.refl _)
    exact hfinds.extensions.fewer hsub hfewer

def collidingFactory : MediaSessionDescriptionFactory where
  audioCodecs := [{ id := 111, name := "opus" }]
  audioRtpExtensions := [{ uri := "level", id := 1 }]
  videoCodecs := [{ id := 111, name := "VP8" }]
  videoRtpExtensions := [{ uri := "offset", id := 1 }]
  transportDescFactory := some {}

theorem offersOwnIds_colliding : FindsOwnIds collidingFactory none ∧ ∃ offer k,
    collidingFactory.createOffer zeroGenerator 2 { hasVideo := true } none 0 = .ok (offer, k) ∧
      OffersOwnIds collidingFactory none offer := by
  have hsome : (collidingFactory.createOffer zeroGenerator 2 { hasVideo := true } none
      0).toOption.isSome := by
    decide +kernel
  obtain ⟨hfinds, hoffers⟩ := offersOwnIds_createOffer collidingFactory zeroGenerator 2
    { hasVideo := true } none (by decide) (by decide)
  cases hoffer : collidingFactory.createOffer zeroGenerator 2 { hasVideo := true } none 0 with
  | error stop =>
    rw [hoffer] at hsome
    cases hsome
  | ok result => exact ⟨hfinds, result.1, result.2, rfl, hoffers _ _ _ hoffer⟩

end Offer

end MediaSessionDescriptionFactory

end Libjingle
