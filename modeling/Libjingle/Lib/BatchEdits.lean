import Mathlib.Data.List.Induction
import Mathlib.Data.List.Nodup
import Mathlib.Tactic.Common

/-! Edits of a keyed list that are made all at once, by what the list was before, beside the same
edits made one after another. -/

namespace BatchEdits

variable {α κ : Type*} [DecidableEq κ] (key : α → κ) (adds : α → Bool)

/-- An edit adds itself if its key is not there, or removes its key. -/
def edit (l : List α) (u : α) : List α :=
  if adds u then if key u ∈ l.map key then l else l ++ [u]
  else l.filter fun x => key x ≠ key u

def added (l us : List α) : List α := us.filter fun u => adds u && decide (key u ∉ l.map key)

def removed (l us : List α) : List α :=
  us.filterMap fun u => if adds u then none else l.find? fun x => key x = key u

def batch (l us : List α) : List α :=
  (l ++ added key adds l us).filter fun x => key x ∉ (removed key adds l us).map key

/-- Each edit that changes anything is the last one for its key. -/
def Settled (l us : List α) : Prop :=
  us.Pairwise fun u v => key u = key v → (adds u = true ↔ key u ∈ l.map key)

variable {key adds} {l us : List α} {u v x : α}

theorem mem_added : u ∈ added key adds l us ↔ u ∈ us ∧ adds u = true ∧ key u ∉ l.map key := by
  simp [added]

theorem find_key (h : (l.map key).Nodup) (hx : x ∈ l) :
    (l.find? fun y => key y = key x) = some x := by
  cases hfind : l.find? fun y => key y = key x with
  | none => exact absurd (by simp) (List.find?_eq_none.mp hfind x hx)
  | some y =>
    have hkey : key y = key x := by simpa using List.find?_some hfind
    rw [List.inj_on_of_nodup_map h (List.mem_of_find?_eq_some hfind) hx hkey]

theorem added_cons_of_new (h : adds u = true) (hk : key u ∉ l.map key) :
    added key adds l (u :: us) = u :: added key adds l us :=
  List.filter_cons_of_pos (by rw [h, decide_eq_true hk, Bool.and_true])

theorem added_cons (h : adds u = true → key u ∈ l.map key) :
    added key adds l (u :: us) = added key adds l us :=
  List.filter_cons_of_neg fun hu => by
    obtain ⟨hadds, hk⟩ := (Bool.and_eq_true _ _).mp hu
    exact of_decide_eq_true hk (h hadds)

theorem removed_cons_of_adds (h : adds u = true) :
    removed key adds l (u :: us) = removed key adds l us := by
  simp [removed, h]

theorem removed_cons (h : adds u = false) : removed key adds l (u :: us) =
    (l.find? fun x => key x = key u).toList ++ removed key adds l us := by
  cases hfind : l.find? fun x => key x = key u <;> simp [removed, h, hfind]

theorem mem_of_mem_removed (hx : x ∈ removed key adds l us) : x ∈ l := by
  obtain ⟨u, -, hsome⟩ := List.mem_filterMap.mp hx
  split at hsome
  · cases hsome
  · exact List.mem_of_find?_eq_some hsome

theorem mem_removed (h : (l.map key).Nodup) : x ∈ removed key adds l us ↔
    x ∈ l ∧ ∃ u ∈ us, adds u = false ∧ key u = key x := by
  rw [removed, List.mem_filterMap]
  constructor
  · rintro ⟨u, hu, hsome⟩
    cases hadds : adds u with
    | true =>
      rw [hadds] at hsome
      cases hsome
    | false =>
      rw [hadds] at hsome
      have hkey : key x = key u := by simpa using List.find?_some hsome
      exact ⟨List.mem_of_find?_eq_some hsome, u, hu, hadds, hkey.symm⟩
  · rintro ⟨hx, u, hu, hadds, hkey⟩
    refine ⟨u, hu, ?_⟩
    rw [hadds, hkey]
    exact find_key h hx

theorem key_mem_removed (h : (l.map key).Nodup) {k : κ} :
    k ∈ (removed key adds l us).map key ↔
      k ∈ l.map key ∧ ∃ u ∈ us, adds u = false ∧ key u = k := by
  constructor
  · intro hk
    obtain ⟨x, hx, rfl⟩ := List.mem_map.mp hk
    obtain ⟨hmem, hu⟩ := (mem_removed h).mp hx
    exact ⟨List.mem_map_of_mem hmem, hu⟩
  · rintro ⟨hk, hu⟩
    obtain ⟨x, hx, rfl⟩ := List.mem_map.mp hk
    exact List.mem_map_of_mem ((mem_removed h).mpr ⟨hx, hu⟩)

/-- What is removed is none of what is added. -/
theorem batch_eq (h : (l.map key).Nodup) : batch key adds l us =
    (l.filter fun x => key x ∉ (removed key adds l us).map key) ++ added key adds l us := by
  rw [batch, List.filter_append]
  congr 1
  rw [List.filter_eq_self]
  intro u hu
  obtain ⟨-, -, hnew⟩ := mem_added.mp hu
  exact decide_eq_true fun hk => hnew ((key_mem_removed h).mp hk).1

theorem key_mem_batch (h : (l.map key).Nodup) {k : κ} : k ∈ (batch key adds l us).map key ↔
    (k ∈ l.map key ∧ ∀ u ∈ us, key u = k → adds u = true) ∨
      k ∉ l.map key ∧ ∃ u ∈ us, key u = k ∧ adds u = true := by
  rw [batch_eq h, List.map_append, List.mem_append]
  refine or_congr ?_ ?_
  · constructor
    · intro hk
      obtain ⟨x, hx, rfl⟩ := List.mem_map.mp hk
      obtain ⟨hmem, hkept⟩ := List.mem_filter.mp hx
      refine ⟨List.mem_map_of_mem hmem, fun u hu hkey => ?_⟩
      by_contra hadds
      exact of_decide_eq_true hkept ((key_mem_removed h).mpr
        ⟨List.mem_map_of_mem hmem, u, hu, Bool.eq_false_iff.mpr hadds, hkey⟩)
    · rintro ⟨hk, hall⟩
      obtain ⟨x, hx, rfl⟩ := List.mem_map.mp hk
      refine List.mem_map_of_mem (List.mem_filter.mpr ⟨hx, decide_eq_true fun hremoved => ?_⟩)
      obtain ⟨-, u, hu, hadds, hkey⟩ := (key_mem_removed h).mp hremoved
      rw [hall u hu hkey] at hadds
      cases hadds
  · constructor
    · intro hk
      obtain ⟨u, hu, rfl⟩ := List.mem_map.mp hk
      obtain ⟨hmem, hadds, hnew⟩ := mem_added.mp hu
      exact ⟨hnew, u, hmem, rfl, hadds⟩
    · rintro ⟨hnew, u, hu, rfl, hadds⟩
      exact List.mem_map_of_mem (mem_added.mpr ⟨hu, hadds, hnew⟩)

section Edit

theorem nodup_edit (h : (l.map key).Nodup) (u : α) : ((edit key adds l u).map key).Nodup := by
  rw [edit]
  split
  · split
    · exact h
    · rename_i hnew
      rw [List.map_append, List.map_singleton, List.nodup_append]
      refine ⟨h, List.nodup_singleton _, fun a ha b hb heq => hnew ?_⟩
      rw [List.mem_singleton.mp hb] at heq
      exact heq ▸ ha
  · exact h.sublist (List.Sublist.map key List.filter_sublist)

theorem nodup_foldl_edit (h : (l.map key).Nodup) (us : List α) :
    ((us.foldl (edit key adds) l).map key).Nodup := by
  induction us generalizing l with
  | nil => exact h
  | cons u us ih => exact ih (nodup_edit h u)

theorem key_mem_edit {k : κ} : k ∈ (edit key adds l u).map key ↔
    if key u = k then adds u = true else k ∈ l.map key := by
  rw [edit]
  by_cases hadds : adds u = true
  · rw [if_pos hadds]
    by_cases hkey : key u = k
    · subst hkey
      rw [if_pos rfl]
      refine iff_of_true ?_ hadds
      split
      · assumption
      · simp
    · rw [if_neg hkey]
      split
      · exact Iff.rfl
      · simp [Ne.symm hkey]
  · rw [if_neg hadds]
    by_cases hkey : key u = k
    · subst hkey
      rw [if_pos rfl]
      simp [hadds]
    · rw [if_neg hkey]
      constructor
      · intro hk
        obtain ⟨x, hx, rfl⟩ := List.mem_map.mp hk
        exact List.mem_map_of_mem (List.mem_of_mem_filter hx)
      · intro hk
        obtain ⟨x, hx, rfl⟩ := List.mem_map.mp hk
        exact List.mem_map_of_mem (List.mem_filter.mpr ⟨hx, decide_eq_true (Ne.symm hkey)⟩)

/-- After the last edit for a key that does otherwise, the key is there or not. -/
theorem key_mem_foldl_edit {k : κ} {b : Bool} (hk : k ∈ l.map key ↔ b = true)
    (hall : ∀ u ∈ us, key u = k → adds u = b) :
    k ∈ (us.foldl (edit key adds) l).map key ↔ b = true := by
  induction us generalizing l with
  | nil => exact hk
  | cons u us ih =>
    obtain ⟨hfirst, hrest⟩ := List.forall_mem_cons.mp hall
    refine ih ?_ hrest
    rw [key_mem_edit]
    split
    · rename_i hkey
      rw [hfirst hkey]
    · exact hk

/-- If all edits for a key do the same and there is one, it is what has been done. -/
theorem key_mem_foldl_edit_of_mem {k : κ} {b : Bool} (hu : u ∈ us) (hkey : key u = k)
    (hall : ∀ w ∈ us, key w = k → adds w = b) :
    k ∈ (us.foldl (edit key adds) l).map key ↔ b = true := by
  obtain ⟨s, t, rfl⟩ := List.append_of_mem hu
  rw [List.foldl_append, List.foldl_cons]
  refine key_mem_foldl_edit ?_ fun w hw => hall w (by simp [hw])
  rw [key_mem_edit, if_pos hkey, hall u hu hkey]

theorem edit_batch (h : (l.map key).Nodup)
    (hv : ∀ u ∈ us, key u = key v → (adds u = true ↔ key u ∈ l.map key)) :
    edit key adds (batch key adds l us) v = batch key adds l (us ++ [v]) := by
  have hadded : added key adds l (us ++ [v]) =
      added key adds l us ++ added key adds l [v] := List.filter_append ..
  have hremoved : removed key adds l (us ++ [v]) =
      removed key adds l us ++ removed key adds l [v] := List.filterMap_append ..
  rw [edit]
  by_cases hadds : adds v = true
  · have hnone : removed key adds l [v] = [] := by simp [removed, hadds]
    rw [if_pos hadds]
    by_cases hk : key v ∈ l.map key
    · have hmem : key v ∈ (batch key adds l us).map key :=
        (key_mem_batch h).mpr (Or.inl ⟨hk, fun u hu hkey => (hv u hu hkey).mpr (hkey ▸ hk)⟩)
      have hnew : added key adds l [v] = [] := by
        simp only [added, hk, not_true, decide_false, Bool.and_false, List.filter_cons_of_neg,
          Bool.false_eq_true, not_false_eq_true, List.filter_nil]
      rw [if_pos hmem, batch, batch, hadded, hremoved, hnone, hnew, List.append_nil,
        List.append_nil]
    · have hmem : key v ∉ (batch key adds l us).map key := by
        intro hmem
        rcases (key_mem_batch h).mp hmem with ⟨hl, -⟩ | ⟨-, u, hu, hkey, hu'⟩
        · exact hk hl
        · exact hk (hkey ▸ (hv u hu hkey).mp hu')
      have hnew : added key adds l [v] = [v] := by
        simp only [added, hadds, hk, not_false_eq_true, decide_true, Bool.and_true,
          List.filter_cons_of_pos, List.filter_nil]
      rw [if_neg hmem, batch_eq h, batch_eq h, hadded, hremoved, hnone, hnew, List.append_nil,
        List.append_assoc]
  · have hnew : added key adds l [v] = [] := by simp [added, hadds]
    rw [if_neg hadds, batch, batch, hadded, hnew, List.append_nil, List.filter_filter]
    refine List.filter_congr fun x hx => ?_
    have hiff : key x ∈ (removed key adds l (us ++ [v])).map key ↔
        key x ∈ (removed key adds l us).map key ∨ key x = key v := by
      rw [hremoved, List.map_append, List.mem_append]
      refine or_congr_right ?_
      rw [key_mem_removed h]
      constructor
      · rintro ⟨-, u, hu, -, hkey⟩
        rw [List.mem_singleton.mp hu] at hkey
        exact hkey.symm
      · intro hkey
        refine ⟨?_, v, List.mem_singleton_self v, Bool.eq_false_iff.mpr hadds, hkey.symm⟩
        rcases List.mem_append.mp hx with hx | hx
        · exact List.mem_map_of_mem hx
        · obtain ⟨hmem, hxadds, -⟩ := mem_added.mp hx
          exact (hv x hmem hkey).mp hxadds
    rw [← Bool.decide_and, decide_eq_decide, hiff, not_or, and_comm]

theorem batch_eq_foldl (h : (l.map key).Nodup) (hs : Settled key adds l us) :
    batch key adds l us = us.foldl (edit key adds) l := by
  induction us using List.reverseRecOn with
  | nil => simp [batch, added, removed]
  | append_singleton us v ih =>
    obtain ⟨hfirst, -, hlast⟩ := List.pairwise_append.mp hs
    rw [List.foldl_append, List.foldl_cons, List.foldl_nil, ← ih hfirst]
    exact (edit_batch h fun u hu => hlast u hu v (List.mem_singleton_self v)).symm

end Edit

theorem nodup_removed (hs : Settled key adds l us) : (removed key adds l us).Nodup := by
  rw [removed, List.Nodup, List.pairwise_filterMap]
  refine hs.imp fun {u v} huv x hx y hy hxy => ?_
  subst hxy
  cases hu : adds u with
  | true =>
    rw [hu] at hx
    cases hx
  | false =>
    cases hv : adds v with
    | true =>
      rw [hv] at hy
      cases hy
    | false =>
      rw [hu] at hx
      rw [hv] at hy
      have hxu : key x = key u := by simpa using List.find?_some hx
      have hxv : key x = key v := by simpa using List.find?_some hy
      have hmem : key u ∈ l.map key := hxu ▸ List.mem_map_of_mem (List.mem_of_find?_eq_some hx)
      have hadds := (huv (hxu.symm.trans hxv)).mpr hmem
      rw [hu] at hadds
      cases hadds

section Exact

variable [DecidableEq α]

/-- The batch leaves what the edits leave one after another, with no key twice, and its changes
are the difference that it makes. -/
structure Exact (key : α → κ) (adds : α → Bool) (l us : List α) : Prop where
  nodup : ((batch key adds l us).map key).Nodup
  eq_foldl : batch key adds l us = us.foldl (edit key adds) l
  added_perm : (added key adds l us).Perm
    ((batch key adds l us).filter fun x => decide (x ∉ l))
  removed_perm : (removed key adds l us).Perm
    (l.filter fun x => decide (x ∉ batch key adds l us))

theorem added_eq (h : (l.map key).Nodup) : added key adds l us =
    (batch key adds l us).filter fun x => decide (x ∉ l) := by
  rw [batch_eq h, List.filter_append, List.filter_filter]
  have hold : (l.filter fun x => decide (x ∉ l) &&
      decide (key x ∉ (removed key adds l us).map key)) = [] := by
    rw [List.filter_eq_nil_iff]
    intro x hx
    simp [hx]
  have hnew : ((added key adds l us).filter fun x => decide (x ∉ l)) = added key adds l us := by
    rw [List.filter_eq_self]
    intro x hx
    obtain ⟨-, -, hkey⟩ := mem_added.mp hx
    exact decide_eq_true fun hmem => hkey (List.mem_map_of_mem hmem)
  rw [hold, hnew, List.nil_append]

/-- What is removed is what is no longer there. -/
theorem mem_removed_iff (h : (l.map key).Nodup) :
    x ∈ removed key adds l us ↔ x ∈ l.filter fun x => decide (x ∉ batch key adds l us) := by
  rw [List.mem_filter, decide_eq_true_iff]
  constructor
  · intro hx
    have hmem := ((mem_removed h).mp hx).1
    refine ⟨hmem, fun hbatch => ?_⟩
    rw [batch_eq h, List.mem_append] at hbatch
    rcases hbatch with hkept | hadded
    · exact of_decide_eq_true (List.mem_filter.mp hkept).2 (List.mem_map_of_mem hx)
    · exact (mem_added.mp hadded).2.2 (List.mem_map_of_mem hmem)
  · rintro ⟨hmem, hbatch⟩
    by_contra hkept
    refine hbatch ?_
    rw [batch_eq h, List.mem_append, List.mem_filter, decide_eq_true_iff]
    refine Or.inl ⟨hmem, fun hkey => hkept ?_⟩
    exact (mem_removed h).mpr ⟨hmem, ((key_mem_removed h).mp hkey).2⟩

theorem Settled.exact (h : (l.map key).Nodup) (hs : Settled key adds l us) :
    Exact key adds l us := by
  have heq := batch_eq_foldl h hs
  refine ⟨heq ▸ nodup_foldl_edit h us, heq, List.Perm.of_eq (added_eq h), ?_⟩
  refine (List.perm_ext_iff_of_nodup (nodup_removed hs) ?_).mpr fun x => mem_removed_iff h
  exact (List.Nodup.of_map key h).filter _

/-- Two edits that both change what the list was before are not both made. -/
theorem Exact.not_both (h : (l.map key).Nodup) (he : Exact key adds l us)
    (huv : [u, v].Sublist us) (hkey : key u = key v) (hsame : adds v = adds u) :
    adds u = true ↔ key u ∈ l.map key := by
  cases hadds : adds u with
  | true =>
    refine iff_of_true rfl ?_
    by_contra hk
    have hsub := huv.filter fun u => adds u && decide (key u ∉ l.map key)
    have hnew : ∀ w ∈ [u, v], (adds w && decide (key w ∉ l.map key)) = true := by
      intro w hw
      rcases List.mem_pair.mp hw with rfl | rfl
      · rw [hadds, decide_eq_true hk, Bool.true_and]
      · rw [hsame, hadds, ← hkey, decide_eq_true hk, Bool.true_and]
    rw [List.filter_eq_self.mpr hnew] at hsub
    have hnodup := he.nodup
    rw [batch_eq h, List.map_append, List.nodup_append] at hnodup
    have hpair := hnodup.2.1.sublist (hsub.map key)
    simp [hkey] at hpair
  | false =>
    refine iff_of_false (by simp) fun hk => ?_
    obtain ⟨x, hx, hxkey⟩ := List.mem_map.mp hk
    have hsub := huv.filterMap fun u => if adds u then none else l.find? fun x => key x = key u
    have hfind := find_key h hx
    rw [hxkey] at hfind
    simp [hsame, hadds, ← hkey, hfind] at hsub
    have hnodup := he.removed_perm.nodup_iff.mpr ((List.Nodup.of_map key h).filter _)
    have hpair := hnodup.sublist hsub
    simp at hpair

theorem Exact.settled (h : (l.map key).Nodup) (he : Exact key adds l us) :
    Settled key adds l us := by
  rw [Settled, List.pairwise_iff_forall_sublist]
  intro u v huv hkey
  by_contra hne
  obtain ⟨r, t, rfl, hu, hv⟩ := List.cons_sublist_iff.mp huv
  rw [List.singleton_sublist] at hv
  -- every later edit for the key does the opposite, so the last one does
  have hall : ∀ w ∈ t, key w = key u → adds w = !adds u := by
    intro w hw hwkey
    by_contra hsame
    refine hne (he.not_both h ?_ hwkey.symm (by simpa using hsame))
    exact List.cons_sublist_iff.mpr ⟨r, t, rfl, hu, List.singleton_sublist.mpr hw⟩
  have hlast : key u ∈ ((r ++ t).foldl (edit key adds) l).map key ↔ (!adds u) = true := by
    rw [List.foldl_append]
    exact key_mem_foldl_edit_of_mem hv hkey.symm hall
  rw [← he.eq_foldl, key_mem_batch h] at hlast
  cases hadds : adds u with
  | true =>
    rw [hadds] at hlast hne
    have hk : key u ∉ l.map key := fun hk => hne (iff_of_true rfl hk)
    have := hlast.mp (Or.inr ⟨hk, u, List.mem_append_left t hu, rfl, hadds⟩)
    cases this
  | false =>
    rw [hadds] at hlast hne
    have hk : key u ∈ l.map key := by
      by_contra hk
      exact hne (iff_of_false (by simp) hk)
    rcases hlast.mpr rfl with ⟨-, hkept⟩ | ⟨hk', -⟩
    · have := hkept u (List.mem_append_left t hu) rfl
      rw [hadds] at this
      cases this
    · exact hk' hk

theorem exact_iff (h : (l.map key).Nodup) : Exact key adds l us ↔ Settled key adds l us :=
  ⟨fun he => he.settled h, fun hs => hs.exact h⟩

end Exact

end BatchEdits
