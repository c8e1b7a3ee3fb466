import Libjingle.Media.MediaSession

/-! The ids that `UsedIds` assigns. While there is room an id that is used is changed to one that
is not, and the search for it ends in the range. -/

namespace Libjingle

def isInRange (lo hi id : Int) : Bool := lo ≤ id && id ≤ hi

abbrev NamedId := String × Int

/-- An id out of the range stays, and one in the range stays in it. -/
structure Kept (lo hi : Int) (a b : NamedId) : Prop where
  name : b.1 = a.1
  range : isInRange lo hi b.2 = isInRange lo hi a.2
  outside : isInRange lo hi a.2 = false → b.2 = a.2

theorem isInRange_iff {lo hi id : Int} : isInRange lo hi id = true ↔ lo ≤ id ∧ id ≤ hi := by
  simp [isInRange]

namespace UsedIds

variable {u v w : UsedIds}

def contains (u : UsedIds) (id : Int) : Bool := isInRange u.minAllowedId u.maxAllowedId id

def size (u : UsedIds) : Nat := (u.maxAllowedId - u.minAllowedId + 1).toNat

/-- The used ids are in the range, and so are all that the search has gone over. -/
structure Valid (u : UsedIds) : Prop where
  nodup : u.idSet.Nodup
  range : ∀ id ∈ u.idSet, u.contains id = true
  above : ∀ id, u.nextId < id → id ≤ u.maxAllowedId → id ∈ u.idSet
  next : u.nextId ≤ u.maxAllowedId

def count (u : UsedIds) (ids : List NamedId) : Nat := ids.countP fun e => u.contains e.2

structure Assigned (u : UsedIds) (ids ids' : List NamedId) (v : UsedIds) : Prop where
  valid : Valid v
  bounds : v.minAllowedId = u.minAllowedId ∧ v.maxAllowedId = u.maxAllowedId
  kept : List.Forall₂ (Kept u.minAllowedId u.maxAllowedId) ids ids'
  used : v.idSet.Perm ((ids'.map (·.2)).filter u.contains ++ u.idSet)

theorem isIdUsed_iff {id : Int} : u.isIdUsed id = true ↔ id ∈ u.idSet := List.contains_iff_mem

theorem exists_unused (hroom : u.idSet.length < u.size) :
    ∃ id, u.minAllowedId ≤ id ∧ id ≤ u.maxAllowedId ∧ id ∉ u.idSet := by
  by_contra hnone
  push Not at hnone
  have hnodup : ((List.range u.size).map fun n : Nat => u.minAllowedId + n).Nodup := by
    refine List.Nodup.map ?_ List.nodup_range
    intro a b hab
    exact Int.ofNat.inj (Int.add_left_cancel hab)
  have hsubset : ((List.range u.size).map fun n : Nat => u.minAllowedId + n) ⊆ u.idSet := by
    intro id hid
    obtain ⟨n, hn, rfl⟩ := List.mem_map.mp hid
    have hn := List.mem_range.mp hn
    rw [size] at hn
    exact hnone _ (by omega) (by omega)
  have hlength := (List.subperm_of_subset hnodup hsubset).length_le
  rw [List.length_map, List.length_range] at hlength
  omega

theorem unusedFrom_spec {n : Nat} {start free : Int} (hfree : free ∉ u.idSet)
    (hmin : u.minAllowedId ≤ free) (hstart : free ≤ start)
    (hn : start - u.minAllowedId < n) :
    u.unusedFrom n start ∉ u.idSet ∧ u.minAllowedId ≤ u.unusedFrom n start ∧
      u.unusedFrom n start ≤ start ∧
        ∀ id, u.unusedFrom n start < id → id ≤ start → id ∈ u.idSet := by
  induction n generalizing start with
  | zero => omega
  | succ n ih =>
    rw [unusedFrom]
    by_cases hused : u.isIdUsed start = true
    · have hmem := isIdUsed_iff.mp hused
      have hne : free ≠ start := by
        rintro rfl
        exact hfree hmem
      rw [if_pos ⟨hused, by omega⟩]
      obtain ⟨hunused, hrange, hle, habove⟩ := @ih (start - 1) (by omega) (by omega)
      refine ⟨hunused, hrange, by omega, fun id hid hstart => ?_⟩
      by_cases heq : id = start
      · exact heq ▸ hmem
      · exact habove id hid (by omega)
    · rw [if_neg fun h => hused h.1]
      exact ⟨fun hmem => hused (isIdUsed_iff.mpr hmem), by omega, le_refl _,
        fun id hid hle => by omega⟩

theorem findUnusedId_spec (h : Valid u) (hroom : u.idSet.length < u.size) :
    u.findUnusedId ∉ u.idSet ∧ u.minAllowedId ≤ u.findUnusedId ∧ u.findUnusedId ≤ u.nextId ∧
      ∀ id, u.findUnusedId < id → id ≤ u.maxAllowedId → id ∈ u.idSet := by
  obtain ⟨free, hmin, hmax, hfree⟩ := exists_unused hroom
  have hnext : free ≤ u.nextId := by
    by_contra hlt
    exact hfree (h.above free (by omega) hmax)
  obtain ⟨hunused, hrange, hle, habove⟩ := unusedFrom_spec (u := u)
    (n := (u.nextId - u.minAllowedId + 1).toNat) hfree hmin hnext (by omega)
  refine ⟨hunused, hrange, hle, fun id hid hmax => ?_⟩
  by_cases hsearched : id ≤ u.nextId
  · exact habove id hid hsearched
  · exact h.above id (by omega) hmax

theorem Assigned.refl (h : Valid u) : Assigned u [] [] u := ⟨h, ⟨rfl, rfl⟩, .nil, .refl _⟩

theorem contains_congr (h : v.minAllowedId = u.minAllowedId ∧ v.maxAllowedId = u.maxAllowedId) :
    v.contains = u.contains := by
  funext id
  rw [contains, contains, h.1, h.2]

theorem Assigned.trans {ids ids' more more' : List NamedId} (h : Assigned u ids ids' v)
    (h' : Assigned v more more' w) : Assigned u (ids ++ more) (ids' ++ more') w := by
  refine ⟨h'.valid, ⟨h'.bounds.1.trans h.bounds.1, h'.bounds.2.trans h.bounds.2⟩, ?_, ?_⟩
  · have hkept := h'.kept
    rw [h.bounds.1, h.bounds.2] at hkept
    exact List.rel_append h.kept hkept
  · have hused := h'.used
    rw [contains_congr h.bounds] at hused
    rw [List.map_append, List.filter_append]
    refine hused.trans (((List.Perm.refl _).append h.used).trans ?_)
    rw [← List.append_assoc]
    exact List.perm_append_comm.append_right _

theorem count_congr (h : v.minAllowedId = u.minAllowedId ∧ v.maxAllowedId = u.maxAllowedId)
    (ids : List NamedId) : v.count ids = u.count ids := by
  rw [count, count, contains_congr h]

theorem size_congr (h : v.minAllowedId = u.minAllowedId ∧ v.maxAllowedId = u.maxAllowedId) :
    v.size = u.size := by
  rw [size, size, h.1, h.2]

theorem count_append (ids more : List NamedId) :
    u.count (ids ++ more) = u.count ids + u.count more :=
  List.countP_append

theorem count_le {ids more : List NamedId} (h : ids.Subperm more) : u.count ids ≤ u.count more :=
  h.countP_le _

theorem Assigned.length {ids ids' : List NamedId} (h : Assigned u ids ids' v) :
    v.idSet.length = u.count ids + u.idSet.length := by
  have hcount : ∀ l l' : List NamedId, List.Forall₂ (Kept u.minAllowedId u.maxAllowedId) l l' →
      ((l'.map (·.2)).filter u.contains).length = u.count l := by
    intro l l' hkept
    induction hkept with
    | nil => rfl
    | @cons a b l l' hab _ ih =>
      have hsame : u.contains b.2 = u.contains a.2 := hab.range
      rw [count] at ih ⊢
      rw [← List.countP_eq_length_filter] at ih ⊢
      rw [List.map_cons, List.countP_cons, List.countP_cons, ih, hsame]
  rw [h.used.length_eq, List.length_append, hcount ids ids' h.kept]

theorem assigned_findAndSetIdUsed (h : Valid u) (name : String) {id : Int}
    (hroom : u.contains id = true → u.idSet.length < u.size) :
    Assigned u [(name, id)] [(name, (u.findAndSetIdUsed id).1)] (u.findAndSetIdUsed id).2 := by
  rw [findAndSetIdUsed]
  by_cases hout : u.maxAllowedId < id ∨ id < u.minAllowedId
  · have hno : u.contains id = false := by
      rw [contains, isInRange]
      rcases hout with hout | hout <;> simp <;> omega
    rw [if_pos hout]
    refine ⟨h, ⟨rfl, rfl⟩, .cons ⟨rfl, rfl, fun _ => rfl⟩ .nil, ?_⟩
    simp [hno]
  · have hin : u.contains id = true := isInRange_iff.mpr (by omega)
    have hlength := hroom hin
    rw [if_neg hout]
    by_cases hused : u.isIdUsed id = true
    · obtain ⟨hunused, hmin, hle, habove⟩ := findUnusedId_spec h hlength
      have hnext := h.next
      have hnew : u.contains u.findUnusedId = true := isInRange_iff.mpr (by omega)
      rw [if_pos hused]
      refine ⟨⟨List.nodup_cons.mpr ⟨hunused, h.nodup⟩, fun other hother => ?_,
        fun other hother hmax => List.mem_cons_of_mem _ (habove other hother hmax), by
          show u.findUnusedId ≤ u.maxAllowedId
          omega⟩, ⟨rfl, rfl⟩, .cons ⟨rfl, hnew.trans hin.symm, fun hno => ?_⟩ .nil, ?_⟩
      · rcases List.mem_cons.mp hother with rfl | hother
        · exact hnew
        · exact h.range other hother
      · rw [← contains, hin] at hno
        cases hno
      · simp [hnew]
    · rw [if_neg hused]
      have hunused : id ∉ u.idSet := fun hmem => hused (isIdUsed_iff.mpr hmem)
      refine ⟨⟨List.nodup_cons.mpr ⟨hunused, h.nodup⟩, fun other hother => ?_,
        fun other hother hmax => List.mem_cons_of_mem _ (h.above other hother hmax), h.next⟩,
        ⟨rfl, rfl⟩, .cons ⟨rfl, rfl, fun _ => rfl⟩ .nil, ?_⟩
      · rcases List.mem_cons.mp hother with rfl | hother
        · exact hin
        · exact h.range other hother
      · simp [hin]

theorem Assigned.room {ids ids' more : List NamedId} (h : Assigned u ids ids' v)
    (hroom : u.count (ids ++ more) + u.idSet.length ≤ u.size) :
    v.count more + v.idSet.length ≤ v.size := by
  rw [count_append] at hroom
  rw [h.length, count_congr h.bounds, size_congr h.bounds]
  omega

theorem assigned_findAndSetIdsUsed {α : Type} {entry : α → NamedId} {setId : α → Int → α}
    (hset : ∀ a id, entry (setId a id) = ((entry a).1, id)) (h : Valid u) {l : List α}
    (hroom : u.count (l.map entry) + u.idSet.length ≤ u.size) :
    Assigned u (l.map entry)
      ((findAndSetIdsUsed (fun a => (entry a).2) setId u l).1.map entry)
      (findAndSetIdsUsed (fun a => (entry a).2) setId u l).2 := by
  induction l generalizing u with
  | nil => exact .refl h
  | cons a rest ih =>
    have hfirst := assigned_findAndSetIdUsed h (entry a).1 fun hin => by
      rw [List.map_cons, count, List.countP_cons, if_pos hin] at hroom
      omega
    have hall := hfirst.trans (ih hfirst.valid (hfirst.room hroom))
    rw [findAndSetIdsUsed]
    dsimp only
    rw [List.map_cons, List.map_cons, hset]
    exact hall

end UsedIds

end Libjingle
