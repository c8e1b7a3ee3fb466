import Mathlib.Order.Defs.Unbundled
import Mathlib.Data.Set.Basic
import Mathlib.Data.List.Pairwise
import Mathlib.Data.List.TakeWhile
import Mathlib.Logic.Function.Basic

/-! Maps kept in a binary search tree, walked by a comparison. The comparison may be
any, and then the walk still goes somewhere. A change says what the entries are
afterwards and leaves the shape of the tree open. -/

inductive SearchTree (α β : Type*)
  | leaf
  | node (left : SearchTree α β) (key : α) (val : β) (right : SearchTree α β)

namespace SearchTree

variable {α β : Type*}

def toList : SearchTree α β → List (α × β)
  | leaf => []
  | node left key val right => left.toList ++ (key, val) :: right.toList

/-- How many entries the walk for the first entry that is not less than `k` leaves
behind. -/
def rank (lt : α → α → Bool) (k : α) : SearchTree α β → Nat
  | leaf => 0
  | node left key _ right =>
    if lt key k then left.toList.length + 1 + right.rank lt k else left.rank lt k

/-- The place of the entry for `k`. -/
def position (lt : α → α → Bool) (t : SearchTree α β) (k : α) : Option Nat :=
  match t.toList[t.rank lt k]? with
  | some e => if lt k e.1 then none else some (t.rank lt k)
  | none => none

def find (lt : α → α → Bool) (t : SearchTree α β) (k : α) : Option β :=
  match t.toList[t.rank lt k]? with
  | some e => if lt k e.1 then none else some e.2
  | none => none

/-- The entries after the entry for `k` was set. -/
def assign (lt : α → α → Bool) (t : SearchTree α β) (k : α) (v : β) : List (α × β) :=
  match t.toList[t.rank lt k]? with
  | some e =>
    if lt k e.1 then t.toList.take (t.rank lt k) ++ (k, v) :: t.toList.drop (t.rank lt k)
    else t.toList.set (t.rank lt k) (e.1, v)
  | none => t.toList.take (t.rank lt k) ++ (k, v) :: t.toList.drop (t.rank lt k)

/-- The entries after the entry for `k` was erased, if there was one. -/
def erase (lt : α → α → Bool) (t : SearchTree α β) (k : α) : List (α × β) :=
  match t.position lt k with
  | some i => t.toList.eraseIdx i
  | none => t.toList

/-- The entries of a tree are in order. -/
def Sorted (lt : α → α → Bool) (l : List (α × β)) : Prop := l.Pairwise fun a b => lt a.1 b.1

variable {lt : α → α → Bool} {t : SearchTree α β} {k : α}

/-- The walk finds the border between the entries that are less and those that are
not, if there is one. -/
theorem rank_eq_length_takeWhile
    (h : t.toList.Pairwise fun a b => lt b.1 k = true → lt a.1 k = true) :
    t.rank lt k = (t.toList.takeWhile fun e => lt e.1 k).length := by
  induction t with
  | leaf => rfl
  | node left key val right ihl ihr =>
    rw [toList, List.pairwise_append] at h
    obtain ⟨hleft, hright, hcross⟩ := h
    rw [rank, toList]
    by_cases hkey : lt key k = true
    · have hall : ∀ e ∈ left.toList, lt e.1 k = true :=
        fun e he => hcross e he (key, val) List.mem_cons_self hkey
      rw [if_pos hkey, List.takeWhile_append_of_pos hall,
        List.takeWhile_cons_of_pos (a := (key, val)) hkey, List.length_append, List.length_cons, ihr (List.pairwise_cons.mp hright).2]
      omega
    · rw [if_neg hkey, ihl hleft, List.takeWhile_append]
      split
      · rename_i hall
        rw [List.takeWhile_cons_of_neg (a := (key, val)) hkey, List.append_nil, hall]
      · rfl

theorem erase_sublist : (t.erase lt k).Sublist t.toList := by
  rw [erase]
  split
  · exact List.eraseIdx_sublist _ _
  · exact List.Sublist.refl _

section Order

variable {S : Set α}

theorem partition_of_sorted (hlt : IsStrictWeakOrder S fun a b => lt a b = true)
    {l : List (α × β)} (hl : Sorted lt l) (hS : ∀ e ∈ l, e.1 ∈ S) (hk : k ∈ S) :
    l.Pairwise fun a b => lt b.1 k = true → lt a.1 k = true := by
  refine hl.imp_of_mem fun {a b} ha hb hab hbk => ?_
  exact hlt.trans ⟨a.1, hS a ha⟩ ⟨b.1, hS b hb⟩ ⟨k, hk⟩ hab hbk

/-- What a walk for `k` finds in a tree in order: behind the entries that are less
comes the entry for `k`, or there is none. -/
theorem walk (hlt : IsStrictWeakOrder S fun a b => lt a b = true)
    (ht : Sorted lt t.toList) (hS : ∀ e ∈ t.toList, e.1 ∈ S) (hk : k ∈ S) :
    ∃ front back, t.toList = front ++ back ∧ t.rank lt k = front.length ∧
      (∀ e ∈ front, lt e.1 k = true) ∧ ((∀ e ∈ back, lt k e.1 = true) ∨
        ∃ e rest, back = e :: rest ∧ lt e.1 k = false ∧ lt k e.1 = false ∧
          ∀ x ∈ rest, lt k x.1 = true) := by
  refine ⟨t.toList.takeWhile fun e => lt e.1 k, t.toList.dropWhile fun e => lt e.1 k,
    List.takeWhile_append_dropWhile.symm,
    rank_eq_length_takeWhile (partition_of_sorted hlt ht hS hk),
    fun e he => List.mem_takeWhile_imp (p := fun e : α × β => lt e.1 k) he, ?_⟩
  have hsub := List.dropWhile_sublist (l := t.toList) fun e => lt e.1 k
  have hsorted : Sorted lt (t.toList.dropWhile fun e => lt e.1 k) := ht.sublist hsub
  have hmem : ∀ e ∈ t.toList.dropWhile fun e => lt e.1 k, e.1 ∈ S :=
    fun e he => hS e (hsub.subset he)
  have hhead := List.head?_dropWhile_not (fun e : α × β => lt e.1 k) t.toList
  rcases hback : t.toList.dropWhile fun e => lt e.1 k with _ | ⟨e, rest⟩
  · rw [hback]
    exact .inl fun e he => absurd he List.not_mem_nil
  · rw [hback] at hhead hsorted hmem ⊢
    obtain ⟨hrest, -⟩ := List.pairwise_cons.mp hsorted
    have heS := hmem e List.mem_cons_self
    have hrestS : ∀ x ∈ rest, x.1 ∈ S := fun x hx => hmem x (List.mem_cons_of_mem _ hx)
    by_cases hek : lt k e.1 = true
    · refine .inl fun x hx => ?_
      rcases List.mem_cons.mp hx with rfl | hx
      · exact hek
      · exact hlt.trans ⟨k, hk⟩ ⟨e.1, heS⟩ ⟨x.1, hrestS x hx⟩ hek (hrest x hx)
    · refine .inr ⟨e, rest, rfl, hhead, Bool.not_eq_true _ ▸ hek, fun x hx => ?_⟩
      by_contra hkx
      -- k and e are equivalent, so x would be equivalent to e or less
      by_cases hxk : lt x.1 k = true
      · have hlast := hlt.trans ⟨e.1, heS⟩ ⟨x.1, hrestS x hx⟩ ⟨k, hk⟩ (hrest x hx) hxk
        exact absurd hlast (by simpa using hhead)
      · have hequiv := hlt.incomp_trans ⟨e.1, heS⟩ ⟨k, hk⟩ ⟨x.1, hrestS x hx⟩
          ⟨by simpa using hhead, hek⟩ ⟨hkx, hxk⟩
        exact hequiv.1 (hrest x hx)

variable (hlt : IsStrictWeakOrder S fun a b => lt a b = true)

include hlt

theorem find_eq_some_iff (ht : Sorted lt t.toList) (hS : ∀ e ∈ t.toList, e.1 ∈ S) (hk : k ∈ S)
    {v : β} : t.find lt k = some v ↔
      ∃ e ∈ t.toList, e.2 = v ∧ lt e.1 k = false ∧ lt k e.1 = false := by
  have hasymm : ∀ e ∈ t.toList, lt e.1 k = true → lt k e.1 = true → False := fun e he hek hke =>
    hlt.irrefl ⟨k, hk⟩ (hlt.trans ⟨k, hk⟩ ⟨e.1, hS e he⟩ ⟨k, hk⟩ hke hek)
  obtain ⟨front, back, hlist, hrank, hfront, hback⟩ := walk hlt ht hS hk
  rw [find, hrank, hlist, List.getElem?_append_right le_rfl, Nat.sub_self]
  rcases hback with hgreater | ⟨e, rest, rfl, hek, hke, hgreater⟩
  · have hnone : ¬ ∃ e ∈ front ++ back, e.2 = v ∧ lt e.1 k = false ∧ lt k e.1 = false := by
      rintro ⟨e, he, -, hek, hke⟩
      rcases List.mem_append.mp he with he | he
      · exact absurd (hfront e he) (by simp [hek])
      · exact absurd (hgreater e he) (by simp [hke])
    refine iff_of_false ?_ hnone
    rcases back with _ | ⟨e, rest⟩
    · exact nofun
    · simp [hgreater e List.mem_cons_self]
  · constructor
    · intro h
      refine ⟨e, List.mem_append_right _ List.mem_cons_self, ?_, hek, hke⟩
      simpa [hke] using h
    · rintro ⟨x, hx, rfl, hxk, hkx⟩
      rcases List.mem_append.mp hx with hx | hx
      · exact absurd (hfront x hx) (by simp [hxk])
      · rcases List.mem_cons.mp hx with rfl | hx
        · simp [hkx]
        · exact absurd (hgreater x hx) (by simp [hkx])

/-- A key that was not found is put between the entries that are less and those
that are greater. -/
theorem assign_eq (ht : Sorted lt t.toList) (hS : ∀ e ∈ t.toList, e.1 ∈ S) (hk : k ∈ S)
    (hnone : t.find lt k = none) (v : β) :
    ∃ front back, t.toList = front ++ back ∧ t.assign lt k v = front ++ (k, v) :: back ∧
      (∀ e ∈ front, lt e.1 k = true) ∧ ∀ e ∈ back, lt k e.1 = true := by
  obtain ⟨front, back, hlist, hrank, hfront, hback⟩ := walk hlt ht hS hk
  have hplace : front ++ back = front ++ back ∧
      (front ++ back).take front.length ++ (k, v) :: (front ++ back).drop front.length =
        front ++ (k, v) :: back := by simp
  refine ⟨front, back, hlist, ?_, hfront, ?_⟩
  · rw [assign, hrank, hlist, List.getElem?_append_right le_rfl, Nat.sub_self, hplace.2]
    rcases hback with hgreater | ⟨e, rest, rfl, hek, hke, hgreater⟩
    · rcases back with _ | ⟨e, rest⟩
      · rfl
      · exact if_pos (hgreater e List.mem_cons_self)
    · have hsome : t.find lt k = some e.2 := by
        refine (find_eq_some_iff hlt ht hS hk).mpr ⟨e, ?_, rfl, hek, hke⟩
        rw [hlist]
        exact List.mem_append_right _ List.mem_cons_self
      rw [hnone] at hsome
      cases hsome
  · rcases hback with hgreater | ⟨e, rest, rfl, hek, hke, hgreater⟩
    · exact hgreater
    · have hsome : t.find lt k = some e.2 := by
        refine (find_eq_some_iff hlt ht hS hk).mpr ⟨e, ?_, rfl, hek, hke⟩
        rw [hlist]
        exact List.mem_append_right _ List.mem_cons_self
      rw [hnone] at hsome
      cases hsome

theorem sorted_assign (ht : Sorted lt t.toList) (hS : ∀ e ∈ t.toList, e.1 ∈ S) (hk : k ∈ S)
    (hnone : t.find lt k = none) (v : β) : Sorted lt (t.assign lt k v) := by
  obtain ⟨front, back, hlist, hassign, hfront, hback⟩ := assign_eq hlt ht hS hk hnone v
  rw [Sorted, hlist, List.pairwise_append] at ht
  rw [Sorted, hassign, List.pairwise_append]
  refine ⟨ht.1, List.pairwise_cons.mpr ⟨hback, ht.2.1⟩, fun a ha b hb => ?_⟩
  rcases List.mem_cons.mp hb with rfl | hb
  · exact hfront a ha
  · exact ht.2.2 a ha b hb

theorem mem_assign (ht : Sorted lt t.toList) (hS : ∀ e ∈ t.toList, e.1 ∈ S) (hk : k ∈ S)
    (hnone : t.find lt k = none) {v : β} {e : α × β} :
    e ∈ t.assign lt k v ↔ e = (k, v) ∨ e ∈ t.toList := by
  obtain ⟨front, back, hlist, hassign, -⟩ := assign_eq hlt ht hS hk hnone v
  rw [hlist, hassign, List.mem_append, List.mem_cons, List.mem_append]
  exact or_left_comm

theorem mem_erase (ht : Sorted lt t.toList) (hS : ∀ e ∈ t.toList, e.1 ∈ S) (hk : k ∈ S)
    {e : α × β} : e ∈ t.erase lt k ↔ e ∈ t.toList ∧ ¬ (lt e.1 k = false ∧ lt k e.1 = false) := by
  obtain ⟨front, back, hlist, hrank, hfront, hback⟩ := walk hlt ht hS hk
  have hless : ∀ x ∈ front, ¬ (lt x.1 k = false ∧ lt k x.1 = false) :=
    fun x hx h => by simp [hfront x hx] at h
  rw [erase, position, hrank, hlist, List.getElem?_append_right le_rfl, Nat.sub_self]
  rcases hback with hgreater | ⟨x, rest, rfl, hxk, hkx, hgreater⟩
  · have hall : ∀ x ∈ front ++ back, ¬ (lt x.1 k = false ∧ lt k x.1 = false) := by
      intro x hx
      rcases List.mem_append.mp hx with hx | hx
      · exact hless x hx
      · intro h
        simp [hgreater x hx] at h
    rcases back with _ | ⟨x, rest⟩
    · exact ⟨fun he => ⟨he, hall e he⟩, And.left⟩
    · have hx := hgreater x List.mem_cons_self
      simp only [List.getElem?_cons_zero, hx, if_true]
      exact ⟨fun he => ⟨he, hall e he⟩, And.left⟩
  · have herase : (front ++ x :: rest).eraseIdx front.length = front ++ rest := by
      rw [List.eraseIdx_append_of_length_le le_rfl, Nat.sub_self, List.eraseIdx_cons_zero]
    simp only [List.getElem?_cons_zero, hkx, Bool.false_eq_true, if_false, herase]
    constructor
    · intro he
      rcases List.mem_append.mp he with he | he
      · exact ⟨List.mem_append_left _ he, hless e he⟩
      · refine ⟨List.mem_append_right _ (List.mem_cons_of_mem _ he), fun h => ?_⟩
        simp [hgreater e he] at h
    · rintro ⟨he, hne⟩
      rcases List.mem_append.mp he with he | he
      · exact List.mem_append_left _ he
      · rcases List.mem_cons.mp he with rfl | he
        · exact absurd ⟨hxk, hkx⟩ hne
        · exact List.mem_append_right _ he

/-- A key that is found keeps its place. -/
theorem assign_of_find (ht : Sorted lt t.toList) (hS : ∀ e ∈ t.toList, e.1 ∈ S) (hk : k ∈ S)
    {w : β} (hsome : t.find lt k = some w) (v : β) :
    ∃ front j back, t.toList = front ++ (j, w) :: back ∧
      t.assign lt k v = front ++ (j, v) :: back ∧ lt j k = false ∧ lt k j = false := by
  obtain ⟨front, back, hlist, hrank, -, hback⟩ := walk hlt ht hS hk
  rw [find, hrank, hlist, List.getElem?_append_right le_rfl, Nat.sub_self] at hsome
  rcases hback with hgreater | ⟨⟨j, x⟩, rest, rfl, hek, hke, -⟩
  · cases back with
    | nil => cases hsome
    | cons e rest => simp [hgreater e List.mem_cons_self] at hsome
  · obtain rfl : x = w := by simpa [hke] using hsome
    refine ⟨front, j, rest, hlist, ?_, hek, hke⟩
    rw [assign, hrank, hlist, List.getElem?_append_right le_rfl, Nat.sub_self]
    simp [hke]

end Order

section Represents

variable {S : Set α} {m : α → Option β}

/-- A tree in order that has for the keys of `S` what a map has. -/
structure Represents (lt : α → α → Bool) (S : Set α) (t : SearchTree α β) (m : α → Option β) :
    Prop where
  sorted : Sorted lt t.toList
  mem : ∀ e ∈ t.toList, e.1 ∈ S
  entry : ∀ j ∈ S, ∀ v, (j, v) ∈ t.toList ↔ m j = some v

variable (hlt : IsStrictWeakOrder S fun a b => lt a b = true)
  (heq : ∀ a ∈ S, ∀ b ∈ S, lt a b = false → lt b a = false → a = b)

include hlt heq

theorem Represents.find_eq (h : Represents lt S t m) (hk : k ∈ S) : t.find lt k = m k := by
  ext v
  rw [find_eq_some_iff hlt h.sorted h.mem hk, ← h.entry k hk]
  constructor
  · rintro ⟨⟨j, w⟩, he, rfl, hjk, hkj⟩
    obtain rfl : j = k := heq j (h.mem _ he) k hk hjk hkj
    exact he
  · intro he
    have hirrefl : lt k k = false := by simpa using hlt.irrefl ⟨k, hk⟩
    exact ⟨(k, v), he, rfl, hirrefl, hirrefl⟩

theorem Represents.assign [DecidableEq α] (h : Represents lt S t m) (hk : k ∈ S) {v : β} {u : SearchTree α β}
    (hu : u.toList = t.assign lt k v) : Represents lt S u (Function.update m k (some v)) := by
  cases hfind : t.find lt k with
  | none =>
    have hmem := fun e => mem_assign (e := e) (v := v) hlt h.sorted h.mem hk hfind
    have hnone : m k = none := (h.find_eq hlt heq hk).symm.trans hfind
    refine ⟨?_, ?_, fun j hj w => ?_⟩
    · rw [hu]
      exact sorted_assign hlt h.sorted h.mem hk hfind v
    · intro e he
      rw [hu, hmem] at he
      rcases he with rfl | he
      · exact hk
      · exact h.mem e he
    · rw [hu, hmem, h.entry j hj, Prod.mk.injEq]
      by_cases hjk : j = k
      · subst hjk
        simp [hnone, eq_comm]
      · simp [hjk]
  | some w =>
    obtain ⟨front, j, back, hlist, hassign, hjk, hkj⟩ :=
      assign_of_find hlt h.sorted h.mem hk hfind v
    obtain rfl : j = k := heq j (h.mem (j, w) (by simp [hlist])) k hk hjk hkj
    have hsorted := h.sorted
    rw [Sorted, hlist, List.pairwise_append, List.pairwise_cons] at hsorted
    obtain ⟨hfront, ⟨hback, hrest⟩, hcross⟩ := hsorted
    -- no other entry has the key
    have hother : ∀ x, (j, x) ∉ front ∧ (j, x) ∉ back := fun x =>
      ⟨fun hx => hlt.irrefl ⟨j, hk⟩ (hcross _ hx (j, w) List.mem_cons_self),
        fun hx => hlt.irrefl ⟨j, hk⟩ (hback _ hx)⟩
    refine ⟨?_, ?_, fun i hi x => ?_⟩
    · rw [hu, hassign, Sorted, List.pairwise_append, List.pairwise_cons]
      refine ⟨hfront, ⟨hback, hrest⟩, fun a ha b hb => ?_⟩
      rcases List.mem_cons.mp hb with rfl | hb
      · exact hcross a ha (j, w) List.mem_cons_self
      · exact hcross a ha b (List.mem_cons_of_mem _ hb)
    · intro e he
      rw [hu, hassign] at he
      rcases List.mem_append.mp he with he | he
      · exact h.mem e (by simp [hlist, he])
      · rcases List.mem_cons.mp he with rfl | he
        · exact hk
        · exact h.mem e (by simp [hlist, he])
    · rw [hu, hassign, List.mem_append, List.mem_cons, Prod.mk.injEq]
      by_cases hij : i = j
      · subst hij
        simp [hother x, eq_comm]
      · have hold := h.entry i hi x
        rw [hlist, List.mem_append, List.mem_cons, Prod.mk.injEq] at hold
        simpa [hij] using hold

end Represents

end SearchTree
