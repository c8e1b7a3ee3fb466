import Mathlib.Data.List.Nodup
import Mathlib.Tactic.Common

/-! Singly linked lists with a pointer to their last node, as cells of a memory. An address is
a place in the memory, and a cell that was deleted stays empty, so that a use of it shows. -/

structure LinkedCell (α : Type*) where
  value : α
  next : Option Nat

structure LinkedChain (α : Type*) where
  cells : List (Option (LinkedCell α)) := []
  first : Option Nat := none
  last : Option Nat := none

namespace LinkedChain

variable {α : Type*}

section Operations

variable (c : LinkedChain α)

def cell? (a : Nat) : Option (LinkedCell α) := c.cells[a]?.join

def store (a : Nat) (x : Option (LinkedCell α)) : LinkedChain α :=
  { c with cells := c.cells.set a x }

def alloc (v : α) (next : Option Nat) : LinkedChain α :=
  { c with cells := c.cells ++ [some ⟨v, next⟩] }

/-- Writes the pointer to the node after `prev`, or the pointer to the first node. -/
def link (prev p : Option Nat) : Option (LinkedChain α) :=
  match prev with
  | none => some { c with first := p }
  | some a => (c.cell? a).map fun cell => c.store a (some { cell with next := p })

def after (prev : Option Nat) : Option (Option Nat) :=
  match prev with
  | none => some c.first
  | some a => (c.cell? a).map (·.next)

def append (v : α) : Option (LinkedChain α) :=
  ((c.alloc v none).link c.last (some c.cells.length)).map
    fun d => { d with last := some c.cells.length }

/-- The pointer to the last node stays as it is. -/
def insertAfter (prev : Option Nat) (v : α) : Option (LinkedChain α) :=
  (c.after prev).bind fun next => (c.alloc v next).link prev (some c.cells.length)

/-- Takes the node `a`, which stands after `prev`, out and deletes it. -/
def unlink (prev : Option Nat) (a : Nat) : Option (LinkedChain α) :=
  (c.cell? a).bind fun cell => (c.link prev cell.next).map fun d =>
    { d with last := if c.last = some a then prev else c.last }.store a none

def removeAfter (prev : Option Nat) : Option (LinkedChain α) :=
  (c.after prev).bind fun next => next.bind (c.unlink prev)

def setValue (a : Nat) (v : α) : Option (LinkedChain α) :=
  (c.cell? a).map fun cell => c.store a (some { cell with value := v })

/-- The first node with such a value, and the node before it. -/
def search (p : α → Bool) : Nat → Option Nat → Option Nat → Option (Option (Option Nat × Nat))
  | _, _, none => some none
  | 0, _, some _ => none
  | fuel + 1, prev, some a => (c.cell? a).bind fun cell =>
      if p cell.value then some (some (prev, a)) else search p fuel (some a) cell.next

def find (p : α → Bool) : Option (Option (Option Nat × Nat)) :=
  c.search p c.cells.length none c.first

def removeFirst (p : α → Bool) : Option (LinkedChain α) :=
  (c.find p).bind fun found => found.elim (some c) fun place => c.unlink place.1 place.2

def removeFrom (p : α → Bool) : Nat → LinkedChain α → Option Nat → Option Nat →
    Option (LinkedChain α)
  | _, c, _, none => some c
  | 0, _, _, some _ => none
  | fuel + 1, c, prev, some a => (c.cell? a).bind fun cell =>
      if p cell.value then (c.removeAfter prev).bind fun d => removeFrom p fuel d prev cell.next
      else removeFrom p fuel c (some a) cell.next

def removeAll (p : α → Bool) : Option (LinkedChain α) :=
  removeFrom p c.cells.length c none c.first

def freeFrom : Nat → LinkedChain α → Option Nat → Option (LinkedChain α)
  | _, c, none => some c
  | 0, _, some _ => none
  | fuel + 1, c, some a => (c.cell? a).bind fun cell => freeFrom fuel (c.store a none) cell.next

def clear : Option (LinkedChain α) :=
  (freeFrom c.cells.length c c.first).map fun d => { d with first := none, last := none }

def walk : Nat → Option Nat → Option (List (Nat × α))
  | _, none => some []
  | 0, some _ => none
  | fuel + 1, some a => (c.cell? a).bind fun cell =>
      (walk fuel cell.next).map ((a, cell.value) :: ·)

def nodes : List (Nat × α) := (c.walk c.cells.length c.first).getD []

/-- How many nodes stand before the place after `prev`. -/
def place (prev : Option Nat) : Nat :=
  prev.elim 0 fun a => (c.nodes.map Prod.fst).idxOf a + 1

/-- New nodes in the order of the values, where the pointer to the last one is set at the
end. -/
def buildFrom : LinkedChain α → Option Nat → List α → Option (LinkedChain α)
  | c, newest, [] => some { c with last := newest }
  | c, newest, v :: vs => ((c.alloc v none).link newest (some c.cells.length)).bind
      fun d => buildFrom d (some c.cells.length) vs

def build (vs : List α) : Option (LinkedChain α) := buildFrom {} none vs

end Operations

/-- The address of the last node. -/
def ends (xs : List (Nat × α)) : Option Nat := xs.getLast?.map Prod.fst

@[simp] theorem ends_nil : ends ([] : List (Nat × α)) = none := rfl

@[simp] theorem ends_append_singleton {xs : List (Nat × α)} {x : Nat × α} :
    ends (xs ++ [x]) = some x.1 := by simp [ends]

/-- The pointers lead from `p` through the nodes to `q`. -/
def Leads (mem : Nat → Option (LinkedCell α)) :
    Option Nat → List (Nat × α) → Option Nat → Prop
  | p, [], q => p = q
  | p, x :: xs, q => p = some x.1 ∧ ∃ next, mem x.1 = some ⟨x.2, next⟩ ∧ Leads mem next xs q

/-- The nodes of the memory are those that the pointers lead through. -/
structure Linked (c : LinkedChain α) (xs : List (Nat × α)) : Prop where
  leads : Leads c.cell? c.first xs none
  nodup : (xs.map Prod.fst).Nodup
  live : ∀ a, (c.cell? a).isSome → a ∈ xs.map Prod.fst

structure Holds (c : LinkedChain α) (xs : List (Nat × α)) : Prop extends Linked c xs where
  last : c.last = ends xs

section Values

variable {c : LinkedChain α}

theorem cell?_of_walk {fuel : Nat} {s : Option Nat} {xs : List (Nat × α)}
    (h : c.walk fuel s = some xs) {x : Nat × α} (hx : x ∈ xs) :
    ∃ next, c.cell? x.1 = some ⟨x.2, next⟩ := by
  induction fuel generalizing s xs with
  | zero =>
    cases s with
    | none =>
      obtain rfl := Option.some.inj h
      exact absurd hx List.not_mem_nil
    | some a => cases h
  | succ fuel ih =>
    cases s with
    | none =>
      obtain rfl := Option.some.inj h
      exact absurd hx List.not_mem_nil
    | some a =>
      obtain ⟨cell, hcell, hrest⟩ := Option.bind_eq_some_iff.mp h
      obtain ⟨rest, hwalk, rfl⟩ := Option.map_eq_some_iff.mp hrest
      rcases List.mem_cons.mp hx with rfl | hx
      · exact ⟨cell.next, hcell⟩
      · exact ih hwalk hx

theorem cell?_of_mem_nodes {x : Nat × α} (hx : x ∈ c.nodes) :
    ∃ next, c.cell? x.1 = some ⟨x.2, next⟩ := by
  unfold nodes at hx
  cases h : c.walk c.cells.length c.first with
  | none =>
    rw [h] at hx
    exact absurd hx List.not_mem_nil
  | some xs =>
    rw [h] at hx
    exact cell?_of_walk h hx

theorem sizeOf_lt_of_mem_nodes [SizeOf α] {x : Nat × α} (hx : x ∈ c.nodes) :
    sizeOf x.2 < sizeOf c := by
  obtain ⟨next, hcell⟩ := cell?_of_mem_nodes hx
  have hcell : c.cells[x.1]? = some (some ⟨x.2, next⟩) := Option.join_eq_some_iff.mp hcell
  have hmem := List.sizeOf_lt_of_mem (List.mem_of_getElem? hcell)
  cases c
  simp only [LinkedChain.mk.sizeOf_spec, Option.some.sizeOf_spec, LinkedCell.mk.sizeOf_spec]
    at hmem ⊢
  omega

end Values

section Leads

variable {mem mem' : Nat → Option (LinkedCell α)} {p q : Option Nat} {xs ys : List (Nat × α)}

theorem leads_append : Leads mem p (xs ++ ys) q ↔ ∃ m, Leads mem p xs m ∧ Leads mem m ys q := by
  induction xs generalizing p with
  | nil => simp [Leads]
  | cons x xs ih =>
    simp only [List.cons_append, Leads, ih]
    constructor
    · rintro ⟨hp, next, hmem, m, hxs, hys⟩
      exact ⟨m, ⟨hp, next, hmem, hxs⟩, hys⟩
    · rintro ⟨m, ⟨hp, next, hmem, hxs⟩, hys⟩
      exact ⟨hp, next, hmem, m, hxs, hys⟩

theorem Leads.congr (h : Leads mem p xs q) (hmem : ∀ a ∈ xs.map Prod.fst, mem' a = mem a) :
    Leads mem' p xs q := by
  induction xs generalizing p with
  | nil => exact h
  | cons x xs ih =>
    obtain ⟨hp, next, hx, hrest⟩ := h
    refine ⟨hp, next, (hmem _ (by simp)).trans hx, ih hrest fun a ha => hmem a ?_⟩
    exact List.mem_cons_of_mem _ ha

theorem Leads.cell (h : Leads mem p xs q) {x : Nat × α} (hx : x ∈ xs) :
    ∃ next, mem x.1 = some ⟨x.2, next⟩ := by
  induction xs generalizing p with
  | nil => exact absurd hx List.not_mem_nil
  | cons y xs ih =>
    obtain ⟨-, next, hy, hrest⟩ := h
    rcases List.mem_cons.mp hx with rfl | hx
    · exact ⟨next, hy⟩
    · exact ih hrest hx

theorem Leads.isSome (h : Leads mem p xs q) {a : Nat} (ha : a ∈ xs.map Prod.fst) :
    (mem a).isSome := by
  obtain ⟨x, hx, rfl⟩ := List.mem_map.mp ha
  obtain ⟨next, hcell⟩ := h.cell hx
  rw [hcell]
  rfl

theorem Leads.start (h : Leads mem p xs none) : p = xs.head?.map Prod.fst := by
  cases xs with
  | nil => exact h
  | cons x xs => exact h.1

end Leads

section Memory

variable {c : LinkedChain α} {a b : Nat}

theorem cell?_store {x : Option (LinkedCell α)} (ha : (c.cell? a).isSome) :
    (c.store a x).cell? b = if b = a then x else c.cell? b := by
  have hlt : a < c.cells.length := by
    by_contra hle
    simp [cell?, List.getElem?_eq_none (Nat.le_of_not_lt hle)] at ha
  by_cases h : b = a
  · subst h
    simp [cell?, store, hlt]
  · simp [cell?, store, h, List.getElem?_set_ne (Ne.symm h)]

theorem cell?_alloc {v : α} {next : Option Nat} :
    (c.alloc v next).cell? b =
      if b = c.cells.length then some ⟨v, next⟩ else c.cell? b := by
  rcases Nat.lt_trichotomy b c.cells.length with h | h | h
  · simp [cell?, alloc, List.getElem?_append_left h, Nat.ne_of_lt h]
  · simp [cell?, alloc, h]
  · have hle : (c.alloc v next).cells.length ≤ b := by
      rw [alloc, List.length_append]
      exact h
    rw [if_neg (Nat.ne_of_gt h), cell?, cell?, List.getElem?_eq_none hle,
      List.getElem?_eq_none (Nat.le_of_lt h)]

theorem cell?_length : c.cell? c.cells.length = none := by simp [cell?]

theorem lt_of_isSome (h : (c.cell? a).isSome) : a < c.cells.length := by
  by_contra hle
  simp [cell?, List.getElem?_eq_none (Nat.le_of_not_lt hle)] at h

end Memory

section Specs

variable {c : LinkedChain α} {xs l r : List (Nat × α)}

/-- Writing the pointer behind the nodes of `l` changes nothing else. -/
theorem link_spec {m : Option Nat} (h : Leads c.cell? c.first l m) (hnodup : (l.map Prod.fst).Nodup)
    (p : Option Nat) : ∃ d, c.link (ends l) p = some d ∧ Leads d.cell? d.first l p ∧
      (∀ a ∉ l.map Prod.fst, d.cell? a = c.cell? a) ∧
      (∀ a, (d.cell? a).isSome = (c.cell? a).isSome) ∧ d.last = c.last := by
  rcases List.eq_nil_or_concat l with rfl | ⟨l, x, rfl⟩
  · exact ⟨_, rfl, rfl, fun _ _ => rfl, fun _ => rfl, rfl⟩
  · rw [List.concat_eq_append] at h hnodup ⊢
    obtain ⟨n, hl, hn, next, hx, -⟩ := leads_append.mp h
    have hsome : (c.cell? x.1).isSome := by rw [hx]; rfl
    have hfresh : x.1 ∉ l.map Prod.fst := by
      rw [List.map_append, List.nodup_append] at hnodup
      exact fun hmem => hnodup.2.2 _ hmem _ (by simp) rfl
    refine ⟨c.store x.1 (some ⟨x.2, p⟩), ?_, ?_, ?_, ?_, rfl⟩
    · rw [ends_append_singleton]
      simp [link, hx]
    · refine leads_append.mpr ⟨n, hl.congr fun a ha => ?_, hn, p, ?_, rfl⟩
      · rw [cell?_store hsome, if_neg (ne_of_mem_of_not_mem ha hfresh)]
      · rw [cell?_store hsome, if_pos rfl]
    · intro a ha
      have hne : a ≠ x.1 := fun heq => ha (by simp [heq])
      rw [cell?_store hsome, if_neg hne]
    · intro a
      rw [cell?_store hsome]
      by_cases heq : a = x.1
      · rw [if_pos heq, heq, hx]
        rfl
      · rw [if_neg heq]

theorem after_spec (h : Leads c.cell? c.first (l ++ r) none) :
    c.after (ends l) = some (r.head?.map Prod.fst) := by
  obtain ⟨m, hl, hr⟩ := leads_append.mp h
  rw [← hr.start]
  rcases List.eq_nil_or_concat l with rfl | ⟨l, x, rfl⟩
  · rw [← hl]
    rfl
  · rw [List.concat_eq_append] at hl ⊢
    obtain ⟨n, -, -, next, hx, hm⟩ := leads_append.mp hl
    rw [ends_append_singleton]
    have hm : next = m := hm
    simp [after, hx, hm]

theorem exists_split {a : Nat} (ha : a ∈ xs.map Prod.fst) :
    ∃ l r v, xs = l ++ (a, v) :: r := by
  obtain ⟨x, hx, rfl⟩ := List.mem_map.mp ha
  obtain ⟨l, r, rfl⟩ := List.append_of_mem hx
  exact ⟨l, r, x.2, rfl⟩

/-- What can be asked for after a node is asked for behind some of the nodes. -/
theorem exists_of_after (h : Linked c xs) {prev p : Option Nat} (hafter : c.after prev = some p) :
    ∃ l r, xs = l ++ r ∧ prev = ends l ∧ p = r.head?.map Prod.fst := by
  cases prev with
  | none => exact ⟨[], xs, rfl, rfl, (Option.some.inj hafter).symm.trans h.leads.start⟩
  | some a =>
    obtain ⟨cell, hcell, -⟩ := Option.map_eq_some_iff.mp hafter
    obtain ⟨l, r, v, rfl⟩ := exists_split (h.live a (by rw [hcell]; rfl))
    have hsplit : l ++ (a, v) :: r = (l ++ [(a, v)]) ++ r := by simp
    have hleads := h.leads
    rw [hsplit] at hleads
    have hread := after_spec hleads
    rw [ends_append_singleton, hafter] at hread
    exact ⟨l ++ [(a, v)], r, hsplit, (ends_append_singleton (x := (a, v))).symm,
      Option.some.inj hread⟩

theorem Linked.not_mem (h : Linked c xs) : c.cells.length ∉ xs.map Prod.fst := by
  intro hmem
  have hsome := h.leads.isSome hmem
  rw [cell?_length] at hsome
  cases hsome

/-- A new node behind the nodes of `l`, with what comes after it. -/
theorem insert_spec (h : Linked c (l ++ r)) (v : α) :
    ∃ d, (c.alloc v (r.head?.map Prod.fst)).link (ends l) (some c.cells.length) = some d ∧
      Linked d (l ++ (c.cells.length, v) :: r) ∧ d.last = c.last := by
  have hnot := h.not_mem
  have hnodup := h.nodup
  rw [List.map_append] at hnot hnodup
  obtain ⟨hl, hr, hdisjoint⟩ := List.nodup_append.mp hnodup
  obtain ⟨hnl, hnr⟩ := not_or.mp (mt List.mem_append.mpr hnot)
  obtain ⟨m, hleadl, hleadr⟩ := leads_append.mp h.leads
  have hm := hleadr.start
  have halloc : Leads (c.alloc v (r.head?.map Prod.fst)).cell? c.first l m :=
    hleadl.congr fun a ha => by
      rw [cell?_alloc, if_neg (ne_of_mem_of_not_mem ha hnl)]
  obtain ⟨d, hd, hlead, hframe, hisSome, hlast⟩ := link_spec halloc hl (some c.cells.length)
  refine ⟨d, hd, ⟨?_, ?_, ?_⟩, hlast⟩
  · refine leads_append.mpr ⟨_, hlead, rfl, m, ?_, hleadr.congr fun a ha => ?_⟩
    · rw [hframe _ hnl, cell?_alloc, if_pos rfl, hm]
    · have hal : a ∉ l.map Prod.fst := fun hal => hdisjoint a hal a ha rfl
      rw [hframe _ hal, cell?_alloc, if_neg (ne_of_mem_of_not_mem ha hnr)]
  · rw [List.map_append, List.map_cons]
    refine List.nodup_append.mpr ⟨hl, List.nodup_cons.mpr ⟨hnr, hr⟩, fun a ha b hb => ?_⟩
    rcases List.mem_cons.mp hb with rfl | hb
    · exact ne_of_mem_of_not_mem ha hnl
    · exact hdisjoint a ha b hb
  · intro a ha
    rw [hisSome, cell?_alloc] at ha
    by_cases heq : a = c.cells.length
    · simp [heq]
    · rw [if_neg heq] at ha
      have hmem := h.live a ha
      simp only [List.map_append, List.map_cons, List.mem_append, List.mem_cons] at hmem ⊢
      exact hmem.imp_right .inr

theorem append_spec (h : Holds c xs) (v : α) :
    ∃ d, c.append v = some d ∧ Holds d (xs ++ [(c.cells.length, v)]) := by
  have hlinked : Linked c (xs ++ []) := by simpa using h.toLinked
  obtain ⟨d, hd, hlink, -⟩ := insert_spec hlinked v
  refine ⟨{ d with last := some c.cells.length }, ?_, ⟨hlink.1, hlink.2, hlink.3⟩, ?_⟩
  · rw [append, h.last]
    simp only [List.head?_nil, Option.map_none] at hd
    rw [hd]
    rfl
  · exact (ends_append_singleton (x := (c.cells.length, v))).symm

theorem insertAfter_spec (h : Holds c (l ++ r)) (v : α) :
    ∃ d, c.insertAfter (ends l) v = some d ∧ Linked d (l ++ (c.cells.length, v) :: r) ∧
      d.last = c.last := by
  obtain ⟨d, hd, hlink, hlast⟩ := insert_spec h.toLinked v
  refine ⟨d, ?_, hlink, hlast⟩
  rw [insertAfter, after_spec h.leads]
  exact hd

theorem unlink_spec {x : Nat × α} (h : Holds c (l ++ x :: r)) :
    ∃ d, c.unlink (ends l) x.1 = some d ∧ Holds d (l ++ r) := by
  have hnodup := h.nodup
  rw [List.map_append, List.map_cons] at hnodup
  obtain ⟨hl, hxr, hdisjoint⟩ := List.nodup_append.mp hnodup
  obtain ⟨hxr, hr⟩ := List.nodup_cons.mp hxr
  have hxl : x.1 ∉ l.map Prod.fst := fun hx => hdisjoint _ hx _ List.mem_cons_self rfl
  obtain ⟨m, hleadl, hm, next, hx, hleadr⟩ := leads_append.mp h.leads
  obtain ⟨d, hd, hlead, hframe, hisSome, hlast⟩ := link_spec hleadl hl next
  have hsome : (d.cell? x.1).isSome := by rw [hframe _ hxl, hx]; rfl
  have hstore : ∀ a, (d.store x.1 none).cell? a = if a = x.1 then none else d.cell? a :=
    fun a => cell?_store hsome
  refine ⟨{ d with last := if c.last = some x.1 then ends l else c.last }.store x.1 none, ?_,
    ⟨?_, ?_, ?_⟩, ?_⟩
  · simp [unlink, hx, hd]
  · refine leads_append.mpr ⟨next, hlead.congr fun a ha => ?_, hleadr.congr fun a ha => ?_⟩
    · exact (hstore a).trans (if_neg (ne_of_mem_of_not_mem ha hxl))
    · have hal : a ∉ l.map Prod.fst := fun hal =>
        hdisjoint a hal a (List.mem_cons_of_mem _ ha) rfl
      rw [← hframe a hal]
      exact (hstore a).trans (if_neg (ne_of_mem_of_not_mem ha hxr))
  · rw [List.map_append]
    exact List.nodup_append.mpr ⟨hl, hr, fun a ha b hb =>
      hdisjoint a ha b (List.mem_cons_of_mem _ hb)⟩
  · intro a ha
    have ha : (if a = x.1 then none else d.cell? a).isSome := by rw [← hstore]; exact ha
    by_cases heq : a = x.1
    · rw [if_pos heq] at ha
      cases ha
    · rw [if_neg heq, hisSome] at ha
      have hmem := h.live a ha
      simp only [List.map_append, List.map_cons, List.mem_append, List.mem_cons] at hmem ⊢
      exact hmem.imp_right fun hmem => hmem.resolve_left heq
  · change (if c.last = some x.1 then ends l else c.last) = ends (l ++ r)
    rw [h.last]
    rcases List.eq_nil_or_concat r with rfl | ⟨r, y, rfl⟩
    · simp
    · rw [List.concat_eq_append] at hxr ⊢
      have hy : x.1 ≠ y.1 := fun heq => hxr (by simp [heq])
      have hends : ends (l ++ x :: (r ++ [y])) = some y.1 := by
        rw [← List.cons_append, ← List.append_assoc]
        exact ends_append_singleton
      rw [hends, ← List.append_assoc, ends_append_singleton, if_neg]
      exact fun heq => hy (Option.some.inj heq).symm

theorem removeAfter_spec {x : Nat × α} (h : Holds c (l ++ x :: r)) :
    ∃ d, c.removeAfter (ends l) = some d ∧ Holds d (l ++ r) := by
  obtain ⟨d, hd, hholds⟩ := unlink_spec h
  refine ⟨d, ?_, hholds⟩
  rw [removeAfter, after_spec h.leads]
  exact hd

theorem setValue_spec {a : Nat} {v w : α} (h : Holds c (l ++ (a, v) :: r)) :
    ∃ d, c.setValue a w = some d ∧ Holds d (l ++ (a, w) :: r) := by
  obtain ⟨m, hleadl, hm, next, hx, hleadr⟩ := leads_append.mp h.leads
  have hnodup := h.nodup
  rw [List.map_append, List.map_cons] at hnodup
  obtain ⟨-, har, hdisjoint⟩ := List.nodup_append.mp hnodup
  have hal : a ∉ l.map Prod.fst := fun ha => hdisjoint _ ha _ List.mem_cons_self rfl
  have hsome : (c.cell? a).isSome := by rw [hx]; rfl
  have hkeys : (l ++ (a, w) :: r).map Prod.fst = (l ++ (a, v) :: r).map Prod.fst := by simp
  refine ⟨c.store a (some ⟨w, next⟩), by simp [setValue, hx], ⟨?_, ?_, fun b hb => ?_⟩, ?_⟩
  · refine leads_append.mpr ⟨m, hleadl.congr fun b hb => ?_, hm, next, ?_,
      hleadr.congr fun b hb => ?_⟩
    · rw [cell?_store hsome, if_neg (ne_of_mem_of_not_mem hb hal)]
    · rw [cell?_store hsome, if_pos rfl]
    · rw [cell?_store hsome, if_neg (ne_of_mem_of_not_mem hb (List.nodup_cons.mp har).1)]
  · rw [hkeys]
    exact h.nodup
  · rw [cell?_store hsome] at hb
    rw [hkeys]
    by_cases heq : b = a
    · simp [heq]
    · rw [if_neg heq] at hb
      exact h.live b hb
  · have hlast := h.last
    simp only [ends] at hlast ⊢
    rw [← List.getLast?_map] at hlast ⊢
    rw [hkeys]
    exact hlast

theorem search_spec (p : α → Bool) {fuel : Nat} {prev s : Option Nat}
    (h : Leads c.cell? s r none) (hfuel : r.length ≤ fuel) (hprev : prev = ends l) :
    (∃ r₁ x r₂, r = r₁ ++ x :: r₂ ∧ (∀ y ∈ r₁, p y.2 = false) ∧ p x.2 = true ∧
      c.search p fuel prev s = some (some (ends (l ++ r₁), x.1))) ∨
    (∀ y ∈ r, p y.2 = false) ∧ c.search p fuel prev s = some none := by
  induction r generalizing l fuel prev s with
  | nil =>
    refine .inr ⟨fun y hy => absurd hy List.not_mem_nil, ?_⟩
    obtain rfl : s = none := h
    cases fuel <;> rfl
  | cons x r ih =>
    obtain ⟨rfl, next, hx, hr⟩ := h
    cases fuel with
    | zero => cases hfuel
    | succ fuel =>
      by_cases hp : p x.2 = true
      · refine .inl ⟨[], x, r, rfl, fun y hy => absurd hy List.not_mem_nil, hp, ?_⟩
        simp [search, hx, hp, hprev]
      · have hp : p x.2 = false := Bool.eq_false_iff.mpr hp
        have hstep : c.search p (fuel + 1) prev (some x.1) = c.search p fuel (some x.1) next := by
          simp [search, hx, hp]
        rw [hstep]
        have hlen : r.length ≤ fuel := Nat.le_of_succ_le_succ hfuel
        have hends : some x.1 = ends (l ++ [x]) := ends_append_singleton.symm
        rcases ih hr hlen hends with ⟨r₁, y, r₂, rfl, hnone, hy, hfound⟩ | ⟨hnone, hfound⟩
        · refine .inl ⟨x :: r₁, y, r₂, rfl, List.forall_mem_cons.mpr ⟨hp, hnone⟩, hy, ?_⟩
          rw [hfound, List.append_assoc]
          rfl
        · exact .inr ⟨List.forall_mem_cons.mpr ⟨hp, hnone⟩, hfound⟩

theorem Linked.length_le (h : Linked c xs) : xs.length ≤ c.cells.length := by
  have hsub : xs.map Prod.fst ⊆ List.range c.cells.length := fun a ha =>
    List.mem_range.mpr (lt_of_isSome (h.leads.isSome ha))
  simpa using List.Nodup.length_le_of_subset h.nodup hsub

theorem find_spec (h : Holds c xs) (p : α → Bool) :
    (∃ l x r, xs = l ++ x :: r ∧ (∀ y ∈ l, p y.2 = false) ∧ p x.2 = true ∧
      c.find p = some (some (ends l, x.1))) ∨
    (∀ y ∈ xs, p y.2 = false) ∧ c.find p = some none :=
  search_spec (l := []) p h.leads h.toLinked.length_le rfl

/-- A search finds the first of the nodes that it is for. -/
theorem search_filter (p : α → Bool) {fuel : Nat} (prev : Option Nat) {s : Option Nat}
    (h : Leads c.cell? s r none) (hfuel : r.length ≤ fuel) :
    (c.search p fuel prev s).map (·.map Prod.snd) =
      some ((r.filter (p ·.2)).head?.map Prod.fst) := by
  induction r generalizing fuel prev s with
  | nil =>
    obtain rfl : s = none := h
    cases fuel <;> rfl
  | cons x r ih =>
    obtain ⟨rfl, next, hx, hr⟩ := h
    cases fuel with
    | zero => cases hfuel
    | succ fuel =>
      by_cases hp : p x.2 = true
      · simp [search, hx, hp]
      · have hp : p x.2 = false := Bool.eq_false_iff.mpr hp
        have hrest := ih (some x.1) hr (Nat.le_of_succ_le_succ hfuel)
        rw [List.filter_cons_of_neg (by simp [hp]), ← hrest]
        simp only [search, hx, Option.bind_some, hp, Bool.false_eq_true, if_false]

/-- What is behind the node at place `i` of a filtered list. -/
theorem filter_split {p : Nat × α → Bool} {i : Nat} {x : Nat × α}
    (h : (xs.filter p)[i]? = some x) :
    ∃ l r, xs = l ++ x :: r ∧ r.filter p = (xs.filter p).drop (i + 1) := by
  induction xs generalizing i with
  | nil => cases h
  | cons y xs ih =>
    by_cases hy : p y = true
    · rw [List.filter_cons_of_pos hy] at h ⊢
      cases i with
      | zero =>
        obtain rfl : y = x := Option.some.inj h
        exact ⟨[], xs, rfl, rfl⟩
      | succ i =>
        obtain ⟨l, r, rfl, hr⟩ := ih h
        exact ⟨y :: l, r, rfl, hr⟩
    · rw [List.filter_cons_of_neg hy] at h ⊢
      obtain ⟨l, r, rfl, hr⟩ := ih h
      exact ⟨y :: l, r, rfl, hr⟩

theorem removeFirst_spec (h : Holds c xs) (p : α → Bool) :
    ∃ d, c.removeFirst p = some d ∧ Holds d (xs.eraseP (p ·.2)) := by
  rcases find_spec h p with ⟨l, x, r, rfl, hnone, hx, hfound⟩ | ⟨hnone, hfound⟩
  · obtain ⟨d, hd, hholds⟩ := unlink_spec h
    refine ⟨d, ?_, ?_⟩
    · rw [removeFirst, hfound]
      exact hd
    · have herase : (x :: r).eraseP (fun y => p y.2) = r := by simp [hx]
      rw [List.eraseP_append_right _ (by simpa using hnone), herase]
      exact hholds
  · refine ⟨c, ?_, ?_⟩
    · rw [removeFirst, hfound]
      rfl
    · rw [List.eraseP_of_forall_not (by simpa using hnone)]
      exact h

theorem removeFrom_spec (p : α → Bool) {fuel : Nat} {s : Option Nat} (h : Holds c (l ++ r))
    (hs : Leads c.cell? s r none) (hfuel : r.length ≤ fuel) :
    ∃ d, removeFrom p fuel c (ends l) s = some d ∧
      Holds d (l ++ r.filter fun x => !p x.2) := by
  induction r generalizing c l fuel s with
  | nil =>
    obtain rfl : s = none := hs
    exact ⟨c, by cases fuel <;> rfl, h⟩
  | cons x r ih =>
    have hs' := hs
    obtain ⟨rfl, next, hx, hr⟩ := hs
    cases fuel with
    | zero => cases hfuel
    | succ fuel =>
      have hlen : r.length ≤ fuel := Nat.le_of_succ_le_succ hfuel
      by_cases hp : p x.2 = true
      · obtain ⟨d, hd, hholds⟩ := removeAfter_spec h
        -- the rest of the chain is where the node that was taken out pointed to
        have hnext : Leads d.cell? next r none := by
          obtain ⟨m, -, hm⟩ := leads_append.mp hholds.leads
          rw [hr.start, ← hm.start]
          exact hm
        obtain ⟨e, he, hrest⟩ := ih hholds hnext hlen
        refine ⟨e, ?_, ?_⟩
        · simp [removeFrom, hx, hp, hd, he]
        · simpa [List.filter_cons, hp] using hrest
      · have hp : p x.2 = false := Bool.eq_false_iff.mpr hp
        have hl : Holds c ((l ++ [x]) ++ r) := by simpa using h
        obtain ⟨e, he, hrest⟩ := ih hl hr hlen
        refine ⟨e, ?_, ?_⟩
        · rw [ends_append_singleton] at he
          simp [removeFrom, hx, hp, he]
        · simpa [List.filter_cons, hp] using hrest

theorem removeAll_spec (h : Holds c xs) (p : α → Bool) :
    ∃ d, c.removeAll p = some d ∧ Holds d (xs.filter fun x => !p x.2) :=
  removeFrom_spec (l := []) p h h.leads h.toLinked.length_le

theorem freeFrom_spec {fuel : Nat} {s : Option Nat} (hs : Leads c.cell? s xs none)
    (hnodup : (xs.map Prod.fst).Nodup) (hlive : ∀ a, (c.cell? a).isSome → a ∈ xs.map Prod.fst)
    (hfuel : xs.length ≤ fuel) :
    ∃ d, freeFrom fuel c s = some d ∧ ∀ a, d.cell? a = none := by
  induction xs generalizing c fuel s with
  | nil =>
    obtain rfl : s = none := hs
    refine ⟨c, by cases fuel <;> rfl, fun a => ?_⟩
    by_contra hne
    exact absurd (hlive a (Option.isSome_iff_ne_none.mpr hne)) List.not_mem_nil
  | cons x xs ih =>
    obtain ⟨rfl, next, hx, hr⟩ := hs
    obtain ⟨hnot, hnodup⟩ := List.nodup_cons.mp hnodup
    cases fuel with
    | zero => cases hfuel
    | succ fuel =>
      have hsome : (c.cell? x.1).isSome := by rw [hx]; rfl
      have hr' : Leads (c.store x.1 none).cell? next xs none := hr.congr fun a ha => by
        rw [cell?_store hsome, if_neg (ne_of_mem_of_not_mem ha hnot)]
      have hlive' : ∀ a, ((c.store x.1 none).cell? a).isSome → a ∈ xs.map Prod.fst := by
        intro a ha
        rw [cell?_store hsome] at ha
        by_cases heq : a = x.1
        · rw [if_pos heq] at ha
          cases ha
        · rw [if_neg heq] at ha
          exact (List.mem_cons.mp (hlive a ha)).resolve_left heq
      obtain ⟨d, hd, hempty⟩ := ih hr' hnodup hlive' (Nat.le_of_succ_le_succ hfuel)
      exact ⟨d, by simp [freeFrom, hx, hd], hempty⟩

theorem clear_spec (h : Holds c xs) : ∃ d, c.clear = some d ∧ Holds d [] := by
  obtain ⟨d, hd, hempty⟩ := freeFrom_spec h.leads h.nodup h.live h.toLinked.length_le
  refine ⟨{ d with first := none, last := none }, by simp [clear, hd],
    ⟨rfl, List.nodup_nil, fun a ha => ?_⟩, rfl⟩
  have ha : (d.cell? a).isSome := ha
  rw [hempty a] at ha
  cases ha

theorem walk_spec {fuel : Nat} {s : Option Nat} (hs : Leads c.cell? s xs none)
    (hfuel : xs.length ≤ fuel) : c.walk fuel s = some xs := by
  induction xs generalizing fuel s with
  | nil =>
    obtain rfl : s = none := hs
    cases fuel <;> rfl
  | cons x xs ih =>
    obtain ⟨rfl, next, hx, hr⟩ := hs
    cases fuel with
    | zero => cases hfuel
    | succ fuel => simp [walk, hx, ih hr (Nat.le_of_succ_le_succ hfuel)]

theorem Linked.nodes_eq (h : Linked c xs) : c.nodes = xs := by
  rw [nodes, walk_spec h.leads h.length_le]
  rfl

theorem Linked.idxOf_eq {x : Nat × α} (h : Linked c (l ++ x :: r)) :
    (c.nodes.map Prod.fst).idxOf x.1 = l.length := by
  have hnodup := h.nodup
  rw [List.map_append, List.map_cons, List.nodup_append] at hnodup
  have hfresh : x.1 ∉ l.map Prod.fst := fun hx => hnodup.2.2 _ hx _ List.mem_cons_self rfl
  rw [h.nodes_eq, List.map_append, List.map_cons, List.idxOf_append_of_notMem hfresh]
  simp

theorem Linked.place_eq (h : Linked c (l ++ r)) : c.place (ends l) = l.length := by
  rcases List.eq_nil_or_concat l with rfl | ⟨l, x, rfl⟩
  · rfl
  · rw [List.concat_eq_append, List.append_assoc] at h
    rw [List.concat_eq_append, ends_append_singleton, List.length_append]
    exact congrArg (· + 1) h.idxOf_eq

theorem buildFrom_spec (h : Linked c xs) (vs : List α) :
    ∃ d ys, buildFrom c (ends xs) vs = some d ∧ Holds d (xs ++ ys) ∧ ys.map Prod.snd = vs := by
  induction vs generalizing c xs with
  | nil =>
    refine ⟨{ c with last := ends xs }, [], rfl, ?_, rfl⟩
    rw [List.append_nil]
    exact ⟨⟨h.leads, h.nodup, h.live⟩, rfl⟩
  | cons v vs ih =>
    have hlinked : Linked c (xs ++ []) := by simpa using h
    obtain ⟨d, hd, hlink, -⟩ := insert_spec hlinked v
    obtain ⟨e, ys, he, hholds, hys⟩ := ih hlink
    rw [ends_append_singleton] at he
    refine ⟨e, (c.cells.length, v) :: ys, ?_, by simpa using hholds, by simp [hys]⟩
    simp only [List.head?_nil, Option.map_none] at hd
    simp [buildFrom, hd, he]

theorem holds_empty : Holds ({} : LinkedChain α) [] :=
  ⟨⟨rfl, List.nodup_nil, fun a ha => by simp [cell?] at ha⟩, rfl⟩

theorem build_spec (vs : List α) :
    ∃ d ys, build vs = some d ∧ Holds d ys ∧ ys.map Prod.snd = vs :=
  buildFrom_spec holds_empty.toLinked vs

end Specs

end LinkedChain
