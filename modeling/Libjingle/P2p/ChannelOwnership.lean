import Libjingle.P2p.Transport
import Mathlib.Data.List.Nodup

/-! Who destroys the channel objects of a transport: the counted entries of its map
and the objects that have been passed to `DestroyTransportChannel`. -/

namespace Libjingle

/-- An entry of `channels_`. The object is the number of objects created before it. -/
structure OwnedEntry where
  component : Int
  impl : Nat
  ref : Nat
  deriving DecidableEq, Repr

structure ChannelOwner where
  channels : List OwnedEntry := []
  created : Nat := 0
  destroyed : List Nat := []
  deriving DecidableEq, Repr

namespace ChannelOwner

variable (s : ChannelOwner)

def find (component : Int) : Option OwnedEntry := s.channels.find? (·.component = component)

def mapRef (component : Int) (f : Nat → Nat) : ChannelOwner := { s with
  channels := s.channels.map fun entry =>
    if entry.component = component then { entry with ref := f entry.ref } else entry }

/-- `channels_[component].AddRef()`. -/
def addRef (component : Int) : ChannelOwner := s.mapRef component (· + 1)

def decRef (component : Int) : ChannelOwner := s.mapRef component (· - 1)

def createChannel (component : Int) : Nat × ChannelOwner :=
  match s.find component with
  | some entry => (entry.impl, s.addRef component)
  | none =>
    (s.created, addRef { s with
      channels := s.channels ++ [⟨component, s.created, 0⟩]
      created := s.created + 1 } component)

def destroyChannel (component : Int) : ChannelOwner :=
  match s.find component with
  | none => s
  | some entry =>
    if entry.ref - 1 = 0 then { s with
      channels := s.channels.filter (·.component ≠ component)
      destroyed := s.destroyed ++ [entry.impl] }
    else s.decRef component

def destroyAllChannels : ChannelOwner := { s with
  channels := []
  destroyed := s.destroyed ++ (s.channels.filter (·.ref - 1 = 0)).map OwnedEntry.impl }

inductive Event
  | createChannel (component : Int)
  | destroyChannel (component : Int)
  deriving DecidableEq, Repr

def step (s : ChannelOwner) : Event → ChannelOwner
  | .createChannel component => (s.createChannel component).2
  | .destroyChannel component => s.destroyChannel component

def run (events : List Event) : ChannelOwner := events.foldl step {}

def outstandingAfter (component : Int) (n : Nat) : Event → Nat
  | .createChannel c => if c = component then n + 1 else n
  | .destroyChannel c => if c = component then n - 1 else n

/-- The calls of `CreateChannel` that no `DestroyChannel` has answered yet. -/
def outstanding (events : List Event) (component : Int) : Nat :=
  events.foldl (outstandingAfter component) 0

/-- What is promised when `DestroyAllChannels` follows the calls. -/
structure Owned (events : List Event) : Prop where
  once : ∀ impl < (run events).created, (run events).destroyAllChannels.destroyed.count impl = 1
  held : ∀ before during after component,
    events = before ++ .createChannel component :: during ++ after →
    (∀ n, 0 < outstanding (before ++ .createChannel component :: during.take n) component) →
    ((run before).createChannel component).1 ∉
      (run (before ++ .createChannel component :: during)).destroyed

def refs (component : Int) : Nat := ((s.find component).map OwnedEntry.ref).getD 0

def Counts (s : ChannelOwner) (t : Transport) : Prop :=
  t.channels.map (fun entry => (entry.component, entry.ref)) =
    s.channels.map fun entry => (entry.component, entry.ref)

def Event.forget : Event → Transport.Event
  | .createChannel component => .createChannel component
  | .destroyChannel component => .destroyChannel component

/-- Every object is in the map or destroyed, and no object is there twice. -/
structure Inv : Prop where
  components : (s.channels.map OwnedEntry.component).Nodup
  accounted : (s.channels.map OwnedEntry.impl ++ s.destroyed).Perm (List.range s.created)

theorem component_of_find {component : Int} {entry : OwnedEntry}
    (h : s.find component = some entry) : entry.component = component := by
  simpa using List.find?_some h

theorem mem_of_find {component : Int} {entry : OwnedEntry} (h : s.find component = some entry) :
    entry ∈ s.channels := List.mem_of_find?_eq_some h

theorem find_mapRef (component other : Int) (f : Nat → Nat) :
    (s.mapRef component f).find other = (s.find other).map fun entry =>
      if other = component then { entry with ref := f entry.ref } else entry := by
  have hpred : ((fun entry : OwnedEntry => decide (entry.component = other)) ∘ fun entry =>
      if entry.component = component then { entry with ref := f entry.ref } else entry) =
        fun entry => decide (entry.component = other) := by
    funext entry
    by_cases h : entry.component = component <;> simp [h]
  have hfind := List.find?_map (f := fun entry : OwnedEntry =>
    if entry.component = component then { entry with ref := f entry.ref } else entry)
    (p := fun entry => decide (entry.component = other)) (l := s.channels)
  rw [hpred] at hfind
  refine hfind.trans ?_
  cases hs : s.find other with
  | none => simp only [find] at hs; rw [hs]; rfl
  | some entry =>
    have hcomponent := s.component_of_find hs
    simp only [find] at hs
    rw [hs]
    simp only [Option.map_some, hcomponent]

theorem find_append (component other : Int) (impl : Nat) (created : Nat)
    (h : s.find component = none) :
    find { s with channels := s.channels ++ [⟨component, impl, 0⟩], created := created } other =
      if other = component then some ⟨component, impl, 0⟩ else s.find other := by
  by_cases ho : other = component
  · subst ho
    simp only [find] at h
    simp [find, h]
  · have hne : component ≠ other := fun he => ho he.symm
    simp [find, ho, hne]

theorem find_filter (component other : Int) (destroyed : List Nat) :
    find { s with
      channels := s.channels.filter (·.component ≠ component), destroyed := destroyed } other =
        if other = component then none else s.find other := by
  by_cases ho : other = component
  · subst ho
    simp [find]
  · rw [if_neg ho, find, find, List.find?_filter]
    congr 1
    funext entry
    by_cases he : entry.component = other
    · simp [he, ho]
    · simp [he]

theorem find_createChannel (component other : Int) :
    (s.createChannel component).2.find other =
      if other = component then
        some ⟨component, (s.createChannel component).1, s.refs component + 1⟩
      else s.find other := by
  rw [createChannel, refs]
  cases hs : s.find component with
  | none =>
    simp only [addRef, find_mapRef, find_append s component other s.created _ hs]
    by_cases ho : other = component
    · simp [ho]
    · cases hother : s.find other <;> simp [ho]
  | some entry =>
    simp only [addRef, find_mapRef]
    by_cases ho : other = component
    · have hcomponent := s.component_of_find hs
      subst ho
      simp [hs, hcomponent]
    · cases hother : s.find other <;> simp [ho]

theorem find_destroyChannel (component other : Int) :
    (s.destroyChannel component).find other =
      if other = component then
        (s.find component).bind fun entry =>
          if entry.ref - 1 = 0 then none else some { entry with ref := entry.ref - 1 }
      else s.find other := by
  rw [destroyChannel]
  cases hs : s.find component with
  | none =>
    by_cases ho : other = component
    · simp [ho, hs]
    · simp [ho]
  | some entry =>
    by_cases hlast : entry.ref - 1 = 0
    · simp only [if_pos hlast, find_filter]
      by_cases ho : other = component
      · simp [ho, hlast]
      · simp [ho]
    · simp only [if_neg hlast, decRef, find_mapRef]
      by_cases ho : other = component
      · simp [ho, hs, hlast]
      · cases hother : s.find other <;> simp [ho]

theorem refs_step (component : Int) (e : Event) :
    (step s e).refs component = outstandingAfter component (s.refs component) e := by
  cases e with
  | createChannel c =>
    rw [step, refs, find_createChannel, outstandingAfter]
    by_cases hc : c = component
    · simp [hc]
    · have hne : component ≠ c := fun he => hc he.symm
      simp [hc, hne, refs]
  | destroyChannel c =>
    rw [step, refs, find_destroyChannel, outstandingAfter]
    by_cases hc : c = component
    · subst hc
      cases hs : s.find c with
      | none => simp [refs, hs]
      | some entry =>
        by_cases hlast : entry.ref - 1 = 0
        · simp [refs, hs, hlast]
        · simp [refs, hs, hlast]
    · have hne : component ≠ c := fun he => hc he.symm
      simp [hc, hne, refs]

theorem refs_run (events : List Event) (component : Int) :
    (run events).refs component = outstanding events component := by
  have hfold : ∀ (l : List Event) (s : ChannelOwner),
      (l.foldl step s).refs component = l.foldl (outstandingAfter component) (s.refs component) := by
    intro l
    induction l with
    | nil => exact fun _ => rfl
    | cons e rest ih =>
      intro s
      rw [List.foldl_cons, List.foldl_cons, ih, refs_step]
  exact hfold events {}

variable {s}

theorem refs_of_find {component : Int} {entry : OwnedEntry} (h : s.find component = some entry) :
    s.refs component = entry.ref := by rw [refs, h]; rfl

theorem impl_step {component : Int} {entry : OwnedEntry} (h : s.find component = some entry)
    {e : Event} (hrefs : 0 < (step s e).refs component) :
    ∃ entry', (step s e).find component = some entry' ∧ entry'.impl = entry.impl := by
  cases e with
  | createChannel c =>
    rw [step, find_createChannel]
    by_cases hc : component = c
    · subst hc
      refine ⟨_, if_pos rfl, ?_⟩
      rw [createChannel, h]
    · exact ⟨entry, (if_neg hc).trans h, rfl⟩
  | destroyChannel c =>
    rw [refs, step, find_destroyChannel] at hrefs
    rw [step, find_destroyChannel]
    by_cases hc : component = c
    · subst hc
      by_cases hlast : entry.ref - 1 = 0
      · simp [h, hlast] at hrefs
      · exact ⟨{ entry with ref := entry.ref - 1 }, by simp [h, hlast], rfl⟩
    · exact ⟨entry, (if_neg hc).trans h, rfl⟩

theorem impl_run {component : Int} {entry : OwnedEntry} (h : s.find component = some entry)
    {events : List Event} (hrefs : ∀ n, 0 < ((events.take n).foldl step s).refs component) :
    ∃ entry', (events.foldl step s).find component = some entry' ∧ entry'.impl = entry.impl := by
  induction events generalizing s entry with
  | nil => exact ⟨entry, h, rfl⟩
  | cons e rest ih =>
    obtain ⟨entry', hfind, himpl⟩ := impl_step h (hrefs 1)
    obtain ⟨last, hlast, hsame⟩ := ih hfind fun n => hrefs (n + 1)
    exact ⟨last, hlast, hsame.trans himpl⟩

theorem perm_filter {channels : List OwnedEntry} {component : Int} {entry : OwnedEntry}
    (hnodup : (channels.map OwnedEntry.component).Nodup)
    (hfind : channels.find? (·.component = component) = some entry) :
    (entry :: channels.filter (·.component ≠ component)).Perm channels := by
  induction channels with
  | nil => simp at hfind
  | cons first rest ih =>
    obtain ⟨hfirst, hrest⟩ := List.nodup_cons.mp hnodup
    by_cases hc : first.component = component
    · have hentry : first = entry := by simpa [hc] using hfind
      have hothers : rest.filter (·.component ≠ component) = rest := by
        refine List.filter_eq_self.mpr fun other hother => ?_
        have hne : other.component ≠ component := fun he =>
          hfirst (List.mem_map.mpr ⟨other, hother, he.trans hc.symm⟩)
        simpa using hne
      rw [List.filter_cons_of_neg (by simp [hc]), hothers, hentry]
    · have hfound : rest.find? (·.component = component) = some entry := by
        simpa [hc] using hfind
      rw [List.filter_cons_of_pos (by simp [hc])]
      exact (List.Perm.swap first entry _).trans ((ih hrest hfound).cons first)

namespace Inv

variable (h : s.Inv)
include h

theorem find_of_mem {entry : OwnedEntry} (hentry : entry ∈ s.channels) :
    s.find entry.component = some entry := by
  cases hfind : s.find entry.component with
  | none =>
    have hnone := List.find?_eq_none.mp hfind entry hentry
    simp at hnone
  | some found =>
    have hcomponent := s.component_of_find hfind
    have hsame := List.inj_on_of_nodup_map h.components (s.mem_of_find hfind) hentry hcomponent
    rw [hsame]

theorem disjoint {entry : OwnedEntry} (hentry : entry ∈ s.channels) :
    entry.impl ∉ s.destroyed := by
  have hnodup := h.accounted.nodup_iff.mpr List.nodup_range
  exact fun hmem =>
    (List.nodup_append.mp hnodup).2.2 _ (List.mem_map_of_mem hentry) _ hmem rfl

theorem mapRef (component : Int) (f : Nat → Nat) : (s.mapRef component f).Inv := by
  have hcomponent : (s.mapRef component f).channels.map OwnedEntry.component =
      s.channels.map OwnedEntry.component := by
    rw [ChannelOwner.mapRef, List.map_map]
    refine List.map_congr_left fun entry _ => ?_
    by_cases hc : entry.component = component <;> simp [hc]
  have himpl : (s.mapRef component f).channels.map OwnedEntry.impl =
      s.channels.map OwnedEntry.impl := by
    rw [ChannelOwner.mapRef, List.map_map]
    refine List.map_congr_left fun entry _ => ?_
    by_cases hc : entry.component = component <;> simp [hc]
  refine ⟨?_, ?_⟩
  · rw [hcomponent]
    exact h.components
  · rw [himpl]
    exact h.accounted

theorem step (e : Event) : (step s e).Inv := by
  cases e with
  | createChannel c =>
    rw [ChannelOwner.step, createChannel]
    cases hs : s.find c with
    | some entry => exact h.mapRef c _
    | none =>
      have hfresh : c ∉ s.channels.map OwnedEntry.component := by
        intro hmem
        obtain ⟨entry, hentry, hc⟩ := List.mem_map.mp hmem
        have hfind := h.find_of_mem hentry
        rw [hc, hs] at hfind
        cases hfind
      refine Inv.mapRef ⟨?_, ?_⟩ c _
      · have hadded : (c :: s.channels.map OwnedEntry.component).Nodup :=
          List.nodup_cons.mpr ⟨hfresh, h.components⟩
        rw [List.map_append]
        exact (List.perm_append_singleton c _).nodup_iff.mpr hadded
      · rw [List.map_append, List.range_succ, List.append_assoc]
        have hmiddle : (s.channels.map OwnedEntry.impl ++ s.created :: s.destroyed).Perm
            (s.created :: (s.channels.map OwnedEntry.impl ++ s.destroyed)) := List.perm_middle
        exact (hmiddle.trans (h.accounted.cons s.created)).trans
          (List.perm_append_singleton s.created _).symm
  | destroyChannel c =>
    rw [ChannelOwner.step, destroyChannel]
    cases hs : s.find c with
    | none => exact h
    | some entry =>
      by_cases hlast : entry.ref - 1 = 0
      · simp only [if_pos hlast]
        refine ⟨?_, ?_⟩
        · exact (List.filter_sublist.map _).nodup h.components
        · have hsplit := ((perm_filter h.components hs).map OwnedEntry.impl).append_right s.destroyed
          have hmove : ((s.channels.filter (·.component ≠ c)).map OwnedEntry.impl ++
              (s.destroyed ++ [entry.impl])).Perm
                (entry.impl :: ((s.channels.filter (·.component ≠ c)).map OwnedEntry.impl ++
                  s.destroyed)) := by
            rw [← List.append_assoc]
            exact List.perm_append_singleton entry.impl _
          exact (hmove.trans hsplit).trans h.accounted
      · simp only [if_neg hlast]
        exact h.mapRef c _

theorem once_iff :
    (∀ impl < s.created, s.destroyAllChannels.destroyed.count impl = 1) ↔
      ∀ entry ∈ s.channels, entry.ref ≤ 1 := by
  have hnodup : (s.channels.map OwnedEntry.impl ++ s.destroyed).Nodup :=
    h.accounted.nodup_iff.mpr List.nodup_range
  constructor
  · intro honce entry hentry
    have hcreated : entry.impl < s.created := List.mem_range.mp
      (h.accounted.mem_iff.mp (List.mem_append_left _ (List.mem_map_of_mem hentry)))
    have hmem : entry.impl ∈ s.destroyAllChannels.destroyed := by
      apply List.count_pos_iff.mp
      rw [honce entry.impl hcreated]
      exact Nat.one_pos
    rcases List.mem_append.mp hmem with hmem | hmem
    · exact absurd hmem (h.disjoint hentry)
    · obtain ⟨other, hother, himpl⟩ := List.mem_map.mp hmem
      obtain ⟨hchannel, hlast⟩ := List.mem_filter.mp hother
      have hsame := List.inj_on_of_nodup_map (List.nodup_append.mp hnodup).1 hchannel hentry himpl
      have href : other.ref - 1 = 0 := by simpa using hlast
      rw [← hsame]
      omega
  · intro hrefs impl himpl
    have hall : s.channels.filter (·.ref - 1 = 0) = s.channels := by
      refine List.filter_eq_self.mpr fun entry hentry => ?_
      have href := hrefs entry hentry
      simpa using (by omega : entry.ref - 1 = 0)
    have hperm : s.destroyAllChannels.destroyed.Perm (List.range s.created) := by
      rw [destroyAllChannels, hall]
      exact List.perm_append_comm.trans h.accounted
    rw [hperm.count_eq]
    exact List.count_eq_one_of_mem List.nodup_range (List.mem_range.mpr himpl)

end Inv

theorem inv_run (events : List Event) : (run events).Inv := by
  have hfold : ∀ (l : List Event) (s : ChannelOwner), s.Inv → (l.foldl step s).Inv := by
    intro l
    induction l with
    | nil => exact fun _ h => h
    | cons e rest ih => exact fun s h => ih _ (h.step e)
  exact hfold events {} ⟨List.nodup_nil, List.Perm.refl _⟩

theorem Counts.getChannel_eq_none_iff {t : Transport} (h : s.Counts t) (component : Int) :
    t.getChannel component = none ↔ s.find component = none := by
  have hlist : component ∉ t.channels.map ChannelMapEntry.component ↔
      component ∉ s.channels.map OwnedEntry.component := by
    have hfst := congrArg (List.map Prod.fst) h
    simp only [List.map_map] at hfst
    exact not_congr (iff_of_eq (congrArg (component ∈ ·) hfst))
  simpa [Transport.getChannel, find] using hlist

theorem channels_destroyChannel (h : s.Inv) (component : Int) :
    (s.destroyChannel component).channels = s.channels.filterMap fun entry =>
      if entry.component ≠ component then some entry
      else if entry.ref - 1 = 0 then none
      else some { entry with ref := entry.ref - 1 } := by
  have hsame : ∀ entry ∈ s.channels, entry.component = component → s.find component = some entry :=
    fun entry hentry hc => hc ▸ h.find_of_mem hentry
  rw [destroyChannel]
  cases hs : s.find component with
  | none =>
    have hkeep : ∀ entry ∈ s.channels, entry.component ≠ component := by
      intro entry hentry hc
      have hfind := hsame entry hentry hc
      rw [hs] at hfind
      cases hfind
    exact ((List.filterMap_congr fun entry hentry => if_pos (hkeep entry hentry)).trans
      List.filterMap_some).symm
  | some found =>
    by_cases hlast : found.ref - 1 = 0
    · simp only [if_pos hlast]
      rw [← List.filterMap_eq_filter]
      refine List.filterMap_congr fun entry hentry => ?_
      by_cases hc : entry.component = component
      · have hfound := hsame entry hentry hc
        rw [hs] at hfound
        obtain rfl := Option.some.inj hfound
        simp [hc, hlast]
      · simp [hc]
    · simp only [if_neg hlast, decRef, mapRef]
      rw [← List.filterMap_eq_map]
      refine List.filterMap_congr fun entry hentry => ?_
      by_cases hc : entry.component = component
      · have hfound := hsame entry hentry hc
        rw [hs] at hfound
        obtain rfl := Option.some.inj hfound
        simp [hc, hlast]
      · simp [hc]

theorem Counts.step {t : Transport} (hcounts : s.Counts t) (h : s.Inv) (e : Event) :
    (step s e).Counts (t.step e.forget) := by
  cases e with
  | createChannel c =>
    have hnone := hcounts.getChannel_eq_none_iff c
    rw [Event.forget, Transport.step, Transport.createChannel, ChannelOwner.step, createChannel]
    cases ht : t.getChannel c with
    | some ch =>
      cases hs : s.find c with
      | none => simp [hnone.mpr hs] at ht
      | some entry =>
        have hmap := congrArg (List.map fun p : Int × Nat => if p.1 = c then (p.1, p.2 + 1) else p)
          hcounts
        simpa [Counts, addRef, mapRef, apply_ite, Function.comp_def] using hmap
    | none =>
      have hs := hnone.mp ht
      rw [hs]
      have hkeep : ∀ entry ∈ s.channels, entry.component ≠ c := by
        simpa [find] using hs
      have hothers : (s.channels.map fun entry =>
          if entry.component = c then { entry with ref := entry.ref + 1 } else entry) =
            s.channels :=
        (List.map_congr_left fun entry hentry => if_neg (hkeep entry hentry)).trans (List.map_id _)
      simpa [Counts, addRef, mapRef, hothers] using hcounts
  | destroyChannel c =>
    rw [Counts, ChannelOwner.step, channels_destroyChannel h, Event.forget, Transport.step,
      Transport.destroyChannel]
    have hmap := congrArg (List.filterMap fun p : Int × Nat =>
      if p.1 ≠ c then some p else if p.2 - 1 = 0 then none else some (p.1, p.2 - 1)) hcounts
    rw [List.filterMap_map, List.filterMap_map] at hmap
    rw [List.map_filterMap, List.map_filterMap]
    refine Eq.trans ?_ (hmap.trans ?_)
    · refine List.filterMap_congr fun entry _ => ?_
      by_cases hc : entry.component = c <;> by_cases hlast : entry.ref - 1 = 0 <;> simp [hc, hlast]
    · refine List.filterMap_congr fun entry _ => ?_
      by_cases hc : entry.component = c <;> by_cases hlast : entry.ref - 1 = 0 <;> simp [hc, hlast]

/-- The calls leave the same components with the same references in the transport. -/
theorem counts_run (events : List Event) :
    (run events).Counts (Transport.run {} (events.map Event.forget)) := by
  have hfold : ∀ (l : List Event) (s : ChannelOwner) (t : Transport), s.Inv → s.Counts t →
      (l.foldl ChannelOwner.step s).Counts ((l.map Event.forget).foldl Transport.step t) := by
    intro l
    induction l with
    | nil => exact fun _ _ _ hcounts => hcounts
    | cons e rest ih =>
      intro s t h hcounts
      exact ih _ _ (h.step e) (hcounts.step h e)
  exact hfold events {} {} ⟨List.nodup_nil, List.Perm.refl _⟩ rfl

/-- An object that `CreateChannel` has returned is not destroyed while one of the
calls for its component has no answer. -/
theorem held_run (before during : List Event) (component : Int)
    (houtstanding : ∀ n, 0 <
      outstanding (before ++ .createChannel component :: during.take n) component) :
    ((run before).createChannel component).1 ∉
      (run (before ++ .createChannel component :: during)).destroyed := by
  have hrun : ∀ l, run (before ++ .createChannel component :: l) =
      l.foldl step ((run before).createChannel component).2 := by
    intro l
    rw [run, List.foldl_append]
    rfl
  have hcreated : ((run before).createChannel component).2.find component =
      some ⟨component, ((run before).createChannel component).1, (run before).refs component + 1⟩ := by
    rw [find_createChannel, if_pos rfl]
  have hrefs : ∀ n, 0 < ((during.take n).foldl step
      ((run before).createChannel component).2).refs component := by
    intro n
    rw [← hrun, refs_run]
    exact houtstanding n
  obtain ⟨entry, hfind, himpl⟩ := impl_run hcreated hrefs
  rw [← hrun] at hfind
  have hdisjoint := (inv_run _).disjoint (mem_of_find _ hfind)
  rwa [himpl] at hdisjoint

theorem refs_le_iff (h : s.Inv) :
    (∀ entry ∈ s.channels, entry.ref ≤ 1) ↔ ∀ component, s.refs component ≤ 1 := by
  constructor
  · intro hrefs component
    cases hs : s.find component with
    | none => simp [refs, hs]
    | some entry =>
      rw [refs_of_find hs]
      exact hrefs entry (mem_of_find _ hs)
  · intro hrefs entry hentry
    rw [← refs_of_find (h.find_of_mem hentry)]
    exact hrefs entry.component

/-- `DestroyAllChannels` leaves no object behind exactly when no component has two
calls of `CreateChannel` without an answer. -/
theorem owned_iff (events : List Event) :
    Owned events ↔ ∀ component, outstanding events component ≤ 1 := by
  have honce := (inv_run events).once_iff.trans (refs_le_iff (inv_run events))
  constructor
  · intro howned component
    rw [← refs_run]
    exact honce.mp howned.once component
  · intro houtstanding
    refine ⟨honce.mpr fun component => ?_, ?_⟩
    · rw [refs_run]
      exact houtstanding component
    · intro before during after component _ hduring
      exact held_run before during component hduring

/-- The object of a component that is created twice outlives the transport. -/
theorem object_leaked : ¬ Owned [.createChannel 1, .createChannel 1] := by
  intro howned
  exact absurd (howned.once 0 (by decide)) (by decide)

end ChannelOwner

end Libjingle
