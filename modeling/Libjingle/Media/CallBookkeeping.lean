import Libjingle.Media.MediaSessionClient

/-! The two records of which call a session is in agree, as long as no call with sessions
is joined to another, all channels can be created, and ids are not used twice. -/

namespace Libjingle

namespace MediaSessionClient

variable {s t : MediaSessionClient} {sid : String} {c o : Nat}

theorem mem_inOrder {m : AList fun _ : String => Nat} {e : String × Nat} :
    e ∈ inOrder m ↔ m.lookup e.1 = some e.2 := by
  rw [inOrder, List.mem_insertionSort, List.mem_map]
  constructor
  · rintro ⟨e', he', rfl⟩
    exact AList.mem_lookup_iff.mpr he'
  · intro h
    exact ⟨⟨e.1, e.2⟩, AList.mem_lookup_iff.mp h, rfl⟩

theorem nodup_inOrder (m : AList fun _ : String => Nat) :
    ((inOrder m).map Prod.fst).Nodup := by
  have hperm : ((inOrder m).map Prod.fst).Perm m.keys := by
    have h := (List.perm_insertionSort (fun a b : String × Nat => a.1 ≤ b.1)
      (m.entries.map fun e => (e.1, e.2))).map Prod.fst
    rw [List.map_map] at h
    exact h
  exact hperm.nodup_iff.mpr m.keys_nodup

/-- What holds whatever the sessions did: an entry of the client names a call that lists a
session, and the other way round, and the manager knows of them. -/
structure Base (s : MediaSessionClient) : Prop where
  mapped : ∀ {sid c}, s.sessionMap.lookup sid = some c → ∃ k o x, s.call c = some k ∧
    k.mediaSessionMap.lookup sid = some o ∧ s.session o = some x ∧ x.id = sid
  listed : ∀ {c k}, s.call c = some k → ∀ {sid o}, k.mediaSessionMap.lookup sid = some o →
    s.sessionMap.lookup sid = some c ∧ ∃ x, s.session o = some x ∧ x.id = sid
  managed : ∀ {sid c}, s.sessionMap.lookup sid = some c → ∃ o, s.managed.lookup sid = some o
  alive : ∀ {sid o}, s.managed.lookup sid = some o → ∃ x, s.session o = some x ∧ x.id = sid
  newSession : ∀ {o}, s.nextSession ≤ o → s.session o = none
  newCall : ∀ {c}, s.nextCall ≤ c → s.call c = none
  asserted : s.asserted = true

/-- A session that the manager finds is in a call, unless its initiate was refused. -/
def Heard (s : MediaSessionClient) : Prop :=
  ∀ sid o x, s.managed.lookup sid = some o → s.session o = some x → x.refused = false →
    ∃ c, s.sessionMap.lookup sid = some c

def Registered (s : MediaSessionClient) : Prop :=
  ∀ c k, s.call c = some k → s.calls.lookup k.id = some c

structure Inv (s : MediaSessionClient) : Prop where
  base : Base s
  heard : Heard s
  registered : Registered s

theorem inv_initial (multisessionEnabled : Bool) : Inv { multisessionEnabled } where
  base :=
    { mapped := fun h => by simp at h
      listed := fun h => by cases h
      managed := fun h => by simp at h
      alive := fun h => by simp at h
      newSession := fun _ => rfl
      newCall := fun _ => rfl
      asserted := rfl }
  heard _ _ _ h := by simp at h
  registered _ _ h := by cases h

section Destroy

theorem destroySession_eq {x : Session} {k : Call} {o' o'' : Nat} (hx : s.session o = some x)
    (hmanaged : s.managed.lookup x.id = some o') (hc : s.sessionMap.lookup x.id = some c)
    (hk : s.call c = some k) (ho : k.mediaSessionMap.lookup x.id = some o'') :
    s.destroySession o = { s with
      sessionMap := s.sessionMap.erase x.id
      call := Function.update s.call c
        (some { k with mediaSessionMap := k.mediaSessionMap.erase x.id })
      queue := s.queue ++ [c]
      managed := s.managed.erase x.id
      session := Function.update s.session o none } := by
  simp [destroySession, hx, hmanaged, onSessionDestroy, hc, removeSession, hk, ho, modifyCall]

theorem Base.destroyed (h : Base s) {x : Session} {k : Call} (hx : s.session o = some x)
    (hc : s.sessionMap.lookup x.id = some c) (hk : s.call c = some k) {queue : List Nat} :
    Base { s with
      sessionMap := s.sessionMap.erase x.id
      call := Function.update s.call c
        (some { k with mediaSessionMap := k.mediaSessionMap.erase x.id })
      queue := queue
      managed := s.managed.erase x.id
      session := Function.update s.session o none } := by
  have hkeep : ∀ {sid o' x'}, sid ≠ x.id → s.session o' = some x' → x'.id = sid →
      Function.update s.session o none o' = some x' := by
    intro sid o' x' hne hx' hid
    rw [Function.update_of_ne, hx']
    rintro rfl
    rw [hx] at hx'
    cases hx'
    exact hne hid.symm
  refine
    { mapped := fun {sid c'} hsid => ?_
      listed := fun {c' k'} hk' {sid o'} ho' => ?_
      managed := fun {sid c'} hsid => ?_
      alive := fun {sid o'} ho' => ?_
      newSession := fun {o'} ho' => ?_
      newCall := fun {c'} hc' => ?_
      asserted := h.asserted }
  · have hne : sid ≠ x.id := by
      rintro rfl
      simp at hsid
    rw [AList.lookup_erase_ne hne] at hsid
    obtain ⟨k', o', x', hk', ho', hx', hid⟩ := h.mapped hsid
    by_cases hcc : c' = c
    · subst hcc
      rw [hk] at hk'
      cases hk'
      exact ⟨_, o', x', Function.update_self .., by simp [AList.lookup_erase_ne hne, ho'],
        hkeep hne hx' hid, hid⟩
    · exact ⟨k', o', x', by simp [Function.update_of_ne hcc, hk'], ho', hkeep hne hx' hid, hid⟩
  · by_cases hcc : c' = c
    · subst hcc
      simp only [Function.update_self, Option.some.injEq] at hk'
      subst hk'
      have hne : sid ≠ x.id := by
        rintro rfl
        simp at ho'
      rw [AList.lookup_erase_ne hne] at ho'
      obtain ⟨hmap, x', hx', hid⟩ := h.listed hk ho'
      exact ⟨by simp [AList.lookup_erase_ne hne, hmap], x', hkeep hne hx' hid, hid⟩
    · simp only [Function.update_of_ne hcc] at hk'
      obtain ⟨hmap, x', hx', hid⟩ := h.listed hk' ho'
      have hne : sid ≠ x.id := by
        rintro rfl
        rw [hc] at hmap
        exact hcc (Option.some.inj hmap).symm
      exact ⟨by simp [AList.lookup_erase_ne hne, hmap], x', hkeep hne hx' hid, hid⟩
  · have hne : sid ≠ x.id := by
      rintro rfl
      simp at hsid
    rw [AList.lookup_erase_ne hne] at hsid
    obtain ⟨o', ho'⟩ := h.managed hsid
    exact ⟨o', by simp [AList.lookup_erase_ne hne, ho']⟩
  · have hne : sid ≠ x.id := by
      rintro rfl
      simp at ho'
    rw [AList.lookup_erase_ne hne] at ho'
    obtain ⟨x', hx', hid⟩ := h.alive ho'
    exact ⟨x', hkeep hne hx' hid, hid⟩
  · by_cases hoo : o' = o
    · rw [hoo]
      exact Function.update_self ..
    · simp [Function.update_of_ne hoo, h.newSession ho']
  · have hcc : c' ≠ c := by
      rintro rfl
      rw [h.newCall hc'] at hk
      cases hk
    simp [Function.update_of_ne hcc, h.newCall hc']

theorem Heard.destroyed (h : Heard s) {x : Session} {k : Call} {queue : List Nat} :
    Heard { s with
      sessionMap := s.sessionMap.erase x.id
      call := Function.update s.call c (some k)
      queue := queue
      managed := s.managed.erase x.id
      session := Function.update s.session o none } := by
  intro sid o' x' ho' hx' hrefused
  have hne : sid ≠ x.id := by
    rintro rfl
    simp at ho'
  have hoo : o' ≠ o := by
    rintro rfl
    simp at hx'
  simp only [AList.lookup_erase_ne hne, Function.update_of_ne hoo] at ho' hx' ⊢
  exact h _ _ _ ho' hx' hrefused

/-- In the destructor of its call a session is taken off the list first, and not found
there when it is destroyed. -/
theorem destroySession_removeSession {x : Session} {k : Call} {o' o'' : Nat}
    (hx : s.session o = some x) (hmanaged : s.managed.lookup x.id = some o')
    (hc : s.sessionMap.lookup x.id = some c) (hk : s.call c = some k)
    (ho : k.mediaSessionMap.lookup x.id = some o'') :
    (s.removeSession c x.id).destroySession o = s.destroySession o := by
  rw [destroySession_eq hx hmanaged hc hk ho]
  simp [removeSession, hk, ho, modifyCall, destroySession, hx, hmanaged, onSessionDestroy, hc,
    Function.update_self]

theorem Base.destroySession (h : Base s) (hheard : Heard s) {x : Session}
    (hx : s.session o = some x) (hc : s.sessionMap.lookup x.id = some c) :
    Base (s.destroySession o) ∧ Heard (s.destroySession o) ∧
      (s.destroySession o).calls = s.calls ∧
      ∃ k, s.call c = some k ∧ (s.destroySession o).call = Function.update s.call c
        (some { k with mediaSessionMap := k.mediaSessionMap.erase x.id }) := by
  obtain ⟨k, o'', x', hk, ho, -, -⟩ := h.mapped hc
  obtain ⟨o', hmanaged⟩ := h.managed hc
  rw [destroySession_eq hx hmanaged hc hk ho]
  exact ⟨h.destroyed hx hc hk, hheard.destroyed, rfl, k, hk, rfl⟩

/-- What is left of a call while its destructor runs. -/
structure Dying (s : MediaSessionClient) (c : Nat) (sessions : List (String × Nat)) : Prop where
  base : Base s
  heard : Heard s
  keys : (sessions.map Prod.fst).Nodup
  call : ∃ k, s.call c = some k ∧ ∀ e, k.mediaSessionMap.lookup e.1 = some e.2 ↔ e ∈ sessions

theorem Dying.next {e : String × Nat} {sessions : List (String × Nat)}
    (h : Dying s c (e :: sessions)) :
    Dying ((s.removeSession c e.1).destroySession e.2) c sessions ∧
      ((s.removeSession c e.1).destroySession e.2).calls = s.calls ∧
      ∀ c', c' ≠ c → ((s.removeSession c e.1).destroySession e.2).call c' = s.call c' := by
  obtain ⟨k, hk, hlist⟩ := h.call
  have he := (hlist e).mpr (by simp)
  obtain ⟨hmap, x, hx, hid⟩ := h.base.listed hk he
  obtain ⟨o', hmanaged⟩ := h.base.managed hmap
  rw [← hid] at hmap hmanaged he ⊢
  rw [destroySession_removeSession hx hmanaged hmap hk he]
  obtain ⟨hbase, hheard, hcalls, k', hk', hcall⟩ := h.base.destroySession h.heard hx hmap
  rw [hk] at hk'
  cases hk'
  obtain ⟨hnot, hnodup⟩ := List.nodup_cons.mp h.keys
  refine ⟨⟨hbase, hheard, hnodup, _, by rw [hcall, Function.update_self], fun e' => ?_⟩, hcalls,
    fun c' hc' => by rw [hcall, Function.update_of_ne hc']⟩
  by_cases hne : e'.1 = x.id
  · have hout : e' ∉ sessions := fun hmem => hnot (by
      rw [← hid, ← hne]
      exact List.mem_map_of_mem hmem)
    rw [hne, AList.lookup_erase]
    simpa using hout
  · have hother : e' ≠ e := by
      rintro rfl
      exact hne hid.symm
    rw [AList.lookup_erase_ne hne, hlist e', List.mem_cons, or_iff_right hother]

theorem Dying.all {sessions : List (String × Nat)} (h : Dying s c sessions) :
    Dying (s.destroySessions c sessions) c [] ∧
      (s.destroySessions c sessions).calls = s.calls ∧
      ∀ c', c' ≠ c → (s.destroySessions c sessions).call c' = s.call c' := by
  induction sessions generalizing s with
  | nil => exact ⟨h, rfl, fun _ _ => rfl⟩
  | cons e sessions ih =>
    obtain ⟨hnext, hcalls, hother⟩ := h.next
    obtain ⟨hall, hcalls', hother'⟩ := ih hnext
    exact ⟨hall, hcalls'.trans hcalls, fun c' hc' => (hother' c' hc').trans (hother c' hc')⟩

theorem Base.calls (h : Base s) (calls : AList fun _ : UInt32 => Nat) :
    Base { s with calls := calls } := { h with }

theorem Inv.destroyCall (h : Inv s) (c : Nat) : Inv (s.destroyCall c) := by
  unfold MediaSessionClient.destroyCall
  cases hk : s.call c with
  | none => exact h
  | some k =>
    have hdying : Dying { s with calls := s.calls.erase k.id } c (inOrder k.mediaSessionMap) :=
      ⟨h.base.calls _, h.heard, nodup_inOrder _, k, hk, fun e => mem_inOrder.symm⟩
    obtain ⟨⟨hbase, hheard, -, k', hk', hempty⟩, hcalls, hother⟩ := hdying.all
    simp only
    generalize MediaSessionClient.destroySessions _ c (inOrder k.mediaSessionMap) = t at *
    have hnone : ∀ {sid o}, k'.mediaSessionMap.lookup sid ≠ some o := by
      intro sid o ho
      exact absurd ((hempty (sid, o)).mp ho) List.not_mem_nil
    have hlive : ∀ {c' j}, Function.update t.call c none c' = some j → c' ≠ c ∧ t.call c' = some j := by
      intro c' j hj
      have hne : c' ≠ c := by
        rintro rfl
        simp at hj
      exact ⟨hne, by rwa [Function.update_of_ne hne] at hj⟩
    refine ⟨?_, hheard, fun c' j hj => ?_⟩
    · refine
        { hbase with
          mapped := fun hsid => ?_
          listed := fun hj => hbase.listed (hlive hj).2
          newCall := fun {c'} hc' => ?_ }
      · obtain ⟨j, o, x, hj, ho, hx, hid⟩ := hbase.mapped hsid
        refine ⟨j, o, x, (Function.update_of_ne ?_ ..).trans hj, ho, hx, hid⟩
        rintro rfl
        rw [hk'] at hj
        cases hj
        exact hnone ho
      · by_cases hcc : c' = c
        · rw [hcc]
          exact Function.update_self ..
        · exact (Function.update_of_ne hcc ..).trans (hbase.newCall hc')
    · obtain ⟨hne, hj⟩ := hlive hj
      rw [hother c' hne] at hj
      have hreg := h.registered _ _ hj
      have hid : j.id ≠ k.id := by
        intro hid
        rw [hid, h.registered _ _ hk] at hreg
        exact hne (Option.some.inj hreg).symm
      simp [hcalls, AList.lookup_erase_ne hid, hreg]

end Destroy

section Enter

/-- A session can enter a call under an id that is not in use, and then with channels. In
the call it has its own id is overwritten. -/
def Enters (s : MediaSessionClient) (sid : String) (c : Nat) (channels : Bool) : Prop :=
  s.sessionMap.lookup sid = some c ∨ s.sessionMap.lookup sid = none ∧ channels = true

theorem Base.enter (h : Base s) {x : Session} {channels : Bool} {o' : Nat} {k : Call}
    (hk : s.call c = some k) (hx : s.session o = some x)
    (hmanaged : s.managed.lookup x.id = some o') (henters : Enters s x.id c channels) :
    Base ({ s with sessionMap := s.sessionMap.insert x.id c }.addSession c x.id o channels) := by
  have hothers : ∀ {c' k' o''}, s.call c' = some k' →
      k'.mediaSessionMap.lookup x.id = some o'' → c' = c := by
    intro c' k' o'' hk' ho''
    have hmap := (h.listed hk' ho'').1
    rcases henters with hsome | ⟨hnone, -⟩
    · exact Option.some.inj (hmap.symm.trans hsome)
    · rw [hnone] at hmap
      cases hmap
  have hmapped : ∀ {sid c'}, (s.sessionMap.insert x.id c).lookup sid = some c' →
      sid = x.id ∧ c' = c ∨ sid ≠ x.id ∧ s.sessionMap.lookup sid = some c' := by
    intro sid c' hsid
    by_cases hne : sid = x.id
    · rw [hne, AList.lookup_insert] at hsid
      exact .inl ⟨hne, (Option.some.inj hsid).symm⟩
    · rw [AList.lookup_insert_ne hne] at hsid
      exact .inr ⟨hne, hsid⟩
  cases channels with
  | true =>
    refine
      { mapped := fun {sid c'} hsid => ?_
        listed := fun {c' k'} hk' {sid o''} ho'' => ?_
        managed := fun {sid c'} hsid => ?_
        alive := h.alive
        newSession := h.newSession
        newCall := fun {c'} hc' => ?_
        asserted := h.asserted }
    · obtain ⟨rfl, rfl⟩ | ⟨hne, hsid⟩ := hmapped hsid
      · exact ⟨{ k with mediaSessionMap := k.mediaSessionMap.insert x.id o }, o, x,
          by simp [addSession, modifyCall, hk], by simp, hx, rfl⟩
      · obtain ⟨k', o'', x', hk', ho'', hx', hid⟩ := h.mapped hsid
        by_cases hcc : c' = c
        · subst hcc
          rw [hk] at hk'
          cases hk'
          exact ⟨{ k with mediaSessionMap := k.mediaSessionMap.insert x.id o }, o'', x',
            by simp [addSession, modifyCall, hk], by simp [AList.lookup_insert_ne hne, ho''],
            hx', hid⟩
        · exact ⟨k', o'', x', by simp [addSession, modifyCall, Function.update_of_ne hcc, hk'],
            ho'', hx', hid⟩
    · by_cases hcc : c' = c
      · subst hcc
        simp only [addSession, if_true, modifyCall, hk, Option.map_some, Function.update_self,
          Option.some.injEq] at hk'
        subst hk'
        by_cases hne : sid = x.id
        · subst hne
          simp only [AList.lookup_insert, Option.some.injEq] at ho''
          subst ho''
          exact ⟨by simp [addSession, modifyCall], x, hx, rfl⟩
        · rw [AList.lookup_insert_ne hne] at ho''
          obtain ⟨hmap, hlive⟩ := h.listed hk ho''
          exact ⟨by simp [addSession, modifyCall, AList.lookup_insert_ne hne, hmap], hlive⟩
      · simp only [addSession, if_true, modifyCall, Function.update_of_ne hcc] at hk'
        obtain ⟨hmap, hlive⟩ := h.listed hk' ho''
        have hne : sid ≠ x.id := by
          rintro rfl
          exact hcc (hothers hk' ho'')
        exact ⟨by simp [addSession, modifyCall, AList.lookup_insert_ne hne, hmap], hlive⟩
    · obtain ⟨rfl, rfl⟩ | ⟨-, hsid⟩ := hmapped hsid
      · exact ⟨o', hmanaged⟩
      · exact h.managed hsid
    · have hcc : c' ≠ c := by
        rintro rfl
        rw [h.newCall hc'] at hk
        cases hk
      simp [addSession, modifyCall, Function.update_of_ne hcc, h.newCall hc']
  | false =>
    have hsame : ∀ sid, (s.sessionMap.insert x.id c).lookup sid = s.sessionMap.lookup sid := by
      have hsome : s.sessionMap.lookup x.id = some c :=
        henters.resolve_right fun hfalse => absurd hfalse.2 (by simp)
      intro sid
      by_cases hne : sid = x.id
      · rw [hne, AList.lookup_insert, hsome]
      · exact AList.lookup_insert_ne hne
    exact
      { h with
        mapped := fun {sid c'} hsid => h.mapped ((hsame sid).symm.trans hsid)
        listed := fun {c' k'} hk' {sid o''} ho'' => by
          obtain ⟨hmap, hlive⟩ := h.listed hk' ho''
          exact ⟨(hsame _).trans hmap, hlive⟩
        managed := fun {sid c'} hsid => h.managed ((hsame sid).symm.trans hsid) }

def HeardBut (s : MediaSessionClient) (sid : String) : Prop :=
  ∀ sid' o x, sid' ≠ sid → s.managed.lookup sid' = some o → s.session o = some x →
    x.refused = false → ∃ c, s.sessionMap.lookup sid' = some c

theorem HeardBut.enter {x : Session} {channels : Bool} (h : HeardBut s x.id) :
    Heard ({ s with sessionMap := s.sessionMap.insert x.id c }.addSession c x.id o channels) := by
  have hheard : ∀ sid o x', s.managed.lookup sid = some o → s.session o = some x' →
      x'.refused = false → ∃ c', (s.sessionMap.insert x.id c).lookup sid = some c' := by
    intro sid o x' ho hx' hrefused
    by_cases hne : sid = x.id
    · exact ⟨c, by rw [hne, AList.lookup_insert]⟩
    · rw [AList.lookup_insert_ne hne]
      exact h sid o x' hne ho hx' hrefused
  cases channels <;> exact hheard

theorem Registered.addSession (h : Registered s) (sid : String) (c o : Nat) (channels : Bool) :
    Registered ({ s with sessionMap := s.sessionMap.insert sid c }.addSession c sid o channels) := by
  cases channels with
  | false => exact h
  | true =>
    intro c' k hk
    by_cases hcc : c' = c
    · subst hcc
      simp only [MediaSessionClient.addSession, if_true, modifyCall, Function.update_self,
        Option.map_eq_some_iff] at hk
      obtain ⟨k', hk', rfl⟩ := hk
      exact h c' k' hk'
    · simp only [MediaSessionClient.addSession, if_true, modifyCall,
        Function.update_of_ne hcc] at hk
      exact h c' k hk

theorem Base.createSession (h : Base s) (sid : String) (incoming : Bool) :
    Base (s.createSession sid incoming) := by
  have hlive : ∀ {o x}, s.session o = some x →
      (s.createSession sid incoming).session o = some x := by
    intro o x hx
    refine (Function.update_of_ne ?_ ..).trans hx
    rintro rfl
    rw [h.newSession (Nat.le_refl _)] at hx
    cases hx
  refine
    { mapped := fun hsid => ?_
      listed := fun {c' k} hk {sid' o'} ho' => ?_
      managed := fun {sid' c'} hsid => ?_
      alive := fun {sid' o'} ho' => ?_
      newSession := fun {o'} ho' => ?_
      newCall := h.newCall
      asserted := h.asserted }
  · obtain ⟨k, o, x, hk, ho, hx, hid⟩ := h.mapped hsid
    exact ⟨k, o, x, hk, ho, hlive hx, hid⟩
  · obtain ⟨hmap, x, hx, hid⟩ := h.listed hk ho'
    exact ⟨hmap, x, hlive hx, hid⟩
  · obtain ⟨o', ho'⟩ := h.managed hsid
    by_cases hne : sid' = sid
    · exact ⟨_, by rw [hne]; exact AList.lookup_insert _⟩
    · exact ⟨o', (AList.lookup_insert_ne hne).trans ho'⟩
  · by_cases hne : sid' = sid
    · subst hne
      obtain rfl : s.nextSession = o' :=
        Option.some.inj ((AList.lookup_insert s.managed).symm.trans ho')
      exact ⟨_, Function.update_self .., rfl⟩
    · obtain ⟨x, hx, hid⟩ := h.alive ((AList.lookup_insert_ne hne).symm.trans ho')
      exact ⟨x, hlive hx, hid⟩
  · have hlt : s.nextSession < o' := ho'
    exact (Function.update_of_ne (by omega) ..).trans (h.newSession (by omega))

theorem Heard.createSession (h : Heard s) (hbase : Base s) (sid : String) (incoming : Bool) :
    HeardBut (s.createSession sid incoming) sid := by
  intro sid' o x hne ho hx hrefused
  replace ho : s.managed.lookup sid' = some o := (AList.lookup_insert_ne hne).symm.trans ho
  obtain ⟨x', hx', -⟩ := hbase.alive ho
  have hoo : o ≠ s.nextSession := by
    rintro rfl
    rw [hbase.newSession (Nat.le_refl _)] at hx'
    cases hx'
  exact h sid' o x ho ((Function.update_of_ne hoo ..).symm.trans hx) hrefused

theorem Heard.createSession_incoming (h : Heard s) (hbase : Base s) (sid : String) :
    Heard (s.createSession sid true) := by
  intro sid' o x ho hx hrefused
  by_cases hne : sid' = sid
  · subst hne
    obtain rfl : s.nextSession = o :=
      Option.some.inj ((AList.lookup_insert s.managed).symm.trans ho)
    simp only [MediaSessionClient.createSession, Function.update_self, Option.some.injEq] at hx
    rw [← hx] at hrefused
    cases hrefused
  · exact h.createSession hbase sid true sid' o x hne ho hx hrefused

theorem Base.modifySession (h : Base s) (o : Nat) {f : Session → Session}
    (hf : ∀ x, (f x).id = x.id) :
    Base { s with session := Function.update s.session o ((s.session o).map f) } := by
  have hlive : ∀ {o' x sid}, s.session o' = some x → x.id = sid →
      ∃ x', Function.update s.session o ((s.session o).map f) o' = some x' ∧ x'.id = sid := by
    intro o' x sid hx hid
    by_cases hoo : o' = o
    · subst hoo
      exact ⟨f x, by simp [hx], (hf x).trans hid⟩
    · exact ⟨x, by simp [Function.update_of_ne hoo, hx], hid⟩
  refine
    { h with
      mapped := fun hsid => ?_
      listed := fun {c' k} hk {sid o'} ho' => ?_
      alive := fun ho' => ?_
      newSession := fun {o'} ho' => ?_ }
  · obtain ⟨k, o', x, hk, ho', hx, hid⟩ := h.mapped hsid
    obtain ⟨x', hx', hid'⟩ := hlive hx hid
    exact ⟨k, o', x', hk, ho', hx', hid'⟩
  · obtain ⟨hmap, x, hx, hid⟩ := h.listed hk ho'
    exact ⟨hmap, hlive hx hid⟩
  · obtain ⟨x, hx, hid⟩ := h.alive ho'
    exact hlive hx hid
  · by_cases hoo : o' = o
    · subst hoo
      simp [h.newSession ho']
    · exact (Function.update_of_ne hoo ..).trans (h.newSession ho')

theorem Heard.rename (h : Heard s) (o : Nat) (name : String) : Heard (s.rename o name) := by
  intro sid o' x ho' hx hrefused
  by_cases hoo : o' = o
  · subst hoo
    simp only [MediaSessionClient.rename, Function.update_self, Option.map_eq_some_iff] at hx
    obtain ⟨x', hx', rfl⟩ := hx
    exact h sid o' x' ho' hx' hrefused
  · exact h sid o' x ho' ((Function.update_of_ne hoo ..).symm.trans hx) hrefused

theorem HeardBut.onInitiateMessage {x : Session} (h : HeardBut s x.id) (hbase : Base s)
    (hx : s.session o = some x) (sender : String) :
    HeardBut (s.onInitiateMessage o sender) x.id := by
  intro sid o' x' hne ho' hx' hrefused
  have hoo : o' ≠ o := by
    rintro rfl
    obtain ⟨y, hy, hid⟩ := hbase.alive ho'
    rw [hx] at hy
    cases hy
    exact hne hid.symm
  exact h sid o' x' hne ho' ((Function.update_of_ne hoo ..).symm.trans hx') hrefused

theorem Base.createCall (h : Base s) (id : UInt32) : Base (s.createCall id) := by
  have hlive : ∀ {c k}, s.call c = some k → (s.createCall id).call c = some k := by
    intro c k hk
    refine (Function.update_of_ne ?_ ..).trans hk
    rintro rfl
    rw [h.newCall (Nat.le_refl _)] at hk
    cases hk
  refine
    { h with
      mapped := fun hsid => ?_
      listed := fun {c' k} hk {sid o'} ho' => ?_
      newCall := fun {c'} hc' => ?_ }
  · obtain ⟨k, o, x, hk, ho, hx, hid⟩ := h.mapped hsid
    exact ⟨k, o, x, hlive hk, ho, hx, hid⟩
  · by_cases hcc : c' = s.nextCall
    · simp only [hcc, MediaSessionClient.createCall, Function.update_self,
        Option.some.injEq] at hk
      subst hk
      simp at ho'
    · exact h.listed ((Function.update_of_ne hcc ..).symm.trans hk) ho'
  · have hlt : s.nextCall < c' := hc'
    exact (Function.update_of_ne (by omega) ..).trans (h.newCall (by omega))

theorem Registered.createCall (h : Registered s) {id : UInt32}
    (hid : s.calls.lookup id = none) : Registered (s.createCall id) := by
  intro c k hk
  by_cases hcc : c = s.nextCall
  · simp only [hcc, MediaSessionClient.createCall, Function.update_self,
      Option.some.injEq] at hk
    rw [← hk, hcc]
    exact AList.lookup_insert _
  · have hk' : s.call c = some k := (Function.update_of_ne hcc ..).symm.trans hk
    have hlookup := h c k hk'
    have hne : k.id ≠ id := by
      rintro rfl
      rw [hid] at hlookup
      cases hlookup
    exact (AList.lookup_insert_ne hne).trans hlookup

theorem Inv.createCall (h : Inv s) {id : UInt32} (hid : s.calls.lookup id = none) :
    Inv (s.createCall id) :=
  ⟨h.base.createCall id, h.heard, h.registered.createCall hid⟩

end Enter

structure Consistent (s : MediaSessionClient) : Prop where
  /-- An entry names a live session and a call of the client that lists it. -/
  mapped : ∀ sid c, s.sessionMap.lookup sid = some c → ∃ k o x, s.call c = some k ∧
    s.calls.lookup k.id = some c ∧ k.mediaSessionMap.lookup sid = some o ∧
      s.session o = some x ∧ x.id = sid
  /-- A session that a call lists is live and mapped to that call. -/
  listed : ∀ c k, s.call c = some k → ∀ sid o, k.mediaSessionMap.lookup sid = some o →
    s.sessionMap.lookup sid = some c ∧ ∃ x, s.session o = some x ∧ x.id = sid
  asserted : s.asserted = true

theorem Inv.consistent (h : Inv s) : Consistent s where
  mapped sid c hsid := by
    obtain ⟨k, o, x, hk, ho, hx, hid⟩ := h.base.mapped hsid
    exact ⟨k, o, x, hk, h.registered c k hk, ho, hx, hid⟩
  listed c k hk sid o ho := h.base.listed hk ho
  asserted := h.base.asserted

section Steps

variable {Jid : Type} [DecidableEq Jid] {jid : String → Jid}

def Welcome (s : MediaSessionClient) (sid initiator : String) (id : UInt32) (channels : Bool) :
    Prop :=
  match s.callFor initiator with
  | some c => Enters s sid c channels
  | none => s.calls.lookup id = none ∧ s.sessionMap.lookup sid = none ∧ channels = true

variable (jid) in
/-- The steps that both records survive. A session is destroyed when the one that the
manager finds under its id did not refuse its initiate, unless an older session of that
id is mapped still. -/
def Orderly (s : MediaSessionClient) : Event → Prop
  | .createCall id => s.calls.lookup id = none
  | .initiateSession c sid _ channels => s.call c ≠ none → Enters s sid c channels
  | .incomingInitiate sid sender initiator fate => ∀ o t id channels,
      s.hearing jid sid sender = (some o, t) → fate = .announced id channels →
        Welcome (t.onInitiateMessage o sender) sid initiator id channels
  | .joinCalls callToJoin c => s.call callToJoin ≠ none → ∀ k, s.call c = some k →
      k.mediaSessionMap = ∅
  | .destroySession o => ∀ x, s.session o = some x → ∀ o' x', s.managed.lookup x.id = some o' →
      s.session o' = some x' → x'.refused = true → s.sessionMap.lookup x.id ≠ none
  | .redirect _ _ | .destroyCall _ | .dispatch => True

theorem Inv.initiateSession (h : Inv s) {receiver : String} {channels : Bool}
    (henters : s.call c ≠ none → Enters s sid c channels) :
    Inv (s.initiateSession c sid receiver channels) := by
  unfold MediaSessionClient.initiateSession
  split
  · exact h
  · rename_i k hk
    have henters := henters (by simp [hk])
    have hbase := h.base.createSession sid false
    have hheard := h.heard.createSession h.base sid false
    have hx : (s.createSession sid false).session s.nextSession =
        some { id := sid, incoming := false } := Function.update_self ..
    have hentered := hbase.enter (s := s.createSession sid false) hk hx
      (AList.lookup_insert _) henters
    refine ⟨?_, ?_, ?_⟩
    · exact hentered.modifySession s.nextSession fun _ => rfl
    · exact Heard.rename (HeardBut.enter (x := { id := sid, incoming := false }) hheard) _ _
    · exact (Registered.addSession (s := s.createSession sid false) h.registered sid c _ channels :)

theorem callFor_live (h : Base s) {initiator : String} (hc : s.callFor initiator = some c) :
    ∃ k, s.call c = some k := by
  rw [callFor] at hc
  split at hc
  · rw [findCallByRemoteName, Option.map_eq_some_iff] at hc
    obtain ⟨e, he, rfl⟩ := hc
    obtain ⟨k, -, -, hk, -⟩ := h.mapped (mem_inOrder.mp (List.mem_of_find?_eq_some he))
    exact ⟨k, hk⟩
  · cases hc

theorem onReceivedInitiate_inv (h : Base s) (hregistered : Registered s) {x : Session}
    (hheard : HeardBut s x.id) (hx : s.session o = some x) {o' : Nat}
    (hmanaged : s.managed.lookup x.id = some o') {initiator : String} {id : UInt32}
    {channels : Bool} (hwelcome : Welcome s x.id initiator id channels) :
    Inv (s.onReceivedInitiate o x.id initiator id channels) := by
  unfold onReceivedInitiate
  unfold Welcome at hwelcome
  cases hc : s.callFor initiator with
  | some c =>
    rw [hc] at hwelcome
    obtain ⟨k, hk⟩ := callFor_live h hc
    exact ⟨h.enter hk hx hmanaged hwelcome, HeardBut.enter hheard,
      hregistered.addSession x.id c o channels⟩
  | none =>
    rw [hc] at hwelcome
    obtain ⟨hid, hnew, hchannels⟩ := hwelcome
    have hcreated := h.createCall id
    have hk : (s.createCall id).call s.nextCall = some { id } := Function.update_self ..
    exact ⟨hcreated.enter hk hx hmanaged (.inr ⟨hnew, hchannels⟩),
      HeardBut.enter (s := s.createCall id) hheard,
      (hregistered.createCall hid).addSession x.id _ o channels⟩

/-- The session that takes an initiate is found under its id, and only it may not have
been heard of. -/
theorem hearing_some (h : Inv s) {sender : String} {t : MediaSessionClient}
    (ht : s.hearing jid sid sender = (some o, t)) :
    Base t ∧ Registered t ∧ HeardBut t sid ∧ t.managed.lookup sid = some o ∧
      ∃ x, t.session o = some x ∧ x.id = sid := by
  unfold hearing at ht
  split at ht
  · rename_i o' hfind
    obtain ⟨ho, rfl⟩ := Prod.mk.inj ht
    have hmanaged : s.managed.lookup sid = some o' := (Option.filter_eq_some_iff.mp hfind).1
    split at ho
    · obtain rfl := Option.some.inj ho
      exact ⟨h.base, h.registered, fun sid' o x _ => h.heard sid' o x, hmanaged,
        h.base.alive hmanaged⟩
    · cases ho
  · obtain ⟨ho, rfl⟩ := Prod.mk.inj ht
    obtain rfl := Option.some.inj ho
    exact ⟨h.base.createSession sid true, h.registered, h.heard.createSession h.base sid true,
      AList.lookup_insert _, _, Function.update_self .., rfl⟩

theorem hearing_inv (h : Inv s) (sid sender : String) : Inv (s.hearing jid sid sender).2 := by
  unfold hearing
  split
  · exact h
  · exact ⟨h.base.createSession sid true, h.heard.createSession_incoming h.base sid,
      h.registered⟩

theorem Inv.incomingInitiate (h : Inv s) {sender initiator : String} {fate : Fate}
    (horderly : Orderly jid s (.incomingInitiate sid sender initiator fate)) :
    Inv (s.incomingInitiate jid sid sender initiator fate) := by
  unfold MediaSessionClient.incomingInitiate
  split
  · rename_i o t id channels ht
    obtain ⟨hbase, hregistered, hheard, hmanaged, x, hx, rfl⟩ := hearing_some h ht
    have hx' : (t.onInitiateMessage o sender).session o =
        some { x with remoteName := sender, announced := true } := by
      simp [onInitiateMessage, hx]
    have hbase' : Base (t.onInitiateMessage o sender) := hbase.modifySession o fun _ => rfl
    have hregistered' : Registered (t.onInitiateMessage o sender) := hregistered
    exact onReceivedInitiate_inv (x := { x with remoteName := sender, announced := true }) hbase'
      hregistered' (hheard.onInitiateMessage hbase hx sender) hx' hmanaged
      (horderly o t id channels ht rfl)
  · rename_i o t fate ht _
    have hinv : Inv (s.hearing jid sid sender).2 := hearing_inv h sid sender
    rw [ht] at hinv
    exact hinv

theorem join_of_empty {callToJoin : Nat} {k : Call} (hk : s.call c = some k)
    (hempty : k.mediaSessionMap = ∅) : s.join callToJoin c = s := by
  have hsame : ∀ (c' : Nat) (f : Call → Call), (∀ j, s.call c' = some j → f j = j) →
      s.modifyCall c' f = s := by
    intro c' f hf
    have hcall : (s.call c').map f = s.call c' := by
      cases hj : s.call c' with
      | none => rfl
      | some j => rw [Option.map_some, hf j hj]
    rw [modifyCall, hcall, Function.update_eq_self]
  have hnone : inOrder k.mediaSessionMap = [] := by
    rw [hempty]
    rfl
  unfold join
  rw [hk]
  simp only [hnone, List.foldl_nil]
  rw [hsame callToJoin _ fun _ _ => rfl]
  refine hsame c _ fun j hj => ?_
  rw [hk] at hj
  cases hj
  rw [← hempty]

theorem Inv.destroySession (h : Inv s) (horderly : Orderly jid s (.destroySession o)) :
    Inv (s.destroySession o) := by
  cases hx : s.session o with
  | none => simpa [MediaSessionClient.destroySession, hx] using h
  | some x =>
    cases hmanaged : s.managed.lookup x.id with
    | none => simpa [MediaSessionClient.destroySession, hx, hmanaged] using h
    | some o' =>
      obtain ⟨x', hx', -⟩ := h.base.alive hmanaged
      have hmap : ∃ c, s.sessionMap.lookup x.id = some c := by
        cases hrefused : x'.refused with
        | false => exact h.heard _ _ _ hmanaged hx' hrefused
        | true => exact Option.ne_none_iff_exists'.mp (horderly x hx o' x' hmanaged hx' hrefused)
      obtain ⟨c, hc⟩ := hmap
      obtain ⟨hbase, hheard, hcalls, k, hk, hcall⟩ := h.base.destroySession h.heard hx hc
      refine ⟨hbase, hheard, fun c' k' hk' => ?_⟩
      rw [hcalls]
      rw [hcall] at hk'
      by_cases hcc : c' = c
      · subst hcc
        simp only [Function.update_self, Option.some.injEq] at hk'
        rw [← hk']
        exact h.registered c' k hk
      · exact h.registered _ _ ((Function.update_of_ne hcc ..).symm.trans hk')

theorem Inv.queue (h : Inv s) (queue : List Nat) : Inv { s with queue := queue } where
  base := { h.base with }
  heard := h.heard
  registered := h.registered

theorem Inv.step (h : Inv s) {e : Event} (horderly : Orderly jid s e) : Inv (s.step jid e) := by
  cases e with
  | createCall id => exact h.createCall horderly
  | initiateSession c sid receiver channels => exact h.initiateSession horderly
  | incomingInitiate sid sender initiator fate => exact h.incomingInitiate horderly
  | redirect o target =>
    exact ⟨h.base.modifySession o fun _ => rfl, h.heard.rename o target, h.registered⟩
  | joinCalls callToJoin c =>
    show Inv (if (s.call callToJoin).isNone then s else s.joinCalls callToJoin c)
    split
    · exact h
    · rename_i hjoin
      cases hk : s.call c with
      | none => simpa [joinCalls, join, hk] using h.destroyCall c
      | some k =>
        rw [joinCalls, join_of_empty hk (horderly (by simpa using hjoin) k hk)]
        exact h.destroyCall c
  | destroyCall c => exact h.destroyCall c
  | destroySession o => exact h.destroySession horderly
  | dispatch =>
    show Inv s.dispatch
    unfold MediaSessionClient.dispatch
    split
    · exact h
    · dsimp only
      split
      · exact h.queue _
      · split
        · exact (h.queue _).destroyCall _
        · exact h.queue _

/-- In every run of orderly steps the two records agree in every state. -/
theorem consistent_run (multisessionEnabled : Bool) {events : List Event}
    (h : Runs.Along (MediaSessionClient.step jid) (Orderly jid) { multisessionEnabled } events) :
    Runs.Along (MediaSessionClient.step jid) (fun s e => Consistent (s.step jid e))
        { multisessionEnabled } events ∧
      Consistent (events.foldl (MediaSessionClient.step jid) { multisessionEnabled }) := by
  have hstep : ∀ (s : MediaSessionClient) (e : Event), Inv s → Orderly jid s e →
      Inv (s.step jid e) ∧ Consistent (s.step jid e) :=
    fun s e hs he => ⟨hs.step he, (hs.step he).consistent⟩
  obtain ⟨hrun, hlast⟩ := h.invariant hstep (inv_initial multisessionEnabled)
  exact ⟨hrun, hlast.consistent⟩

/-- Two calls, one of them incoming; the other one ends. -/
theorem consistent_run_two : Consistent (List.foldl (MediaSessionClient.step (id : String → String))
    { multisessionEnabled := false }
    [.createCall 7, .initiateSession 0 "1" "b@example.com/x" true,
      .incomingInitiate "2" "c@example.com/y" "c@example.com/y" (.announced 9 true),
      .destroySession 0, .dispatch]) := by
  refine (consistent_run false ?_).2
  refine ⟨rfl, fun _ => .inr ⟨rfl, rfl⟩, fun o t id channels ht hfate => ?_, ?_, trivial, trivial⟩
  · cases hfate
    obtain ⟨-, rfl⟩ := Prod.mk.inj ht
    exact ⟨rfl, rfl, rfl⟩
  · intro x hx _ _ _ _ _
    cases hx
    exact Option.some_ne_none 0

/-- The entry of a session that was moved names the call that was deleted. -/
theorem joined_call_dangles : ¬ Consistent (List.foldl
    (MediaSessionClient.step (id : String → String)) { multisessionEnabled := false }
    [.createCall 7, .createCall 9, .initiateSession 1 "1" "b@example.com/x" true,
      .joinCalls 0 1]) := by
  intro h
  obtain ⟨k, o, x, hk, -⟩ := h.mapped "1" 1 rfl
  cases hk

end Steps

end MediaSessionClient

end Libjingle
