import Mathlib.Logic.Function.Basic
import Libjingle.Lib.Registry
import Libjingle.P2p.RelayServer

/-! The tables of a `RelayServer`: its connections by address pair, each with its binding, and
its bindings by username, each with its connections. The server keeps them sound unless a
client sends to a peer whose address pair is another binding's. -/

namespace Libjingle

namespace RelayServer

structure Tables where
  conns : Registry SocketAddressPair.Key Nat
  binds : Registry (List UInt8) (List Nat × List Nat)
  asserted : Bool

namespace Tables

def attach (c : Nat) (internal : Bool) (p : List Nat × List Nat) : List Nat × List Nat :=
  if internal then (p.1 ++ [c], p.2) else (p.1, p.2 ++ [c])

def connect (t : Tables) (b : Nat) (k : SocketAddressPair.Key) (internal : Bool) : Tables where
  conns := t.conns.add b k
  binds := t.binds.relabel b (attach t.conns.next internal)
  asserted := t.asserted && (t.conns.index k).isNone

def bind (t : Tables) (username : List UInt8) : Tables :=
  { t with binds := t.binds.add ([], []) username }

def unbind (t : Tables) (b : Nat) : Tables :=
  match t.binds.entry b with
  | none => t
  | some (p, _) =>
    { t with
      conns := (p.1 ++ p.2).foldl Registry.remove t.conns
      binds := t.binds.remove b }

structure Sound (t : Tables) : Prop where
  conns : t.conns.Sound
  binds : t.binds.Sound
  owned : ∀ c b k, t.conns.entry c = some (b, k) →
    ∃ p u, t.binds.entry b = some (p, u) ∧ c ∈ p.1 ++ p.2
  owns : ∀ b p u c, t.binds.entry b = some (p, u) → c ∈ p.1 ++ p.2 →
    ∃ k, t.conns.entry c = some (b, k)
  asserted : t.asserted = true

variable {t : Tables}

theorem mem_attach {c d : Nat} {internal : Bool} {p : List Nat × List Nat} :
    d ∈ (attach c internal p).1 ++ (attach c internal p).2 ↔ d ∈ p.1 ++ p.2 ∨ d = c := by
  unfold attach
  split <;> simp only [List.mem_append, List.mem_singleton] <;> tauto

theorem binds_connect (t : Tables) (b : Nat) (k : SocketAddressPair.Key) (internal : Bool) :
    (t.connect b k internal).binds = t.binds.relabel b (attach t.conns.next internal) := rfl

theorem Sound.connect (h : t.Sound) {b : Nat} {k : SocketAddressPair.Key} (internal : Bool)
    (hb : ∃ e, t.binds.entry b = some e) (hk : t.conns.index k = none) :
    (t.connect b k internal).Sound where
  conns := h.conns.add hk
  binds := h.binds.relabel b (attach t.conns.next internal)
  owned c d l hc := by
    have hmine : ∀ p u, t.binds.entry b = some (p, u) →
        (t.connect b k internal).binds.entry b = some (attach t.conns.next internal p, u) := by
      intro p u hp
      rw [binds_connect, Registry.entry_relabel_self, hp, Option.map_some]
    rcases Registry.entry_of_entry_add hc with ⟨rfl, heq⟩ | hold
    · obtain ⟨rfl, rfl⟩ := Prod.mk.inj heq
      obtain ⟨⟨p, u⟩, hp⟩ := hb
      exact ⟨_, u, hmine p u hp, mem_attach.mpr (.inr rfl)⟩
    · obtain ⟨p, u, hp, hmem⟩ := h.owned c d l hold
      by_cases hd : d = b
      · subst hd
        exact ⟨_, u, hmine p u hp, mem_attach.mpr (.inl hmem)⟩
      · exact ⟨p, u, by rw [binds_connect, Registry.entry_relabel_of_ne hd, hp], hmem⟩
  owns d p u c hd hc := by
    rw [binds_connect] at hd
    obtain ⟨q, hq, rfl⟩ := Registry.entry_of_entry_relabel hd
    have hkeep : c ∈ q.1 ++ q.2 → ∃ l, (t.conns.add b k).entry c = some (d, l) := by
      intro hmem
      obtain ⟨l, hl⟩ := h.owns d q u c hq hmem
      exact ⟨l, h.conns.entry_add_of_live hl⟩
    split at hc
    next heq =>
      subst heq
      rcases mem_attach.mp hc with hmem | rfl
      · exact hkeep hmem
      · exact ⟨k, Registry.entry_add_self⟩
    next => exact hkeep hc
  asserted := by simp [Tables.connect, h.asserted, hk]

theorem Sound.bind (h : t.Sound) {username : List UInt8} (hu : t.binds.index username = none) :
    (t.bind username).Sound where
  conns := h.conns
  binds := h.binds.add hu
  owned c b k hc := by
    obtain ⟨p, u, hp, hmem⟩ := h.owned c b k hc
    exact ⟨p, u, h.binds.entry_add_of_live hp, hmem⟩
  owns b p u c hb hc := by
    rcases Registry.entry_of_entry_add hb with ⟨_, heq⟩ | hold
    · obtain ⟨rfl, rfl⟩ := Prod.mk.inj heq
      cases hc
    · exact h.owns b p u c hold hc
  asserted := h.asserted

theorem Sound.mem_iff (h : t.Sound) {b : Nat} {p : List Nat × List Nat} {u : List UInt8}
    (hb : t.binds.entry b = some (p, u)) {c d : Nat} {k : SocketAddressPair.Key}
    (hc : t.conns.entry c = some (d, k)) : c ∈ p.1 ++ p.2 ↔ d = b := by
  constructor
  · intro hmem
    obtain ⟨l, hl⟩ := h.owns b p u c hb hmem
    exact (Prod.mk.inj (Option.some.inj (hc.symm.trans hl))).1
  · rintro rfl
    obtain ⟨q, v, hq, hmem⟩ := h.owned c d k hc
    obtain ⟨rfl, -⟩ := Prod.mk.inj (Option.some.inj (hb.symm.trans hq))
    exact hmem

theorem Sound.unbind (h : t.Sound) (b : Nat) : (t.unbind b).Sound := by
  unfold Tables.unbind
  split
  next => exact h
  next p u hb =>
    refine ⟨h.conns.removeAll _, h.binds.remove b, fun c d k hc => ?_, fun d q v c hd hc => ?_,
      h.asserted⟩
    · simp only [Registry.entry_removeAll] at hc
      split at hc
      next => cases hc
      next hmem =>
        have hne : d ≠ b := fun heq => hmem ((h.mem_iff hb hc).mpr heq)
        obtain ⟨q, v, hq, hin⟩ := h.owned c d k hc
        exact ⟨q, v, by simp only [Registry.entry_remove, if_neg hne, hq], hin⟩
    · simp only [Registry.entry_remove] at hd
      split at hd
      next => cases hd
      next hne =>
        obtain ⟨k, hk⟩ := h.owns d q v c hd hc
        have hmem : c ∉ p.1 ++ p.2 := fun hin => hne ((h.mem_iff hb hk).mp hin)
        exact ⟨k, by simp only [Registry.entry_removeAll, if_neg hmem, hk]⟩

end Tables

variable (s : RelayServer)

def Connection.entry (x : Connection) : Nat × SocketAddressPair.Key := (x.binding, x.addrPair.key)

def Binding.entry (x : Binding) : (List Nat × List Nat) × List UInt8 :=
  ((x.internalConnections, x.externalConnections), x.username)

def tables : Tables where
  conns := ⟨s.connections, fun c => (s.connection c).map Connection.entry, s.nextConnection⟩
  binds := ⟨s.bindings, fun b => (s.binding b).map Binding.entry, s.nextBinding⟩
  asserted := s.asserted

theorem map_update {α β : Type*} (f : Nat → Option α) (view : α → β) (a : Nat) (v : Option α) :
    (fun c => (Function.update f a v c).map view) =
      Function.update (fun c => (f c).map view) a (v.map view) :=
  Function.comp_update (Option.map view) f a v

theorem map_update_map {α β : Type*} (f : Nat → Option α) {g : α → α} {view : α → β}
    (hg : ∀ x, view (g x) = view x) (a : Nat) :
    (fun c => (Function.update f a ((f a).map g) c).map view) = fun c => (f c).map view := by
  have hcomp : view ∘ g = view := funext hg
  rw [map_update, Option.map_map, hcomp]
  exact Function.update_eq_self a fun c => (f c).map view

theorem tables_modifyBinding (b : Nat) {f : Binding → Binding} (hf : ∀ x, (f x).entry = x.entry) :
    (s.modifyBinding b f).tables = s.tables := by
  simp only [tables, modifyBinding, map_update_map s.binding hf]

theorem tables_modifyConnection (c : Nat) {f : Connection → Connection}
    (hf : ∀ x, (f x).entry = x.entry) : (s.modifyConnection c f).tables = s.tables := by
  simp only [tables, modifyConnection, map_update_map s.connection hf]

@[simp] theorem tables_noteUsed (b : Nat) (now : UInt32) :
    (s.noteUsed b now).tables = s.tables :=
  s.tables_modifyBinding b fun _ => rfl

@[simp] theorem tables_lock (c : Nat) : (s.lock c).tables = s.tables :=
  s.tables_modifyConnection c fun _ => rfl

@[simp] theorem tables_send (c : Nat) (conn : Connection) (packet : Packet) (now : UInt32) :
    (s.send c conn packet now).1.tables = s.tables :=
  s.tables_noteUsed ..

@[simp] theorem tables_sendFrom (c : Nat) (conn : Connection) (bytes : List UInt8)
    (sender : SocketAddress) (now : UInt32) :
    (s.sendFrom c conn bytes sender now).1.tables = s.tables := by
  unfold sendFrom
  split <;> exact s.tables_send ..

@[simp] theorem tables_answerAllocate (c : Nat) (request : StunMessage) (random : Nat)
    (now : UInt32) : (s.answerAllocate c request random now).1.tables = s.tables := by
  unfold answerAllocate
  split
  next => rfl
  next =>
    split
    next => exact s.tables_send ..
    next => rfl

@[simp] theorem tables_lockTo (c : Nat) (request : StunMessage) (extAddr : SocketAddress)
    (now : UInt32) : (s.lockTo c request extAddr now).1.tables = s.tables := by
  unfold lockTo
  split
  next =>
    split
    next => exact (tables_send ..).trans (s.tables_modifyConnection c fun _ => rfl)
    next => rfl
  next => rfl

@[simp] theorem tables_forward (b : Nat) (bytes : List UInt8) (sender : SocketAddress)
    (now : UInt32) : (s.forward b bytes sender now).1.tables = s.tables := by
  unfold forward
  split
  next => rfl
  next =>
    split
    next => rfl
    next => exact s.tables_sendFrom ..

@[simp] theorem tables_onTimer (b : Nat) (now : UInt32) :
    (s.onTimer b now).tables = s.tables := by
  unfold onTimer
  split
  next => rfl
  next x hx =>
    split
    next => rfl
    next =>
      split
      next => exact s.tables_modifyBinding b fun _ => rfl
      next => rfl

theorem Binding.entry_attach (c : Nat) (internal : Bool) (x : Binding) :
    (x.attach c internal).entry = (Tables.attach c internal x.entry.1, x.entry.2) := by
  cases internal <;> rfl

@[simp] theorem tables_newConnection (b : Nat) (ap : SocketAddressPair) (socket : Nat)
    (internal : Bool) (now : UInt32) :
    (s.newConnection b ap socket internal now).tables = s.tables.connect b ap.key internal := by
  have hconns : (fun c => ((s.newConnection b ap socket internal now).connection c).map
      Connection.entry) = (s.tables.conns.add b ap.key).entry :=
    map_update s.connection Connection.entry s.nextConnection _
  have hbinds : (fun d => ((s.newConnection b ap socket internal now).binding d).map
      Binding.entry) = (s.tables.binds.relabel b (Tables.attach s.nextConnection internal)).entry := by
    have hused : (fun d => ((s.noteUsed b now).binding d).map Binding.entry) =
        s.tables.binds.entry := congrArg (fun t => t.binds.entry) (s.tables_noteUsed b now)
    have hattach : Binding.entry ∘ Binding.attach s.nextConnection internal =
        (fun e => (Tables.attach s.nextConnection internal e.1, e.2)) ∘ Binding.entry :=
      funext (Binding.entry_attach s.nextConnection internal)
    refine (map_update _ Binding.entry b _).trans ?_
    rw [Option.map_map, hattach, ← Option.map_map]
    exact congrArg (fun f => Function.update f b ((f b).map fun e =>
      (Tables.attach s.nextConnection internal e.1, e.2))) hused
  exact congrArg₂ (fun c d => Tables.mk ⟨_, c, _⟩ ⟨_, d, _⟩ _) hconns hbinds

@[simp] theorem tables_newBinding (username : List UInt8) (request : StunMessage)
    (now : UInt32) : (s.newBinding username request now).tables = s.tables.bind username := by
  simp only [tables, newBinding, map_update]
  rfl

variable {s}

theorem tables_deleteConnection (h : s.tables.conns.Sound) (c : Nat) :
    (s.deleteConnection c).tables = { s.tables with conns := s.tables.conns.remove c } := by
  unfold deleteConnection Registry.remove
  split
  next hc =>
    have hentry : s.tables.conns.entry c = none := by simp only [tables, hc, Option.map_none]
    rw [hentry]
  next x hc =>
    have hentry : s.tables.conns.entry c = some (x.binding, x.addrPair.key) := by
      simp only [tables, hc, Option.map_some, Connection.entry]
    have hfound : s.connections x.addrPair.key = some c := h.indexed c _ _ hentry
    rw [hentry]
    simp only [tables, removeConnection, map_update, Option.map_none, hfound, Option.isSome_some,
      Bool.and_true]

theorem connection_deleteConnection (c d : Nat) :
    (s.deleteConnection c).connection d = if d = c then none else s.connection d := by
  unfold deleteConnection
  split
  next hc =>
    split
    next heq => exact heq ▸ hc
    next => rfl
  next => exact Function.update_apply ..

theorem binding_deleteConnection (c : Nat) : (s.deleteConnection c).binding = s.binding := by
  unfold deleteConnection
  split <;> rfl

theorem tables_deleteConnections (h : s.tables.conns.Sound) (l : List Nat) :
    (l.foldl deleteConnection s).tables =
      { s.tables with conns := l.foldl Registry.remove s.tables.conns } := by
  induction l generalizing s with
  | nil => rfl
  | cons c rest ih =>
    have hone := tables_deleteConnection h c
    have hsound : (s.deleteConnection c).tables.conns.Sound := by
      rw [hone]
      exact h.remove c
    rw [List.foldl_cons, ih hsound, hone, List.foldl_cons]

theorem connection_deleteConnections (l : List Nat) (d : Nat) :
    (l.foldl deleteConnection s).connection d = if d ∈ l then none else s.connection d := by
  induction l generalizing s with
  | nil => rfl
  | cons c rest ih =>
    rw [List.foldl_cons, ih, connection_deleteConnection]
    by_cases hd : d = c
    · simp [hd]
    · simp [hd]

theorem binding_deleteConnections (l : List Nat) :
    (l.foldl deleteConnection s).binding = s.binding := by
  induction l generalizing s with
  | nil => rfl
  | cons c rest ih => rw [List.foldl_cons, ih, binding_deleteConnection]

theorem tables_removeBinding (h : s.tables.binds.Sound) {b : Nat} {x : Binding}
    (hb : s.binding b = some x) :
    ({ s.removeBinding x.username with
      binding := Function.update s.binding b none } : RelayServer).tables =
      { s.tables with binds := s.tables.binds.remove b } := by
  have hentry : s.tables.binds.entry b = some x.entry := by
    simp only [tables, hb, Option.map_some]
  have hfound : s.bindings x.username = some b := h.indexed b _ _ hentry
  unfold Registry.remove
  rw [hentry]
  simp only [tables, removeBinding, map_update, Option.map_none, hfound, Option.isSome_some,
    Bool.and_true, Binding.entry]

theorem tables_deleteBinding (h : s.tables.Sound) (b : Nat) :
    (s.deleteBinding b).tables = s.tables.unbind b := by
  unfold deleteBinding Tables.unbind
  split
  next hb =>
    have hentry : s.tables.binds.entry b = none := by simp only [tables, hb, Option.map_none]
    rw [hentry]
  next x hb =>
    have hentry : s.tables.binds.entry b = some x.entry := by
      simp only [tables, hb, Option.map_some]
    have hall := tables_deleteConnections h.conns (x.internalConnections ++ x.externalConnections)
    have hbinds : (List.foldl deleteConnection s
        (x.internalConnections ++ x.externalConnections)).tables.binds = s.tables.binds := by
      rw [hall]
    rw [hentry]
    refine (tables_removeBinding (hbinds ▸ h.binds) ?_).trans ?_
    · rw [binding_deleteConnections, hb]
    · rw [hall]
      rfl

theorem entry_of_connection {c : Nat} {x : Connection} (hc : s.connection c = some x) :
    s.tables.conns.entry c = some (x.binding, x.addrPair.key) := by
  simp only [tables, hc, Option.map_some, Connection.entry]

theorem entry_of_binding {b : Nat} {x : Binding} (hb : s.binding b = some x) :
    s.tables.binds.entry b =
      some ((x.internalConnections, x.externalConnections), x.username) := by
  simp only [tables, hb, Option.map_some, Binding.entry]

theorem connections_iff (h : s.tables.Sound) {c : Nat} {k : SocketAddressPair.Key} :
    s.connections k = some c ↔ ∃ x, s.connection c = some x ∧ x.addrPair.key = k := by
  constructor
  · intro hk
    obtain ⟨b, hc⟩ := h.conns.live k c hk
    obtain ⟨x, hx, heq⟩ := Option.map_eq_some_iff.mp hc
    exact ⟨x, hx, (Prod.mk.inj heq).2⟩
  · rintro ⟨x, hx, rfl⟩
    exact h.conns.indexed c _ _ (entry_of_connection hx)

theorem connection_deleteBinding (h : s.tables.Sound) (b c : Nat) (x : Connection) :
    (s.deleteBinding b).connection c = some x ↔ s.connection c = some x ∧ x.binding ≠ b := by
  unfold deleteBinding
  split
  next hb =>
    refine ⟨fun hc => ⟨hc, ?_⟩, And.left⟩
    rintro rfl
    obtain ⟨p, u, hp, -⟩ := h.owned c _ _ (entry_of_connection hc)
    simp only [tables, hb, Option.map_none] at hp
    cases hp
  next y hb =>
    have hentry := entry_of_binding hb
    refine (Eq.congr_left (connection_deleteConnections ..)).trans ?_
    constructor
    · intro hc
      split at hc
      next => cases hc
      next hmem => exact ⟨hc, fun heq => hmem ((h.mem_iff hentry (entry_of_connection hc)).mpr heq)⟩
    · rintro ⟨hc, hne⟩
      rw [if_neg fun hmem => hne ((h.mem_iff hentry (entry_of_connection hc)).mp hmem), hc]

theorem connections_deleteBinding (h : s.tables.Sound) (b c : Nat) (k : SocketAddressPair.Key) :
    (s.deleteBinding b).connections k = some c ↔
      s.connections k = some c ∧ ∀ x, s.connection c = some x → x.binding ≠ b := by
  have hafter : (s.deleteBinding b).tables.Sound := by
    rw [tables_deleteBinding h]
    exact h.unbind b
  rw [connections_iff hafter, connections_iff h]
  simp only [connection_deleteBinding h]
  constructor
  · rintro ⟨x, ⟨hx, hne⟩, hk⟩
    refine ⟨⟨x, hx, hk⟩, fun y hy => ?_⟩
    obtain rfl := Option.some.inj (hx.symm.trans hy)
    exact hne
  · rintro ⟨⟨x, hx, hk⟩, hne⟩
    exact ⟨x, ⟨hx, hne x hx⟩, hk⟩

end RelayServer

end Libjingle
