import Libjingle.P2p.RelayTables

/-! What the server does with a packet is for each of its bindings a use, or nothing. -/

namespace Libjingle

namespace RelayServer

/-- The binding afterwards, which has been used or not. -/
structure Binding.UsedAt (now : UInt32) (x y : Binding) : Prop where
  lifetime : y.lifetime = x.lifetime
  timer : y.timer = x.timer
  lastUsed : y.lastUsed = x.lastUsed ∨ y.lastUsed = now

/-- Each binding is still there, and has been used or not. -/
structure Uses (now : UInt32) (s t : RelayServer) : Prop where
  used : ∀ b x, s.binding b = some x → ∃ y, t.binding b = some y ∧ x.UsedAt now y

variable {now : UInt32} {s t u : RelayServer}

theorem Binding.UsedAt.refl (now : UInt32) (x : Binding) : x.UsedAt now x := ⟨rfl, rfl, Or.inl rfl⟩

theorem Binding.UsedAt.trans {x y z : Binding} (h : x.UsedAt now y) (h' : y.UsedAt now z) :
    x.UsedAt now z := by
  refine ⟨h'.lifetime.trans h.lifetime, h'.timer.trans h.timer, ?_⟩
  rcases h'.lastUsed with heq | heq
  · rw [heq]
    exact h.lastUsed
  · exact Or.inr heq

theorem uses_of_binding (h : t.binding = s.binding) : Uses now s t := by
  refine ⟨fun b x hx => ⟨x, ?_, .refl now x⟩⟩
  rw [h, hx]

theorem Uses.refl (now : UInt32) (s : RelayServer) : Uses now s s := uses_of_binding rfl

theorem Uses.trans (h : Uses now s t) (h' : Uses now t u) : Uses now s u := by
  refine ⟨fun b x hx => ?_⟩
  obtain ⟨y, hy, hxy⟩ := h.used b x hx
  obtain ⟨z, hz, hyz⟩ := h'.used b y hy
  exact ⟨z, hz, hxy.trans hyz⟩

theorem uses_modifyBinding (s : RelayServer) (b : Nat) {f : Binding → Binding}
    (hf : ∀ x : Binding, x.UsedAt now (f x)) : Uses now s (s.modifyBinding b f) := by
  refine ⟨fun d x hx => ?_⟩
  by_cases hd : d = b
  · subst hd
    refine ⟨f x, ?_, hf x⟩
    rw [modifyBinding, hx]
    exact Function.update_self ..
  · exact ⟨x, (Function.update_of_ne hd ..).trans hx, .refl now x⟩

theorem uses_modifyConnection (s : RelayServer) (c : Nat) (f : Connection → Connection) :
    Uses now s (s.modifyConnection c f) := uses_of_binding rfl

theorem uses_noteUsed (s : RelayServer) (b : Nat) : Uses now s (s.noteUsed b now) :=
  s.uses_modifyBinding b fun _ => ⟨rfl, rfl, Or.inr rfl⟩

theorem uses_send (s : RelayServer) (c : Nat) (conn : Connection) (packet : Packet) :
    Uses now s (s.send c conn packet now).1 :=
  s.uses_noteUsed conn.binding

theorem uses_sendFrom (s : RelayServer) (c : Nat) (conn : Connection) (bytes : List UInt8)
    (sender : SocketAddress) : Uses now s (s.sendFrom c conn bytes sender now).1 := by
  rw [sendFrom]
  split <;> exact s.uses_send ..

theorem uses_newConnection (s : RelayServer) (b : Nat) (ap : SocketAddressPair) (socket : Nat)
    (internal : Bool) : Uses now s (s.newConnection b ap socket internal now) := by
  have hconstruct : Uses now s (s.construct b ap socket now) :=
    (s.uses_noteUsed b).trans (uses_of_binding rfl)
  have hattach : Uses now (s.construct b ap socket now) ((s.construct b ap socket now).modifyBinding
      b (Binding.attach s.nextConnection internal)) :=
    uses_modifyBinding _ b fun x => by cases internal <;> exact ⟨rfl, rfl, Or.inl rfl⟩
  exact (hconstruct.trans hattach).trans (uses_of_binding rfl)

theorem uses_answerAllocate (s : RelayServer) (c : Nat) (request : StunMessage) (random : Nat) :
    Uses now s (s.answerAllocate c request random now).1 := by
  rw [answerAllocate]
  split
  · exact .refl now s
  · split
    · exact s.uses_send ..
    · exact .refl now s

theorem uses_findOrCreate (h : s.tables.Sound) (username : List UInt8) (request : StunMessage) :
    Uses now s (s.findOrCreate username request now).1 := by
  rw [findOrCreate]
  split
  · exact .refl now s
  · refine ⟨fun b x hx => ?_⟩
    have hne : b ≠ s.nextBinding := fun heq =>
      Nat.lt_irrefl _ (heq ▸ h.binds.index_lt (entry_of_binding hx))
    exact ⟨x, (Function.update_of_ne hne ..).trans hx, .refl now x⟩

theorem uses_handleStunAllocate (h : s.tables.Sound) (socket : Nat) (ap : SocketAddressPair)
    (bytes : List UInt8) (random : Nat) :
    Uses now s (s.handleStunAllocate socket ap bytes random now).1 := by
  rw [handleStunAllocate]
  split
  · exact .refl now s
  split
  · exact .refl now s
  split
  · exact .refl now s
  · exact ((uses_findOrCreate h _ _).trans (uses_newConnection ..)).trans (uses_answerAllocate ..)

theorem uses_findOrConnect (s : RelayServer) (b : Nat) (x : Binding) (extAddr : SocketAddress) :
    Uses now s (s.findOrConnect b x extAddr now).1 := by
  rw [findOrConnect]
  split
  · exact .refl now s
  split
  · exact .refl now s
  · exact s.uses_newConnection ..

theorem uses_lockTo (s : RelayServer) (c : Nat) (request : StunMessage) (extAddr : SocketAddress) :
    Uses now s (s.lockTo c request extAddr now).1 := by
  rw [lockTo]
  split
  · split
    · exact (s.uses_modifyConnection ..).trans (uses_send ..)
    · exact .refl now s
  · exact .refl now s

theorem uses_handleStunSend (s : RelayServer) (c : Nat) (conn : Connection) (b : Binding)
    (request : StunMessage) : Uses now s (s.handleStunSend c conn b request now).1 := by
  rw [handleStunSend]
  split
  · rename_i extAddr data _ _
    have hconnect : Uses now s (s.findOrConnect conn.binding b extAddr now).1 :=
      s.uses_findOrConnect ..
    split
    · rename_i t ht
      rw [ht] at hconnect
      exact hconnect
    · rename_i t e ht
      rw [ht] at hconnect
      refine (hconnect.trans ?_).trans (uses_lockTo ..)
      split
      · split
        · exact t.uses_send ..
        · exact .refl now t
      · exact .refl now t
  · exact .refl now s

theorem uses_handleStun (s : RelayServer) (c : Nat) (conn : Connection) (b : Binding)
    (bytes : List UInt8) (random : Nat) :
    Uses now s (s.handleStun c conn b bytes random now).1 := by
  rw [handleStun]
  split
  · exact .refl now s
  split
  · exact .refl now s
  split
  · exact .refl now s
  split
  · exact s.uses_handleStunSend ..
  split
  · exact s.uses_answerAllocate ..
  · exact .refl now s

theorem uses_onInternalPacket (h : s.tables.Sound) (socket : Nat) (ap : SocketAddressPair)
    (bytes : List UInt8) (random : Nat) :
    Uses now s (s.onInternalPacket socket ap bytes random now).1 := by
  rw [onInternalPacket]
  split
  · exact uses_handleStunAllocate h ..
  split
  · exact .refl now s
  split
  · exact .refl now s
  split
  · exact s.uses_handleStun ..
  split
  · exact .refl now s
  split
  · exact .refl now s
  split
  · exact .refl now s
  split
  · exact s.uses_send ..
  · exact .refl now s

theorem uses_forward (s : RelayServer) (b : Nat) (bytes : List UInt8) (sender : SocketAddress) :
    Uses now s (s.forward b bytes sender now).1 := by
  rw [forward]
  split
  · exact .refl now s
  split
  · exact .refl now s
  · exact s.uses_sendFrom ..

theorem uses_onExternalPacket (s : RelayServer) (socket : Nat) (ap : SocketAddressPair)
    (bytes : List UInt8) : Uses now s (s.onExternalPacket socket ap bytes now).1 := by
  rw [onExternalPacket]
  split
  · split
    · exact .refl now s
    · exact (s.uses_forward ..).trans (uses_modifyConnection ..)
  split
  · exact .refl now s
  · rename_i b _
    have hnew : Uses now s (s.newConnection b ap socket false now) := s.uses_newConnection ..
    exact (hnew.trans (uses_modifyConnection ..)).trans (uses_forward ..)

theorem binding_deleteBinding (s : RelayServer) {b d : Nat} (hd : d ≠ b) :
    (s.deleteBinding b).binding d = s.binding d := by
  rw [deleteBinding]
  split
  · rfl
  · refine (Function.update_of_ne hd ..).trans ?_
    exact congrFun (binding_deleteConnections _) d

def Event.clock : Event → UInt32
  | .internalPacket _ _ _ _ now => now
  | .externalPacket _ _ _ now => now
  | .timer _ now => now
  | _ => 0

theorem step_binding (h : s.tables.Sound) {e : Event} {b : Nat} {x : Binding}
    (hx : s.binding b = some x) (htimer : ∀ now, e ≠ .timer b now)
    (hdelete : e = .dispatch → s.doomed.head? ≠ some b) :
    ∃ y, (s.step e).binding b = some y ∧ x.UsedAt e.clock y := by
  cases e with
  | addExternalSocket socket localAddress => exact ⟨x, hx, .refl 0 x⟩
  | removeExternalSocket socket => exact ⟨x, hx, .refl 0 x⟩
  | internalPacket socket ap bytes random now =>
    exact (uses_onInternalPacket h socket ap bytes random).used b x hx
  | externalPacket socket ap bytes now =>
    exact (s.uses_onExternalPacket socket ap bytes).used b x hx
  | timer d now =>
    have hne : b ≠ d := fun heq => htimer now (heq ▸ rfl)
    refine ⟨x, ?_, .refl now x⟩
    rw [step, handle]
    simp only [onTimer]
    split
    · exact hx
    split
    · exact hx
    split
    · exact (Function.update_of_ne hne ..).trans hx
    · exact hx
  | dispatch =>
    refine ⟨x, ?_, .refl 0 x⟩
    rw [step, handle]
    simp only [dispatch]
    cases hdoomed : s.doomed with
    | nil => exact hx
    | cons d doomed =>
      have hne : b ≠ d := fun heq => hdelete rfl (by rw [hdoomed, heq, List.head?_cons])
      exact (binding_deleteBinding _ hne).trans hx

end RelayServer

end Libjingle
