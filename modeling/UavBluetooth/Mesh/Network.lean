import UavBluetooth.Mesh.Bookkeeping

set_option autoImplicit false

/-! # A network of nodes

The nodes of a Mesh network, by their unicast address, and the unicast frames in the air. A
frame can be delivered late, out of order, more than once or never. A step is a step of one
node, the delivery or loss of a frame, or the passing of time.
-/

namespace UavBluetooth.Mesh

/-- A frame in the air. -/
structure Packet where
  source : UInt16
  destination : UInt16
  keyIndex : UInt16
  data : Bytes
  deriving DecidableEq, Repr

/-- The frame as its destination receives it. -/
def Packet.message (p : Packet) : ReceivedMessage where
  source := p.source
  destination := p.destination
  keyIndex := p.keyIndex
  data := p.data

def Packet.frame (p : Packet) : Frame := ⟨p.destination, p.keyIndex, p.data⟩

/-- What an event of a node puts into the air. -/
def Event.packet (node : UInt16) : Event → Option Packet
  | .transmitted frame => some ⟨node, frame.destination, frame.keyIndex, frame.data⟩
  | _ => none

/-- The nodes, the frames in the air, and the record of what happened, newest first. -/
structure World where
  now : Time := 0
  station : UInt16 → Station := fun _ => {}
  air : List Packet := []
  log : List (UInt16 × Event) := []

/-- Node `node` has become `s` and shown `events`. -/
def World.record (w : World) (node : UInt16) (s : Station) (events : List Event) : World where
  now := w.now
  station := Function.update w.station node s
  air := w.air ++ events.filterMap (Event.packet node)
  log := events.reverse.map (node, ·) ++ w.log

inductive WorldAction where
  | advance (duration : Time)
  | act (node : UInt16) (action : Action)
  /-- The frame at `index` arrives; `keep` if another copy of it may arrive later. -/
  | deliver (index : Nat) (keep : Bool) (policy : Admittance)
  | lose (index : Nat)

def World.step (w : World) : WorldAction → Option World
  | .advance duration => some { w with now := w.now + duration }
  | .act _ (.receive _ _) => none
  | .act node action =>
      ((w.station node).step w.now action).map fun (s, events) => w.record node s events
  | .deliver index keep policy =>
      match w.air[index]? with
      | none => none
      | some p =>
          ((w.station p.destination).step w.now (.receive policy p.message)).map
            fun (s, events) =>
              { w.record p.destination s events with
                air := if keep then w.air else w.air.eraseIdx index }
  | .lose index => if index < w.air.length then some { w with air := w.air.eraseIdx index } else none

/-- Freshly constructed nodes, and nothing in the air. -/
def World.Initial (w : World) : Prop :=
  (∀ node, ∃ meshApp coordinator nextSequence,
    w.station node = { meshApp := meshApp, coordinator := coordinator
                       reliable := { nextSequence := nextSequence } }) ∧
    w.air = [] ∧ w.log = []

/-! ## What a step does -/

/-- The node takes the step: by itself, or because the frame at hand arrives. -/
structure NodeStep (w w' : World) (node : UInt16) (action : Action) (s' : Station)
    (events : List Event) : Prop where
  step : (w.station node).step w.now action = some (s', events)
  now : w'.now = w.now
  station : w'.station = Function.update w.station node s'
  log : w'.log = events.reverse.map (node, ·) ++ w.log
  air : ∀ p ∈ w'.air, p ∈ w.air ∨ p ∈ events.filterMap (Event.packet node)
  received : ∀ policy m, action = .receive policy m →
    ∃ p ∈ w.air, p.destination = node ∧ m = p.message

/-- A step is the passing of time, a loss, or the step of one node. -/
theorem World.step_cases {w w' : World} {a : WorldAction} (h : w.step a = some w') :
    (∃ duration, a = .advance duration ∧ w' = { w with now := w.now + duration }) ∨
      (∃ index, a = .lose index ∧ w' = { w with air := w.air.eraseIdx index }) ∨
      (∃ node action s' events, a = .act node action ∧ NodeStep w w' node action s' events) ∨
      ∃ index keep policy p s' events, a = .deliver index keep policy ∧ p ∈ w.air ∧
        NodeStep w w' p.destination (.receive policy p.message) s' events := by
  cases a with
  | advance duration =>
      cases h
      exact Or.inl ⟨duration, rfl, rfl⟩
  | lose index =>
      simp only [World.step] at h
      split at h <;> cases h
      exact Or.inr (Or.inl ⟨index, rfl, rfl⟩)
  | act node action =>
      have hgo : ∀ (hnot : ∀ policy m, action ≠ .receive policy m),
          (((w.station node).step w.now action).map fun (s, events) =>
            w.record node s events) = some w' →
          ∃ node' action' s' events, WorldAction.act node action = .act node' action' ∧
            NodeStep w w' node' action' s' events := by
        intro hnot h
        obtain ⟨⟨s', events⟩, hstep, rfl⟩ := Option.map_eq_some_iff.mp h
        refine ⟨node, action, s', events, rfl, hstep, rfl, rfl, rfl, fun p hp => ?_, ?_⟩
        · exact List.mem_append.mp hp
        · intro policy m heq
          exact absurd heq (hnot policy m)
      refine Or.inr (Or.inr (Or.inl ?_))
      cases action with
      | receive policy m => cases h
      | _ => exact hgo (by simp) h
  | deliver index keep policy =>
      simp only [World.step] at h
      split at h
      · cases h
      · rename_i p hp
        obtain ⟨⟨s', events⟩, hstep, rfl⟩ := Option.map_eq_some_iff.mp h
        have hmem : p ∈ w.air := List.mem_of_getElem? hp
        refine Or.inr (Or.inr (Or.inr ⟨index, keep, policy, p, s', events, rfl, hmem, hstep, rfl,
          rfl, rfl, fun q hq => Or.inl ?_, ?_⟩))
        · simp only at hq
          split at hq
          · exact hq
          · exact List.mem_of_mem_eraseIdx hq
        · intro policy' m heq
          cases heq
          exact ⟨p, hmem, rfl, rfl⟩

end UavBluetooth.Mesh
