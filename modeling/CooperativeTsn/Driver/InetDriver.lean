import CooperativeTsn.Net.ModuleTree

/-!
# Platoon messages in packets

`PlexeInetUtils::encapsulate` makes a packet with one chunk, which holds the message. Lower layers
put chunks around it and take some of them away again. `decapsulate` takes the only chunk, or else
the last but one, and `InetDriver::handleMessage` uses it without a check.

* `laidOut_run` — what lies around the message after all layers
* `decapsulate_of_laidOut` — what is found there
* `decapsulate_encapsulated_iff` — the message is found iff one chunk lies behind it, or none around
-/

namespace CooperativeTsn

open Infra.Runs

variable {Message Data Module Address : Type}

/-! ## Chunks -/

/-- `cPacketChunk`, with the time of its `CreationTimeTag` -/
structure PacketChunk (Message : Type) where
  packet : Message
  creationTime : Int
deriving DecidableEq, Repr

/-- Headers, trailers and padding are chunks of other kinds. -/
inductive Chunk (Message Data : Type) where
  | cPacketChunk (chunk : PacketChunk Message)
  | other (data : Data)
deriving DecidableEq, Repr

/-- `dynamic_cast<const cPacketChunk *>` -/
def Chunk.asPacketChunk : Chunk Message Data → Option (PacketChunk Message)
  | cPacketChunk chunk => some chunk
  | other _ => none

/-- What `Packet::peekAll` returns: the only chunk, or a `SequenceChunk`. -/
inductive Peeked (Message Data : Type) where
  | single (chunk : Chunk Message Data)
  | sequenceChunk (chunks : List (Chunk Message Data))

def peekAll : List (Chunk Message Data) → Peeked Message Data
  | [chunk] => .single chunk
  | chunks => .sequenceChunk chunks

/-! ## `PlexeInetUtils` -/

def encapsulate (now : Int) (packet : Message) : List (Chunk Message Data) :=
  [.cPacketChunk ⟨packet, now⟩]

def decapsulate (packet : List (Chunk Message Data)) : Option (PacketChunk Message) :=
  match peekAll packet with
  | .single chunk => chunk.asPacketChunk
  | .sequenceChunk chunks => chunks[chunks.length - 2]?.bind Chunk.asPacketChunk

/-! ## `InetDriver` -/

/-- What the driver emits and what it sends up. -/
structure SentUp (Message : Type) where
  signalName : String
  e2eDelay : Int
  frame : Message
deriving DecidableEq, Repr

/-- `handleMessage`, for a packet from the socket -/
def handleMessage (tree : ModuleTree Module) (findHostWithAddress : Address → Option Module)
    (now : Int) (srcAddr : Address) (container : List (Chunk Message Data)) :
    Except SimError (SentUp Message) := do
  let chunk ← require .nullPointer (decapsulate container)
  let sender ← require .nullPointer (findHostWithAddress srcAddr)
  let senderModule ← require .nullPointer (tree.getParentModule sender)
  pure {
    signalName := "e2e_from_" ++ tree.getFullName senderModule
    e2eDelay := now - chunk.creationTime
    frame := chunk.packet }

/-! ## Layers -/

/-- What a layer does to a packet. -/
inductive LayerEvent (Data : Type) where
  | insertAtFront (data : Data)
  | insertAtBack (data : Data)
  | removeAt (i : Nat)
deriving DecidableEq, Repr

/-- Chunks that are not there, and the message, cannot be removed. -/
def layerStep (packet : List (Chunk Message Data)) :
    LayerEvent Data → Except Unit (List (Chunk Message Data))
  | .insertAtFront data => .ok (.other data :: packet)
  | .insertAtBack data => .ok (packet ++ [.other data])
  | .removeAt i =>
    match packet[i]? with
    | some (.other _) => .ok (packet.eraseIdx i)
    | _ => .error ()

/-- How many chunks lie before and behind the message. -/
structure Layers where
  headers : Nat
  trailers : Nat
deriving DecidableEq, Repr

def Layers.next (layers : Layers) : LayerEvent Data → Layers
  | .insertAtFront _ => { layers with headers := layers.headers + 1 }
  | .insertAtBack _ => { layers with trailers := layers.trailers + 1 }
  | .removeAt i =>
    if i < layers.headers then { layers with headers := layers.headers - 1 }
    else { layers with trailers := layers.trailers - 1 }

/-- What the events leave. -/
def layersOf (events : List (LayerEvent Data)) : Layers := events.foldl Layers.next ⟨0, 0⟩

/-- The message, with that many other chunks before and behind it. -/
def LaidOut (chunk : PacketChunk Message) (packet : List (Chunk Message Data)) (layers : Layers) :
    Prop :=
  ∃ front back : List Data, packet = front.map .other ++ .cPacketChunk chunk :: back.map .other ∧
    front.length = layers.headers ∧ back.length = layers.trailers

section

variable {chunk : PacketChunk Message} {packet packet' : List (Chunk Message Data)}
  {layers : Layers} {events : List (LayerEvent Data)}

theorem laidOut_step {e : LayerEvent Data} (h : LaidOut chunk packet layers)
    (hstep : layerStep packet e = .ok packet') : LaidOut chunk packet' (layers.next e) := by
  obtain ⟨front, back, rfl, hfront, hback⟩ := h
  cases e with
  | insertAtFront data =>
    cases hstep
    exact ⟨data :: front, back, rfl, by simp [Layers.next, hfront], hback⟩
  | insertAtBack data =>
    cases hstep
    exact ⟨front, back ++ [data], by simp, hfront, by simp [Layers.next, hback]⟩
  | removeAt i =>
    rw [layerStep] at hstep
    split at hstep
    · next data hget =>
      cases hstep
      have hlength : (front.map (@Chunk.other Message Data)).length = layers.headers := by
        rw [List.length_map, hfront]
      -- a header or a trailer is taken off, never the message itself
      rcases Nat.lt_trichotomy i layers.headers with hi | rfl | hi
      · refine ⟨front.eraseIdx i, back, ?_, ?_, ?_⟩
        · rw [List.eraseIdx_append_of_lt_length (by omega), List.eraseIdx_map]
        · rw [Layers.next, if_pos hi, List.length_eraseIdx_of_lt (by omega), hfront]
        · rw [Layers.next, if_pos hi, hback]
      · rw [List.getElem?_append_right (by omega), hlength, Nat.sub_self,
          List.getElem?_cons_zero] at hget
        cases hget
      · obtain ⟨j, rfl⟩ : ∃ j, i = layers.headers + (j + 1) := ⟨i - layers.headers - 1, by omega⟩
        rw [List.getElem?_append_right (by omega), hlength, Nat.add_sub_cancel_left,
          List.getElem?_cons_succ] at hget
        have hj : j < back.length := by
          simpa using (List.getElem?_eq_some_iff.mp hget).1
        refine ⟨front, back.eraseIdx j, ?_, ?_, ?_⟩
        · rw [List.eraseIdx_append_of_length_le (by omega), hlength, Nat.add_sub_cancel_left,
            List.eraseIdx_cons_succ, List.eraseIdx_map]
        · rw [Layers.next, if_neg (by omega), hfront]
        · rw [Layers.next, if_neg (by omega), List.length_eraseIdx_of_lt hj, hback]
    · cases hstep

/-- **What lies around the message after all layers.** -/
theorem laidOut_run {now : Int} {m : Message}
    (h : run layerStep events (encapsulate now m) = .ok packet) :
    LaidOut ⟨m, now⟩ packet (layersOf events) :=
  run_simulates (fun _ _ _ _ => laidOut_step) ⟨[], [], rfl, rfl, rfl⟩ h

theorem decapsulate_of_two_le (h : 2 ≤ packet.length) :
    decapsulate packet = packet[packet.length - 2]?.bind Chunk.asPacketChunk := by
  match packet, h with
  | _ :: _ :: _, _ => rfl

theorem getElem?_other {chunks : List Data} {i : Nat} :
    ((chunks.map (@Chunk.other Message Data))[i]?.bind Chunk.asPacketChunk) = none := by
  rw [List.getElem?_map]
  cases chunks[i]? <;> rfl

/-- **What is found**: the message, or nothing. -/
theorem decapsulate_of_laidOut (h : LaidOut chunk packet layers) :
    decapsulate packet = if layers.trailers = 1 ∨ layers = ⟨0, 0⟩ then some chunk else none := by
  obtain ⟨front, back, rfl, hfront, hback⟩ := h
  by_cases halone : layers = ⟨0, 0⟩
  · subst halone
    obtain rfl := List.length_eq_zero_iff.mp hfront
    obtain rfl := List.length_eq_zero_iff.mp hback
    rfl
  · have hlength : (front.map Chunk.other ++ Chunk.cPacketChunk chunk :: back.map Chunk.other).length =
        layers.headers + (layers.trailers + 1) := by
      simp [hfront, hback]
    have hmany : layers.headers ≠ 0 ∨ layers.trailers ≠ 0 := by
      by_contra hnone
      simp only [not_or, not_not] at hnone
      exact halone (congrArg₂ Layers.mk hnone.1 hnone.2)
    have hfront' : (front.map (@Chunk.other Message Data)).length = layers.headers := by
      rw [List.length_map, hfront]
    rw [decapsulate_of_two_le (by omega), hlength]
    -- the chunk before the last: a header, the message, or a trailer
    match htrailers : layers.trailers with
    | 0 =>
      rw [if_neg (by simp [halone]), List.getElem?_append_left (by omega)]
      exact getElem?_other
    | 1 =>
      have hindex : layers.headers + (1 + 1) - 2 = layers.headers := by omega
      rw [if_pos (.inl rfl), hindex, List.getElem?_append_right (by omega), hfront', Nat.sub_self]
      rfl
    | t + 2 =>
      have hindex : layers.headers + (t + 2 + 1) - 2 - layers.headers = t + 1 := by omega
      rw [if_neg (by simp [halone]), List.getElem?_append_right (by omega), hfront', hindex,
        List.getElem?_cons_succ]
      exact getElem?_other

/-- The chunk with the message is found, and its message is sent up if the sender is known. -/
structure Returned (tree : ModuleTree Module) (findHostWithAddress : Address → Option Module)
    (chunk : PacketChunk Message) (packet : List (Chunk Message Data)) : Prop where
  found : decapsulate packet = some chunk
  delivered : ∀ now srcAddr host car, findHostWithAddress srcAddr = some host →
    tree.getParentModule host = some car →
    handleMessage tree findHostWithAddress now srcAddr packet =
      .ok ⟨"e2e_from_" ++ tree.getFullName car, now - chunk.creationTime, chunk.packet⟩

theorem handleMessage_of_found {tree : ModuleTree Module}
    {findHostWithAddress : Address → Option Module} (hfound : decapsulate packet = some chunk) :
    Returned tree findHostWithAddress chunk packet := by
  refine ⟨hfound, fun now srcAddr host car hhost hcar => ?_⟩
  simp only [handleMessage, bind_eq_ok, require_eq_ok, pure_eq_ok]
  exact ⟨chunk, hfound, host, hhost, car, hcar, rfl⟩

theorem handleMessage_of_none {tree : ModuleTree Module}
    {findHostWithAddress : Address → Option Module} {now : Int} {srcAddr : Address}
    (hnone : decapsulate packet = none) :
    handleMessage tree findHostWithAddress now srcAddr packet = .error .nullPointer := by
  rw [handleMessage, hnone]
  rfl

/-- **The message is found iff** the layers leave one chunk behind it, or none around it. -/
theorem decapsulate_encapsulated_iff (tree : ModuleTree Module)
    (findHostWithAddress : Address → Option Module) {now : Int} {m : Message}
    (h : run layerStep events (encapsulate now m) = .ok packet) :
    Returned tree findHostWithAddress ⟨m, now⟩ packet ↔
      (layersOf events).trailers = 1 ∨ layersOf events = ⟨0, 0⟩ := by
  have hdecapsulate := decapsulate_of_laidOut (laidOut_run h)
  constructor
  · rintro ⟨hfound, -⟩
    by_contra hbad
    rw [if_neg hbad, hfound] at hdecapsulate
    cases hdecapsulate
  · intro hgood
    rw [if_pos hgood] at hdecapsulate
    exact handleMessage_of_found hdecapsulate

end

/-! ## A message in a car -/

/-- A header before the message and a trailer behind it, after another header has been removed. -/
theorem decapsulate_between :
    Returned carNetwork.tree (fun _ : Unit => some 2) ⟨"beacon", 0⟩
      [.other "udp", .cPacketChunk ⟨"beacon", 0⟩, .other "fcs"] := by
  have hrun : run layerStep [.insertAtFront "udp", .insertAtFront "ip", .insertAtBack "fcs",
      .removeAt 0] (encapsulate 0 "beacon") =
        .ok [.other "udp", .cPacketChunk ⟨"beacon", 0⟩, .other "fcs"] := rfl
  exact (decapsulate_encapsulated_iff carNetwork.tree (fun _ : Unit => some 2) hrun).mpr (.inl rfl)

/-- A header alone is taken for the message. -/
theorem header_taken_for_message :
    run layerStep [.insertAtFront "udp"] (encapsulate 0 "beacon") =
        .ok [.other "udp", .cPacketChunk ⟨"beacon", 0⟩] ∧
      decapsulate [.other "udp", Chunk.cPacketChunk ⟨"beacon", 0⟩] = none ∧
      handleMessage carNetwork.tree (fun _ : Unit => some 2) 0 ()
        [.other "udp", Chunk.cPacketChunk ⟨"beacon", 0⟩] = .error .nullPointer :=
  ⟨rfl, rfl, handleMessage_of_none rfl⟩

end CooperativeTsn
