import PortalNet.Proofs.Wire.Codec
import PortalNet.Wire.Packet

/-! # Packets are read back exactly

Every codec of a packet is exact as long as the count in front of each text can tell its length.
So no packet is the beginning of another, and each has only one form.
-/

namespace PortalNet

/-- A count of eight bytes can tell how long the text is, as it can for all that fit in memory. -/
def Fits (text : String) : Prop :=
  text.utf8ByteSize < 2 ^ 64

instance (text : String) : Decidable (Fits text) :=
  inferInstanceAs (Decidable (_ < _))

def Position.texts (p : Position) : List String :=
  p.worldName.toList ++ p.server.toList

def Command.texts : Command → List String
  | .rename name => name.toList
  | _ => []

def RelayMessage.texts : RelayMessage → List String
  | .teleport r => [r.worldName]
  | .mirrorSelection r => r.selection.position.texts
  | .getSelection .. => []
  | .selectionResponse _ _ selection => selection.toList.flatMap (·.position.texts)

def Packet.texts : Packet → List String
  | .command c => c.texts
  | .joined worldName _ | .teleported worldName _ => [worldName]
  | .transfer server | .register _ server | .switchServer _ server => [server]
  | .commandResult _ message => [message]
  | .disconnected reason => [reason]
  | .forward server message | .deliver server message => server :: message.texts
  | _ => []

namespace Codec

theorem exact_uint32 : uint32.Exact fun _ => True := by
  apply ((exact_nat 4).map _ _).congr
  · exact fun n => iff_of_true trivial n.toNat_lt
  · exact fun _ => UInt32.ofNat_toNat
  · exact fun _ h => UInt32.toNat_ofNat_of_lt' h

theorem exact_uint64 : uint64.Exact fun _ => True := by
  apply ((exact_nat 8).map _ _).congr
  · exact fun n => iff_of_true trivial n.toNat_lt
  · exact fun _ => UInt64.ofNat_toNat
  · exact fun _ h => UInt64.toNat_ofNat_of_lt' h

theorem exact_int32 : int32.Exact fun _ => True := by
  apply ((exact_nat 4).map _ _).congr
  · exact fun n => iff_of_true trivial n.toBitVec.isLt
  · exact fun n => congrArg Int32.ofBitVec (BitVec.ofNat_toNat ..)
  · exact fun n h => BitVec.toNat_ofNat .. |>.trans (Nat.mod_eq_of_lt h)

theorem exact_double : double.Exact fun _ => True := by
  apply ((exact_nat 8).map _ _).congr
  · exact fun x => iff_of_true trivial x.word.isLt
  · exact fun x => congrArg Floating.mk (BitVec.ofNat_toNat ..)
  · exact fun n h => BitVec.toNat_ofNat .. |>.trans (Nat.mod_eq_of_lt h)

theorem exact_single : single.Exact fun _ => True := by
  apply ((exact_nat 4).map _ _).congr
  · exact fun x => iff_of_true trivial x.word.isLt
  · exact fun x => congrArg Floating.mk (BitVec.ofNat_toNat ..)
  · exact fun n h => BitVec.toNat_ofNat .. |>.trans (Nat.mod_eq_of_lt h)

theorem exact_bool : bool.Exact fun _ => True := by
  apply ((exact_nat 1).refine _ _).congr
  · exact fun b => iff_of_true trivial (Nat.lt_of_lt_of_le b.toNat_lt (by decide))
  · exact fun b => by cases b <;> rfl
  · intro n b h
    split at h
    · cases h; exact (by assumption : n = 0).symm
    · split at h
      · cases h; exact (by assumption : n = 1).symm
      · cases h

theorem exact_string : string.Exact Fits := by
  apply (exact_blob.refine _ _).congr
  · exact fun _ => Iff.rfl
  · exact fun text => dif_pos text.isValidUTF8
  · intro bytes text h
    rw [String.fromUTF8?] at h
    split at h
    · cases h; rfl
    · cases h

theorem exact_uuid : uuid.Exact fun _ => True := by
  apply (exact_blob.refine _ _).congr
  · exact fun id => iff_of_true trivial (by rw [Uuid.length_toBytes]; decide)
  · exact Uuid.ofBytes?_toBytes
  · exact fun _ _ => Uuid.toBytes_of_ofBytes?

theorem complete_direction :
    Arm.Complete (Direction.all.map fun d => Arm.constant d (· = d)) where
  lawful := by
    intro arm harm
    obtain ⟨d, -, rfl⟩ := List.mem_map.1 harm
    exact Arm.lawful_constant fun _ => decide_eq_true_iff
  apart := by simp [Direction.all, Arm.constant]
  covers d := ⟨_, List.mem_map.2 ⟨d, by cases d <;> simp [Direction.all], rfl⟩,
    by simp [Arm.constant]⟩
  length_le := by decide

theorem exact_direction : direction.Exact fun _ => True := by
  apply complete_direction.exact_union
  intro arm harm
  obtain ⟨d, -, rfl⟩ := List.mem_map.1 harm
  exact exact_unit

/-! A value of several parts is read back part by part. -/

theorem exact_vec3 : vec3.Exact fun _ => True := by
  apply ((exact_double.pair (exact_double.pair exact_double)).map _ _).congr
  · simp
  · exact fun _ => rfl
  · exact fun _ _ => rfl

theorem exact_block : block.Exact fun _ => True := by
  apply ((exact_int32.pair (exact_int32.pair exact_int32)).map _ _).congr
  · simp
  · exact fun _ => rfl
  · exact fun _ _ => rfl

theorem exact_size : size.Exact fun _ => True := by
  apply ((exact_double.pair exact_double).map _ _).congr
  · simp
  · exact fun _ => rfl
  · exact fun _ _ => rfl

theorem exact_motion : motion.Exact fun _ => True := by
  apply ((exact_vec3.pair (exact_single.pair (exact_single.pair
    (exact_vec3.pair (exact_bool.pair exact_bool))))).map _ _).congr
  · simp
  · exact fun _ => rfl
  · exact fun _ _ => rfl

theorem exact_frame : frame.Exact fun _ => True := by
  apply ((exact_vec3.pair exact_direction).map _ _).congr
  · simp
  · exact fun _ => rfl
  · exact fun _ _ => rfl

theorem exact_position : position.Exact fun p => ∀ text ∈ p.texts, Fits text := by
  apply ((exact_uuid.option.pair (exact_string.option.pair (exact_frame.pair
    (exact_string.option.pair exact_bool)))).map _ _).congr
  · intro p
    simp [Position.texts, or_imp, forall_and]
  · exact fun _ => rfl
  · exact fun _ _ => rfl

theorem exact_externalSelection :
    externalSelection.Exact fun s => ∀ text ∈ s.position.texts, Fits text := by
  apply ((exact_position.pair exact_size).map _ _).congr
  · simp
  · exact fun _ => rfl
  · exact fun _ _ => rfl

theorem exact_teleportRequest : teleportRequest.Exact fun r => Fits r.worldName := by
  apply ((exact_uuid.pair (exact_uuid.option.pair (exact_string.pair (exact_vec3.pair
    (exact_single.pair (exact_single.pair (exact_vec3.pair
      (exact_bool.pair exact_bool)))))))).map _ _).congr
  · simp
  · exact fun _ => rfl
  · exact fun _ _ => rfl

theorem exact_mirrorRequest :
    mirrorRequest.Exact fun r => ∀ text ∈ r.selection.position.texts, Fits text := by
  apply ((exact_uuid.pair exact_externalSelection).map _ _).congr
  · simp
  · exact fun _ => rfl
  · exact fun _ _ => rfl

/-! A value of several variants is read back by the arm of its variant. -/

theorem exact_command : command.Exact fun c => ∀ text ∈ c.texts, Fits text := by
  apply Arm.Complete.exact_union
  · constructor
    · simp only [List.forall_mem_cons, List.not_mem_nil, false_imp_iff, implies_true, and_true]
      refine ⟨⟨fun _ => rfl, ?_⟩, Arm.lawful_constant fun _ => decide_eq_true_iff,
        Arm.lawful_constant fun _ => decide_eq_true_iff, ⟨fun _ => rfl, ?_⟩, ⟨fun _ => rfl, ?_⟩,
        ⟨fun _ => rfl, ?_⟩, ⟨fun _ => rfl, ?_⟩, ⟨fun _ => rfl, ?_⟩, ⟨fun _ => rfl, ?_⟩⟩
      all_goals
        intro c _ h
        cases c <;> cases h
        rfl
    · simp [Arm.constant]
    · intro c
      cases c <;> simp [Arm.constant]
    · decide
  · simp only [List.forall_mem_cons, List.not_mem_nil, false_imp_iff, implies_true, and_true]
    refine ⟨(exact_bool.pair exact_block).congr ?_, exact_unit.congr ?_, exact_unit.congr ?_,
      (exact_bool.pair exact_bool).congr ?_, exact_bool.congr ?_, exact_bool.congr ?_,
      exact_string.option.congr ?_, exact_bool.congr ?_, exact_bool.congr ?_⟩
    all_goals simp [Command.texts, Arm.constant]

theorem exact_relayMessage : relayMessage.Exact fun m => ∀ text ∈ m.texts, Fits text := by
  apply Arm.Complete.exact_union
  · constructor
    · simp only [List.forall_mem_cons, List.not_mem_nil, false_imp_iff, implies_true, and_true]
      refine ⟨⟨fun _ => rfl, ?_⟩, ⟨fun _ => rfl, ?_⟩, ⟨fun _ => rfl, ?_⟩, ⟨fun _ => rfl, ?_⟩⟩
      all_goals
        intro m _ h
        cases m <;> cases h
        rfl
    · simp
    · intro m
      cases m <;> simp
    · decide
  · simp only [List.forall_mem_cons, List.not_mem_nil, false_imp_iff, implies_true, and_true]
    refine ⟨exact_teleportRequest.congr ?_, exact_mirrorRequest.congr ?_,
      (exact_uint64.pair exact_uuid).congr ?_,
      (exact_uint64.pair (exact_uuid.pair exact_externalSelection.option)).congr ?_⟩
    · simp [RelayMessage.texts]
    · simp [RelayMessage.texts]
    · simp [RelayMessage.texts]
    · rintro ⟨_, _, selection⟩
      cases selection <;> simp [RelayMessage.texts]

theorem exact_packet : packet.Exact fun p => ∀ text ∈ p.texts, Fits text := by
  apply Arm.Complete.exact_union
  · constructor
    · simp only [List.forall_mem_cons, List.not_mem_nil, false_imp_iff, implies_true, and_true]
      refine ⟨⟨fun _ => rfl, ?_⟩, ⟨fun _ => rfl, ?_⟩, ⟨fun _ => rfl, ?_⟩,
        Arm.lawful_constant fun _ => decide_eq_true_iff, ⟨fun _ => rfl, ?_⟩, ⟨fun _ => rfl, ?_⟩,
        ⟨fun _ => rfl, ?_⟩, ⟨fun _ => rfl, ?_⟩, ⟨fun _ => rfl, ?_⟩, ⟨fun _ => rfl, ?_⟩,
        Arm.lawful_constant fun _ => decide_eq_true_iff,
        Arm.lawful_constant fun _ => decide_eq_true_iff, ⟨fun _ => rfl, ?_⟩, ⟨fun _ => rfl, ?_⟩,
        ⟨fun _ => rfl, ?_⟩, Arm.lawful_constant fun _ => decide_eq_true_iff⟩
      all_goals
        intro p _ h
        cases p <;> cases h
        rfl
    · simp [Arm.constant]
    · intro p
      cases p <;> simp [Arm.constant]
    · decide
  · simp only [List.forall_mem_cons, List.not_mem_nil, false_imp_iff, implies_true, and_true]
    refine ⟨(exact_uint32.pair exact_uuid).congr ?_, exact_motion.congr ?_, exact_command.congr ?_,
      exact_unit.congr ?_, (exact_string.pair exact_motion).congr ?_,
      (exact_string.pair exact_motion).congr ?_, exact_string.congr ?_,
      (exact_bool.pair exact_string).congr ?_, exact_string.congr ?_,
      (exact_uint32.pair exact_string).congr ?_, exact_unit.congr ?_, exact_unit.congr ?_,
      (exact_string.pair exact_relayMessage).congr ?_,
      (exact_string.pair exact_relayMessage).congr ?_, (exact_uuid.pair exact_string).congr ?_,
      exact_unit.congr ?_⟩
    all_goals simp [Packet.texts, Arm.constant]

end Codec

namespace Packet

variable {p q : Packet} {bytes : List UInt8}

theorem decode_append (h : ∀ text ∈ p.texts, Fits text) (suffix : List UInt8) :
    decode (p.encode ++ suffix) = .ok p := by
  have hread : Codec.packet.read (p.encode ++ suffix) = .ok (p, suffix) :=
    Codec.exact_packet.read_write p suffix h
  simp only [decode, hread, Except.map]

theorem decode_part (h : ∀ text ∈ p.texts, Fits text) (hpart : bytes <+: p.encode)
    (hne : bytes ≠ p.encode) : decode bytes = .error .endOfInput := by
  obtain ⟨missing, hp⟩ := hpart
  cases missing with
  | nil => exact absurd (by simpa using hp) hne
  | cons b more =>
    simp only [decode, Codec.exact_packet.read_cut p bytes b more h hp.symm, Except.map]

theorem encode_of_decode (h : decode bytes = .ok p) :
    (∀ text ∈ p.texts, Fits text) ∧ p.encode <+: bytes := by
  unfold decode at h
  cases hread : Codec.packet.read bytes with
  | error e => simp [hread, Except.map] at h
  | ok found =>
    obtain ⟨p', rest⟩ := found
    simp only [hread, Except.map, Except.ok.injEq] at h
    subst h
    obtain ⟨hfits, rfl⟩ := Codec.exact_packet.write_read bytes p' rest hread
    exact ⟨hfits, rest, rfl⟩

theorem eq_of_encode_prefix (hp : ∀ text ∈ p.texts, Fits text) (hq : ∀ text ∈ q.texts, Fits text)
    (h : p.encode <+: q.encode) : p = q := by
  obtain ⟨suffix, hsuffix⟩ := h
  have hdecode := decode_append hq []
  rw [List.append_nil, ← hsuffix, decode_append hp suffix] at hdecode
  exact Except.ok.inj hdecode

/-- Whatever stands behind a packet is left alone, a part of it only asks for more bytes, and what
is read as a packet begins with the form of this packet; no packet begins another one. -/
theorem exactly_encoded :
    (∀ p : Packet, (∀ text ∈ p.texts, Fits text) →
      (∀ suffix, decode (p.encode ++ suffix) = .ok p) ∧
      ∀ bytes, bytes <+: p.encode → bytes ≠ p.encode → decode bytes = .error .endOfInput) ∧
    (∀ bytes p, decode bytes = .ok p → (∀ text ∈ p.texts, Fits text) ∧ p.encode <+: bytes) ∧
    ∀ p q : Packet, (∀ text ∈ p.texts, Fits text) → (∀ text ∈ q.texts, Fits text) →
      p.encode <+: q.encode → p = q := by
  refine ⟨?_, ?_, ?_⟩
  · intro p h
    exact ⟨decode_append h, fun _ => decode_part h⟩
  · exact fun _ _ => encode_of_decode
  · exact fun _ _ => eq_of_encode_prefix

/-- A selection at a place that is no number, handed on to another server. -/
def sampleDelivery : Packet :=
  .deliver "süd" (.selectionResponse 7 (.version4 1)
    (some ⟨.external ⟨⟨.nan, (64 : Int), .infinite true⟩, .west⟩ "lobby" "" true,
      ⟨(2 : Int), (3 : Int)⟩⟩))

theorem sampleDelivery_encoded :
    (∀ text ∈ sampleDelivery.texts, Fits text) ∧
    decode (sampleDelivery.encode ++ [255]) = .ok sampleDelivery ∧
    decode sampleDelivery.encode.dropLast = .error .endOfInput ∧
    (∀ q : Packet, (∀ text ∈ q.texts, Fits text) → sampleDelivery.encode <+: q.encode →
      sampleDelivery = q) := by
  have hfits : ∀ text ∈ sampleDelivery.texts, Fits text := by decide
  have h := exactly_encoded.1 sampleDelivery hfits
  have hne : sampleDelivery.encode.dropLast ≠ sampleDelivery.encode := by
    intro he
    have hlength := congrArg List.length he
    have hpos : 0 < sampleDelivery.encode.length := by decide +kernel
    rw [List.length_dropLast] at hlength
    omega
  exact ⟨hfits, h.1 [255], h.2 _ (List.dropLast_prefix _) hne,
    fun q hq => exactly_encoded.2.2 _ q hfits hq⟩

end Packet

end PortalNet
