import PortalNet.Proofs.Relay.Names
import PortalNet.Proofs.Relay.Answers

/-! # What the relay makes of a packet

A packet makes the relay send at most one. A message reaches whoever it is meant for, at the address
where they are registered, in the name of whoever sent it; only the question that follows a switch
goes back to the sender, in the name of the server that the player goes to. To a stranger the relay
says that they are not registered, and does nothing else.
-/

namespace PortalNet

/-- The number of the question that a message answers. -/
def RelayMessage.responseId? : RelayMessage → Option UInt64
  | .selectionResponse id _ _ => some id
  | _ => none

namespace Relay

/-- A packet of the server `sender` becomes a message for the server `intended`, in the name of
`source`. -/
inductive Conveys (r : Relay) (sender : String) :
    Packet → (source : String) → RelayMessage → (intended : String) → Prop where
  | forwarded {target : String} {message : RelayMessage}
      (h : ∀ id, message.responseId? = some id → r.lookups.get? id = none) :
      Conveys r sender (.forward target message) sender message target
  | answered {target : String} {id : UInt64} {player : Uuid} {e : ExternalSelection} {k : Lookup}
      (h : r.lookups.get? id = some k) :
      Conveys r sender (.forward target (.selectionResponse id player (some e)))
        sender (.mirrorSelection ⟨player, e⟩) k.target
  | asked {player : Uuid} {target : String} :
      Conveys r sender (.switchServer player target)
        target (.getSelection r.nextRequest player) sender

/-- What comes of a response that `sender` forwards to `target`. -/
inductive Responds (r : Relay) (sender target : String) (id : UInt64) (player : Uuid)
    (selection : Option ExternalSelection) (out : Relay × List Letter) : Prop where
  | unchanged (lookup : r.lookups.get? id = none) (lookups : out.1.lookups = r.lookups)
      (sent : out.2 = (r.directory.addressOf? target).toList.map
        (·, .deliver sender (.selectionResponse id player selection)))
  | rewritten (k : Lookup) (lookup : r.lookups.get? id = some k)
      (lookups : out.1.lookups = r.lookups.erase id)
      (sent : out.2 = selection.toList.flatMap fun e =>
        (r.directory.addressOf? k.target).toList.map
          (·, .deliver sender (.mirrorSelection ⟨player, e⟩)))

/-- What comes of a packet from an address. -/
structure Dispatched (r : Relay) (packet : Packet) (addr : Address) (out : Relay × List Letter) :
    Prop where
  single : out.2.length ≤ 1
  stranger : (∀ n, r.directory.addressOf? n ≠ some addr) →
    (∀ version name, packet ≠ .register version name) → out = (r, [(addr, .notice)])
  delivered : ∀ a source message, (a, .deliver source message) ∈ out.2 →
    ∃ sender intended, (∀ n, r.directory.addressOf? n = some addr ↔ n = sender) ∧
      r.Conveys sender packet source message intended ∧ r.directory.addressOf? intended = some a
  /-- What is forwarded to nobody and answers no lookup is dropped. -/
  dropped : ∀ target message, packet = .forward target message →
    (∃ n, r.directory.addressOf? n = some addr) → r.directory.addressOf? target = none →
    (∀ id, message.responseId? = some id → r.lookups.get? id = none) → out.2 = []
  forwarded : ∀ sender target message a, packet = .forward target message →
    r.directory.addressOf? sender = some addr → r.directory.addressOf? target = some a →
    message.responseId? = none → out.2 = [(a, .deliver sender message)]
  response : ∀ sender target id player selection,
    packet = .forward target (.selectionResponse id player selection) →
    r.directory.addressOf? sender = some addr →
    r.Responds sender target id player selection out

section dispatch

variable {r : Relay} {addr a : Address} {now : Nat} {sender source target intended : String}
  {message : RelayMessage} {packet : Packet}

theorem length_deliver_le : (r.deliver source target message).length ≤ 1 := by
  rw [deliver_eq, List.length_map]
  cases r.directory.addressOf? target <;> simp

theorem receive_stranger (hname : r.directory.nameAt? addr = none)
    (hpacket : ∀ version name, packet ≠ .register version name) (now : Nat) :
    r.receive packet addr now = (r, [(addr, .notice)]) := by
  have hbeat : (r.directory.heartbeat addr now).2 = r.directory := by
    simp only [Directory.heartbeat, hname]
  cases packet with
  | register version name => exact absurd rfl (hpacket version name)
  | _ => simp only [receive, hbeat, hname]

/-- What is forwarded goes where it is addressed to, unless it answers a lookup. -/
theorem receive_forward_cases (hname : r.directory.nameAt? addr = some sender) (target : String)
    (message : RelayMessage) (now : Nat) :
    ((∀ id, message.responseId? = some id → r.lookups.get? id = none) ∧
      r.receive (.forward target message) addr now =
        ({ r with directory := (r.directory.heartbeat addr now).2 },
          r.deliver sender target message)) ∨
    ∃ id player selection k, message = .selectionResponse id player selection ∧
      r.lookups.get? id = some k ∧
      r.receive (.forward target message) addr now =
        ({ r with
            directory := (r.directory.heartbeat addr now).2
            lookups := r.lookups.erase id },
          selection.toList.flatMap fun e =>
            r.deliver sender k.target (.mirrorSelection ⟨player, e⟩)) := by
  cases message with
  | selectionResponse id player selection =>
    cases hk : r.lookups.get? id with
    | none =>
      refine .inl ⟨?_, receive_response_of_none hname hk⟩
      rintro _ ⟨⟩
      exact hk
    | some k => exact .inr ⟨id, player, selection, k, rfl, hk, receive_response_of_some hname hk⟩
  | _ =>
    refine .inl ⟨by rintro id ⟨⟩, ?_⟩
    rw [receive_forward hname]
    simp only [forward, deliver_heartbeat]

theorem forward_sent (hname : r.directory.nameAt? addr = some sender)
    (hno : ∀ id, message.responseId? = some id → r.lookups.get? id = none) (target : String)
    (now : Nat) : (r.receive (.forward target message) addr now).2 =
      (r.directory.addressOf? target).toList.map (·, .deliver sender message) := by
  obtain ⟨-, hout⟩ | ⟨id, player, selection, k, rfl, hk, -⟩ :=
    receive_forward_cases hname target message now
  · rw [hout, deliver_eq]
  · cases (hno id rfl).symm.trans hk

theorem receive_switch_of_not_has (hname : r.directory.nameAt? addr = some sender)
    (htarget : ¬ r.directory.Has target) (player : Uuid) (now : Nat) :
    (r.receive (.switchServer player target) addr now).2 = [] := by
  have hnone : (r.directory.heartbeat addr now).2.get? target = none :=
    Option.not_isSome_iff_eq_none.1 fun h => htarget (Directory.has_heartbeat_iff.1 h)
  simp only [receive, Directory.nameAt?_heartbeat, hname, receiveFrom, switch, hnone]

/-- Only what is forwarded and the request for a switch make the relay send anything to a server. -/
theorem receive_quiet (hname : r.directory.nameAt? addr = some sender)
    (hregister : ∀ version name, packet ≠ .register version name)
    (hforward : ∀ target message, packet ≠ .forward target message)
    (hswitch : ∀ player target, packet ≠ .switchServer player target) (now : Nat) :
    (r.receive packet addr now).2 = [] := by
  cases packet with
  | register version name => exact absurd rfl (hregister version name)
  | forward target message => exact absurd rfl (hforward target message)
  | switchServer player target => exact absurd rfl (hswitch player target)
  | _ => simp only [receive, Directory.nameAt?_heartbeat, hname, receiveFrom]

/-- Whatever is sent to another server was conveyed to it. -/
theorem conveys_of_mem (hname : r.directory.nameAt? addr = some sender)
    (haddr : r.directory.addressOf? sender = some addr)
    (hregister : ∀ version name, packet ≠ .register version name)
    (h : (a, .deliver source message) ∈ (r.receive packet addr now).2) :
    ∃ intended, r.Conveys sender packet source message intended ∧
      r.directory.addressOf? intended = some a := by
  cases packet with
  | forward target message' =>
    obtain ⟨hno, hout⟩ | ⟨id, player, selection, k, rfl, hk, hout⟩ :=
      receive_forward_cases hname target message' now <;> rw [hout] at h
    · obtain ⟨ha, hpacket⟩ := mem_deliver_iff.1 h
      cases hpacket
      exact ⟨target, .forwarded hno, ha⟩
    · obtain ⟨e, he, hm⟩ := List.mem_flatMap.1 h
      obtain rfl := Option.mem_toList.1 he
      obtain ⟨ha, hpacket⟩ := mem_deliver_iff.1 hm
      cases hpacket
      exact ⟨k.target, .answered hk, ha⟩
  | switchServer player target =>
    by_cases htarget : r.directory.Has target
    · rw [receive_switch hname htarget] at h
      cases List.mem_singleton.1 h
      exact ⟨sender, .asked, haddr⟩
    · rw [receive_switch_of_not_has hname htarget] at h
      cases h
  | _ =>
    rw [receive_quiet hname hregister (by simp) (by simp)] at h
    cases h

theorem length_receive_le (hname : r.directory.nameAt? addr = some sender)
    (hregister : ∀ version name, packet ≠ .register version name) (now : Nat) :
    (r.receive packet addr now).2.length ≤ 1 := by
  cases packet with
  | forward target message =>
    obtain ⟨-, hout⟩ | ⟨id, player, selection, k, rfl, -, hout⟩ :=
      receive_forward_cases hname target message now <;> rw [hout]
    · exact length_deliver_le
    · cases selection with
      | none => exact Nat.zero_le 1
      | some e => simpa using length_deliver_le
  | switchServer player target =>
    by_cases htarget : r.directory.Has target
    · rw [receive_switch hname htarget]
      exact Nat.le_refl 1
    · rw [receive_switch_of_not_has hname htarget]
      exact Nat.zero_le 1
  | _ =>
    rw [receive_quiet hname hregister (by simp) (by simp)]
    exact Nat.zero_le 1

theorem responds (hname : r.directory.nameAt? addr = some sender) (target : String) (id : UInt64)
    (player : Uuid) (selection : Option ExternalSelection) (now : Nat) :
    r.Responds sender target id player selection
      (r.receive (.forward target (.selectionResponse id player selection)) addr now) := by
  cases hk : r.lookups.get? id with
  | none =>
    rw [receive_response_of_none hname hk]
    exact .unchanged hk rfl deliver_eq
  | some k =>
    rw [receive_response_of_some hname hk]
    refine .rewritten k hk rfl ?_
    simp only [deliver_eq]

theorem register_sent (r : Relay) (version : UInt32) (name : String) (addr : Address) (now : Nat) :
    (r.register version name addr now).2 =
      if version ≠ protocolVersion then [] else [(addr, .registered)] := by
  unfold register
  split <;> rfl

theorem dispatched_register (version : UInt32) (name : String) (addr : Address) (now : Nat) :
    r.Dispatched (.register version name) addr
      (r.receive (.register version name) addr now) := by
  have hsent : (r.receive (.register version name) addr now).2 = _ :=
    r.register_sent version name addr now
  constructor
  · rw [hsent]
    split <;> simp
  · exact fun _ h => absurd rfl (h version name)
  · rw [hsent]
    split <;> simp
  · rintro target message ⟨⟩
  · rintro sender target message a ⟨⟩
  · rintro sender target id player selection ⟨⟩

/-- While names and addresses stand for each other every packet is dispatched. -/
theorem dispatched (hd : r.directory.OneToOne) (packet : Packet) (addr : Address) (now : Nat) :
    r.Dispatched packet addr (r.receive packet addr now) := by
  by_cases hregister : ∃ version name, packet = .register version name
  · obtain ⟨version, name, rfl⟩ := hregister
    exact dispatched_register version name addr now
  have hregister : ∀ version name, packet ≠ .register version name :=
    fun version name h => hregister ⟨version, name, h⟩
  cases hname : r.directory.nameAt? addr with
  | none =>
    have hno := hd.nameAt?_eq_none_iff.1 hname
    rw [receive_stranger hname hregister]
    refine ⟨Nat.le_refl 1, fun _ _ => rfl, by simp, ?_, ?_, ?_⟩
    · rintro target message - ⟨n, hn⟩
      exact absurd hn (hno n)
    · exact fun sender _ _ _ _ hsender => absurd hsender (hno sender)
    · exact fun sender _ _ _ _ _ hsender => absurd hsender (hno sender)
  | some sender =>
    have haddr := hd.nameAt?_eq_some_iff.1 hname
    have hsender : ∀ n, r.directory.addressOf? n = some addr ↔ n = sender :=
      fun n => hd.addressOf?_eq_some_iff haddr
    refine ⟨length_receive_le hname hregister now, fun hno => absurd haddr (hno sender), ?_,
      ?_, ?_, ?_⟩
    · intro a source message h
      obtain ⟨intended, hconveys, ha⟩ := conveys_of_mem hname haddr hregister h
      exact ⟨sender, intended, hsender, hconveys, ha⟩
    · rintro target message rfl - htarget hno
      rw [forward_sent hname hno, htarget]
      rfl
    · rintro n target message a rfl hn htarget hno
      obtain rfl := (hsender n).1 hn
      rw [forward_sent hname (by simp [hno]), htarget]
      rfl
    · rintro n target id player selection rfl hn
      obtain rfl := (hsender n).1 hn
      exact responds hname target id player selection now

end dispatch

/-- So it is with every packet, whatever came before. -/
theorem run_dispatched (steps : List RelayStep) (packet : Packet) (addr : Address) (now : Nat) :
    let r := ({} : Relay).run steps
    r.Dispatched packet addr (r.receive packet addr now) :=
  dispatched (oneToOne_run steps) packet addr now

end Relay

end PortalNet
