import PortalNet.Address
import PortalNet.Table

/-! # The directory of the relay

Which server is reachable at which address. A name stands for one address, and an address for one
name: registering either anew drops what stood there before.
-/

namespace PortalNet

structure Member where
  name : String
  addr : Address
  /-- When a packet came last. -/
  lastSeen : Nat
  deriving DecidableEq

def Member.isSilent (m : Member) (now limit : Nat) : Bool :=
  limit < now - m.lastSeen

structure Directory where
  members : Table String Member := ∅

namespace Directory

def get? (d : Directory) (name : String) : Option Member :=
  d.members.get? name

def addressOf? (d : Directory) (name : String) : Option Address :=
  (d.get? name).map (·.addr)

def nameAt? (d : Directory) (addr : Address) : Option String :=
  (d.members.values.find? (·.addr = addr)).map (·.name)

/-- Answers whether the name was known. -/
def deregister (d : Directory) (name : String) : Bool × Directory :=
  (d.members.contains name, ⟨d.members.erase name⟩)

/-- Answers the address from which the name moved, if it did. -/
def register (d : Directory) (name : String) (addr : Address) (now : Nat) :
    Option Address × Directory :=
  let d := match d.nameAt? addr with
    | some previous => if previous = name then d else (d.deregister previous).2
    | none => d
  ((d.addressOf? name).filter (· ≠ addr), ⟨d.members.insert name ⟨name, addr, now⟩⟩)

/-- Notes that the server at an address is alive, and answers whether there is one. -/
def heartbeat (d : Directory) (addr : Address) (now : Nat) : Bool × Directory :=
  match d.nameAt? addr with
  | some name => (true, ⟨d.members.modify name ({ · with lastSeen := now })⟩)
  | none => (false, d)

/-- Removes the servers that have been silent for longer than the limit and answers their names. -/
def evict (d : Directory) (now limit : Nat) : List String × Directory :=
  ((d.members.values.filter (·.isSilent now limit)).map (·.name),
    ⟨d.members.filter fun _ m => !m.isSilent now limit⟩)

/-- Names and addresses of all servers. -/
def all (d : Directory) : List (String × Address) :=
  d.members.values.map fun m => (m.name, m.addr)

end Directory

end PortalNet
