import PortalNet.Session.Store

/-! # Runs of the session store

All that can happen to a store, one event after the other. Live sessions may be edited in any way
that leaves each its handle and its player. Handles are counted in 32 bits, so a store is reachable
by the runs that open fewer sessions than there are handles.
-/

namespace PortalNet

namespace Sample

def player : Uuid := ⟨.replicate 16 1⟩

def address : Address := ⟨.v4 (.replicate 4 127), 4000⟩

def world : World := ⟨⟨.replicate 16 2⟩, "world"⟩

def nether : World := ⟨⟨.replicate 16 3⟩, "nether"⟩

def worlds : Worlds := Worlds.load {} nether

def origin : Vec3 Double := ⟨.ofBits 0, .ofBits 0, .ofBits 0⟩

/-- Standing still at the origin. -/
def avatar : Avatar := ⟨world, ⟨origin, .ofBits 0, .ofBits 0, origin, false, false⟩⟩

/-- A request for the player to stand or fly at the origin. -/
def request (worldName : String) (flying : Bool) : TeleportRequest :=
  .ofMotion player none worldName { avatar.motion with flying }

end Sample

inductive StoreEvent where
  | connect (player : Uuid) (addr : Address) (spawn : Avatar) (worlds : Worlds) (now : Nat)
  | disconnect (handle : Handle)
  | teleport (request : TeleportRequest) (worlds : Worlds)
  | mirror (request : MirrorRequest)
  | edit (change : Handle → Session → Session)

/-- A change of one session. -/
def StoreEvent.modify (handle : Handle) (change : Session → Session) : StoreEvent :=
  .edit fun h x => if h = handle then change x else x

/-- The session `t` in the place of `s`. -/
def Session.become (s t : Session) : Session :=
  { t with handle := s.handle, player := s.player }

namespace Store

/-- The store with its sessions changed. -/
def revise (s : Store) (change : Handle → Session → Session) : Store :=
  { s with sessions := s.sessions.mapValues fun h x => x.become (change h x) }

def after (s : Store) : StoreEvent → Store
  | .connect player addr spawn ws now => (s.connect player addr spawn ws now).2
  | .disconnect handle => (s.disconnect handle).2
  | .teleport request ws => (s.teleport request ws).2
  | .mirror request => (s.mirror request).2
  | .edit change => s.revise change

def run (s : Store) (es : List StoreEvent) : Store :=
  es.foldl after s

def opens (s : Store) : StoreEvent → Bool
  | .connect player addr spawn ws now => (s.connect player addr spawn ws now).1.isSome
  | _ => false

/-- How many sessions a run opens. -/
def opened (s : Store) : List StoreEvent → Nat
  | [] => 0
  | e :: es => (s.opens e).toNat + (s.after e).opened es

/-- The first handle is one, and the last one can only be counted up to. -/
def handleLimit : Nat := 2 ^ 32 - 1

/-- The handles that are left suffice for a run. -/
def Lasts (s : Store) (es : List StoreEvent) : Prop :=
  s.nextHandle.toNat + s.opened es < 2 ^ 32

instance (s : Store) (es : List StoreEvent) : Decidable (s.Lasts es) :=
  inferInstanceAs (Decidable (_ < _))

def Reachable (s : Store) : Prop :=
  ∃ capacity es, (empty capacity).opened es < handleLimit ∧ s = (empty capacity).run es

variable {s : Store} {e : StoreEvent} {es fs : List StoreEvent}

@[simp] theorem run_nil : s.run [] = s := rfl

@[simp] theorem run_cons : s.run (e :: es) = (s.after e).run es := rfl

theorem run_append : s.run (es ++ fs) = (s.run es).run fs :=
  List.foldl_append ..

theorem opened_append : s.opened (es ++ fs) = s.opened es + (s.run es).opened fs := by
  induction es generalizing s with
  | nil => simp [opened]
  | cons e es ih => simp only [List.cons_append, opened, ih, run_cons, Nat.add_assoc]

theorem lasts_of_append (h : s.Lasts (es ++ fs)) : s.Lasts es := by
  unfold Lasts at h ⊢
  rw [opened_append] at h
  omega

theorem lasts_empty {capacity : Nat} (h : (empty capacity).opened es < handleLimit) :
    (empty capacity).Lasts es := by
  change 1 + (empty capacity).opened es < 2 ^ 32
  unfold handleLimit at h
  omega

end Store

end PortalNet
