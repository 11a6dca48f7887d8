import PortalNet.Portal.Archive
import PortalNet.Proofs.Json.Schema
import PortalNet.Proofs.Portal.Record
import PortalNet.Proofs.Session.Run

/-! # Records of other versions

What a record may be written like and still be the record of the same portal. A record without an
id is the record of the same portal under a new id, and without any of what was there from the
start it is no record.
-/

namespace PortalNet

open Json

variable {ms ms' : List (String × Json)}

namespace Size

variable {s : Size Double}

def schema : Schema (Size Double) where
  fields := [.required "width" Size.width rfl, .required "height" Size.height rfl]
  nodup := by decide

/-- What a size has to have. -/
def needed : List String :=
  ["width", "height"]

theorem needs : ∀ name ∈ needed, schema.Needs name := by
  unfold Schema.Needs
  decide

theorem read?_object : (Json.object ms).read? = some s ↔ schema.Reads ms s := by
  have hread : (Json.object ms).read? = ofJson? (.object ms) := rfl
  simp only [hread, ofJson?, fields?_object, List.mapM_cons, List.mapM_nil, member?_singleton,
    Option.pure_def, Option.bind_eq_bind, Option.bind_some, Option.bind_eq_some_iff,
    Option.some.injEq, Schema.Reads, schema, List.forall_mem_cons, RecordField.found_required]
  constructor
  · rintro ⟨_, hwidth, _, hheight, rfl⟩
    exact ⟨hwidth, hheight, List.forall_mem_nil _⟩
  · rintro ⟨hwidth, hheight, -⟩
    exact ⟨_, hwidth, _, hheight, rfl⟩

theorem distinct_toJson : s.toJson.Distinct :=
  .object (show ["width", "height"].Nodup by decide) <| by
    simp only [List.forall_mem_cons]
    exact ⟨.number _, .number _, List.forall_mem_nil _⟩

end Size

namespace Position

variable {p : Position}

def schema : Schema Position where
  fields := [
    .optional ["worldId"] worldId,
    .optional ["worldName"] worldName,
    .required "x" (·.frame.center.x) rfl,
    .required "y" (·.frame.center.y) rfl,
    .required "z" (·.frame.center.z) rfl,
    .required "direction" (·.frame.facing) rfl,
    .optional ["serverName"] server,
    .flag "lastPlayerPos" false lastPlayer]
  nodup := by decide

/-- What a position has to have. -/
def needed : List String :=
  ["x", "y", "z", "direction"]

theorem needs : ∀ name ∈ needed, schema.Needs name := by
  unfold Schema.Needs
  decide

theorem read?_object : (Json.object ms).read? = some p ↔ schema.Reads ms p := by
  have hread : (Json.object ms).read? = ofJson? (.object ms) := rfl
  simp only [hread, ofJson?, fields?_object, List.mapM_cons, List.mapM_nil, member?_singleton,
    Option.pure_def, Option.bind_eq_bind, Option.bind_some, Option.bind_eq_some_iff,
    Option.some.injEq, Schema.Reads, schema, List.forall_mem_cons, RecordField.found_required,
    RecordField.found_optional, RecordField.found_flag, exists_eq_left']
  constructor
  · rintro ⟨_, hid, _, hname, _, hx, _, hy, _, hz, _, hfacing, _, hserver, _, hlast, rfl⟩
    exact ⟨hid, hname, hx, hy, hz, hfacing, hserver, hlast, List.forall_mem_nil _⟩
  · rintro ⟨hid, hname, hx, hy, hz, hfacing, hserver, hlast, -⟩
    exact ⟨_, hid, _, hname, _, hx, _, hy, _, hz, _, hfacing, _, hserver, _, hlast, rfl⟩

theorem distinct_toJson : p.toJson.Distinct :=
  .object (show ["worldId", "worldName", "x", "y", "z", "direction", "serverName",
    "lastPlayerPos"].Nodup by decide) <| by
    simp only [List.forall_mem_cons]
    exact ⟨(legible_of_ids (n := 0) _).distinct, (legible_of_strings (n := 0) _).distinct,
      .number _, .number _, .number _, .string _, (legible_of_strings (n := 0) _).distinct,
      .bool _, List.forall_mem_nil _⟩

end Position

namespace Portal

variable {p : Portal} {fresh fresh' : Uuid}

/-- What is read of a portal, and the id for a portal that has none in its record. -/
def schema : Schema (Uuid × Portal) where
  fields := [
    .record "originPos" (·.2.origin.position) Position.schema rfl fun _ _ => Position.read?_object,
    .record "destPos" (·.2.dest.position) Position.schema rfl fun _ _ => Position.read?_object,
    .record "size" (·.2.size) Size.schema rfl fun _ _ => Size.read?_object,
    .required "anchored" (·.2.isCustom) rfl,
    .nullable ["id"] (fun id r => r.2.id = id.getD r.1),
    .flag "allowsNonPlayerTeleportation" true (·.2.allowsNonPlayers),
    .flag "relocatePlayer" true (·.2.relocatesPlayers),
    .optional ["owner", "ownerId"] (·.2.owner),
    .optional ["name"] (·.2.name)]
  nodup := by decide

/-- The paths to all that a record has to have, if no record in it is written as a list. -/
def needed : List (List String) :=
  ["originPos", "destPos", "size", "anchored"].map ([·]) ++
    Position.needed.map (["originPos", ·]) ++ Position.needed.map (["destPos", ·]) ++
    Size.needed.map (["size", ·])

theorem needs : ∀ name ∈ ["originPos", "destPos", "size", "anchored"], schema.Needs name := by
  unfold Schema.Needs
  decide

theorem ofJson?_object : ofJson? fresh (.object ms) = some p ↔
    p.restored = p ∧ schema.Reads ms (fresh, p) := by
  cases hmember : member? ["owner", "ownerId"] ms with
  | none => simp [ofJson?, fields?_object, Schema.Reads, schema, hmember]
  | some o =>
    simp only [ofJson?, fields?_object, List.mapM_cons, List.mapM_nil, member?_singleton, hmember,
      Option.pure_def, Option.bind_eq_bind, Option.bind_some, Option.bind_eq_some_iff,
      Option.some.injEq, Schema.Reads, schema, List.forall_mem_cons, RecordField.found_required,
      RecordField.found_optional, RecordField.found_flag, RecordField.found_record,
      RecordField.found_nullable, exists_eq_left']
    constructor
    · rintro ⟨_, horigin, _, hdest, id, hid, _, howner, _, hname, _, hsize, _, hcustom, _, hallows,
        _, hrelocates, rfl⟩
      exact ⟨rfl, horigin, hdest, hsize, hcustom, ⟨id, hid, rfl⟩, hallows, hrelocates, howner,
        hname, List.forall_mem_nil _⟩
    · rintro ⟨hp, horigin, hdest, hsize, hcustom, ⟨id, hid, hp'⟩, hallows, hrelocates, howner,
        hname, -⟩
      refine ⟨_, horigin, _, hdest, id, hid, _, howner, _, hname, _, hsize, _, hcustom, _, hallows,
        _, hrelocates, ?_⟩
      rw [← hp', ← hp]
      rfl

theorem distinct_toJson : p.toJson.Distinct :=
  .object (show ["originPos", "destPos", "size", "anchored", "id", "allowsNonPlayerTeleportation",
    "relocatePlayer", "owner", "name"].Nodup by decide) <| by
    simp only [List.forall_mem_cons]
    exact ⟨Position.distinct_toJson, Position.distinct_toJson, Size.distinct_toJson, .bool _,
      .string _, .bool _, .bool _, (legible_of_ids (n := 0) _).distinct,
      (legible_of_strings (n := 0) _).distinct, List.forall_mem_nil _⟩

theorem decode_eq_ok {j : Json} : decode fresh j = .ok p ↔ ofJson? fresh j = some p := by
  rw [decode]
  cases ofJson? fresh j with
  | none => exact ⟨nofun, nofun⟩
  | some q => exact ⟨fun h => congrArg some (Except.ok.inj h),
      fun h => congrArg Except.ok (Option.some.inj h)⟩

theorem decode_of_refuses {j : Json} (h : schema.Refuses j) :
    decode fresh j = .error .malformedRecord := by
  obtain ⟨ms, rfl, hrefuses⟩ := h
  rw [decode]
  cases hp : ofJson? fresh (.object ms) with
  | none => rfl
  | some p => exact absurd (ofJson?_object.1 hp).2 (hrefuses (fresh, p))

theorem ofJson?_dropId (h : ofJson? fresh (.object ms) = some p) :
    ofJson? fresh' ((Json.object ms).dropAt ["id"]) = some { p with id := fresh' } := by
  obtain ⟨hp, hreads⟩ := ofJson?_object.1 h
  have hid : find? "id" (ms.filter (·.1 ≠ "id")) = none := find?_filter.trans (if_pos rfl)
  have hothers : ∀ name, name ≠ "id" → find? name (ms.filter (·.1 ≠ "id")) = find? name ms :=
    fun name hname => find?_filter.trans (if_neg hname)
  have howner : member? ["owner", "ownerId"] (ms.filter (·.1 ≠ "id")) =
      member? ["owner", "ownerId"] ms :=
    member?_congr fun name hname => hothers name (ne_of_mem_of_not_mem hname (by decide))
  refine ofJson?_object.2 ⟨congrArg (fun q => { q with id := fresh' }) hp, ?_⟩
  generalize ms.filter (·.1 ≠ "id") = ms' at hid hothers howner
  simp only [Schema.Reads, schema, List.forall_mem_cons, RecordField.found_record,
    RecordField.found_required, RecordField.found_nullable, RecordField.found_flag,
    RecordField.found_optional, member?_singleton] at hreads ⊢
  simp only [hid, howner, hothers, ne_eq, String.reduceEq, not_false_eq_true]
  obtain ⟨horigin, hdest, hsize, hcustom, -, hallows, hrelocates, howner', hname, -⟩ := hreads
  exact ⟨horigin, hdest, hsize, hcustom, ⟨_, rfl, none, rfl, rfl⟩, hallows, hrelocates, howner',
    hname, List.forall_mem_nil _⟩

theorem refuses_dropAt {path : List String} (hpath : path ∈ needed)
    (hobjects : ∀ name ∈ ["originPos", "destPos", "size"],
      ∃ is, find? name ms = some (.object is)) :
    schema.Refuses ((Json.object ms).dropAt path) := by
  simp only [needed, List.mem_append, List.mem_map] at hpath
  rcases hpath with ((⟨name, hname, rfl⟩ | ⟨key, hkey, rfl⟩) | ⟨key, hkey, rfl⟩) | ⟨key, hkey, rfl⟩
  · exact (needs name hname).refuses
  · obtain ⟨is, his⟩ := hobjects "originPos" (by decide)
    exact (Position.needs key hkey).refuses.outer (.head _) his
  · obtain ⟨is, his⟩ := hobjects "destPos" (by decide)
    exact (Position.needs key hkey).refuses.outer (.tail _ (.head _)) his
  · obtain ⟨is, his⟩ := hobjects "size" (by decide)
    exact (Size.needs key hkey).refuses.outer (.tail _ (.tail _ (.head _))) his

/-- A record that can be read is read as the same portal however its members are ordered, whatever
other members there are, without those that say what their lack says, and with any name of the
owner. Without an id it is read as the same portal under a new one, and without anything else that
the records of all versions have it is not read. -/
theorem decode_tolerant (hms : (Json.object ms).Distinct)
    (hp : decode fresh (.object ms) = .ok p) :
    (∀ ms', schema.Alike ms ms' →
      (Json.object ms').Distinct ∧ decode fresh (.object ms') = .ok p) ∧
    (∀ fresh', decode fresh' ((Json.object ms).dropAt ["id"]) = .ok { p with id := fresh' }) ∧
    ((∀ name ∈ ["originPos", "destPos", "size"], ∃ is, find? name ms = some (.object is)) →
      ∀ path ∈ needed, ∀ fresh',
        decode fresh' ((Json.object ms).dropAt path) = .error .malformedRecord) := by
  rw [decode_eq_ok] at hp
  refine ⟨fun ms' h => ?_, fun fresh' => decode_eq_ok.2 (ofJson?_dropId hp),
    fun hobjects path hpath fresh' => decode_of_refuses (refuses_dropAt hpath hobjects)⟩
  obtain ⟨hrestored, hreads⟩ := ofJson?_object.1 hp
  obtain ⟨hdistinct, hkept⟩ := h.reads hms
  exact ⟨hdistinct, decode_eq_ok.2 (ofJson?_object.2 ⟨hrestored, hkept _ hreads⟩)⟩

end Portal

/-- No record of a file has two members of one name. -/
theorem Archive.distinct_of_values? {text : String} {js : List Json} (h : values? text = some js) :
    ∀ j ∈ js, j.Distinct := by
  unfold values? at h
  simp only [Option.bind_eq_bind, Option.bind_eq_some_iff, Option.ite_none_right_eq_some] at h
  obtain ⟨source, -, items, -, -, h⟩ := h
  exact Source.distinct_values? h

namespace Sample

def stairway : Portal where
  id := ⟨.replicate 16 5⟩
  owner := player
  origin := { position := .ofLocation ⟨world, origin⟩ .north }
  dest := { position := .ofLocation ⟨nether, origin⟩ .east }
  size := ⟨(2 : Int), (3 : Int)⟩
  isCustom := true

/-- The record backwards, without the name, with the owner under the older key and with a note. -/
def olderStairway : List (String × Json) := [
  ("note", .string "moved"),
  ("ownerId", .of stairway.owner),
  ("relocatePlayer", .of stairway.relocatesPlayers),
  ("allowsNonPlayerTeleportation", .of stairway.allowsNonPlayers),
  ("id", .of stairway.id),
  ("anchored", .of stairway.isCustom),
  ("size", .of stairway.size),
  ("destPos", .of stairway.dest.position),
  ("originPos", .of stairway.origin.position)]

end Sample

open Sample in
theorem older_stairway_read :
    (Json.object olderStairway).Distinct ∧
    Portal.decode nether.id (.object olderStairway) = .ok stairway ∧
    Portal.decode nether.id ((Json.object olderStairway).dropAt ["id"]) =
      .ok { stairway with id := nether.id } ∧
    Portal.decode nether.id ((Json.object olderStairway).dropAt ["originPos", "x"]) =
      .error .malformedRecord := by
  have hstairway : Portal.decode nether.id stairway.toJson = .ok stairway :=
    Portal.decode_eq_ok.2 Portal.ofJson?_toJson
  have hname : .optional ["name"] (·.2.name) ∈ Portal.schema.fields := by simp [Portal.schema]
  have howner : .optional ["owner", "ownerId"] (·.2.owner) ∈ Portal.schema.fields := by
    simp [Portal.schema]
  obtain ⟨hread, -⟩ := Portal.decode_tolerant Portal.distinct_toJson hstairway
  obtain ⟨hdistinct, hdecode⟩ := hread olderStairway <|
    .trans (.reorder (List.reverse_perm _).symm) <| .trans (.drop hname (.head _) rfl) <|
      .trans (.rename howner (.head _) (.tail _ (.head _)) (by decide)) <|
      .add (by decide) (by decide) (.string _)
  obtain ⟨-, hid, hneeded⟩ := Portal.decode_tolerant hdistinct hdecode
  have hobjects : ∀ name ∈ ["originPos", "destPos", "size"],
      ∃ is, find? name olderStairway = some (.object is) := by
    simp only [List.forall_mem_cons]
    exact ⟨⟨_, rfl⟩, ⟨_, rfl⟩, ⟨_, rfl⟩, List.forall_mem_nil _⟩
  exact ⟨hdistinct, hdecode, hid _, hneeded hobjects _ (by decide) _⟩

end PortalNet
