import PortalNet.Portal.Storage
import PortalNet.Registry.Basic
import PortalNet.Proofs.Portal.Record
import PortalNet.Proofs.Session.Run

/-! # Portal files read back

The file that a server leaves behind holds its portals as they were made, each in its place. Records
that cannot be read may stand anywhere between them; they cost the file nothing as long as the whole
text can be read at all.
-/

namespace PortalNet

/-- The text of the record of a portal, as it stands in a file. -/
def Portal.entry (p : Portal) : List Char :=
  p.toJson.chars true 2

namespace Archive

open Json

/-- The text of a file with one list of records, whatever their texts are. -/
def textOf (records : List (List Char)) : List Char :=
  enclosed true 0 '\x7b' '\x7d'
    [quote "portals" ++ colon true ++ enclosed true 1 '[' ']' records]

def file (records : List (List Char)) : String :=
  .ofList (textOf records)

theorem encode_eq_file {portals : List Portal} :
    encode portals = file (portals.map Portal.entry) := by
  rw [encode, file, textOf, pretty, chars_object, List.map_cons, List.map_nil, memberPart,
    chars_array, List.map_map]
  rfl

/-- The text of a record that is no portal. -/
def Damaged (cs : List Char) : Prop :=
  ∃ j, Json.ofString? (.ofList cs) = some j ∧
    ∀ fresh, Portal.decode fresh j = .error .malformedRecord

/-- The records of portals in order, with damaged ones anywhere between them. -/
inductive Interspersed : List Portal → List (List Char) → Prop
  | nil : Interspersed [] []
  | entry {p : Portal} {portals : List Portal} {records : List (List Char)} :
    Interspersed portals records → Interspersed (p :: portals) (p.entry :: records)
  | damaged {cs : List Char} {portals : List Portal} {records : List (List Char)} :
    Damaged cs → Interspersed portals records → Interspersed portals (cs :: records)

variable {records : List (List Char)} {ss : List Source} {portals : List Portal}

/-- The file as a tree. -/
theorem text_textOf (h : List.Forall₂ Source.Text records ss) :
    Source.Text (textOf records) (.object [(Token.pieces "portals", .array ss)]) :=
  Source.text_object (.cons ⟨"portals", _, rfl, rfl, Source.text_array h⟩ .nil)

theorem records?_textOf :
    records? (.object [(Token.pieces "portals", .array ss)]) = some ss := by
  simp [records?, Token.text?_pieces]

theorem values?_file (h : List.Forall₂ Source.Text records ss) :
    values? (file records) =
      if Source.depthItems ss + 2 ≤ maxDepth then Source.values? ss else none := by
  simp [values?, file, Source.ofString?_eq_some.2 (text_textOf h), records?_textOf]

/-- A file can be read if its records can and they are not nested too deep. -/
theorem readable_iff (h : List.Forall₂ Source.Text records ss) :
    (Json.ofString? (file records)).isSome ↔
      Source.depthItems ss + 2 ≤ maxDepth ∧ (Source.values? ss).isSome := by
  have hdepth : (Source.object [(Token.pieces "portals", .array ss)]).depth =
      Source.depthItems ss + 2 := by
    simp [Source.depth, Source.depthMembers]
  simp only [Json.ofString?, file, Source.ofString?_eq_some.2 (text_textOf h),
    Option.bind_eq_bind, Option.bind_some, hdepth]
  split
  · next hle =>
    cases hvalues : Source.values? ss <;>
      simp [Source.value?, Source.memberValues?, hvalues, hle, Token.text?_pieces]
  · next hle => simp [hle]

theorem reads_entry {p : Portal} (h : p.Faithful) : Reads 2 p.entry p.toJson :=
  p.reads_record fun x hx => reads_number (h x hx)

theorem ofJson?_of_decode {fresh : Uuid} {j : Json} {e : PortalError}
    (h : Portal.decode fresh j = .error e) : Portal.ofJson? fresh j = none := by
  unfold Portal.decode at h
  split at h
  · cases h
  · assumption

/-- Damaged records do not shift the others. Ids of the supply are for records that have none. -/
theorem sources_of_interspersed (h : Interspersed portals records)
    (faithful : ∀ p ∈ portals, p.Faithful) :
    ∃ ss js, List.Forall₂ Source.Text records ss ∧ Source.values? ss = some js ∧
      ∀ (fresh : Nat → Uuid) k, (js.zipIdx k).filterMap (fun (j, i) => Portal.ofJson? (fresh i) j) =
        portals.map Portal.restored := by
  induction h with
  | nil => exact ⟨[], [], .nil, rfl, fun _ _ => rfl⟩
  | @entry p portals records _ ih =>
    rw [List.forall_mem_cons] at faithful
    obtain ⟨s, htext, hvalue, -⟩ := reads_entry faithful.1
    obtain ⟨ss, js, htexts, hvalues, hportals⟩ := ih faithful.2
    refine ⟨s :: ss, p.toJson :: js, .cons htext htexts, ?_, fun fresh k => ?_⟩
    · simp [Source.values?, hvalue, hvalues]
    · simp [List.zipIdx_cons, Portal.ofJson?_toJson, hportals]
  | @damaged cs portals records hd _ ih =>
    obtain ⟨j, hj, hdecode⟩ := hd
    obtain ⟨ss, js, htexts, hvalues, hportals⟩ := ih faithful
    obtain ⟨s, hs, hvalue⟩ := Option.bind_eq_some_iff.1 hj
    have hvalue : s.value? = some j := by
      split at hvalue
      · exact hvalue
      · cases hvalue
    refine ⟨s :: ss, j :: js, .cons (Source.ofString?_eq_some.1 hs) htexts, ?_, fun fresh k => ?_⟩
    · simp [Source.values?, hvalue, hvalues]
    · simp [List.zipIdx_cons, ofJson?_of_decode (hdecode _), hportals]

theorem decode?_file (h : Interspersed portals records) (faithful : ∀ p ∈ portals, p.Faithful)
    (hr : (Json.ofString? (file records)).isSome) (fresh : Nat → Uuid) :
    decode? fresh (file records) = some (portals.map Portal.restored) := by
  obtain ⟨ss, js, htexts, hvalues, hportals⟩ := sources_of_interspersed h faithful
  rw [decode?, values?_file htexts, if_pos ((readable_iff htexts).1 hr).1, hvalues, Option.map_some,
    Archive.portals, hportals]

theorem interspersed_entries : Interspersed portals (portals.map Portal.entry) := by
  induction portals with
  | nil => exact .nil
  | cons p portals ih => exact .entry ih

/-- A file whose records are nested a little less deep than a text may be is JSON. -/
theorem ofString?_file {n : Nat} {js : List Json} (h : List.Forall₂ (Reads n) records js)
    (hn : n + 2 ≤ maxDepth) :
    Json.ofString? (file records) = some (.object [("portals", .array js)]) := by
  refine ofString?_of_reads (reads_object (.cons ⟨_, rfl, reads_array h⟩ .nil) ?_) hn
  exact List.pairwise_singleton ..

theorem ofString?_encode (faithful : ∀ p ∈ portals, p.Faithful) :
    Json.ofString? (encode portals) =
      some (.object [("portals", .array (portals.map Portal.toJson))]) := by
  have hentries : List.Forall₂ (Reads 2) (portals.map Portal.entry) (portals.map Portal.toJson) :=
    List.forall₂_map_left_iff.2 <| List.forall₂_map_right_iff.2 <| List.forall₂_same.2 fun p hp =>
      reads_entry (faithful p hp)
  rw [encode_eq_file]
  exact ofString?_file hentries (by decide)

theorem damaged_of_reads {n : Nat} {cs : List Char} {j : Json} (h : Reads n cs j)
    (hn : n ≤ maxDepth) (hj : ∀ fresh, Portal.decode fresh j = .error .malformedRecord) :
    Damaged cs :=
  ⟨j, ofString?_of_reads h hn, hj⟩

theorem decode?_encode (faithful : ∀ p ∈ portals, p.Faithful) (fresh : Nat → Uuid) :
    decode? fresh (encode portals) = some (portals.map Portal.restored) := by
  have hr := congrArg Option.isSome (ofString?_encode faithful)
  rw [encode_eq_file] at hr ⊢
  exact decode?_file interspersed_entries faithful hr fresh

end Archive

namespace Storage

theorem load_of_decode? {d : Disk} {path : DiskPath} {text : String} {fresh : Nat → Uuid}
    {portals : List Portal} (hread : d.read path = .ok text.toUTF8.data.toList)
    (h : Archive.decode? fresh text = some portals) : load d path fresh = .ok portals := by
  have hbytes : String.fromUTF8? ⟨text.toUTF8.data.toList.toArray⟩ = some text :=
    dif_pos text.isValidUTF8
  rw [load, hread]
  simp only [hbytes, h]
  rfl

end Storage

namespace Registry

variable {r : Registry} {p : Portal} {portals : List Portal}

theorem register_of_get?_eq_none (h : r.get? p.id = none) :
    r.register p = { r with portals := r.portals.insert p.id p } := by
  rw [register, h]

/-- Portals with new ids shut nothing down. -/
theorem registerAll_eq (hnew : ∀ p ∈ portals, r.get? p.id = none)
    (distinct : (portals.map (·.id)).Nodup) :
    portals.foldl .register r =
      { r with portals := portals.foldl (fun t p => t.insert p.id p) r.portals } := by
  induction portals generalizing r with
  | nil => rfl
  | cons p portals ih =>
    rw [List.forall_mem_cons] at hnew
    rw [List.map_cons, List.nodup_cons] at distinct
    have hp := register_of_get?_eq_none hnew.1
    have hnew' : ∀ q ∈ portals, (r.register p).get? q.id = none := fun q hq => by
      rw [hp, get?, Table.get?_insert, if_neg]
      · exact hnew.2 q hq
      · exact fun he => distinct.1 (List.mem_map.2 ⟨q, hq, he.symm⟩)
    rw [List.foldl_cons, ih hnew' distinct.2, hp]
    rfl

/-- A registry without portals into which some were loaded. -/
structure Loaded (r : Registry) (portals : List Portal) (loaded : Registry) : Prop where
  ids : loaded.ids = portals.map (·.id)
  all : loaded.all = portals
  get? : ∀ p ∈ portals, loaded.get? p.id = some p
  worlds : loaded.worlds = r.worlds
  regions : loaded.regions = r.regions

theorem loaded_registerAll (hempty : r.portals = ∅) (distinct : (portals.map (·.id)).Nodup) :
    r.Loaded portals (portals.foldl .register r) := by
  have hnew : ∀ p ∈ portals, r.get? p.id = none := fun p _ => by
    rw [Registry.get?, hempty, Table.get?_empty]
  have hentries : (portals.foldl .register r).portals.entries =
      portals.map fun p => (p.id, p) := by
    rw [registerAll_eq hnew distinct]
    exact (Table.entries_insertAll hnew distinct).trans (by rw [hempty]; rfl)
  refine ⟨?_, ?_, fun p hp => ?_, ?_, ?_⟩
  · rw [Registry.ids, Table.keys, hentries, List.map_map]
    rfl
  · rw [Registry.all, Table.values, hentries, List.map_map]
    exact List.map_id _
  · rw [Registry.get?, Table.get?_eq_some_iff, hentries]
    exact List.mem_map_of_mem hp
  · rw [registerAll_eq hnew distinct]
  · rw [registerAll_eq hnew distinct]

end Registry

theorem Portal.ids_restored {portals : List Portal} :
    (portals.map restored).map (·.id) = portals.map (·.id) := by
  rw [List.map_map]
  rfl

namespace Archive

/-- Whoever reads the text has the portals, in their order and as they were made, and a registry
that they are loaded into from a disk has them and nothing else. -/
structure Restores (portals : List Portal) (text : String) : Prop where
  decoded : ∀ fresh, decode? fresh text = some (portals.map Portal.restored)
  loaded : ∀ (d : Disk) (path : DiskPath) (fresh : Nat → Uuid) (r : Registry),
    d.read path = .ok text.toUTF8.data.toList → r.portals = ∅ →
    ∃ read, Storage.load d path fresh = .ok read ∧
      r.Loaded (portals.map Portal.restored) (read.foldl .register r)

theorem restores_of_decode? {portals : List Portal} {text : String}
    (distinct : (portals.map (·.id)).Nodup)
    (h : ∀ fresh, decode? fresh text = some (portals.map Portal.restored)) :
    Restores portals text where
  decoded := h
  loaded _ _ fresh _ hread hempty :=
    ⟨_, Storage.load_of_decode? hread (h fresh),
      Registry.loaded_registerAll hempty (Portal.ids_restored.symm ▸ distinct)⟩

/-- What a server leaves behind is what it starts with the next time, and so it is if records that
are no portals are put anywhere between the others, as long as the text is JSON. Windows that
players select have numbers whose texts stand for them. -/
theorem saved_and_loaded {portals : List Portal} (distinct : (portals.map (·.id)).Nodup)
    (faithful : ∀ p ∈ portals, p.Faithful) :
    Restores portals (encode portals) ∧
    (∀ records, Interspersed portals records → (Json.ofString? (file records)).isSome →
      Restores portals (file records)) ∧
    ∀ (s : Selection) (p : Position) (size : Size Double), s.position = .ok p → s.size = .ok size →
      ∀ x ∈ p.numbers ++ size.numbers, (JsonNumber.real x).ReadsBack :=
  ⟨restores_of_decode? distinct (decode?_encode faithful),
    fun _ h hr => restores_of_decode? distinct (decode?_file h faithful hr),
    fun _ _ _ hp hsize => Selection.readsBack hp hsize⟩

end Archive

namespace Sample

/-- A portal with a name that has to be escaped, whose window is half way between blocks. -/
def named : Portal where
  id := ⟨.replicate 16 10⟩
  owner := some player
  name := some "\"Tür\" \\ \u0007 ✨"
  origin := {
    position := ⟨nether.id, nether.name, ⟨⟨.halves (-5), .halves 128, .halves 7⟩, .west⟩, none,
      false⟩ }
  dest := {
    position :=
      .external ⟨⟨.halves 1, .halves 3, .halves (-1)⟩, .south⟩ "creative" "world" true }
  size := ⟨.halves 4, .halves 6⟩
  isCustom := true
  allowsNonPlayers := false
  activeTicks := some 3
  held := some ⟨world, origin⟩

/-- A record with nothing but an id that is none. -/
def nameless : Json :=
  .object [("id", .number (.whole 7))]

/-- A record that is too short a list. -/
def short : Json :=
  .array [.array [], .null, .string "originPos"]

def records : List (List Char) :=
  [nameless.chars false 0, named.entry, short.chars true 1]

end Sample

open Sample in
theorem named_restored :
    ([named].map (·.id)).Nodup ∧ (∀ p ∈ [named], p.Faithful) ∧
    Archive.Interspersed [named] records ∧ (Json.ofString? (Archive.file records)).isSome ∧
    Archive.Restores [named] (Archive.file records) := by
  have hdistinct : ([named].map (·.id)).Nodup := by decide
  have hfaithful : ∀ p ∈ [named], p.Faithful := by decide +kernel
  have hnameless : Json.Reads 2 (nameless.chars false 0) nameless :=
    Json.reads_chars (.object (List.forall_mem_singleton.2 (.number (by decide)))
      (List.pairwise_singleton ..))
  have hshort : Json.Reads 2 (short.chars true 1) short :=
    Json.reads_chars (.array (by
      simp only [List.forall_mem_cons]
      exact ⟨.array nofun, .null, .string _, nofun⟩))
  have hentry : Json.Reads 2 named.entry named.toJson :=
    Archive.reads_entry (hfaithful named (List.mem_singleton.2 rfl))
  have hinterspersed : Archive.Interspersed [named] records :=
    .damaged (Archive.damaged_of_reads hnameless (by decide) fun _ => rfl)
      (.entry (.damaged (Archive.damaged_of_reads hshort (by decide) fun _ => rfl) .nil))
  have hreadable : (Json.ofString? (Archive.file records)).isSome :=
    Option.isSome_of_eq_some
      (Archive.ofString?_file (.cons hnameless (.cons hentry (.cons hshort .nil))) (by decide))
  exact ⟨hdistinct, hfaithful, hinterspersed, hreadable,
    (Archive.saved_and_loaded hdistinct hfaithful).2.1 records hinterspersed hreadable⟩

end PortalNet
