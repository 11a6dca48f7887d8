import PortalNet.Proofs.Decimal.Readable
import PortalNet.Proofs.Portal.Archive

/-! # What a file keeps

A file has all its portals back but those with a number that is not finite: such a number is written
as null, and the record cannot be read. Whatever is read from a file is finite.
-/

namespace PortalNet

namespace Floating

variable {x : Double}

/-- What the text of a number is read as. -/
def asRead (x : Double) : Json :=
  ((Literal.ofChars? (Json.numberChars (.real x))).bind Literal.value?).elim .null .number

def reread? (x : Double) : Option Double :=
  x.asRead.double?

theorem asRead_of_isFinite (h : x.isFinite = true) :
    ∃ y, (Literal.ofChars? (Json.numberChars (.real x))).bind Literal.value? = some y ∧
      x.asRead = .number y := by
  obtain ⟨y, hy, -⟩ := Literal.readable_number h
  exact ⟨y, hy, by rw [asRead, Json.numberChars, hy]; rfl⟩

theorem asRead_of_not_isFinite (h : x.isFinite = false) : x.asRead = .null := by
  rw [asRead, Json.numberChars, Literal.number_of_not_isFinite h]
  rfl

theorem reads_asRead (x : Double) (n : Nat) :
    Json.Reads n (Json.numberChars (.real x)) x.asRead := by
  cases h : x.isFinite with
  | true =>
    obtain ⟨y, hy, hread⟩ := asRead_of_isFinite h
    exact hread ▸ Json.reads_number hy
  | false =>
    rw [asRead_of_not_isFinite h, Json.numberChars, Literal.number_of_not_isFinite h]
    exact Json.reads_null

theorem reread?_isSome : x.reread?.isSome ↔ x.isFinite = true := by
  rw [reread?]
  cases h : x.isFinite with
  | true =>
    obtain ⟨y, -, hread⟩ := asRead_of_isFinite h
    simp [hread, Json.double?]
  | false => simp [asRead_of_not_isFinite h, Json.double?]

end Floating

namespace Archive

open Json

variable {fresh : Nat → Uuid} {ps : List Portal}

theorem portals_records : portals fresh (ps.map (Portal.record Floating.asRead)) =
    ps.filterMap (Portal.reread? Floating.reread?) := by
  suffices ∀ k, ((ps.map (Portal.record Floating.asRead)).zipIdx k).filterMap
      (fun item => Portal.ofJson? (fresh item.2) item.1) =
    ps.filterMap (Portal.reread? Floating.reread?) from this 0
  induction ps with
  | nil => exact fun _ => rfl
  | cons p ps ih =>
    intro k
    have hp : Portal.ofJson? (fresh k) (p.record Floating.asRead) = p.reread? Floating.reread? :=
      Portal.ofJson?_record
    simp only [List.map_cons, List.zipIdx_cons, List.filterMap_cons, hp, ih]

/-- What is read from a file that was written. -/
theorem decode?_encode_eq (fresh : Nat → Uuid) (ps : List Portal) :
    decode? fresh (encode ps) = some (ps.filterMap (Portal.reread? Floating.reread?)) := by
  have hentries : List.Forall₂ (Reads 2) (ps.map Portal.entry)
      (ps.map (Portal.record Floating.asRead)) :=
    List.forall₂_map_left_iff.2 <| List.forall₂_map_right_iff.2 <| List.forall₂_same.2 fun p _ =>
      p.reads_record fun x _ => x.reads_asRead 0
  obtain ⟨ss, htexts, hvalues, hdepth⟩ := sources_of_reads hentries
  rw [encode_eq_file, decode?, values?_file htexts,
    if_pos (Nat.le_trans (Nat.add_le_add_right hdepth 2) (by decide)), hvalues, Option.map_some,
    portals_records]

end Archive

section finite

namespace Json

/-- A value all of whose numbers are finite. -/
inductive Finite : Json → Prop
  | null : Finite null
  | bool (b : Bool) : Finite (bool b)
  | number {n : JsonNumber} (h : n.toDouble.isFinite = true) : Finite (number n)
  | string (s : String) : Finite (string s)
  | array {items : List Json} (h : ∀ j ∈ items, Finite j) : Finite (array items)
  | object {members : List (String × Json)} (h : ∀ m ∈ members, Finite m.2) :
      Finite (object members)

variable {j : Json}

/-- Each field of a record is a part of it. -/
theorem Finite.fields? {names : List (List String)} {fields : List (Option Json)} (hj : j.Finite)
    (h : j.fields? names = some fields) : ∀ field ∈ fields, ∀ value ∈ field, value.Finite := by
  cases hj with
  | @object members hmembers =>
    simp only [Json.fields?] at h
    induction names generalizing fields with
    | nil =>
      cases h
      rintro _ ⟨⟩
    | cons aliases names ih =>
      simp only [List.mapM_cons, Option.bind_eq_bind, Option.bind_eq_some_iff] at h
      obtain ⟨field, hf, rest, hrest, h⟩ := h
      cases h
      refine List.forall_mem_cons.2 ⟨fun value hvalue => ?_, ih hrest⟩
      split at hf
      · cases hf
        cases hvalue
      · next hfound =>
        cases hf
        cases hvalue
        obtain ⟨name, -, hname⟩ := List.mem_filterMap.1 (hfound ▸ List.mem_singleton_self _)
        exact hmembers _ (mem_of_find? hname)
      · cases hf
  | array hitems =>
    simp only [Json.fields?] at h
    split at h
    · cases h
      intro field hfield value hvalue
      obtain ⟨i, -, rfl⟩ := List.mem_map.1 hfield
      exact hitems value (List.mem_of_getElem? hvalue)
    · cases h
  | _ => cases h

theorem Finite.double? {x : Double} (hj : j.Finite) (h : j.double? = some x) :
    x.isFinite = true := by
  cases hj with
  | number hn =>
    cases h
    exact hn
  | _ => cases h

/-- A field that may not be missing. -/
theorem exists_of_field? {α : Type} [OfJson α] {a : α} {field : Option Json}
    (hmissing : (OfJson.missing : Option α) = none) (h : field? field = some a) :
    ∃ value ∈ field, value.read? = some a := by
  cases field with
  | some value => exact ⟨value, rfl, h⟩
  | none => exact absurd (hmissing.symm.trans h) nofun

theorem finite_field? {x : Double} {field : Option Json} (hfield : ∀ value ∈ field, value.Finite)
    (h : field? field = some x) : x.isFinite = true := by
  obtain ⟨value, hvalue, hx⟩ := exists_of_field? rfl h
  exact (hfield value hvalue).double? hx

end Json

namespace Source

mutual

theorem finite_value? : ∀ {s : Source} {j : Json}, s.value? = some j → j.Finite
  | .null, _, rfl => .null
  | .bool b, _, rfl => .bool b
  | .number l, j, h => by
    obtain ⟨n, hn, rfl⟩ := Option.map_eq_some_iff.1 h
    exact .number (Literal.isFinite_of_value? hn)
  | .string pieces, j, h => by
    obtain ⟨s, -, rfl⟩ := Option.map_eq_some_iff.1 h
    exact .string s
  | .array items, j, h => by
    obtain ⟨js, hjs, rfl⟩ := Option.map_eq_some_iff.1 h
    exact .array (finite_values? hjs)
  | .object members, j, h => by
    obtain ⟨ms, hms, rfl⟩ := Option.map_eq_some_iff.1 h
    exact .object fun m hm => finite_memberValues? hms m (Json.mem_of_mem_unique hm)

theorem finite_values? : ∀ {ss : List Source} {js : List Json},
    values? ss = some js → ∀ j ∈ js, j.Finite
  | [], _, rfl => by rintro _ ⟨⟩
  | s :: ss, js, h => by
    simp only [values?, Option.bind_eq_bind, Option.bind_eq_some_iff] at h
    obtain ⟨j, hj, js', hjs, h⟩ := h
    cases h
    exact List.forall_mem_cons.2 ⟨finite_value? hj, finite_values? hjs⟩

theorem finite_memberValues? : ∀ {members : List (List Piece × Source)} {ms : List (String × Json)},
    memberValues? members = some ms → ∀ m ∈ ms, m.2.Finite
  | [], _, rfl => by rintro _ ⟨⟩
  | (key, s) :: members, ms, h => by
    simp only [memberValues?, Option.bind_eq_bind, Option.bind_eq_some_iff] at h
    obtain ⟨name, -, j, hj, ms', hms, h⟩ := h
    cases h
    exact List.forall_mem_cons.2 ⟨finite_value? hj, finite_memberValues? hms⟩

end

end Source

open Json

theorem Size.finite_of_ofJson? {j : Json} {s : Size Double} (hj : j.Finite)
    (h : ofJson? j = some s) : ∀ x ∈ s.numbers, x.isFinite = true := by
  unfold ofJson? at h
  obtain ⟨fields, hfields, h⟩ := Option.bind_eq_some_iff.1 h
  have hfinite := hj.fields? hfields
  split at h
  · simp only [Option.bind_eq_bind, Option.bind_eq_some_iff] at h
    simp only [List.forall_mem_cons] at hfinite
    obtain ⟨width, hwidth, height, hheight, h⟩ := h
    cases h
    simp only [numbers, List.forall_mem_cons]
    exact ⟨finite_field? hfinite.1 hwidth, finite_field? hfinite.2.1 hheight,
      List.forall_mem_nil _⟩
  · cases h

theorem Position.finite_of_ofJson? {j : Json} {p : Position} (hj : j.Finite)
    (h : ofJson? j = some p) : ∀ x ∈ p.numbers, x.isFinite = true := by
  unfold ofJson? at h
  obtain ⟨fields, hfields, h⟩ := Option.bind_eq_some_iff.1 h
  have hfinite := hj.fields? hfields
  split at h
  · simp only [Option.bind_eq_bind, Option.bind_eq_some_iff] at h
    simp only [List.forall_mem_cons] at hfinite
    obtain ⟨-, -, hx', hy', hz', -⟩ := hfinite
    obtain ⟨_, -, _, -, x, hx, y, hy, z, hz, _, -, _, -, _, -, h⟩ := h
    cases h
    simp only [numbers, List.forall_mem_cons]
    exact ⟨finite_field? hx' hx, finite_field? hy' hy, finite_field? hz' hz,
      List.forall_mem_nil _⟩
  · cases h

theorem Portal.finite_of_ofJson? {fresh : Uuid} {j : Json} {p : Portal} (hj : j.Finite)
    (h : ofJson? fresh j = some p) : ∀ x ∈ p.numbers, x.isFinite = true := by
  unfold ofJson? at h
  obtain ⟨fields, hfields, h⟩ := Option.bind_eq_some_iff.1 h
  have hfinite := hj.fields? hfields
  split at h
  · simp only [Option.bind_eq_bind, Option.bind_eq_some_iff] at h
    simp only [List.forall_mem_cons] at hfinite
    obtain ⟨horigin', hdest', hsize', -⟩ := hfinite
    obtain ⟨origin, horigin, dest, hdest, _, -, _, -, _, -, size, hsize, _, -, _, -, _, -, h⟩ := h
    cases h
    obtain ⟨j₁, hj₁, horigin⟩ := exists_of_field? rfl horigin
    obtain ⟨j₂, hj₂, hdest⟩ := exists_of_field? rfl hdest
    obtain ⟨j₃, hj₃, hsize⟩ := exists_of_field? rfl hsize
    simp only [numbers, List.forall_mem_append]
    exact ⟨⟨Position.finite_of_ofJson? (horigin' j₁ hj₁) horigin,
      Position.finite_of_ofJson? (hdest' j₂ hj₂) hdest⟩,
      Size.finite_of_ofJson? (hsize' j₃ hj₃) hsize⟩
  · cases h

theorem Archive.finite_of_decode? {fresh : Nat → Uuid} {text : String} {ps : List Portal}
    (h : decode? fresh text = some ps) : ∀ p ∈ ps, ∀ x ∈ p.numbers, x.isFinite = true := by
  intro p hp
  obtain ⟨js, hjs, rfl⟩ := Option.map_eq_some_iff.1 h
  obtain ⟨⟨j, i⟩, hj, hportal⟩ := List.mem_filterMap.1 hp
  have hfinite : ∀ j ∈ js, j.Finite := by
    unfold values? at hjs
    simp only [Option.bind_eq_bind, Option.bind_eq_some_iff] at hjs
    obtain ⟨source, -, items, -, hjs⟩ := hjs
    split at hjs
    · exact Source.finite_values? hjs
    · cases hjs
  exact Portal.finite_of_ofJson? (hfinite j (List.fst_mem_of_mem_zipIdx hj)) hportal

end finite

end PortalNet
