import PortalNet.Portal.Record
import PortalNet.Proofs.Decimal.Halves
import PortalNet.Proofs.Selection.Words

/-! # Records read back

The record of a portal has all of it but its clocks, what it holds and what its anchors remember.
-/

namespace PortalNet

namespace Hex

variable {bytes : List UInt8}

theorem toBytes?_ofBytes : toBytes? (ofBytes bytes) = some bytes := by
  induction bytes with
  | nil => rfl
  | cons b bytes ih =>
    have hb := b.toNat_lt
    have hhigh := value?_digit (b.toNat / 16) (by omega)
    have hlow := value?_digit (b.toNat % 16) (by omega)
    rw [ofBytes, List.flatMap_cons, ← ofBytes, ofByte, List.cons_append, List.cons_append,
      List.nil_append, toBytes?, hhigh, hlow, ih]
    simp only [Option.bind_eq_bind, Option.bind_some, Nat.div_add_mod, UInt8.ofNat_toNat]
    rfl

theorem length_ofBytes : (ofBytes bytes).length = 2 * bytes.length := by
  induction bytes with
  | nil => rfl
  | cons b bytes ih =>
    rw [ofBytes, List.flatMap_cons, ← ofBytes, List.length_append, ih]
    simp [ofByte]
    omega

/-- No digit is the letter that the name space of ids starts with. -/
theorem toLower_ne_of_mem_ofBytes {c : Char} (h : c ∈ ofBytes bytes) : c.toLower ≠ 'u' := by
  have hdigit : ∀ n < 16, (digit n).toLower ≠ 'u' := by decide
  obtain ⟨b, -, hc⟩ := List.mem_flatMap.1 h
  have hb := b.toNat_lt
  simp only [ofByte, List.mem_cons, List.not_mem_nil, or_false] at hc
  rcases hc with rfl | rfl
  · exact hdigit _ (by omega)
  · exact hdigit _ (by omega)

end Hex

namespace Uuid

/-- Digits in five groups. -/
def grouped (ds : List Char) : List Char :=
  ds.take 8 ++ '-' :: (ds.drop 8).take 4 ++ '-' :: (ds.drop 12).take 4 ++
    '-' :: (ds.drop 16).take 4 ++ '-' :: ds.drop 20

theorem ungroup?_groups {a b c d e : List Char} (ha : a.length = 8) (hb : b.length = 4)
    (hc : c.length = 4) (hd : d.length = 4) :
    ungroup? (a ++ '-' :: b ++ '-' :: c ++ '-' :: d ++ '-' :: e) =
      some (a ++ b ++ c ++ d ++ e) := by
  have hhyphens : ∀ i ∈ [8, 13, 18, 23],
      (a ++ '-' :: b ++ '-' :: c ++ '-' :: d ++ '-' :: e)[i]? = some '-' := by
    simp [List.getElem?_append, List.getElem?_cons, ha, hb, hc, hd]
  simp only [List.forall_mem_cons] at hhyphens
  simp only [ungroup?, hhyphens, and_self, if_true]
  simp (disch := omega) [List.drop_append, List.drop_eq_nil_of_le, ha, hb, hc, hd]

variable {ds : List Char}

theorem append_groups :
    ds.take 8 ++ (ds.drop 8).take 4 ++ (ds.drop 12).take 4 ++ (ds.drop 16).take 4 ++ ds.drop 20 =
      ds := by
  have group : ∀ m, (ds.drop m).take 4 ++ ds.drop (m + 4) = ds.drop m := fun m => by
    rw [← List.drop_drop, List.take_append_drop]
  simp only [List.append_assoc, group, List.take_append_drop]

theorem ungroup?_grouped (h : ds.length = 32) : ungroup? (grouped ds) = some ds := by
  rw [grouped, ungroup?_groups (by simp [h]) (by simp [h]) (by simp [h]) (by simp [h]),
    append_groups]

theorem length_grouped (h : ds.length = 32) : (grouped ds).length = 36 := by
  simp [grouped, h]

/-- What starts with a digit is neither in braces nor behind a name space. -/
theorem unwrap_grouped (h : ds.length = 32) (hd : ∀ d ∈ ds, d.toLower ≠ 'u') :
    unwrap (grouped ds) = grouped ds := by
  have h38 : (grouped ds).length ≠ 38 := by rw [length_grouped h]; decide
  have hname : ((grouped ds).take 9).map Char.toLower ≠ 'u' :: "rn:uuid:".toList := by
    cases ds with
    | nil => cases h
    | cons d ds => exact fun h => hd d List.mem_cons_self (List.cons.inj h).1
  simp only [unwrap, h38, false_and, if_false]
  exact if_neg hname

theorem ofString?_toString (u : Uuid) : ofString? u.toString = some u := by
  have hlength : (Hex.ofBytes u.toBytes).length = 32 := by
    rw [Hex.length_ofBytes, length_toBytes]
  have hdigits : ofDigits? (Hex.ofBytes u.toBytes) = some u := by
    rw [ofDigits?, Hex.toBytes?_ofBytes]
    exact ofBytes?_toBytes u
  have hcs : u.toString.toList = grouped (Hex.ofBytes u.toBytes) := by
    rw [toString, String.toList_ofList, grouped]
  rw [ofString?]
  simp [hcs, length_grouped hlength, ungroup?_grouped hlength, hdigits,
    unwrap_grouped hlength fun d => Hex.toLower_ne_of_mem_ofBytes]

end Uuid

namespace Json

@[simp] theorem read?_of_uuid (u : Uuid) : (of u).read? = some u := by
  have h : (of u).read? = (string u.toString).string? >>= Uuid.ofString? := rfl
  rw [h, string?, Option.bind_eq_bind, Option.bind_some, u.ofString?_toString]

@[simp] theorem read?_of_bool (b : Bool) : (of b).read? = some b := rfl

@[simp] theorem read?_of_string (s : String) : (of s).read? = some s := rfl

@[simp] theorem read?_of_double (x : Double) : (of x).read? = some x := rfl

@[simp] theorem read?_of_direction (d : Direction) : (of d).read? = some d := by
  cases d <;> rfl

/-- What may be null is read like what may not, unless null is written for a value. -/
theorem read?_of_option {α : Type} [ToJson α] [OfJson α] (hne : ∀ a : α, of a ≠ null)
    (h : ∀ a : α, (of a).read? = some a) (o : Option α) : (of o).read? = some o := by
  cases o with
  | none => rfl
  | some a =>
    have hread : ∀ j, j ≠ null → (j.read? : Option (Option α)) = j.read?.map some := by
      intro j hj
      cases j <;> first | rfl | exact absurd rfl hj
    have hof : of (some a) = of a := rfl
    rw [hof, hread _ (hne a), h, Option.map_some]

@[simp] theorem read?_of_ids (o : Option Uuid) : (of o).read? = some o :=
  read?_of_option (fun _ => Json.noConfusion) read?_of_uuid o

@[simp] theorem read?_of_strings (o : Option String) : (of o).read? = some o :=
  read?_of_option (fun _ => Json.noConfusion) read?_of_string o

end Json

namespace Size

variable {s : Size Double} {read : Double → Option Double} {write : Double → Json}

def numbers (s : Size Double) : List Double :=
  [s.width, s.height]

/-- The size with its numbers as something else reads them. -/
def reread? (read : Double → Option Double) (s : Size Double) : Option (Size Double) := do
  return ⟨← read s.width, ← read s.height⟩

/-- The record with its numbers as something else writes them. -/
def record (write : Double → Json) (s : Size Double) : Json :=
  .object [("width", write s.width), ("height", write s.height)]

theorem ofJson?_record : ofJson? (s.record write) = s.reread? fun x => (write x).double? := rfl

theorem reread?_isSome : (s.reread? read).isSome ↔ ∀ x ∈ s.numbers, (read x).isSome := by
  simp only [numbers, List.forall_mem_cons, reread?]
  cases read s.width <;> cases read s.height <;> simp

end Size

namespace Position

variable {p q : Position} {read : Double → Option Double} {write : Double → Json}

def numbers (p : Position) : List Double :=
  [p.frame.center.x, p.frame.center.y, p.frame.center.z]

def reread? (read : Double → Option Double) (p : Position) : Option Position := do
  return { p with
    frame := ⟨⟨← read p.frame.center.x, ← read p.frame.center.y, ← read p.frame.center.z⟩,
      p.frame.facing⟩ }

def record (write : Double → Json) (p : Position) : Json :=
  .object [
    ("worldId", .of p.worldId),
    ("worldName", .of p.worldName),
    ("x", write p.frame.center.x),
    ("y", write p.frame.center.y),
    ("z", write p.frame.center.z),
    ("direction", .of p.frame.facing),
    ("serverName", .of p.server),
    ("lastPlayerPos", .of p.lastPlayer)]

theorem ofJson?_record : ofJson? (p.record write) = p.reread? fun x => (write x).double? := by
  have hfields : (p.record write).fields? [["worldId"], ["worldName"], ["x"], ["y"], ["z"],
      ["direction"], ["serverName"], ["lastPlayerPos"]] =
      some [some (.of p.worldId), some (.of p.worldName), some (write p.frame.center.x),
        some (write p.frame.center.y), some (write p.frame.center.z), some (.of p.frame.facing),
        some (.of p.server), some (.of p.lastPlayer)] := rfl
  have hnumber : ∀ j : Json, (j.read? : Option Double) = j.double? := fun _ => rfl
  rw [ofJson?, hfields]
  simp [Json.field?, Json.fieldOr, reread?, hnumber]

theorem reread?_isSome : (p.reread? read).isSome ↔ ∀ x ∈ p.numbers, (read x).isSome := by
  simp only [numbers, List.forall_mem_cons, reread?]
  cases read p.frame.center.x <;> cases read p.frame.center.y <;>
    cases read p.frame.center.z <;> simp

end Position

namespace Json

@[simp] theorem read?_of_size (s : Size Double) : (of s).read? = some s := rfl

@[simp] theorem read?_of_position (p : Position) : (of p).read? = some p :=
  Position.ofJson?_record

variable {n : Nat}

theorem legible_of_bool (b : Bool) : Legible n (of b) :=
  .bool b

theorem legible_of_uuid (u : Uuid) : Legible n (of u) :=
  .string _

theorem legible_of_direction (d : Direction) : Legible n (of d) :=
  .string _

theorem legible_of_ids (o : Option Uuid) : Legible n (of o) := by
  cases o with
  | none => exact .null
  | some u => exact .string _

theorem legible_of_strings (o : Option String) : Legible n (of o) := by
  cases o with
  | none => exact .null
  | some s => exact .string s

end Json

section reads

open Json

variable {write : Double → Json} {lines : Bool} {level n : Nat}

theorem Size.reads_record {s : Size Double}
    (h : ∀ x ∈ s.numbers, Reads n (numberChars (.real x)) (write x)) :
    Reads (n + 1) (s.toJson.chars lines level) (s.record write) := by
  simp only [numbers, List.forall_mem_cons] at h
  rw [toJson, chars_object]
  refine reads_object ?_ (show ["width", "height"].Nodup by decide)
  exact .cons ⟨_, rfl, h.1⟩ (.cons ⟨_, rfl, h.2.1⟩ .nil)

theorem Position.reads_record {p : Position}
    (h : ∀ x ∈ p.numbers, Reads n (numberChars (.real x)) (write x)) :
    Reads (n + 1) (p.toJson.chars lines level) (p.record write) := by
  simp only [numbers, List.forall_mem_cons] at h
  rw [toJson, chars_object]
  refine reads_object ?_ (show ["worldId", "worldName", "x", "y", "z", "direction", "serverName",
    "lastPlayerPos"].Nodup by decide)
  exact .cons ⟨_, rfl, reads_chars (legible_of_ids _)⟩ <|
    .cons ⟨_, rfl, reads_chars (legible_of_strings _)⟩ <|
    .cons ⟨_, rfl, h.1⟩ <| .cons ⟨_, rfl, h.2.1⟩ <| .cons ⟨_, rfl, h.2.2.1⟩ <|
    .cons ⟨_, rfl, reads_chars (legible_of_direction _)⟩ <|
    .cons ⟨_, rfl, reads_chars (legible_of_strings _)⟩ <|
    .cons ⟨_, rfl, reads_chars (legible_of_bool _)⟩ .nil

end reads

namespace Bounds

open Floating

theorem natAbs_toInt_le (n : Int32) : n.toInt.natAbs ≤ 2 ^ 31 := by
  have hlow := n.le_toInt
  have hhigh := n.toInt_lt
  omega

theorem natAbs_sum_lt (r : Row) : r.sum.natAbs < 2 ^ 33 := by
  have hfirst := natAbs_toInt_le r.first
  have hlast := natAbs_toInt_le r.last
  unfold Row.sum
  omega

theorem natAbs_length_lt (r : Row) : r.length.natAbs < 2 ^ 33 := by
  have hfirst := natAbs_toInt_le r.first
  have hlast := natAbs_toInt_le r.last
  unfold Row.length
  omega

theorem half_sum_eq_halves (r : Row) : Scalar.half (r.sum : Double) = halves r.sum :=
  half_ofInt ((natAbs_sum_lt r).trans (by decide))

theorem face_eq_halves (low : Int32) : (face low : Double) = halves (2 * low.toInt + 1) := by
  have hle := natAbs_toInt_le low
  rw [← halves_add (by omega) (by decide), ← ofInt_eq_halves, ← half_ofInt (by decide)]
  rfl

theorem isHalf_sum (r : Row) : IsHalf (Scalar.half (r.sum : Double)) :=
  ⟨r.sum, (natAbs_sum_lt r).trans (by decide), half_sum_eq_halves r⟩

theorem isHalf_face (low : Int32) : IsHalf (face low) := by
  have hle := natAbs_toInt_le low
  exact ⟨_, by omega, face_eq_halves low⟩

theorem isHalf_length (r : Row) : IsHalf (r.length : Double) := by
  have hlt := natAbs_length_lt r
  exact ⟨2 * r.length, by omega, ofInt_eq_halves⟩

theorem isHalf_heart (b : Bounds) :
    ∀ x ∈ [(b.heart : Vec3 Double).x, b.heart.y, b.heart.z], IsHalf x := by
  simp only [List.forall_mem_cons]
  unfold heart
  split
  · exact ⟨isHalf_face _, isHalf_sum _, isHalf_sum _, nofun⟩
  · exact ⟨isHalf_sum _, isHalf_sum _, isHalf_face _, nofun⟩

theorem isHalf_blocks (b : Bounds) : ∀ x ∈ (b.blocks : Size Double).numbers, IsHalf x := by
  simp only [Size.numbers, List.forall_mem_cons]
  exact ⟨isHalf_length _, isHalf_length _, nofun⟩

end Bounds

namespace Selection

variable {s : Selection} {p : Position} {size : Size Double}

theorem isHalf_position (hp : s.position = .ok p) : ∀ x ∈ p.numbers, Floating.IsHalf x := by
  obtain ⟨b, -, -, rfl⟩ := position_eq_ok_iff.1 hp
  exact b.isHalf_heart

theorem isHalf_size (hsize : s.size = .ok size) : ∀ x ∈ size.numbers, Floating.IsHalf x := by
  obtain ⟨b, -, -, rfl⟩ := size_eq_ok_iff.1 hsize
  exact b.isHalf_blocks

theorem finite_position (hp : s.position = .ok p) : ∀ x ∈ p.numbers, x.isFinite = true :=
  fun x hx => (isHalf_position hp x hx).isFinite

theorem finite_size (hsize : s.size = .ok size) : ∀ x ∈ size.numbers, x.isFinite = true :=
  fun x hx => (isHalf_size hsize x hx).isFinite

/-- The numbers of a window that a player selects are read back as they are written. -/
theorem readsBack (hp : s.position = .ok p) (hsize : s.size = .ok size) :
    ∀ x ∈ p.numbers ++ size.numbers, (JsonNumber.real x).ReadsBack := by
  have hhalf : ∀ x, Floating.IsHalf x → (JsonNumber.real x).ReadsBack := by
    rintro _ ⟨k, hk, rfl⟩
    exact Floating.readsBack_halves hk
  rw [List.forall_mem_append]
  exact ⟨fun x hx => hhalf x (isHalf_position hp x hx),
    fun x hx => hhalf x (isHalf_size hsize x hx)⟩

end Selection

namespace Portal

variable {p : Portal} {fresh : Uuid}

/-- The portal as it was when it was made: at rest, holding nothing, and not yet asked where it
leads. -/
def restored (p : Portal) : Portal where
  id := p.id
  owner := p.owner
  name := p.name
  origin := p.origin.position
  dest := p.dest.position
  size := p.size
  isCustom := p.isCustom
  allowsNonPlayers := p.allowsNonPlayers
  relocatesPlayers := p.relocatesPlayers

/-- The portal as it was when it was made, with its numbers as something else reads them. -/
def reread? (read : Double → Option Double) (p : Portal) : Option Portal := do
  return { p.restored with
    origin := ← p.origin.position.reread? read
    dest := ← p.dest.position.reread? read
    size := ← p.size.reread? read }

def record (write : Double → Json) (p : Portal) : Json :=
  .object [
    ("originPos", p.origin.position.record write),
    ("destPos", p.dest.position.record write),
    ("size", p.size.record write),
    ("anchored", .of p.isCustom),
    ("id", .of p.id),
    ("allowsNonPlayerTeleportation", .of p.allowsNonPlayers),
    ("relocatePlayer", .of p.relocatesPlayers),
    ("owner", .of p.owner),
    ("name", .of p.name)]

theorem ofJson?_record {write : Double → Json} :
    ofJson? fresh (p.record write) = p.reread? fun x => (write x).double? := by
  have hfields : (p.record write).fields? [["originPos"], ["destPos"], ["size"], ["anchored"],
      ["id"], ["allowsNonPlayerTeleportation"], ["relocatePlayer"], ["owner", "ownerId"],
      ["name"]] =
      some [some (p.origin.position.record write), some (p.dest.position.record write),
        some (p.size.record write), some (.of p.isCustom), some (.of p.id),
        some (.of p.allowsNonPlayers), some (.of p.relocatesPlayers), some (.of p.owner),
        some (.of p.name)] := rfl
  have hid : (Json.of p.id).read? = some (some p.id) := Json.read?_of_ids (some p.id)
  have hposition : ∀ q : Position, (q.record write).read? = q.reread? fun x => (write x).double? :=
    fun _ => Position.ofJson?_record
  have hsize : (p.size.record write).read? = p.size.reread? fun x => (write x).double? := rfl
  rw [ofJson?, hfields]
  simp [Json.field?, Json.fieldOr, hid, hposition, hsize, restored, reread?]

theorem ofJson?_toJson : ofJson? fresh p.toJson = some p.restored :=
  ofJson?_record

def numbers (p : Portal) : List Double :=
  p.origin.position.numbers ++ p.dest.position.numbers ++ p.size.numbers

theorem reread?_isSome {read : Double → Option Double} :
    (p.reread? read).isSome ↔ ∀ x ∈ p.numbers, (read x).isSome := by
  rw [numbers, List.forall_mem_append, List.forall_mem_append, ← Position.reread?_isSome,
    ← Position.reread?_isSome, ← Size.reread?_isSome]
  simp only [reread?]
  cases p.origin.position.reread? read <;> cases p.dest.position.reread? read <;>
    cases p.size.reread? read <;> simp

theorem id_of_reread? {read : Double → Option Double} {q : Portal} (h : p.reread? read = some q) :
    q.id = p.id := by
  simp only [reread?, Option.bind_eq_bind, Option.bind_eq_some_iff] at h
  obtain ⟨_, -, _, -, _, -, h⟩ := h
  cases h
  rfl

open Json in
theorem reads_record {write : Double → Json} {lines : Bool} {level n : Nat}
    (h : ∀ x ∈ p.numbers, Reads n (numberChars (.real x)) (write x)) :
    Reads (n + 2) (p.toJson.chars lines level) (p.record write) := by
  simp only [numbers, List.forall_mem_append] at h
  rw [toJson, chars_object]
  refine reads_object ?_ (show ["originPos", "destPos", "size", "anchored", "id",
    "allowsNonPlayerTeleportation", "relocatePlayer", "owner", "name"].Nodup by decide)
  exact .cons ⟨_, rfl, Position.reads_record h.1.1⟩ <|
    .cons ⟨_, rfl, Position.reads_record h.1.2⟩ <| .cons ⟨_, rfl, Size.reads_record h.2⟩ <|
    .cons ⟨_, rfl, reads_chars (legible_of_bool _)⟩ <|
    .cons ⟨_, rfl, reads_chars (legible_of_uuid _)⟩ <|
    .cons ⟨_, rfl, reads_chars (legible_of_bool _)⟩ <|
    .cons ⟨_, rfl, reads_chars (legible_of_bool _)⟩ <|
    .cons ⟨_, rfl, reads_chars (legible_of_ids _)⟩ <|
    .cons ⟨_, rfl, reads_chars (legible_of_strings _)⟩ .nil

/-- All numbers are finite, but for the place on another server that the portal may lead to. -/
structure Grounded (p : Portal) : Prop where
  origin : ∀ x ∈ p.origin.position.numbers, x.isFinite = true
  dest : p.isCrossServer = false → ∀ x ∈ p.dest.position.numbers, x.isFinite = true
  size : ∀ x ∈ p.size.numbers, x.isFinite = true

/-- Whether the text of each of the numbers of a portal stands for this number. -/
def Faithful (p : Portal) : Prop :=
  ∀ x ∈ p.numbers, (JsonNumber.real x).ReadsBack

instance (p : Portal) : Decidable p.Faithful :=
  inferInstanceAs (Decidable (∀ x ∈ p.numbers, (JsonNumber.real x).ReadsBack))

end Portal

end PortalNet
