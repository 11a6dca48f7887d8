import Mathlib.Data.List.TakeWhile
import PortalNet.Proofs.Json.Text

/-! # JSON round trips

A value is read back as it was written if its numbers are and no object has a name twice. How the
text is broken into lines makes no difference.
-/

namespace PortalNet

namespace Literal

variable {cs rest ds : List Char}

def Wordy (cs : List Char) : Prop :=
  ∀ c ∈ cs, Token.isWordChar c = true

theorem wordy_digits? (h : digits? cs = some (ds, rest)) (hr : Wordy rest) : Wordy cs := by
  have hsplit : cs.takeWhile Char.isDigit ++ rest = cs := by
    unfold digits? at h
    split at h
    · cases h
    · cases h
      exact List.takeWhile_append_dropWhile
  rw [← hsplit]
  intro c hc
  rcases List.mem_append.1 hc with hc | hc
  · have := List.mem_takeWhile_imp hc
    simp [Token.isWordChar, Char.isAlphanum, this]
  · exact hr c hc

theorem wordy_nil : Wordy [] := by
  rintro _ ⟨⟩

theorem wordy_cons {c : Char} (hc : Token.isWordChar c = true) (h : Wordy cs) : Wordy (c :: cs) :=
  List.forall_mem_cons.2 ⟨hc, h⟩

theorem wordy_fraction? {f : Option (List Char)} (h : fraction? cs = some (f, rest))
    (hr : Wordy rest) : Wordy cs := by
  unfold fraction? at h
  split at h
  · obtain ⟨⟨ds, rest'⟩, hd, he⟩ := Option.map_eq_some_iff.1 h
    cases he
    exact wordy_cons (by decide) (wordy_digits? hd hr)
  · cases h
    exact hr

theorem wordy_exponent? {e : Option (Bool × List Char)} (h : exponent? cs = some (e, rest))
    (hr : Wordy rest) : Wordy cs := by
  unfold exponent? at h
  split at h
  · next c cs =>
    split at h
    · next hc =>
      obtain ⟨⟨ds, rest'⟩, hd, he⟩ := Option.map_eq_some_iff.1 h
      cases he
      have hw := wordy_digits? hd hr
      refine wordy_cons (by rcases hc with rfl | rfl <;> decide) ?_
      split at hw
      · exact wordy_cons (by decide) hw
      · exact wordy_cons (by decide) hw
      · exact hw
    · cases h
      exact hr
  · cases h
    exact hr

theorem wordy_sign (h : Wordy (sign cs).2) : Wordy cs := by
  unfold sign at h
  split at h
  · exact wordy_cons (by decide) h
  · exact h

theorem wordy_of_ofChars? {l : Literal} (h : ofChars? cs = some l) : Wordy cs := by
  simp only [ofChars?, Option.bind_eq_bind, Option.bind_eq_some_iff] at h
  obtain ⟨⟨whole, cs₁⟩, hwhole, h⟩ := h
  split at h
  · cases h
  · simp only [Option.bind_eq_some_iff] at h
    obtain ⟨⟨fraction, cs₂⟩, hfraction, ⟨exponent, cs₃⟩, hexponent, h⟩ := h
    split at h
    · next hend =>
      obtain rfl : cs₃ = [] := hend
      exact wordy_sign <| wordy_digits? hwhole <| wordy_fraction? hfraction <|
        wordy_exponent? hexponent wordy_nil
    · cases h

/-- A number as it stands in a text. -/
theorem text_of_ofChars? {l : Literal} (h : ofChars? cs = some l) : Source.Text cs (.number l) := by
  have hne : cs ≠ [] := by rintro rfl; cases h
  have hword : Source.ofWord? cs = some (.number l) := by
    have hnames : cs ≠ "null".toList ∧ cs ≠ "true".toList ∧ cs ≠ "false".toList := by
      refine ⟨?_, ?_, ?_⟩ <;> rintro rfl <;> cases h
    simp only [Source.ofWord?, hnames, if_false, h, Option.map_some]
  simp [Source.Text, Source.runs, Token.scan_word (wordy_of_ofChars? h) hne, Source.step,
    Source.startValue, hword]

end Literal

namespace Token

theorem characters?_unit {n : Nat} (h : n < 0xd800) {rest : List Piece} :
    Source.characters? (.unit n :: rest) =
      (Source.characters? rest).map (Char.ofNat n :: ·) := by
  have hn : ¬ 0xd800 ≤ n := Nat.not_le.2 h
  have hn' : ¬ 0xdc00 ≤ n := fun hle => hn (Nat.le_trans (by decide) hle)
  rcases rest with _ | ⟨_ | m, rest⟩ <;> simp [Source.characters?, hn, hn']

theorem characters?_map_piece {cs : List Char} : Source.characters? (cs.map piece) = some cs := by
  induction cs with
  | nil => rfl
  | cons c cs ih =>
    rw [List.map_cons, piece]
    split
    · next hc =>
      have hlt : c.toNat < 32 := hc.1
      rw [characters?_unit (Nat.lt_trans hlt (by decide)), ih, Char.ofNat_toNat]
      rfl
    · rw [Source.characters?, ih]
      rfl

theorem text?_pieces {s : String} : Source.text? (pieces s) = some s := by
  rw [Source.text?, pieces, characters?_map_piece, Option.map_some, String.ofList_toList]

end Token

namespace JsonNumber

/-- Whether the text of a number stands for this number. -/
def ReadsBack (n : JsonNumber) : Prop :=
  (Literal.ofChars? (Json.numberChars n)).bind Literal.value? = some n

instance (n : JsonNumber) : Decidable n.ReadsBack :=
  inferInstanceAs (Decidable (_ = _))

end JsonNumber

namespace Json

/-- A value of at most some depth whose text tells all about it. -/
inductive Legible : Nat → Json → Prop
  | null {n : Nat} : Legible n null
  | bool {n : Nat} (b : Bool) : Legible n (bool b)
  | number {n : Nat} {x : JsonNumber} (h : x.ReadsBack) : Legible n (number x)
  | string {n : Nat} (s : String) : Legible n (string s)
  | array {n : Nat} {items : List Json} (h : ∀ j ∈ items, Legible n j) :
    Legible (n + 1) (array items)
  | object {n : Nat} {members : List (String × Json)} (h : ∀ m ∈ members, Legible n m.2)
    (names : (members.map (·.1)).Nodup) : Legible (n + 1) (object members)

theorem find?_eq_none {key : String} {members : List (String × Json)}
    (h : key ∉ members.map (·.1)) : find? key members = none := by
  induction members with
  | nil => rfl
  | cons m members ih =>
    rw [List.map_cons, List.mem_cons, not_or] at h
    rw [find?, if_neg (Ne.symm h.1), ih h.2]

theorem unique_eq_self {members : List (String × Json)} (h : (members.map (·.1)).Nodup) :
    unique members = members := by
  induction members with
  | nil => rfl
  | cons m members ih =>
    rw [List.map_cons, List.nodup_cons] at h
    rw [unique, find?_eq_none h.1, ih h.2]
    rfl

theorem mem_of_mem_unique {m : String × Json} {members : List (String × Json)}
    (h : m ∈ unique members) : m ∈ members := by
  induction members with
  | nil => cases h
  | cons e members ih =>
    rw [unique] at h
    split at h
    · exact List.mem_cons_of_mem e (ih h)
    · rcases List.mem_cons.1 h with rfl | h
      · exact List.mem_cons_self
      · exact List.mem_cons_of_mem _ (ih h)

theorem mem_of_find? {name : String} {value : Json} {members : List (String × Json)}
    (h : find? name members = some value) : (name, value) ∈ members := by
  induction members with
  | nil => cases h
  | cons e members ih =>
    rw [find?] at h
    split at h
    · next hkey =>
      cases h
      exact hkey ▸ List.mem_cons_self
    · exact List.mem_cons_of_mem _ (ih h)

/-- The text of a value that is nested at most so deep. -/
def Reads (n : Nat) (cs : List Char) (j : Json) : Prop :=
  ∃ s, Source.Text cs s ∧ s.value? = some j ∧ s.depth ≤ n

variable {lines : Bool} {level n : Nat} {cs : List Char} {css : List (List Char)} {j : Json}

theorem ofString?_of_reads (h : Reads n cs j) (hn : n ≤ maxDepth) :
    ofString? (.ofList cs) = some j := by
  obtain ⟨s, htext, hvalue, hdepth⟩ := h
  simp [ofString?, Source.ofString?_eq_some.2 htext, Nat.le_trans hdepth hn, hvalue]

theorem sources_of_reads {items : List Json} (h : List.Forall₂ (Reads n) css items) :
    ∃ ss, List.Forall₂ Source.Text css ss ∧ Source.values? ss = some items ∧
      Source.depthItems ss ≤ n := by
  induction h with
  | nil => exact ⟨[], .nil, rfl, Nat.zero_le n⟩
  | cons hj _ ih =>
    obtain ⟨s, htext, hvalue, hdepth⟩ := hj
    obtain ⟨ss, htexts, hvalues, hdepths⟩ := ih
    exact ⟨s :: ss, .cons htext htexts, by simp [Source.values?, hvalue, hvalues],
      Nat.max_le.2 ⟨hdepth, hdepths⟩⟩

theorem reads_array {items : List Json} (h : List.Forall₂ (Reads n) css items) :
    Reads (n + 1) (enclosed lines level '[' ']' css) (array items) := by
  obtain ⟨ss, htexts, hvalues, hdepths⟩ := sources_of_reads h
  exact ⟨.array ss, Source.text_array htexts, by simp [Source.value?, hvalues],
    Nat.succ_le_succ hdepths⟩

/-- The text of one member of an object. -/
def ReadsMember (lines : Bool) (n : Nat) (cs : List Char) (m : String × Json) : Prop :=
  ∃ text, cs = quote m.1 ++ colon lines ++ text ∧ Reads n text m.2

theorem sources_of_readsMember {members : List (String × Json)}
    (h : List.Forall₂ (ReadsMember lines n) css members) :
    ∃ ms, List.Forall₂ (Source.MemberText lines) css ms ∧
      Source.memberValues? ms = some members ∧ Source.depthMembers ms ≤ n := by
  induction h with
  | nil => exact ⟨[], .nil, rfl, Nat.zero_le n⟩
  | @cons cs m css members hm _ ih =>
    obtain ⟨text, hcs, s, htext, hvalue, hdepth⟩ := hm
    obtain ⟨ms, htexts, hvalues, hdepths⟩ := ih
    exact ⟨(Token.pieces m.1, s) :: ms, .cons ⟨m.1, text, hcs, rfl, htext⟩ htexts,
      by simp [Source.memberValues?, Token.text?_pieces, hvalue, hvalues],
      Nat.max_le.2 ⟨hdepth, hdepths⟩⟩

theorem reads_object {members : List (String × Json)}
    (h : List.Forall₂ (ReadsMember lines n) css members) (names : (members.map (·.1)).Nodup) :
    Reads (n + 1) (enclosed lines level '\x7b' '\x7d' css) (object members) := by
  obtain ⟨ms, htexts, hvalues, hdepths⟩ := sources_of_readsMember h
  exact ⟨.object ms, Source.text_object htexts,
    by simp [Source.value?, hvalues, unique_eq_self names], Nat.succ_le_succ hdepths⟩

/-- The text of a number, as whatever it stands for. -/
theorem reads_number {x y : JsonNumber}
    (h : (Literal.ofChars? (numberChars x)).bind Literal.value? = some y) :
    Reads n (numberChars x) (number y) := by
  obtain ⟨l, hl, hvalue⟩ := Option.bind_eq_some_iff.1 h
  exact ⟨.number l, Literal.text_of_ofChars? hl, by simp [Source.value?, hvalue], Nat.zero_le _⟩

theorem reads_null : Reads n "null".toList null :=
  ⟨.null, by rfl, rfl, Nat.zero_le _⟩

theorem reads_chars (h : Legible n j) : Reads n (chars lines level j) j := by
  induction h generalizing level with
  | null => exact reads_null
  | bool b => cases b <;> exact ⟨.bool _, by rfl, rfl, Nat.zero_le _⟩
  | number h => exact reads_number h
  | string s =>
    exact ⟨.string (Token.pieces s), Source.text_quote, by simp [Source.value?, Token.text?_pieces],
      Nat.zero_le _⟩
  | array h ih =>
    rw [chars_array]
    exact reads_array (List.forall₂_map_left_iff.2 (List.forall₂_same.2 fun j hj => ih j hj))
  | object h names ih =>
    rw [chars_object]
    exact reads_object (List.forall₂_map_left_iff.2 (List.forall₂_same.2 fun m hm =>
      ⟨_, rfl, ih m hm⟩)) names

/-- Writing and reading is the identity. -/
theorem ofString?_pretty (h : Legible maxDepth j) : ofString? j.pretty = some j :=
  ofString?_of_reads (reads_chars h) le_rfl

end Json

end PortalNet
