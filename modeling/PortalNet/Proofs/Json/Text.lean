import Mathlib.Data.List.Forall2
import PortalNet.Proofs.Json.Scanning

/-! # Reading back what was written

An array or an object is laid out in one way whatever its parts are, and the layout is read as long
as the parts are. A value is therefore read back as it was written if its numbers are and no object
has a name twice; how its text is broken into lines makes no difference.
-/

namespace PortalNet

namespace Source

variable {cs ds : List Char} {s : Source} {fs gs : List Frame} {c : Cursor} {t : Token}

/-- The state behind a text that is read from some state on. -/
def runs (st : List Frame × Cursor) (cs : List Char) : Option (List Frame × Cursor) :=
  (Token.scan cs).bind (·.foldlM step st)

/-- The text of one value, as it may stand anywhere in a text. -/
def Text (cs : List Char) (s : Source) : Prop :=
  runs ([], .value) cs = some ([], .done s)

theorem ofString?_eq_some : ofString? (.ofList cs) = some s ↔ Text cs s := by
  rw [ofString?, Text, runs, String.toList_ofList]
  cases Token.scan cs with
  | none => simp
  | some ts =>
    simp only [Option.bind_eq_bind, Option.bind_some, ofTokens?]
    constructor
    · intro h
      split at h
      · next v hv => cases h; exact hv
      · cases h
    · intro h
      rw [h]

theorem startValue_append {e : List Frame × Cursor} (h : startValue fs t = some e) :
    startValue (fs ++ gs) t = some (e.1 ++ gs, e.2) := by
  cases t with
  | word ws =>
    obtain ⟨v, hv, rfl⟩ := Option.map_eq_some_iff.1 h
    simp [startValue, hv]
  | _ => cases h <;> rfl

theorem endValue_append {e : List Frame × Cursor} (h : endValue s fs t = some e) :
    endValue s (fs ++ gs) t = some (e.1 ++ gs, e.2) := by
  cases fs with
  | nil => cases h
  | cons f fs => cases f <;> cases t <;> cases h <;> rfl

theorem step_itemOrEnd (h : t ≠ .closeArray) :
    step (fs, .itemOrEnd) t = startValue (.array [] :: fs) t := by
  cases t <;> first | rfl | exact absurd rfl h

/-- The frames around what is read do not matter to it. -/
theorem step_append {e : List Frame × Cursor} (h : step (fs, c) t = some e) :
    step (fs ++ gs, c) t = some (e.1 ++ gs, e.2) := by
  cases c with
  | value => exact startValue_append h
  | done v => exact endValue_append h
  | itemOrEnd =>
    by_cases ht : t = .closeArray
    · subst ht
      cases h
      rfl
    · rw [step_itemOrEnd ht] at h ⊢
      exact startValue_append h
  | keyOrEnd => cases t <;> cases h <;> rfl
  | key members => cases t <;> cases h; rfl
  | colon members key => cases t <;> cases h; rfl

theorem foldlM_step_append {ts : List Token} {e : List Frame × Cursor}
    (h : ts.foldlM step (fs, c) = some e) :
    ts.foldlM step (fs ++ gs, c) = some (e.1 ++ gs, e.2) := by
  induction ts generalizing fs c with
  | nil => cases h; rfl
  | cons t ts ih =>
    rw [List.foldlM_cons] at h ⊢
    obtain ⟨⟨fs', c'⟩, hstep, hrest⟩ := Option.bind_eq_some_iff.1 h
    rw [step_append hstep]
    exact ih hrest

theorem runs_punctuation {st : List Frame × Cursor} {p : Char} (h : Token.punctuation? p = some t) :
    runs st (p :: cs) = (step st t).bind (runs · cs) := by
  simp only [runs, Token.scan_punctuation h]
  cases Token.scan cs <;> simp

theorem runs_quote {st : List Frame × Cursor} {key : String} :
    runs st (Json.quote key ++ cs) = (step st (.string (Token.pieces key))).bind (runs · cs) := by
  simp only [runs, Token.scan_quote]
  cases Token.scan cs <;> simp

theorem text_quote {key : String} : Text (Json.quote key) (.string (Token.pieces key)) := by
  rw [Text, ← List.append_nil (Json.quote key), runs_quote]
  rfl

theorem runs_blank {st : List Frame × Cursor} {b : Char} (h : Token.isBlank b = true) :
    runs st (b :: cs) = runs st cs := by
  rw [runs, Token.scan_blank h, runs]

theorem runs_lineBreak {st : List Frame × Cursor} {lines : Bool} {level : Nat} :
    runs st (Json.lineBreak lines level ++ cs) = runs st cs := by
  cases lines with
  | false => rfl
  | true =>
    have indent : ∀ n, runs st (List.replicate n ' ' ++ cs) = runs st cs := by
      intro n
      induction n with
      | zero => rfl
      | succ n ih => rw [List.replicate_succ, List.cons_append, runs_blank (by decide), ih]
    exact (runs_blank (by decide)).trans (indent _)

/-- A value whose text ends here, read wherever a value may stand. -/
theorem runs_value (h : Text cs s) (hd : Token.Delimited ds) :
    runs (fs, .value) (cs ++ ds) = runs (fs, .done s) ds := by
  obtain ⟨ts, hts, hrun⟩ := Option.bind_eq_some_iff.1 h
  have hfs : ts.foldlM step (fs, .value) = some (fs, .done s) := foldlM_step_append hrun
  rw [runs, runs, Token.scan_append hts hd]
  cases Token.scan ds <;> simp [hfs]

/-- The first item of an array. -/
theorem runs_item (h : Text cs s) (hd : Token.Delimited ds) :
    runs (fs, .itemOrEnd) (cs ++ ds) = runs (.array [] :: fs, .done s) ds := by
  rw [← runs_value h hd]
  obtain ⟨ts, hts, hrun⟩ := Option.bind_eq_some_iff.1 h
  rw [runs, runs, Token.scan_append hts hd]
  cases ts with
  | nil => cases hrun
  | cons t ts =>
    have ht : t ≠ .closeArray := by rintro rfl; cases hrun
    cases Token.scan ds <;> simp [List.foldlM_cons, step]

end Source

namespace Json

variable {lines : Bool} {level : Nat} {left right : Char} {css : List (List Char)} {cs : List Char}

/-- Further parts behind the first one. -/
def following (lines : Bool) (level : Nat) (parts : List (List Char)) : List Char :=
  parts.flatMap fun cs => ',' :: lineBreak lines level ++ cs

/-- The layout of an array or an object with these parts. -/
def enclosed (lines : Bool) (level : Nat) (left right : Char) : List (List Char) → List Char
  | [] => [left, right]
  | cs :: css => left :: lineBreak lines (level + 1) ++ cs ++ following lines (level + 1) css ++
      lineBreak lines level ++ [right]

def memberPart (lines : Bool) (level : Nat) (m : String × Json) : List Char :=
  quote m.1 ++ colon lines ++ chars lines level m.2

theorem itemChars_eq {items : List Json} :
    itemChars lines level items = following lines level (items.map (chars lines level)) := by
  induction items with
  | nil => rfl
  | cons j items ih => simp [itemChars, following, ih]

theorem memberChars_eq {members : List (String × Json)} :
    memberChars lines level members =
      following lines level (members.map (memberPart lines level)) := by
  induction members with
  | nil => rfl
  | cons m members ih => simp [memberChars, following, ih, memberPart]

theorem chars_array {items : List Json} : chars lines level (array items) =
    enclosed lines level '[' ']' (items.map (chars lines (level + 1))) := by
  cases items with
  | nil => rfl
  | cons j items => simp [chars, enclosed, itemChars_eq]

theorem chars_object {members : List (String × Json)} : chars lines level (object members) =
    enclosed lines level '\x7b' '\x7d' (members.map (memberPart lines (level + 1))) := by
  cases members with
  | nil => rfl
  | cons m members => simp [chars, enclosed, memberChars_eq, memberPart]

end Json

namespace Source

open Json

variable {lines : Bool} {level : Nat} {css : List (List Char)} {ds : List Char} {s : Source}
  {ss : List Source} {fs : List Frame}

theorem delimited_cons {c : Char} (h : Token.isWordChar c = false) : Token.Delimited (c :: ds) := by
  rintro _ ⟨⟩
  exact h

/-- Behind each part of a layout its word is over. -/
theorem delimited_rest {n : Nat} {right : Char} (h : Token.isWordChar right = false) :
    Token.Delimited (following lines level css ++ (lineBreak lines n ++ right :: ds)) := by
  cases css with
  | cons cs css => exact delimited_cons (by decide)
  | nil =>
    cases lines with
    | false => exact delimited_cons h
    | true => exact delimited_cons (by decide)

theorem runs_items {n : Nat} {items : List Source} (h : List.Forall₂ Text css ss) :
    runs (.array items :: fs, .done s)
        (following lines level css ++ (lineBreak lines n ++ ']' :: ds)) =
      runs (fs, .done (array (items.reverse ++ s :: ss))) ds := by
  induction h generalizing items s with
  | nil =>
    rw [following, List.flatMap_nil, List.nil_append, runs_lineBreak,
      runs_punctuation (t := .closeArray) rfl]
    simp [step, endValue]
  | @cons cs s' css ss hs _ ih =>
    have hcomma : step (.array items :: fs, .done s) .comma =
        some (.array (s :: items) :: fs, .value) := rfl
    rw [following, List.flatMap_cons, ← following]
    simp only [List.cons_append, List.append_assoc]
    rw [runs_punctuation (t := .comma) rfl, hcomma, Option.bind_some, runs_lineBreak,
      runs_value hs (delimited_rest (by decide)), ih]
    simp

theorem text_array (h : List.Forall₂ Text css ss) :
    Text (enclosed lines level '[' ']' css) (array ss) := by
  have hopen : step ([], .value) .openArray = some ([], .itemOrEnd) := rfl
  cases h with
  | nil => rfl
  | @cons cs s css ss hs hss =>
    rw [Text, enclosed]
    simp only [List.cons_append, List.append_assoc]
    rw [runs_punctuation (t := .openArray) rfl, hopen, Option.bind_some, runs_lineBreak,
      runs_item hs (delimited_rest (by decide)), runs_items hss]
    rfl

/-- The text of one member of an object. -/
def MemberText (lines : Bool) (cs : List Char) (m : List Piece × Source) : Prop :=
  ∃ key ds, cs = quote key ++ colon lines ++ ds ∧ m.1 = Token.pieces key ∧ Text ds m.2

theorem runs_member {cs : List Char} {m : List Piece × Source} {c : Cursor}
    {members : List (List Piece × Source)} (h : MemberText lines cs m) (hd : Token.Delimited ds)
    (hc : step (fs, c) (.string m.1) = some (fs, .colon members m.1)) :
    runs (fs, c) (cs ++ ds) = runs (.object members m.1 :: fs, .done m.2) ds := by
  obtain ⟨key, text, rfl, hkey, htext⟩ := h
  have hcolon : runs (fs, .colon members m.1) (colon lines ++ (text ++ ds)) =
      runs (.object members m.1 :: fs, .value) (text ++ ds) := by
    cases lines with
    | false => exact runs_punctuation (t := .colon) rfl
    | true =>
      exact (runs_punctuation (t := .colon) rfl).trans (runs_blank (by decide))
  simp only [List.append_assoc]
  rw [runs_quote, ← hkey, hc, Option.bind_some, hcolon, runs_value htext hd]

theorem runs_members {n : Nat} {members ms : List (List Piece × Source)} {m : List Piece × Source}
    (h : List.Forall₂ (MemberText lines) css ms) :
    runs (.object members m.1 :: fs, .done m.2)
        (following lines level css ++ (lineBreak lines n ++ '\x7d' :: ds)) =
      runs (fs, .done (object (members.reverse ++ m :: ms))) ds := by
  induction h generalizing members m with
  | nil =>
    rw [following, List.flatMap_nil, List.nil_append, runs_lineBreak,
      runs_punctuation (t := .closeObject) rfl]
    simp [step, endValue]
  | @cons cs m' css ms hm _ ih =>
    have hcomma : step (.object members m.1 :: fs, .done m.2) .comma =
        some (fs, .key (m :: members)) := rfl
    rw [following, List.flatMap_cons, ← following]
    simp only [List.cons_append, List.append_assoc]
    rw [runs_punctuation (t := .comma) rfl, hcomma, Option.bind_some, runs_lineBreak,
      runs_member hm (delimited_rest (by decide)) rfl, ih]
    simp

theorem text_object {ms : List (List Piece × Source)}
    (h : List.Forall₂ (MemberText lines) css ms) :
    Text (enclosed lines level '\x7b' '\x7d' css) (object ms) := by
  have hopen : step ([], .value) .openObject = some ([], .keyOrEnd) := rfl
  cases h with
  | nil => rfl
  | @cons cs m css ms hm hms =>
    rw [Text, enclosed]
    simp only [List.cons_append, List.append_assoc]
    rw [runs_punctuation (t := .openObject) rfl, hopen, Option.bind_some, runs_lineBreak,
      runs_member hm (delimited_rest (by decide)) rfl, runs_members hms]
    rfl

end Source

end PortalNet
