import Mathlib.Data.List.Basic
import PortalNet.Json.Printer
import PortalNet.Json.Source

/-! # Scanning what was written

The tokens of a text are those of its parts, one after the other, as long as no word runs on into
the next part. A string that was written is one token, whose pieces have the characters of the
string.
-/

namespace PortalNet

namespace Hex

theorem value?_digit : ∀ n < 16, value? (digit n) = some n := by
  decide

end Hex

namespace Token

variable {s : Scan} {c : Char} {cs ds : List Char} {t : Token} {ts : List Token}

/-- What ends a word, were there one before it. -/
def Delimited (cs : List Char) : Prop :=
  ∀ c ∈ cs.head?, isWordChar c = false

theorem scanFrom_cons : scanFrom s (c :: cs) =
    (s.step c).bind fun e => (scanFrom e.2 cs).map (e.1 ++ ·) := by
  cases s <;> (simp only [scanFrom, Option.map_eq_bind]; rfl)

/-- A step in the midst of a token. -/
theorem scanFrom_silent {u : Scan} (h : s.step c = some ([], u)) :
    scanFrom s (c :: cs) = scanFrom u cs := by
  rw [scanFrom_cons, h, Option.bind_some]
  exact Option.map_id_apply

theorem scan_blank (h : isBlank c = true) : scan (c :: cs) = scan cs := by
  have hstep : Scan.step c .idle = some ([], .idle) := by
    rw [Scan.step, Scan.start, if_pos h]
  exact scanFrom_silent hstep

theorem scan_punctuation (h : punctuation? c = some t) :
    scan (c :: cs) = (scan cs).map (t :: ·) := by
  have hc : isBlank c = false ∧ c ≠ '"' ∧ isWordChar c = false := by
    unfold punctuation? at h
    split at h <;> first | decide | cases h
  simp [scan, scanFrom_cons, Scan.step, Scan.start, hc, h]

theorem scanFrom_word {ws : List Char} (h : Delimited ds) :
    scanFrom (.word ws) ds = (scan ds).map (.word ws.reverse :: ·) := by
  cases ds with
  | nil => rfl
  | cons d ds =>
    have hd : isWordChar d = false := h d rfl
    simp only [scan, scanFrom_cons, Scan.step, hd]
    cases Scan.start d <;> simp [Function.comp_def]

/-- A text may be scanned up to any place where no word goes on. -/
theorem scan_append (h : scan cs = some ts) (hd : Delimited ds) :
    scan (cs ++ ds) = (scan ds).map (ts ++ ·) := by
  suffices ∀ s ts, scanFrom s cs = some ts → scanFrom s (cs ++ ds) = (scan ds).map (ts ++ ·) from
    this _ _ h
  clear h
  induction cs with
  | nil =>
    intro s ts h
    cases s with
    | idle => cases h; simp [scan]
    | word ws => cases h; simpa using scanFrom_word hd
    | _ => cases h
  | cons c cs ih =>
    intro s ts h
    rw [scanFrom_cons] at h
    obtain ⟨e, he, hts⟩ := Option.bind_eq_some_iff.1 h
    obtain ⟨rest, hrest, rfl⟩ := Option.map_eq_some_iff.1 hts
    simp [scanFrom_cons, he, ih _ _ hrest, Function.comp_def]

theorem scan_word (h : ∀ c ∈ cs, isWordChar c = true) (hne : cs ≠ []) :
    scan cs = some [.word cs] := by
  have run : ∀ cs ws : List Char, (∀ c ∈ cs, isWordChar c = true) →
      scanFrom (.word ws) cs = some [.word (ws.reverse ++ cs)] := by
    intro cs
    induction cs with
    | nil => intro ws _; simp [scanFrom]
    | cons c cs ih =>
      intro ws h
      rw [List.forall_mem_cons] at h
      simp [scanFrom_cons, Scan.step, h.1, ih _ h.2]
  obtain ⟨c, cs, rfl⟩ := List.exists_cons_of_ne_nil hne
  rw [List.forall_mem_cons] at h
  have hc : isBlank c = false ∧ c ≠ '"' := by
    constructor
    · by_contra hb
      simp only [isBlank, Bool.not_eq_false, Bool.or_eq_true, decide_eq_true_eq] at hb
      rcases hb with ((rfl | rfl) | rfl) | rfl <;> exact absurd h.1 (by decide)
    · rintro rfl
      exact absurd h.1 (by decide)
  simp [scan, scanFrom_cons, Scan.step, Scan.start, hc, h.1, run cs [c] h.2]

/-- The piece that a character of a string is written as. -/
def piece (c : Char) : Piece :=
  if c < ' ' ∧ c ∉ ['\x08', '\x0c', '\n', '\r', '\t'] then .unit c.toNat else .char c

def pieces (s : String) : List Piece :=
  s.toList.map piece

theorem scanFrom_digits {ps : List Piece} {a b c d : Char} {i j k l : Nat}
    (ha : Hex.value? a = some i) (hb : Hex.value? b = some j) (hc : Hex.value? c = some k)
    (hd : Hex.value? d = some l) :
    scanFrom (.unit ps []) (a :: b :: c :: d :: cs) =
      scanFrom (.string (.unit (16 * (16 * (16 * i + j) + k) + l) :: ps)) cs := by
  have ha' : Scan.step a (.unit ps []) = some ([], .unit ps [a]) := by
    simp [Scan.step, Hex.toNat?, ha]
  have hb' : Scan.step b (.unit ps [a]) = some ([], .unit ps [a, b]) := by
    simp [Scan.step, Hex.toNat?, ha, hb]
  have hc' : Scan.step c (.unit ps [a, b]) = some ([], .unit ps [a, b, c]) := by
    simp [Scan.step, Hex.toNat?, ha, hb, hc]
  have hd' : Scan.step d (.unit ps [a, b, c]) =
      some ([], .string (.unit (16 * (16 * (16 * i + j) + k) + l) :: ps)) := by
    simp [Scan.step, Hex.toNat?, ha, hb, hc, hd]
  rw [scanFrom_silent ha', scanFrom_silent hb', scanFrom_silent hc', scanFrom_silent hd']

theorem scanFrom_unit {ps : List Piece} {n : Nat} (h : n < 16 ^ 4) :
    scanFrom (.unit ps []) (Hex.ofNat 4 n ++ cs) = scanFrom (.string (.unit n :: ps)) cs := by
  have value : ∀ i, Hex.value? (Hex.digit (n / 16 ^ i % 16)) = some (n / 16 ^ i % 16) := fun i =>
    Hex.value?_digit _ (Nat.mod_lt _ (by decide))
  have total : 16 * (16 * (16 * (n / 16 ^ 3 % 16) + n / 16 ^ 2 % 16) + n / 16 ^ 1 % 16) +
      n / 16 ^ 0 % 16 = n := by
    omega
  calc scanFrom (.unit ps []) (Hex.ofNat 4 n ++ cs)
      = scanFrom (.unit ps []) (Hex.digit (n / 16 ^ 3 % 16) :: Hex.digit (n / 16 ^ 2 % 16) ::
          Hex.digit (n / 16 ^ 1 % 16) :: Hex.digit (n / 16 ^ 0 % 16) :: cs) := rfl
    _ = scanFrom (.string (.unit n :: ps)) cs := by
      rw [scanFrom_digits (value 3) (value 2) (value 1) (value 0), total]

theorem scanFrom_backslash {ps : List Piece} {d : Char} (hd : escape? d = some c) :
    scanFrom (.string ps) ('\\' :: d :: cs) = scanFrom (.string (.char c :: ps)) cs := by
  have hu : d ≠ 'u' := by
    rintro rfl
    cases hd
  have hslash : Scan.step '\\' (.string ps) = some ([], .escape ps) := rfl
  have hstep : Scan.step d (.escape ps) = some ([], .string (.char c :: ps)) := by
    rw [Scan.step, if_neg hu, hd, Option.map_some]
  rw [scanFrom_silent hslash, scanFrom_silent hstep]

theorem piece_of_control (h : c < ' ') (hb : c ≠ '\x08') (hf : c ≠ '\x0c') (hn : c ≠ '\n')
    (hr : c ≠ '\r') (ht : c ≠ '\t') : piece c = .unit c.toNat := by
  have hc : c ∉ ['\x08', '\x0c', '\n', '\r', '\t'] := by
    simp only [List.mem_cons, hb, hf, hn, hr, ht, List.not_mem_nil, or_self, not_false_eq_true]
  exact if_pos ⟨h, hc⟩

/-- A character is escaped such that the scanner has it as one more piece of the string. -/
theorem scanFrom_escape {ps : List Piece} :
    scanFrom (.string ps) (Json.escape c ++ cs) = scanFrom (.string (piece c :: ps)) cs := by
  unfold Json.escape
  split
  case h_8 hquote hslash hb hf hn hr ht =>
    split
    · next hc =>
      have hlt : c.toNat < 16 ^ 4 := Nat.lt_trans (show c.toNat < 32 from hc) (by decide)
      have hbackslash : Scan.step '\\' (.string ps) = some ([], .escape ps) := rfl
      have hu : Scan.step 'u' (.escape ps) = some ([], .unit ps []) := rfl
      rw [List.cons_append, List.cons_append, scanFrom_silent hbackslash, scanFrom_silent hu,
        scanFrom_unit hlt, piece_of_control hc hb hf hn hr ht]
    · next hc =>
      have hstep : Scan.step c (.string ps) = some ([], .string (.char c :: ps)) := by
        rw [Scan.step, if_neg hquote, if_neg hslash, if_neg hc]
      have hpiece : piece c = .char c := if_neg fun h => hc h.1
      rw [List.cons_append, List.nil_append, scanFrom_silent hstep, hpiece]
  all_goals exact scanFrom_backslash rfl

theorem scanFrom_escapes {chars : List Char} {ps : List Piece} :
    scanFrom (.string ps) (chars.flatMap Json.escape ++ '"' :: cs) =
      (scan cs).map (.string (ps.reverse ++ chars.map piece) :: ·) := by
  induction chars generalizing ps with
  | nil =>
    have hquote : Scan.step '"' (.string ps) = some ([.string ps.reverse], .idle) := rfl
    rw [List.flatMap_nil, List.nil_append, scanFrom_cons, hquote, List.map_nil, List.append_nil]
    rfl
  | cons c chars ih =>
    rw [List.flatMap_cons, List.append_assoc, scanFrom_escape, ih, List.map_cons,
      List.reverse_cons, List.append_assoc, List.singleton_append]

theorem scan_quote {s : String} :
    scan (Json.quote s ++ cs) = (scan cs).map (.string (pieces s) :: ·) := by
  have hstart : Scan.step '"' .idle = some ([], .string []) := rfl
  simp only [Json.quote, List.cons_append, List.append_assoc, List.nil_append]
  rw [scan, scanFrom_silent hstart, scanFrom_escapes]
  rfl

end Token

end PortalNet
