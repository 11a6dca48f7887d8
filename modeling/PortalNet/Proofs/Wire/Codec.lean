import PortalNet.Wire.Codec

/-! # Exact codecs

A codec is exact on some values if it reads back what it writes of them, whatever stands behind,
asks for more bytes as long as any are missing, and reads nothing that it would have written in
another way. Exactness passes from the parts of a value to the whole.
-/

namespace PortalNet

namespace Codec

variable {α β : Type}

structure Exact (c : Codec α) (ok : α → Prop) : Prop where
  read_write : ∀ a rest, ok a → c.read (c.write a ++ rest) = .ok (a, rest)
  read_cut : ∀ a bytes b more, ok a → c.write a = bytes ++ b :: more →
    c.read bytes = .error .endOfInput
  write_read : ∀ bytes a rest, c.read bytes = .ok (a, rest) → ok a ∧ bytes = c.write a ++ rest

namespace Exact

variable {c : Codec α} {d : Codec β} {ok ok' : α → Prop}

theorem congr (h : c.Exact ok) (hok : ∀ a, ok' a ↔ ok a) : c.Exact ok' := by
  obtain rfl : ok' = ok := funext fun a => propext (hok a)
  exact h

end Exact

theorem ok_of_bind {ε : Type} {x : Except ε α} {f : α → Except ε β} {b : β}
    (h : x >>= f = .ok b) : ∃ a, x = .ok a ∧ f a = .ok b := by
  cases x with
  | error e => cases h
  | ok a => exact ⟨a, rfl, h⟩

/-- A cut through two pieces goes through the first, or through the second behind the first. -/
theorem cut_append {u v bytes more : List UInt8} {b : UInt8} (h : u ++ v = bytes ++ b :: more) :
    (∃ t, u = bytes ++ b :: t) ∨ ∃ mid, bytes = u ++ mid ∧ v = mid ++ b :: more := by
  rcases List.append_eq_append_iff.1 h with ⟨mid, hbytes, hv⟩ | ⟨t, hu, ht⟩
  · exact .inr ⟨mid, hbytes, hv⟩
  · cases t with
    | nil => exact .inr ⟨[], by simpa using hu.symm, by simpa using ht.symm⟩
    | cons b' t =>
      obtain ⟨rfl, -⟩ := List.cons.inj ht
      exact .inl ⟨t, hu⟩

section numbers

variable {k n : Nat} {bytes rest word : List UInt8}

theorem takeBytes_append (h : word.length = n) :
    takeBytes n (word ++ rest) = .ok (word, rest) := by
  subst h
  simp [takeBytes, pure, Except.pure]

theorem takeBytes_cut (h : bytes.length < n) : takeBytes n bytes = .error .endOfInput := by
  simp [takeBytes, Nat.not_le.2 h, throw, throwThe, MonadExceptOf.throw]

theorem append_of_takeBytes (h : takeBytes n bytes = .ok (word, rest)) :
    word.length = n ∧ bytes = word ++ rest := by
  unfold takeBytes at h
  split at h
  · next hn =>
    cases h
    exact ⟨List.length_take_of_le hn, (List.take_append_drop n bytes).symm⟩
  · cases h

@[simp] theorem length_littleEndian : (littleEndian k n).length = k := by
  induction k generalizing n with
  | zero => rfl
  | succ k ih => simp [littleEndian, ih]

theorem natOf_littleEndian (h : n < 256 ^ k) : natOf (littleEndian k n) = n := by
  induction k generalizing n with
  | zero =>
    have : n = 0 := by simpa using h
    simp [littleEndian, natOf, this]
  | succ k ih =>
    have hdiv : n / 256 < 256 ^ k := by
      rw [Nat.div_lt_iff_lt_mul (by decide)]
      rwa [Nat.pow_succ] at h
    simp only [littleEndian, natOf, ih hdiv, UInt8.toNat_ofNat']
    omega

theorem natOf_lt : natOf word < 256 ^ word.length := by
  induction word with
  | nil => simp [natOf]
  | cons b word ih =>
    have hb := b.toNat_lt
    simp only [natOf, List.length_cons, Nat.pow_succ]
    omega

theorem littleEndian_natOf : littleEndian word.length (natOf word) = word := by
  induction word with
  | nil => rfl
  | cons b word ih =>
    have hb := b.toNat_lt
    have hlow : UInt8.ofNat (b.toNat + 256 * natOf word) = b := by
      apply UInt8.toNat_inj.1
      rw [UInt8.toNat_ofNat']
      omega
    have hhigh : (b.toNat + 256 * natOf word) / 256 = natOf word := by omega
    simp only [natOf, List.length_cons, littleEndian, hlow, hhigh, ih]

theorem exact_nat (k : Nat) : (nat k).Exact (· < 256 ^ k) where
  read_write n rest hn := by
    simp only [nat, takeBytes_append length_littleEndian]
    exact congrArg (fun m => Except.ok (m, rest)) (natOf_littleEndian hn)
  read_cut n bytes b more _ h := by
    have hlength := congrArg List.length h
    have hcut : bytes.length < k := by
      simp only [nat, length_littleEndian, List.length_append, List.length_cons] at hlength
      omega
    simp only [nat, takeBytes_cut hcut]
    rfl
  write_read bytes n rest h := by
    obtain ⟨⟨word, rest'⟩, hword, hn⟩ := ok_of_bind h
    cases hn
    obtain ⟨rfl, rfl⟩ := append_of_takeBytes hword
    exact ⟨natOf_lt, congrArg (· ++ rest) littleEndian_natOf.symm⟩

end numbers

section combinators

variable {c : Codec α} {d : Codec β} {ok : α → Prop} {ok' : β → Prop}

theorem exact_unit : unit.Exact fun _ => True where
  read_write _ _ _ := rfl
  read_cut _ bytes _ _ _ h := by
    have hlength := congrArg List.length h
    simp [unit] at hlength
  write_read bytes _ rest h := by
    cases h
    exact ⟨trivial, rfl⟩

theorem Exact.map {f : α → β} {g : β → α} (h : c.Exact ok) (hfg : ∀ b, f (g b) = b)
    (hgf : ∀ a, ok a → g (f a) = a) : (c.map f g).Exact fun b => ok (g b) where
  read_write b rest hb := by
    simp only [Codec.map, h.read_write (g b) rest hb]
    exact congrArg (fun b => Except.ok (b, rest)) (hfg b)
  read_cut b bytes x more hb hcut := by
    simp only [Codec.map, h.read_cut (g b) bytes x more hb hcut]
    rfl
  write_read bytes b rest hread := by
    obtain ⟨⟨a, rest'⟩, ha, hb⟩ := ok_of_bind hread
    cases hb
    obtain ⟨hok, rfl⟩ := h.write_read _ _ _ ha
    have hback := hgf a hok
    exact ⟨by rwa [hback], congrArg (fun a => c.write a ++ rest) hback.symm⟩

theorem Exact.refine {f : α → Option β} {g : β → α} {e : WireError} (h : c.Exact ok)
    (hfg : ∀ b, f (g b) = some b) (hgf : ∀ a b, f a = some b → g b = a) :
    (c.refine f g e).Exact fun b => ok (g b) where
  read_write b rest hb := by
    simp only [Codec.refine, h.read_write (g b) rest hb, bind, Except.bind, hfg]
    rfl
  read_cut b bytes x more hb hcut := by
    simp only [Codec.refine, h.read_cut (g b) bytes x more hb hcut]
    rfl
  write_read bytes b rest hread := by
    obtain ⟨⟨a, rest'⟩, ha, hb⟩ := ok_of_bind hread
    cases hf : f a with
    | none => simp [hf, throw, throwThe, MonadExceptOf.throw] at hb
    | some b' =>
      simp only [hf] at hb
      cases hb
      obtain ⟨hok, rfl⟩ := h.write_read _ _ _ ha
      obtain rfl := hgf a b hf
      exact ⟨hok, rfl⟩

theorem Exact.pair (hc : c.Exact ok) (hd : d.Exact ok') :
    (c.pair d).Exact fun ab => ok ab.1 ∧ ok' ab.2 where
  read_write ab rest hab := by
    simp only [Codec.pair, List.append_assoc, hc.read_write ab.1 _ hab.1, bind, Except.bind,
      hd.read_write ab.2 rest hab.2]
    rfl
  read_cut ab bytes b more hab h := by
    rcases cut_append h with ⟨t, hfirst⟩ | ⟨mid, rfl, hsecond⟩
    · simp only [Codec.pair, hc.read_cut ab.1 bytes b t hab.1 hfirst]
      rfl
    · simp only [Codec.pair, hc.read_write ab.1 mid hab.1, bind, Except.bind,
        hd.read_cut ab.2 mid b more hab.2 hsecond]
  write_read bytes ab rest h := by
    obtain ⟨⟨a, rest₁⟩, ha, h⟩ := ok_of_bind h
    obtain ⟨⟨b, rest₂⟩, hb, h⟩ := ok_of_bind h
    cases h
    obtain ⟨hoka, rfl⟩ := hc.write_read _ _ _ ha
    obtain ⟨hokb, rfl⟩ := hd.write_read _ _ _ hb
    exact ⟨⟨hoka, hokb⟩, (List.append_assoc ..).symm⟩

/-- A count of eight bytes cannot stand for more bytes than that. -/
theorem exact_blob : blob.Exact (·.length < 256 ^ 8) where
  read_write bytes rest h := by
    have hcount := (exact_nat 8).read_write bytes.length (bytes ++ rest) h
    simp only [blob, List.append_assoc, hcount]
    exact takeBytes_append rfl
  read_cut word bytes b more hword h := by
    rcases cut_append h with ⟨t, hcount⟩ | ⟨mid, rfl, hbytes⟩
    · simp only [blob, (exact_nat 8).read_cut word.length bytes b t hword hcount]
      rfl
    · have hlength := congrArg List.length hbytes
      have hmid : mid.length < word.length := by
        simp only [List.length_append, List.length_cons] at hlength
        omega
      simp only [blob, (exact_nat 8).read_write word.length mid hword]
      exact takeBytes_cut hmid
  write_read bytes word rest h := by
    obtain ⟨⟨n, rest'⟩, hn, h⟩ := ok_of_bind h
    obtain ⟨hcount, hbytes⟩ := (exact_nat 8).write_read bytes n rest' hn
    obtain ⟨hlength, hrest⟩ := append_of_takeBytes (n := n) h
    subst hlength hrest hbytes
    exact ⟨hcount, (List.append_assoc ..).symm⟩

theorem read_option_cons {b : UInt8} {rest : List UInt8} :
    (option c).read (b :: rest) = match b.toNat with
      | 0 => .ok (none, rest)
      | 1 => c.read rest >>= fun x => .ok (some x.1, x.2)
      | _ => .error .invalidOption := rfl

theorem read_option_some (rest : List UInt8) :
    (option c).read (1 :: rest) = c.read rest >>= fun x => .ok (some x.1, x.2) := rfl

/-- No third byte says whether there is a value. -/
theorem tag_of_read_option {b : UInt8} {rest : List UInt8} {x : Option α × List UInt8}
    (h : (option c).read (b :: rest) = .ok x) : b = 0 ∨ b = 1 := by
  rw [read_option_cons] at h
  rw [← UInt8.toNat_inj, ← UInt8.toNat_inj]
  split at h
  · exact .inl ‹_›
  · exact .inr ‹_›
  · cases h

theorem Exact.option (h : c.Exact ok) : (option c).Exact fun o => ∀ a ∈ o, ok a where
  read_write o rest ho := by
    cases o with
    | none => rfl
    | some a =>
      have hread := h.read_write a rest (ho a rfl)
      exact (read_option_some (c.write a ++ rest)).trans (by rw [hread]; rfl)
  read_cut o bytes b more ho hcut := by
    cases bytes with
    | nil => rfl
    | cons tag bytes =>
      cases o with
      | none => cases List.cons.inj hcut with | intro _ h => simp at h
      | some a =>
        obtain ⟨rfl, hvalue⟩ := List.cons.inj hcut
        rw [read_option_some, h.read_cut a bytes b more (ho a rfl) hvalue]
        rfl
  write_read bytes o rest hread := by
    cases bytes with
    | nil => cases hread
    | cons b bytes =>
      rcases tag_of_read_option hread with rfl | rfl
      · cases hread
        exact ⟨by simp, rfl⟩
      · rw [read_option_some] at hread
        obtain ⟨⟨a, rest'⟩, ha, ho⟩ := ok_of_bind hread
        cases ho
        obtain ⟨hok, hbytes⟩ := h.write_read bytes a rest' ha
        refine ⟨by rintro _ ⟨⟩; exact hok, ?_⟩
        rw [hbytes]
        rfl

end combinators

end Codec

namespace Arm

variable {α : Type} {ok : α → Prop}

/-- An arm takes apart just what it builds. -/
structure Lawful (arm : Arm α) : Prop where
  view_build : ∀ content, arm.view (arm.build content) = some content
  build_view : ∀ a content, arm.view a = some content → arm.build content = a

theorem lawful_constant {a : α} {is : α → Bool} (h : ∀ b, is b = true ↔ b = a) :
    (constant a is).Lawful where
  view_build _ := if_pos ((h a).2 rfl)
  build_view b _ hview := by
    cases hb : is b with
    | true => exact ((h b).1 hb).symm
    | false => simp [constant, hb] at hview

/-- The arms of a type, of which every value has exactly one. -/
structure Complete (arms : List (Arm α)) : Prop where
  lawful : ∀ arm ∈ arms, arm.Lawful
  apart : arms.Pairwise fun x y => ∀ content, x.view (y.build content) = none
  covers : ∀ a, ∃ arm ∈ arms, (arm.view a).isSome
  length_le : arms.length ≤ 256 ^ 4

variable {arms : List (Arm α)} {arm : Arm α} {a : α} {i number : Nat}

theorem write_of_view {content : arm.Content} (harm : arms[i]? = some arm)
    (hview : arm.view a = some content)
    (hskip : ∀ j other, j < i → arms[j]? = some other → other.view a = none) :
    write arms number a = (Codec.nat 4).write (number + i) ++ arm.codec.write content := by
  induction arms generalizing i number with
  | nil => simp at harm
  | cons first arms ih =>
    cases i with
    | zero =>
      obtain rfl : first = arm := by simpa using harm
      simp [write, hview]
    | succ i =>
      have hfirst : first.view a = none := hskip 0 first i.succ_pos rfl
      have hrest : write arms (number + 1) a = (Codec.nat 4).write (number + 1 + i) ++ _ :=
        ih (by simpa using harm) fun j other hj h =>
          hskip (j + 1) other (by omega) (by simpa using h)
      rw [write, hfirst, hrest, Nat.add_right_comm, Nat.add_assoc]

namespace Complete

theorem write_build (h : Complete arms) (harm : arms[i]? = some arm) (content : arm.Content) :
    write arms 0 (arm.build content) = (Codec.nat 4).write i ++ arm.codec.write content := by
  obtain ⟨hi, rfl⟩ := List.getElem?_eq_some_iff.1 harm
  have hview := (h.lawful _ (List.getElem_mem hi)).view_build content
  have hskip : ∀ j other, j < i → arms[j]? = some other →
      other.view (arms[i].build content) = none := by
    intro j other hj hother
    obtain ⟨hj', rfl⟩ := List.getElem?_eq_some_iff.1 hother
    exact List.pairwise_iff_getElem.1 h.apart j i hj' hi hj content
  rw [write_of_view harm hview hskip, Nat.zero_add]

theorem exists_build (h : Complete arms) (a : α) :
    ∃ i arm content, i < 256 ^ 4 ∧ arms[i]? = some arm ∧ a = arm.build content := by
  obtain ⟨arm, hmem, hview⟩ := h.covers a
  obtain ⟨i, hi, rfl⟩ := List.mem_iff_getElem.1 hmem
  obtain ⟨content, hcontent⟩ := Option.isSome_iff_exists.1 hview
  exact ⟨i, arms[i], content, Nat.lt_of_lt_of_le hi h.length_le, List.getElem?_eq_getElem hi,
    ((h.lawful _ hmem).build_view a content hcontent).symm⟩

end Complete

theorem read_union {bytes rest : List UInt8} (harm : arms[i]? = some arm)
    (hnumber : (Codec.nat 4).read bytes = .ok (i, rest)) :
    (Codec.union arms).read bytes = arm.codec.read rest >>= fun x => .ok (arm.build x.1, x.2) := by
  simp only [Codec.union, hnumber, bind, Except.bind, harm]
  rfl

theorem Complete.exact_union (h : Complete arms)
    (hcodec : ∀ arm ∈ arms, arm.codec.Exact fun content => ok (arm.build content)) :
    (Codec.union arms).Exact ok where
  read_write a rest ha := by
    obtain ⟨i, arm, content, hi, harm, rfl⟩ := h.exists_build a
    have hnumber := (Codec.exact_nat 4).read_write i (arm.codec.write content ++ rest) hi
    have hwrite : (Codec.union arms).write (arm.build content) = _ := h.write_build harm content
    rw [hwrite, List.append_assoc, read_union harm hnumber,
      (hcodec arm (List.mem_of_getElem? harm)).read_write content rest ha]
    rfl
  read_cut a bytes b more ha hcut := by
    obtain ⟨i, arm, content, hi, harm, rfl⟩ := h.exists_build a
    rcases Codec.cut_append ((h.write_build harm content).symm.trans hcut) with
      ⟨t, hnumber⟩ | ⟨mid, rfl, hcontent⟩
    · simp only [Codec.union, (Codec.exact_nat 4).read_cut i bytes b t hi hnumber]
      rfl
    · have hnumber := (Codec.exact_nat 4).read_write i mid hi
      rw [read_union harm hnumber,
        (hcodec arm (List.mem_of_getElem? harm)).read_cut content mid b more ha hcontent]
      rfl
  write_read bytes a rest hread := by
    obtain ⟨⟨i, rest'⟩, hnumber, hcontent⟩ := Codec.ok_of_bind hread
    obtain ⟨-, hbytes⟩ := (Codec.exact_nat 4).write_read bytes i rest' hnumber
    cases harm : arms[i]? with
    | none => simp [harm, throw, throwThe, MonadExceptOf.throw] at hcontent
    | some arm =>
      rw [read_union harm hnumber] at hread
      obtain ⟨⟨content, rest''⟩, hc, ha⟩ := Codec.ok_of_bind hread
      cases ha
      obtain ⟨hok, hrest⟩ :=
        (hcodec arm (List.mem_of_getElem? harm)).write_read rest' content rest'' hc
      refine ⟨hok, ?_⟩
      rw [hbytes, hrest, ← List.append_assoc]
      exact congrArg (· ++ rest'') (h.write_build harm content).symm

end Arm

end PortalNet
