import Mathlib.Data.List.Basic
import PortalNet.Proofs.Relay.Names

/-! # Servers that are heard in time

A directory remembers of each server when it was heard last. While the clock never goes back this is
the latest of all times at which the server was heard, so those are evicted that were silent for too
long, and they alone. One whose packets keep coming is lost only if it leaves or if another server
takes its address.
-/

namespace PortalNet

/-- When an event takes place. Nobody looks at the clock when a server leaves. -/
def DirectoryEvent.time? : DirectoryEvent → Option Nat
  | .register _ _ now => some now
  | .deregister _ => none
  | .heartbeat _ now => some now
  | .evict now _ => some now

namespace Directory

/-- When a server is heard in an event: it registers, or something comes from its address. -/
def hears? (d : Directory) (name : String) : DirectoryEvent → Option Nat
  | .register n _ now => if n = name then some now else none
  | .heartbeat addr now => if d.addressOf? name = some addr then some now else none
  | _ => none

/-- The times at which a server is heard in a run. -/
def heard (d : Directory) (name : String) : List DirectoryEvent → List Nat
  | [] => []
  | e :: es => (d.hears? name e).toList ++ (d.after e).heard name es

/-- The clock never goes back. -/
def Clocked (es : List DirectoryEvent) : Prop :=
  (es.filterMap (·.time?)).Pairwise (· ≤ ·)

instance (es : List DirectoryEvent) : Decidable (Clocked es) :=
  inferInstanceAs (Decidable (List.Pairwise ..))

/-- Why a server is no longer registered after an event: it left, another one took its address, or
none of the times at which it had been heard was within the limit. -/
inductive LostTo (d : Directory) (name : String) (times : List Nat) : DirectoryEvent → Prop
  | farewell : LostTo d name times (.deregister name)
  | other {n : String} {addr : Address} {now : Nat} : n ≠ name → d.addressOf? name = some addr →
    LostTo d name times (.register n addr now)
  | silence {now limit : Nat} : (∀ t ∈ times, limit < now - t) →
    LostTo d name times (.evict now limit)

variable {d : Directory} {name n : String} {addr a : Address} {now limit t : Nat} {m : Member}
  {e : DirectoryEvent} {es fs : List DirectoryEvent}

theorem time?_of_hears? (h : d.hears? name e = some t) : e.time? = some t := by
  cases e with
  | register n addr now =>
    rw [hears?] at h
    split at h
    · exact h
    · cases h
  | heartbeat addr now =>
    rw [hears?] at h
    split at h
    · exact h
    · cases h
  | deregister n => cases h
  | evict now limit => cases h

theorem heard_sublist : (d.heard name es).Sublist (es.filterMap (·.time?)) := by
  induction es generalizing d with
  | nil => exact .slnil
  | cons e es ih =>
    have hcons : (e :: es).filterMap (·.time?) = e.time?.toList ++ es.filterMap (·.time?) := by
      cases ht : e.time? <;> simp [ht]
    rw [heard, hcons]
    refine List.Sublist.append ?_ ih
    cases h : d.hears? name e with
    | none => exact List.nil_sublist _
    | some t => rw [time?_of_hears? h]

/-- A registration answers the other address that the name had. -/
theorem register_eq_some_iff :
    (d.register name addr now).1 = some a ↔ d.addressOf? name = some a ∧ a ≠ addr := by
  have hvacate : (d.vacate name addr).addressOf? name = d.addressOf? name := by
    unfold Directory.vacate
    split
    · next previous hprevious =>
      split
      · rfl
      · next hne =>
        rw [addressOf?_deregister, if_neg (Ne.symm hne)]
    · rfl
  change ((d.vacate name addr).addressOf? name).filter _ = _ ↔ _
  rw [hvacate, Option.filter_eq_some_iff, decide_eq_true_eq]

namespace OneToOne

variable (hd : d.OneToOne)

include hd

/-- What is remembered of a server after an event is when it was heard in it, and else as before. -/
theorem lastSeen_after (h : (d.after e).get? name = some m) :
    (d.hears? name e).or ((d.get? name).map (·.lastSeen)) = some m.lastSeen := by
  have hkept : ∀ k, d.get? name = some k → k.lastSeen = m.lastSeen →
      (d.get? name).map (·.lastSeen) = some m.lastSeen :=
    fun k hk hlast => by rw [hk, Option.map_some, hlast]
  cases e with
  | register n addr now =>
    rw [Directory.after, get?_register] at h
    rw [hears?]
    split at h
    · next hn =>
      cases h
      rw [if_pos hn, Option.some_or]
    · next hn =>
      rw [if_neg hn, Option.none_or]
      unfold Directory.vacate at h
      split at h
      · split at h
        · exact hkept m h rfl
        · rw [get?_deregister] at h
          split at h
          · cases h
          · exact hkept m h rfl
      · exact hkept m h rfl
  | deregister n =>
    rw [Directory.after, get?_deregister] at h
    split at h
    · cases h
    · exact hkept m h rfl
  | heartbeat addr now =>
    simp only [Directory.after, get?_heartbeat, hd.nameAt?_eq_some_iff] at h
    rw [hears?]
    split at h
    · next haddr =>
      obtain ⟨k, -, rfl⟩ := Option.map_eq_some_iff.1 h
      rw [if_pos haddr, Option.some_or]
    · next haddr =>
      rw [if_neg haddr, Option.none_or]
      exact hkept m h rfl
  | evict now limit =>
    rw [Directory.after, get?_evict, Option.filter_eq_some_iff] at h
    exact hkept m h.1 rfl

/-- What is remembered of a server after a run is when it was heard last, and else as before. -/
theorem lastSeen_run (h : (d.run es).get? name = some m) :
    (d.heard name es).getLast?.or ((d.get? name).map (·.lastSeen)) = some m.lastSeen := by
  induction es generalizing d with
  | nil => exact congrArg (Option.map (·.lastSeen)) h
  | cons e es ih =>
    have hrest := ih (hd.after e) h
    rw [heard, List.getLast?_append]
    cases hlast : ((d.after e).heard name es).getLast? with
    | some t =>
      rw [hlast] at hrest
      exact hrest
    | none =>
      rw [hlast, Option.none_or] at hrest
      obtain ⟨k, hk, hlastSeen⟩ := Option.map_eq_some_iff.1 hrest
      rw [Option.none_or, ← hlastSeen, ← hd.lastSeen_after hk]
      cases d.hears? name e <;> rfl

theorem nodup_evict : (d.evict now limit).1.Nodup := by
  have hkeys : d.members.values.map (·.name) = d.members.keys := by
    rw [Table.values, List.map_map]
    exact List.map_congr_left fun e he => hd.keyed e.1 e.2 (Table.get?_eq_some_iff.2 he)
  have hall : (d.members.values.map (·.name)).Nodup := hkeys ▸ d.members.nodup
  exact hall.sublist (List.filter_sublist.map _)

theorem get?_evict_eq :
    (d.evict now limit).2.get? n = if n ∈ (d.evict now limit).1 then none else d.get? n := by
  simp only [get?_evict, hd.keyed.mem_evict_iff]
  cases d.get? n with
  | none => simp
  | some m => by_cases hm : m.isSilent now limit <;> simp [hm]

end OneToOne

/-- A server is remembered with the latest time at which it was heard. -/
theorem latest_heard (hclock : Clocked es) (h : (run {} es).get? name = some m) :
    m.lastSeen ∈ heard {} name es ∧ ∀ t ∈ heard {} name es, t ≤ m.lastSeen := by
  have hlast : (heard {} name es).getLast? = some m.lastSeen := by
    have h := OneToOne.empty.lastSeen_run h
    rwa [show ({} : Directory).get? name = none from rfl, Option.map_none, Option.or_none] at h
  obtain ⟨ts, hts⟩ := List.getLast?_eq_some_iff.1 hlast
  have hsorted : (heard {} name es).Pairwise (· ≤ ·) := hclock.sublist heard_sublist
  rw [hts] at hsorted ⊢
  refine ⟨List.mem_append_right _ List.mem_cons_self, ?_⟩
  intro t ht
  rcases List.mem_append.1 ht with ht | ht
  · exact (List.pairwise_append.1 hsorted).2.2 t ht _ List.mem_cons_self
  · exact Nat.le_of_eq (List.mem_singleton.1 ht)

/-- Those are evicted that were not heard within the limit. -/
theorem mem_evict_iff_heard (hclock : Clocked es) :
    n ∈ ((run {} es).evict now limit).1 ↔
      (run {} es).Has n ∧ ∀ t ∈ heard {} n es, limit < now - t := by
  rw [(OneToOne.empty.run es).keyed.mem_evict_iff]
  constructor
  · rintro ⟨m, hm, hsilent⟩
    refine ⟨Option.isSome_iff_exists.2 ⟨m, hm⟩, fun t ht => ?_⟩
    have hle := (latest_heard hclock hm).2 t ht
    simp only [Member.isSilent, decide_eq_true_eq] at hsilent
    omega
  · rintro ⟨hhas, hall⟩
    obtain ⟨m, hm⟩ := Option.isSome_iff_exists.1 hhas
    exact ⟨m, hm, decide_eq_true (hall _ (latest_heard hclock hm).1)⟩

/-- An event by which a server is lost has a cause. -/
theorem lostTo_of_after (hclock : Clocked es) (h : (run {} es).Has n)
    (hlost : ¬ ((run {} es).after e).Has n) : (run {} es).LostTo n (heard {} n es) e := by
  have hone : (run {} es).OneToOne := OneToOne.empty.run es
  cases e with
  | register k addr now =>
    rw [after, has_register_iff] at hlost
    obtain ⟨hne, htaken⟩ := not_or.1 hlost
    have hname := Decidable.not_not.1 (not_and.1 htaken h)
    exact .other (Ne.symm hne) (hone.nameAt?_eq_some_iff.1 hname)
  | deregister k =>
    rw [after, has_deregister_iff] at hlost
    obtain rfl : n = k := Decidable.not_not.1 fun hne => hlost ⟨hne, h⟩
    exact .farewell
  | heartbeat addr now => exact absurd (has_heartbeat_iff.2 h) hlost
  | evict now limit =>
    rw [after, hone.keyed.has_evict_iff] at hlost
    have hout := Decidable.not_not.1 (not_and.1 hlost h)
    exact .silence ((mem_evict_iff_heard hclock).1 hout).2

theorem Clocked.of_append (h : Clocked (es ++ fs)) : Clocked es := by
  rw [Clocked, List.filterMap_append] at h
  exact (List.pairwise_append.1 h).1

theorem exists_lostTo (hclock : Clocked (es ++ fs)) (h : (run {} es).Has n)
    (hlost : ¬ (run {} (es ++ fs)).Has n) :
    ∃ before e later, fs = before ++ e :: later ∧
      (run {} (es ++ before)).LostTo n (heard {} n (es ++ before)) e := by
  induction fs generalizing es with
  | nil => exact absurd (by rwa [List.append_nil] at hlost) (not_not_intro h)
  | cons e fs ih =>
    rw [List.append_cons] at hclock hlost
    have hafter : run {} (es ++ [e]) = (run {} es).after e := run_append
    by_cases hhas : (run {} (es ++ [e])).Has n
    · obtain ⟨before, e', later, rfl, hlostTo⟩ := ih hclock hhas hlost
      rw [← List.append_cons] at hlostTo
      exact ⟨e :: before, e', later, rfl, hlostTo⟩
    · refine ⟨[], e, fs, rfl, ?_⟩
      rw [List.append_nil]
      exact lostTo_of_after hclock.of_append.of_append h (hafter ▸ hhas)

/-- At every moment of every run with a clock that never goes back, names and addresses stand for
each other, a registration answers just the address that it replaces, and just those servers are
evicted that were not heard within the limit. No server that registered is ever lost but for a
cause. -/
theorem members_exact (hclock : Clocked es) :
    let d : Directory := run {} es
    (∀ n m, d.get? n = some m → m.name = n) ∧
    (∀ n k a, d.addressOf? n = some a → d.addressOf? k = some a → n = k) ∧
    (∀ n a, d.nameAt? a = some n ↔ d.addressOf? n = some a) ∧
    (∀ n addr now a,
      (d.register n addr now).1 = some a ↔ d.addressOf? n = some a ∧ a ≠ addr) ∧
    (∀ now limit, (d.evict now limit).1.Nodup ∧
      (∀ n, n ∈ (d.evict now limit).1 ↔ d.Has n ∧ ∀ t ∈ heard {} n es, limit < now - t) ∧
      ∀ n, (d.evict now limit).2.get? n =
        if n ∈ (d.evict now limit).1 then none else d.get? n) ∧
    ∀ n before later, es = before ++ later → (run {} before).Has n → ¬ d.Has n →
      ∃ past e rest, later = past ++ e :: rest ∧
        (run {} (before ++ past)).LostTo n (heard {} n (before ++ past)) e := by
  intro d
  have hone : d.OneToOne := OneToOne.empty.run es
  refine ⟨hone.keyed, hone.inj, fun n a => hone.nameAt?_eq_some_iff,
    fun n addr now a => register_eq_some_iff, ?_, ?_⟩
  · intro now limit
    exact ⟨hone.nodup_evict, fun n => mem_evict_iff_heard hclock, fun n => hone.get?_evict_eq⟩
  · rintro n before later rfl hhas hlost
    exact exists_lostTo hclock hhas hlost

end Directory

namespace Sample

def bothRegister : List DirectoryEvent :=
  [.register "survival" survivalAddress 0, .register "creative" creativeAddress 1]

/-- Only one of the two servers is heard again before the silent ones are evicted. -/
def oneIsHeard : List DirectoryEvent :=
  [.heartbeat survivalAddress 8, .evict 12 10]

end Sample

open Sample in
theorem silent_server_evicted :
    let es := bothRegister ++ oneIsHeard
    let d : Directory := .run {} es
    Directory.Clocked es ∧ "survival" ∉ (d.evict 18 10).1 ∧ "survival" ∈ (d.evict 19 10).1 ∧
    ∃ past e rest, oneIsHeard = past ++ e :: rest ∧
      (Directory.run {} (bothRegister ++ past)).LostTo "creative"
        (Directory.heard {} "creative" (bothRegister ++ past)) e := by
  intro es d
  have hclock : Directory.Clocked es := by decide
  have hheard : Directory.heard {} "survival" es = [0, 8] := by decide +kernel
  obtain ⟨-, -, -, -, hevict, hlost⟩ := Directory.members_exact hclock
  have hiff : ∀ now, "survival" ∈ (d.evict now 10).1 ↔ ∀ t ∈ [0, 8], 10 < now - t := by
    intro now
    have hhas : d.Has "survival" := by decide +kernel
    rw [(hevict now 10).2.1, hheard]
    exact and_iff_right hhas
  refine ⟨hclock, fun h => absurd ((hiff 18).1 h) (by decide), (hiff 19).2 (by decide), ?_⟩
  exact hlost "creative" bothRegister oneIsHeard rfl (by decide +kernel) (by decide +kernel)

end PortalNet
