import PolledUart.Proofs.CallEffects
import PolledUart.Sim.Script

/-!
# The state of a driver after any history

What a driver knows of its past is its table of ports and a few unread characters. The
table lists just the ports that were brought up, in order, and a port that is in it
stays in it; the id of a port is its place in the table. No receive cache ever holds
more characters than fit in a word.

* `Driver.Reached` — the state of a driver, told by the ports that were brought up.
* `Driver.Reached.leaves` — a completed call keeps to it.
* `ports_of_history` — so does any history.
-/

namespace PolledUart

open Sim

variable {σ κ : Type} {slots : Nat}

/-- The port that an entry has brought up, with its base. -/
def Entry.broughtUp : Entry slots κ → Option (PortId × Address)
  | .call _ (.init _ _ _ base) (.port (.ok id)) _ => some (id, base)
  | _ => none

namespace Driver

variable {d d' : Driver slots} {ups : List (PortId × Address)}

/-- The state of a driver on which some ports were brought up, in this order. -/
structure Reached (d : Driver slots) (ups : List (PortId × Address)) : Prop where
  bases : d.ports.bases = ups.map (·.2)
  ids : ups.map (·.1.index) = List.range ups.length
  length_le : ups.length ≤ PortId.limit
  ne_zero : ∀ up ∈ ups, up.2 ≠ 0
  caches : ∀ cache ∈ d.caches, cache.remaining ≤ 4

theorem reached_new (config : Config) : (new config : Driver slots).Reached [] where
  bases := rfl
  ids := rfl
  length_le := Nat.zero_le _
  ne_zero := fun _ h => absurd h List.not_mem_nil
  caches := by
    intro cache h
    rw [(Vector.mem_replicate.1 h).2]
    decide

/-- Replacing one cache by another that is small enough. -/
theorem remaining_of_mem_setIfInBounds {caches : Vector RxCache slots} {slot : Nat}
    {cache cache' : RxCache} (hcaches : ∀ c ∈ caches, c.remaining ≤ 4)
    (hcache : cache.remaining ≤ 4) (h : cache' ∈ caches.setIfInBounds slot cache) :
    cache'.remaining ≤ 4 := by
  obtain ⟨i, hi, rfl⟩ := Vector.mem_iff_getElem.1 h
  rw [Vector.getElem_setIfInBounds]
  split
  · exact hcache
  · exact hcaches _ (Vector.getElem_mem hi)

namespace Reached

theorem size_eq (h : d.Reached ups) : d.ports.size = ups.length := by
  rw [Registry.size, h.bases, List.length_map]

theorem index_eq (h : d.Reached ups) {k : Nat} {up : PortId × Address} (hup : ups[k]? = some up) :
    up.1.index = k := by
  have hk : (ups.map (·.1.index))[k]? = some up.1.index := by
    rw [List.getElem?_map, hup]
    rfl
  rw [h.ids, List.getElem?_range (List.getElem?_eq_some_iff.1 hup).1] at hk
  exact (Option.some.inj hk).symm

theorem resolve_eq (h : d.Reached ups) (id : PortId) :
    d.ports.resolve id = (ups.map (·.2))[id.index]? := by
  rw [Registry.resolve, h.bases]

theorem toList_eq (h : d.Reached ups) : d.ports.toList = ups := by
  rw [Registry.toList, h.bases]
  refine List.ext_getElem? fun k => ?_
  rw [List.getElem?_mapIdx, List.getElem?_map]
  cases hup : ups[k]? with
  | none => rfl
  | some up =>
    obtain ⟨id, base⟩ := up
    have hid : UInt8.ofNat k = id.val := by
      rw [← h.index_eq hup, PortId.index, UInt8.ofNat_toNat]
    simp only [Option.map_some, hid]

theorem cacheOf (h : d.Reached ups) (port : PortId) : (d.cacheOf port).remaining ≤ 4 := by
  unfold Driver.cacheOf
  cases hcache : d.caches[port.index]? with
  | none => decide
  | some cache => exact h.caches cache (Vector.mem_of_getElem? hcache)

/-- **A completed call** adds the port that it has brought up, if it has. -/
theorem leaves {c : Call} {reply : Reply} {t : List Event} (h : d.Reached ups)
    (hl : d.Leaves c reply d') :
    d'.Reached (ups ++ (Entry.broughtUp (.call d c reply t : Entry slots κ)).toList) := by
  cases hl with
  | failed =>
    rw [show (Entry.broughtUp (.call d _ _ t : Entry slots κ)).toList = [] from rfl, List.append_nil]
    exact h
  | @opened _ _ _ base id _ hbase hopens =>
    have hid : id.index = ups.length := hopens.index_eq.trans h.size_eq
    refine ⟨?_, ?_, ?_, ?_, ?_⟩
    · rw [hopens.gains.bases, h.bases]
      simp [Entry.broughtUp]
    · simp [Entry.broughtUp, h.ids, hid, List.range_succ]
    · have hlt : id.index < PortId.limit := id.val.toNat_lt
      simp only [Entry.broughtUp, Option.toList_some, List.length_append, List.length_singleton]
      omega
    · intro up hup
      rcases List.mem_append.1 hup with hup | hup
      · exact h.ne_zero up hup
      · obtain rfl : up = (id, base) := by simpa [Entry.broughtUp] using hup
        exact hbase
    · intro cache hcache
      rw [hopens.caches] at hcache
      exact remaining_of_mem_setIfInBounds h.caches (by decide) hcache
  | @used _ _ port cache hc hle =>
    have hnone : Entry.broughtUp (.call d c reply t : Entry slots κ) = none := by
      cases c with
      | init _ _ _ _ => cases hc
      | _ => rfl
    rw [hnone, Option.toList_none, List.append_nil]
    refine ⟨h.bases, h.ids, h.length_le, h.ne_zero, fun cache' hcache => ?_⟩
    exact remaining_of_mem_setIfInBounds h.caches (hle (h.cacheOf port)) hcache

end Reached

end Driver

/-! ### Histories -/

section Histories

variable {bus : Bus σ} {operate : κ → σ → Option σ} {x x' : Session σ slots}
  {entries : List (Entry slots κ)}

/-- What a history makes of a driver is told by the ports it brings up. -/
theorem reached_of_history {ups : List (PortId × Address)} (hx : x.driver.Reached ups)
    (h : History bus operate x entries x') :
    x'.driver.Reached (ups ++ entries.filterMap Entry.broughtUp) := by
  induction h generalizing ups with
  | nil => exact (List.append_nil ups).symm ▸ hx
  | @call x x₁ x' _ c reply t rest hperform _ ih =>
    have hleaves := Driver.leaves_of_completes (Session.perform_eq_ok_iff.1 hperform)
    have hreached : x₁.driver.Reached
        (ups ++ (Entry.broughtUp (.call x.driver c reply t : Entry slots κ)).toList) :=
      hx.leaves hleaves
    have hall := ih hreached
    rw [List.append_assoc] at hall
    cases hup : Entry.broughtUp (.call x.driver c reply t : Entry slots κ) with
    | none =>
      rw [hup] at hall
      rwa [List.filterMap_cons_none hup]
    | some up =>
      rw [hup] at hall
      rwa [List.filterMap_cons_some hup]
  | control _ _ ih => exact ih hx

/-- A call of a history has been made on the session that what came before has led to, and has left
a driver for what comes after. -/
theorem leaves_of_history {before after : List (Entry slots κ)} {d : Driver slots} {c : Call}
    {reply : Reply} {t : List Event}
    (h : History bus operate x (before ++ .call d c reply t :: after) x') :
    ∃ y z, History bus operate x before y ∧ y.driver = d ∧ d.Leaves c reply z.driver ∧
      History bus operate z after x' := by
  obtain ⟨y, hbefore, hcall⟩ := history_append_iff.1 h
  cases hcall with
  | @call _ z _ _ _ _ _ _ hperform hafter =>
    exact ⟨y, z, hbefore, rfl, Driver.leaves_of_completes (Session.perform_eq_ok_iff.1 hperform),
      hafter⟩

/-- **The state of a driver.** After any history of a new driver its ports are those that were
brought up: the k-th has the id k, the ids resolve to the bases and no others do, and there are no
more of them than slots and ids. No port has a null base, and no cache holds more than a word.
Whatever resolves once resolves for ever, and a call opens a port or replaces the cache of its port,
or leaves the driver as it is. -/
theorem ports_of_history {config : Config} {s : σ}
    (h : History bus operate ⟨.new config, s⟩ entries x') :
    (∀ (k : Nat) (id : PortId) (base : Address), (entries.filterMap Entry.broughtUp)[k]? =
        some (id, base) → id.index = k) ∧
      (∀ id, x'.driver.ports.resolve id =
        ((entries.filterMap Entry.broughtUp).map (·.2))[id.index]?) ∧
      x'.driver.ports.toList = entries.filterMap Entry.broughtUp ∧
      x'.driver.ports.size = (entries.filterMap Entry.broughtUp).length ∧
      x'.driver.ports.size ≤ min slots PortId.limit ∧
      (∀ id base, (id, base) ∈ entries.filterMap Entry.broughtUp → base ≠ 0) ∧
      (∀ cache ∈ x'.driver.caches, cache.remaining ≤ 4) ∧
      ∀ before d c reply t after, entries = before ++ .call d c reply t :: after →
        ∃ y z, History bus operate ⟨.new config, s⟩ before y ∧ y.driver = d ∧
          d.Leaves c reply z.driver ∧ History bus operate z after x' ∧
          ∀ id base, z.driver.ports.resolve id = some base →
            x'.driver.ports.resolve id = some base := by
  have hreached : x'.driver.Reached (entries.filterMap Entry.broughtUp) :=
    reached_of_history (Driver.reached_new config) h
  refine ⟨fun k id base hup => hreached.index_eq hup, hreached.resolve_eq, hreached.toList_eq,
    hreached.size_eq, ?_, fun id base hup => hreached.ne_zero _ hup, hreached.caches, ?_⟩
  · have hslots := x'.driver.ports.size_le
    have hids := hreached.length_le
    rw [hreached.size_eq] at hslots ⊢
    omega
  · rintro before d c reply t after rfl
    obtain ⟨y, z, hbefore, hd, hleaves, hafter⟩ := leaves_of_history h
    refine ⟨y, z, hbefore, hd, hleaves, hafter, fun id base hresolve => ?_⟩
    have hy := reached_of_history (Driver.reached_new config) hbefore
    have hz := (hd ▸ hy).leaves (κ := κ) (t := t) hleaves
    have hend := reached_of_history hz hafter
    rw [hz.resolve_eq] at hresolve
    rw [hend.resolve_eq, List.map_append, List.getElem?_append_left]
    · exact hresolve
    · exact (List.getElem?_eq_some_iff.1 hresolve).1

/-- Two slots and five attempts: a null base, a port, a character read from it, a second port, and a
third one that finds no slot. -/
theorem ports_of_history_full :
    ∃ (entries : List (Entry 2 Script.Control)) (x' : Session (Rig Script) 2),
      History (Script.hardware.rigged ⟨[], 1000⟩) Script.hardware.operate
        ⟨.new { Config.standard with banner := none },
          .start (.ofList [(0x10a4, [1]), (0x1140, [0x64636261])])⟩ entries x' ∧
      entries.filterMap Entry.broughtUp = [(⟨0⟩, 0x1000), (⟨1⟩, 0x2000)] ∧
      x'.driver.caches.toList = [⟨⟨0x646362⟩, 3⟩, .empty] ∧
      x'.driver.ports.toList = [(⟨0⟩, 0x1000), (⟨1⟩, 0x2000)] ∧
      ∀ id, 2 ≤ id.index → x'.driver.ports.resolve id = none := by
  let moves : List (Move Script.Control) :=
    [.call 0 (.init .hooks 0 none 0), .call 0 (.init .hooks 0 none 0x1000),
      .call 0 (.getChar ⟨0⟩ false), .call 0 (.init .ready 1 (some 0x5000) 0x2000),
      .call 0 (.init .ready 2 none 0x3000), .call 0 (.write ⟨7⟩ [0x61])]
  have hrun : (Session.replay (Script.hardware.rigged ⟨[], 1000⟩) Script.hardware.operate moves
      (⟨.new { Config.standard with banner := none },
        .start (.ofList [(0x10a4, [1]), (0x1140, [0x64636261])])⟩ : Session (Rig Script) 2)).map
        (fun r => (r.1.filterMap Entry.broughtUp, r.2.driver.caches.toList)) =
      some ([(⟨0⟩, 0x1000), (⟨1⟩, 0x2000)], [⟨⟨0x646362⟩, 3⟩, .empty]) := by
    decide +kernel
  obtain ⟨⟨entries, x'⟩, hreplay, hvalues⟩ := Option.map_eq_some_iff.1 hrun
  obtain ⟨hups, hcaches⟩ := Prod.mk.inj hvalues
  obtain ⟨hhistory, -⟩ := history_of_replay hreplay
  obtain ⟨-, hresolve, hlist, -⟩ := ports_of_history hhistory
  rw [hups] at hlist
  refine ⟨entries, x', hhistory, hups, hcaches, hlist, fun id hid => ?_⟩
  rw [hresolve id, hups]
  exact List.getElem?_eq_none hid

end Histories

end PolledUart
