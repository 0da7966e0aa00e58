import PolledUart.Proofs.CallEffects
import PolledUart.Sim.Script

/-!
# The account of a port

Whatever a bus answers, a port hands out what was fetched for it, no more and no less.
Ports may share a block and calls may come in any order: the words fetched by the calls
on one port, cut to the characters that are valid in them, are what these calls have
handed out and what is still in the cache of the port.

* `PortCall` — what a call on a port has done to it.
* `Session.HasPort.call` — every call on the port is such a call, and no other call
  touches it.
* `drawn_of_history` — the account of a port over any history since it was brought up.
-/

namespace PolledUart

open Trace Sim

variable {σ κ : Type} {slots : Nat}

/-- The characters that an entry hands out on a port. -/
def Entry.bytesFor (port : PortId) : Entry slots κ → List UInt8
  | .call _ c reply _ => if c.port? = some port then reply.bytes else []
  | .control _ => []

/-- The words that an entry fetches on behalf of a port. -/
def Entry.wordsFor (port : PortId) (b : Block) : Entry slots κ → List Received
  | .call _ c _ t => if c.port? = some port then fetched b t else []
  | .control _ => []

/-- What a call on a port has done to it, with its cache before and after: a call that reads draws
the words of its trace, and a call that sends draws nothing. -/
structure PortCall (b : Block) (c : Call) (before : RxCache) (reply : Reply) (t : List Event)
    (after : RxCache) : Prop where
  draws : Draws b before (if c.reads then t else []) (fetched b t) reply.bytes after
  looks : c.reads = false → OnlyLooks b t
  once : readsAt (b.location .rf) t = (fetched b t).map (·.word.raw)
  prompted : Prompted b t

/-- A trace that reads nothing but the two status registers does not read the data register. -/
theorem Trace.OnlyLooks.not_mem {b : Block} {t : List Event} (hm : b.map.ReadsApart)
    (h : OnlyLooks b t) (v : UInt32) : b.readEvent .rf v ∉ t := by
  obtain ⟨-, -, hsr, -, hir, -⟩ := hm.ne
  intro hmem
  rcases h _ _ hmem with heq | heq
  · exact hsr (Block.location_inj.1 heq).symm
  · exact hir (Block.location_inj.1 heq).symm

namespace Session

variable {bus : Bus σ} {b : Block} {port : PortId} {x x' : Session σ slots} {fuel : Nat} {c : Call}
  {reply : Reply} {t : List Event}

/-- A port of the session is a block. -/
structure HasPort (x : Session σ slots) (port : PortId) (b : Block) : Prop where
  resolve : x.driver.ports.resolve port = some b.base
  registers : x.driver.config.registers = b.map

theorem HasPort.block_eq (hx : x.HasPort port b) : x.driver.block b.base = b := by
  rw [Driver.block, hx.registers]

theorem HasPort.leaves (hx : x.HasPort port b) (h : x.driver.Leaves c reply x'.driver) :
    x'.HasPort port b :=
  ⟨h.resolve_eq hx.resolve, by rw [h.config_eq, hx.registers]⟩

/-- **A call on a port** has drawn what its trace shows. -/
theorem HasPort.call (hm : b.map.ReadsApart) (hx : x.HasPort port b) (hc : c.port? = some port)
    (h : bus.Completes (c.program fuel x.driver) x.bus t (reply, x'.driver) x'.bus) :
    PortCall b c (x.driver.cacheOf port) reply t (x'.driver.cacheOf port) := by
  cases hr : c.reads with
  | true =>
    obtain ⟨words, cache, hdraws, hd⟩ := Driver.draws_of_completes hc hr hx.resolve h
    rw [hx.block_eq] at hdraws
    have hslot := Driver.index_lt_of_resolve hx.resolve
    have hfetched := hdraws.fetched_eq hm
    rw [hd, Driver.cacheOf_withCache hslot]
    refine ⟨?_, fun h => ?_, ?_, hdraws.prompted hm⟩
    · rw [hr, hfetched]
      exact hdraws
    · rw [hr] at h
      cases h
    · rw [hfetched]
      exact hdraws.readsAt_data hm
  | false =>
    obtain ⟨hlooks, hbytes, hd⟩ := Driver.looks_of_completes hc hr hx.resolve h
    rw [hx.block_eq] at hlooks
    have hdata : ∀ v, .read (b.location .rf) v ∉ t := hlooks.not_mem hm
    have hfetched : fetched b t = [] := fetchedFrom_eq_nil hdata 0 false
    rw [hd]
    refine ⟨?_, fun _ => hlooks, ?_, prompted_of_not_mem hdata⟩
    · rw [hr, hfetched, hbytes]
      exact .done
    · rw [hfetched]
      exact readsAt_eq_nil hdata

end Session

/-! ### Histories -/

section Histories

variable {bus : Bus σ} {operate : κ → σ → Option σ} {b : Block} {port : PortId}
  {x x₀ x' : Session σ slots} {entries : List (Entry slots κ)}

/-- The account of a port, from any state of its cache. -/
theorem drawn_from_cache (hm : b.map.ReadsApart) (hx : x.HasPort port b)
    (hcache : (x.driver.cacheOf port).remaining ≤ 4) (h : History bus operate x entries x') :
    x'.HasPort port b ∧
      (x.driver.cacheOf port).toList ++
          (entries.flatMap (Entry.wordsFor port b)).flatMap Received.toList =
        entries.flatMap (Entry.bytesFor port) ++ (x'.driver.cacheOf port).toList := by
  induction h with
  | nil => exact ⟨hx, List.append_nil _⟩
  | @call x x₁ x' _ c reply t rest hperform _ ih =>
    have hrun := Session.perform_eq_ok_iff.1 hperform
    have hleaves := Driver.leaves_of_completes hrun
    have hx₁ := hx.leaves hleaves
    by_cases hc : c.port? = some port
    · have hcall := hx.call hm hc hrun
      obtain ⟨hle, hone⟩ := hcall.draws.conserves hcache
      obtain ⟨hx', hrest⟩ := ih hx₁ hle
      refine ⟨hx', ?_⟩
      simp only [List.flatMap_cons, List.flatMap_append, Entry.wordsFor, Entry.bytesFor, if_pos hc]
      rw [← List.append_assoc, hone, List.append_assoc, hrest, List.append_assoc]
    · have hsame := hleaves.cacheOf_eq hx.resolve hc
      rw [← hsame] at hcache ⊢
      obtain ⟨hx', hrest⟩ := ih hx₁ hcache
      refine ⟨hx', ?_⟩
      simpa only [List.flatMap_cons, Entry.wordsFor, Entry.bytesFor, if_neg hc,
        List.nil_append] using hrest
  | control _ _ ih => exact ih ⟨hx.resolve, hx.registers⟩ hcache

/-- A port that has just been brought up has nothing in its cache. -/
theorem hasPort_of_init {board : Board} {number : UInt8} {wrapper : Option Address}
    {base : Address} {fuel : Nat} {t : List Event}
    (h : Session.perform bus fuel (.init board number wrapper base) x =
      ⟨.ok (.port (.ok port)) x₀, t⟩) :
    x₀.HasPort port ⟨base, x.driver.config.registers⟩ ∧ x₀.driver.cacheOf port = .empty := by
  have hopens := (Driver.leaves_of_completes (Session.perform_eq_ok_iff.1 h)).opens
  refine ⟨⟨hopens.gains.resolve, by rw [hopens.config]⟩, ?_⟩
  rw [Driver.cacheOf, hopens.gains.cache]
  rfl

/-- **The account of a port.** On any bus, after any history since the port was brought up, what it
has handed out and what is in its cache are the characters of the words that were fetched for it.
Each call that reads it takes from the cache first, and reads the data register once for each word,
when the cache is used up and the block has shown that there is a word; other calls on it, and
bringing up further ports, do not read that register. A fetch that brings nothing neither reads it
nor pushes out the packing buffer. -/
theorem drawn_of_history {board : Board} {number : UInt8} {wrapper : Option Address}
    {base : Address} {fuel : Nat} {t : List Event} (hm : x.driver.config.registers.ReadsApart)
    (hb : b = ⟨base, x.driver.config.registers⟩)
    (hinit : Session.perform bus fuel (.init board number wrapper base) x =
      ⟨.ok (.port (.ok port)) x₀, t⟩)
    (h : History bus operate x₀ entries x') :
    entries.flatMap (Entry.bytesFor port) ++ (x'.driver.cacheOf port).toList =
        (entries.flatMap (Entry.wordsFor port b)).flatMap Received.toList ∧
      (∀ before d c reply u after, entries = before ++ .call d c reply u :: after →
        c.port? = some port → ∃ z, History bus operate z after x' ∧
          PortCall b c (d.cacheOf port) reply u (z.driver.cacheOf port)) ∧
      (∀ before d board number wrapper a reply u after,
        entries = before ++ .call d (.init board number wrapper a) reply u :: after →
          OnlyLooks (d.block a) u) ∧
      ∀ u r, Fetches b u r → readsAt (b.location .rf) u = r.toList.map (·.word.raw) ∧
        (r = none → forceEvent b ∉ u) := by
  subst hb
  obtain ⟨hx₀, hempty⟩ := hasPort_of_init hinit
  refine ⟨?_, ?_, ?_, ?_⟩
  · have hcache : (x₀.driver.cacheOf port).remaining ≤ 4 := by
      rw [hempty]
      decide
    obtain ⟨-, haccount⟩ := drawn_from_cache hm hx₀ hcache h
    rw [hempty] at haccount
    exact haccount.symm
  · rintro before d c reply u after rfl hc
    obtain ⟨y, hbefore, hcall⟩ := history_append_iff.1 h
    have hcache : (x₀.driver.cacheOf port).remaining ≤ 4 := by
      rw [hempty]
      decide
    obtain ⟨hy, -⟩ := drawn_from_cache hm hx₀ hcache hbefore
    cases hcall with
    | @call _ z _ _ _ _ _ _ hperform hafter =>
      exact ⟨z, hafter, hy.call hm hc (Session.perform_eq_ok_iff.1 hperform)⟩
  · rintro before d board number wrapper a reply u after rfl
    obtain ⟨y, -, hcall⟩ := history_append_iff.1 h
    cases hcall with
    | call hperform _ => exact Driver.looks_of_init (Session.perform_eq_ok_iff.1 hperform)
  · intro u r hf
    refine ⟨hf.readsAt_data hm, ?_⟩
    rintro rfl
    exact hf.force_not_mem

/-- Two ports of one block: a full word is fetched for the first, and while it is in use two further
characters are forced out for the second. The first hands out its word with the null character in
it, and then finds nothing. -/
theorem drawn_of_history_shared :
    ∃ (x₀ x' : Session (Rig Script) 4) (entries : List (Entry 4 Script.Control)) (t : List Event),
      Session.perform (Script.hardware.rigged ⟨[], 1000⟩) 0 (.init .ready 1 none 0x1000)
        ⟨.new { Config.standard with banner := none }, .start (.ofList [(0x10a4, [0, 1, 0]),
          (0x1050, [0x100, 0]), (0x1140, [0x00414243, 0x4445])])⟩ =
          ⟨.ok (.port (.ok ⟨0⟩)) x₀, t⟩ ∧
      History (Script.hardware.rigged ⟨[], 1000⟩) Script.hardware.operate x₀ entries x' ∧
      entries.flatMap (Entry.bytesFor ⟨1⟩) = [0x45, 0x44] ∧
      entries.flatMap (Entry.bytesFor ⟨0⟩) = [0x43, 0x42, 0x41, 0] ∧
      (entries.flatMap (Entry.wordsFor ⟨0⟩ ⟨0x1000, .blsp⟩)).flatMap Received.toList =
        [0x43, 0x42, 0x41, 0] := by
  let moves : List (Move Script.Control) :=
    [.call 0 (.init .ready 1 none 0x1000), .call 0 (.getChar ⟨0⟩ false),
      .call 0 (.readBytes ⟨1⟩ 2), .call 0 (.readExact ⟨0⟩ 3), .call 0 (.getChar ⟨0⟩ false)]
  have hrun : (Session.replayPort (Script.hardware.rigged ⟨[], 1000⟩) Script.hardware.operate 0
      (.init .ready 1 none 0x1000) moves (⟨.new { Config.standard with banner := none },
        .start (.ofList [(0x10a4, [0, 1, 0]), (0x1050, [0x100, 0]),
          (0x1140, [0x00414243, 0x4445])])⟩ : Session (Rig Script) 4)).map
        (fun (port, _, entries, x') => (port, entries.flatMap (Entry.bytesFor ⟨1⟩),
          entries.flatMap (Entry.bytesFor ⟨0⟩), (x'.driver.cacheOf ⟨0⟩).toList)) =
      some (⟨0⟩, [0x45, 0x44], [0x43, 0x42, 0x41, 0], []) := by
    decide +kernel
  obtain ⟨⟨port, x₀, entries, x'⟩, hreplay, hvalues⟩ := Option.map_eq_some_iff.1 hrun
  simp only [Prod.mk.injEq] at hvalues
  obtain ⟨rfl, hother, hhanded, hcache⟩ := hvalues
  obtain ⟨⟨t, hinit⟩, hhistory, -⟩ := history_of_replayPort hreplay
  obtain ⟨haccount, -⟩ := drawn_of_history (by decide) rfl hinit hhistory
  rw [hhanded, hcache, List.append_nil] at haccount
  exact ⟨x₀, x', entries, t, hinit, hhistory, hother, hhanded, haccount.symm⟩

end Histories

end PolledUart
