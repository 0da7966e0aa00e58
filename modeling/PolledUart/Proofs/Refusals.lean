import PolledUart.Proofs.BringUp
import PolledUart.Proofs.History
import PolledUart.Sim.Script

/-!
# Refused initializations

An initialization is refused for two reasons, a null base and a full registry. Both are
tested before the hardware is touched, but the registry can be full in two ways: its
slots are used up, or the ids are while slots are still free. Only the first is among
the early tests; the second is found out by the registration, which comes last.

* `Driver.OutOfIds` — a driver with free slots but no free id. It takes more than 256
  slots.
* `refused_of_init` — a refused initialization leaves the driver as it is, and has
  touched the hardware exactly if the driver was out of ids.
-/

namespace PolledUart

open Sim

variable {σ : Type} {slots : Nat} {bus : Bus σ} {s s' : σ} {t : List Event} {fuel : Nat}
  {board : Board} {number : UInt8} {wrapper : Option Address} {base : Address}

namespace Driver

variable {d d' : Driver slots} {e : InitError}

/-- Slots are free, but no id is. -/
def OutOfIds (d : Driver slots) : Prop := PortId.limit ≤ d.ports.size ∧ d.ports.size < slots

/-- With no more slots than ids, the ids do not run out first. -/
theorem not_outOfIds (h : slots ≤ PortId.limit) (d : Driver slots) : ¬ d.OutOfIds := by
  rintro ⟨hids, hslots⟩
  omega

theorem OutOfIds.accepts (h : d.OutOfIds) (hbase : base ≠ 0) : d.Accepts base := by
  refine ⟨hbase, ?_⟩
  have hne : ¬ d.ports.isFull = true := by
    intro hfull
    have hsize := Registry.isFull_iff.1 hfull
    exact absurd h.2 (by omega)
  exact Bool.eq_false_iff.2 hne

/-- Preparing a block begins with a barrier, after the clocks have been enabled. -/
theorem barrier_mem_of_prepare {config : Config} {b : Block} {u : Unit}
    (h : bus.Completes (prepare config board number wrapper b) s t u s') :
    .act .barrier ∈ t := by
  obtain ⟨_, s₁, t₁, u₁, -, h₁, rfl⟩ := Bus.completes_bind_iff.1 h
  obtain ⟨_, s₂, t₂, u₂, hbarrier, -, rfl⟩ := Bus.completes_bind_iff.1 h₁
  obtain ⟨-, rfl⟩ := Bus.completes_perform_iff.1 hbarrier
  exact List.mem_append_right _ List.mem_cons_self

/-- An initialization that is not accepted is refused before the first event. -/
theorem refused_early (ha : ¬ d.Accepts base)
    (h : bus.Completes (d.init fuel board number wrapper base) s t (.error e, d') s') :
    d' = d ∧ t = [] ∧ s' = s ∧ (e = .invalidBase ↔ base = 0) := by
  by_cases hbase : base = 0
  · unfold init at h
    rw [if_pos hbase] at h
    obtain ⟨rfl, hr, rfl⟩ := Bus.completes_done_iff.1 h
    obtain ⟨he, rfl⟩ := Prod.mk.inj hr
    exact ⟨rfl, rfl, rfl, fun _ => hbase, fun _ => Except.error.inj he⟩
  · have hfull : d.ports.isFull = true := by
      cases hf : d.ports.isFull with
      | true => rfl
      | false => exact absurd ⟨hbase, hf⟩ ha
    unfold init at h
    rw [if_neg hbase, if_pos hfull] at h
    obtain ⟨rfl, hr, rfl⟩ := Bus.completes_done_iff.1 h
    obtain ⟨he, rfl⟩ := Prod.mk.inj hr
    obtain rfl := Except.error.inj he
    exact ⟨rfl, rfl, rfl, nofun, fun h0 => absurd h0 hbase⟩

/-- An accepted initialization that is refused after all has prepared the block and sent the
banner, and then found no free id. -/
theorem refused_late (ha : d.Accepts base) (he : e = .invalidBase ∨ e = .registryFull)
    (h : bus.Completes (d.init fuel board number wrapper base) s t (.error e, d') s') :
    d' = d ∧ e = .registryFull ∧ d.OutOfIds ∧
      ∃ s₁ t₁ t₂, bus.Completes (prepare d.config board number wrapper (d.block base)) s t₁ () s₁ ∧
        bus.Completes (sendBanner d.config fuel (d.block base)) s₁ t₂ (.ok ()) s' ∧ t = t₁ ++ t₂ := by
  obtain ⟨s₁, t₁, t₂, r, hprepare, hbanner, rfl, -, hend⟩ := completes_init ha h
  rcases hend with ⟨cause, -, hcause, -⟩ | ⟨rfl, ⟨hfull, rfl, hfree⟩ | ⟨id, hid, -⟩⟩
  · -- the failure of a banner is neither of the two reasons
    obtain rfl := Except.error.inj hcause
    rcases he with he | he <;> cases he
  · have hslots : d'.ports.size < slots := by
      have hle := d'.ports.size_le
      have hne : d'.ports.size ≠ slots := by
        intro hsize
        have hisFull := Registry.isFull_iff.2 hsize
        rw [ha.2] at hisFull
        cases hisFull
      omega
    exact ⟨rfl, Except.error.inj hfull, ⟨by omega, hslots⟩, s₁, t₁, t₂, hprepare, hbanner, rfl⟩
  · cases hid

end Driver

/-- **Refused initializations.** Whatever the state of the driver, an initialization that answers
with a null base or a full registry leaves the driver as it is. Unless the driver was out of ids,
there was no event and the bus is as it was; if it was, and the base is no null address, the block
was prepared and the banner sent before the refusal. -/
theorem refused_of_init {x x' : Session σ slots} {e : InitError}
    (he : e = .invalidBase ∨ e = .registryFull)
    (h : Session.perform bus fuel (.init board number wrapper base) x =
      ⟨.ok (.port (.error e)) x', t⟩) :
    x'.driver = x.driver ∧ (e = .invalidBase ↔ base = 0) ∧
      (¬ (base ≠ 0 ∧ x.driver.OutOfIds) → t = [] ∧ x' = x) ∧
      (base ≠ 0 ∧ x.driver.OutOfIds → .act .barrier ∈ t ∧
        ∃ s₁ t₁ t₂,
          bus.Completes (Driver.prepare x.driver.config board number wrapper (x.driver.block base))
            x.bus t₁ () s₁ ∧
          bus.Completes (Driver.sendBanner x.driver.config fuel (x.driver.block base))
            s₁ t₂ (.ok ()) x'.bus ∧ t = t₁ ++ t₂) := by
  obtain ⟨⟨result, d⟩, hinit, hr⟩ := Bus.completes_bind_done_iff.1 (Session.perform_eq_ok_iff.1 h)
  obtain ⟨hresult, rfl⟩ := Prod.mk.inj hr
  obtain rfl := Reply.port.inj hresult
  by_cases ha : x.driver.Accepts base
  · obtain ⟨hdriver, rfl, hids, s₁, t₁, t₂, hprepare, hbanner, rfl⟩ :=
      Driver.refused_late ha he hinit
    refine ⟨hdriver, ⟨nofun, fun h0 => absurd h0 ha.1⟩, fun hnot => absurd ⟨ha.1, hids⟩ hnot, ?_⟩
    intro _
    exact ⟨List.mem_append_left _ (Driver.barrier_mem_of_prepare hprepare), s₁, t₁, t₂, hprepare,
      hbanner, rfl⟩
  · obtain ⟨hdriver, rfl, hbus, hbase⟩ := Driver.refused_early ha hinit
    refine ⟨hdriver, hbase, fun _ => ⟨rfl, ?_⟩, fun hids => absurd (hids.2.accepts hids.1) ha⟩
    obtain ⟨d, y⟩ := x
    obtain ⟨d', y'⟩ := x'
    dsimp only at hdriver hbus
    rw [hdriver, hbus]

/-- The only slot is taken, and a further port is refused before the first event. -/
theorem refused_of_init_full :
    ∃ (x x' : Session (Rig Script) 1) (t : List Event), x.driver.ports.bases = [0x1000] ∧
      Session.perform (Script.hardware.rigged ⟨[], 1000⟩) 0 (.init .hooks 1 none 0x1100) x =
        ⟨.ok (.port (.error .registryFull)) x', t⟩ ∧ t = [] ∧ x' = x := by
  let x : Session (Rig Script) 1 :=
    ⟨⟨{ Config.standard with banner := none }, ⟨[0x1000], by decide⟩, .replicate 1 .empty⟩,
      .start (.ofList [])⟩
  have hrun : Session.perform (Script.hardware.rigged ⟨[], 1000⟩) 0 (.init .hooks 1 none 0x1100) x =
      ⟨.ok (.port (.error .registryFull)) x, []⟩ := rfl
  have hids : ¬ x.driver.OutOfIds := Driver.not_outOfIds (by decide) _
  obtain ⟨-, -, hearly, -⟩ := refused_of_init (.inr rfl) hrun
  exact ⟨x, x, [], rfl, hrun, hearly fun h => hids h.2⟩

/-- What was written by a call that was refused because the registry is full. -/
def Run.refusedWrites? : Run (Session σ slots) Reply → Option (List (Address × UInt32))
  | ⟨.ok (.port (.error .registryFull)) _, t⟩ => some (Trace.writes t)
  | _ => none

theorem Run.eq_of_refusedWrites? {r : Run (Session σ slots) Reply} {ws : List (Address × UInt32)}
    (h : r.refusedWrites? = some ws) :
    ∃ x' t, r = ⟨.ok (.port (.error .registryFull)) x', t⟩ ∧ Trace.writes t = ws := by
  unfold Run.refusedWrites? at h
  split at h
  · exact ⟨_, _, rfl, Option.some.inj h⟩
  · cases h

/-- A driver with 300 slots and 256 ports: the next initialization is refused for want of an id,
but only after it has prepared the block. -/
theorem refused_of_init_out_of_ids :
    ∃ (entries : List (Entry 300 Script.Control)) (x x' : Session (Rig Script) 300)
      (t : List Event),
      History (Script.hardware.rigged ⟨[], 4000⟩) Script.hardware.operate
        ⟨.new { Config.standard with banner := none }, .start (.ofList [])⟩ entries x ∧
      Session.perform (Script.hardware.rigged ⟨[], 4000⟩) 0 (.init .hooks 0 none 0x1000) x =
        ⟨.ok (.port (.error .registryFull)) x', t⟩ ∧
      Trace.writes t = [(0x10a0, 0xff), (0x1000, 0x80), (0x1004, 0x34), (0x10a8, 0x10),
        (0x10a8, 0x20), (0x103c, 0)] := by
  let start : Session (Rig Script) 300 :=
    ⟨.new { Config.standard with banner := none }, .start (.ofList [])⟩
  let moves : List (Move Script.Control) := .replicate 256 (.call 0 (.init .hooks 0 none 0x1000))
  have hrun : (Session.replay (Script.hardware.rigged ⟨[], 4000⟩) Script.hardware.operate moves
      start).bind (fun r => (Session.perform (Script.hardware.rigged ⟨[], 4000⟩) 0
        (.init .hooks 0 none 0x1000) r.2).refusedWrites?) =
      some [(0x10a0, 0xff), (0x1000, 0x80), (0x1004, 0x34), (0x10a8, 0x10), (0x10a8, 0x20),
        (0x103c, 0)] := by
    decide +kernel
  obtain ⟨⟨entries, x⟩, hreplay, hwrites⟩ := Option.bind_eq_some_iff.1 hrun
  obtain ⟨hhistory, -⟩ := history_of_replay hreplay
  obtain ⟨x', t, hperform, hwritten⟩ := Run.eq_of_refusedWrites? hwrites
  exact ⟨entries, x, x', t, hhistory, hperform, hwritten⟩

end PolledUart
