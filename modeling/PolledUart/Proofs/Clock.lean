import PolledUart.Proofs.BenchSteps
import PolledUart.Proofs.Simulation

/-!
# Devices with a clock

A device may add up the time that its driver waits, and fault when the sum becomes too
large. If each delay moves such a clock on by one, nothing else moves it, and only a full
clock makes the device fault, then the clock counts the delays of all that is run on the
device, and what faults has made too many of them (`Run.Ticks`).

* `Bus.Ticks.run`, `Hardware.ticks_rigged`, `Hardware.ticks_play` — from single accesses to
  programs, schedules and sessions.
* `Bench.ticks_bus` — the bench block has such a clock, of 32 bits.
-/

namespace PolledUart

variable {σ τ α β : Type} {time : σ → Nat} {full : Nat}

/-- Number of delays of a trace. -/
def Trace.delays (t : List Event) : Nat := t.countP Event.isDelay

@[simp] theorem Trace.delays_append (t u : List Event) :
    Trace.delays (t ++ u) = Trace.delays t + Trace.delays u :=
  List.countP_append

/-- A run against a clock that starts at `n`. If the run completes, the clock has moved on by one
for each of its delays; it faults only if these are enough to fill the clock. -/
inductive Run.Ticks (time : σ → Nat) (full n : Nat) : Run σ α → Prop where
  /-- The run has completed. -/
  | ok {a : α} {s : σ} {t : List Event} : time s = n + Trace.delays t →
      Ticks time full n ⟨.ok a s, t⟩
  /-- The clock is full. -/
  | fault {t : List Event} : full ≤ n + Trace.delays t → Ticks time full n ⟨.fault, t⟩
  /-- The machine was stopped before a step. -/
  | halt {t : List Event} : Ticks time full n ⟨.halt, t⟩
  /-- The run was cut off. -/
  | limit {t : List Event} : Ticks time full n ⟨.limit, t⟩

namespace Run.Ticks

variable {n : Nat} {o : Outcome σ α} {t u : List Event}

/-- The value and the state at the end may be replaced, as long as the clock stays. -/
theorem map {time' : τ → Nat} {f : α → σ → β × τ} (h : (⟨o, t⟩ : Run σ α).Ticks time full n)
    (hf : ∀ a s, time' (f a s).2 = time s) :
    (⟨o.map f, t⟩ : Run τ β).Ticks time' full n := by
  cases h with
  | ok hs => exact .ok ((hf _ _).trans hs)
  | fault hfull => exact .fault hfull
  | halt => exact .halt
  | limit => exact .limit

/-- What has been run before may be counted with it. -/
theorem append (h : (⟨o, t⟩ : Run σ α).Ticks time full (n + Trace.delays u)) :
    (⟨o, u ++ t⟩ : Run σ α).Ticks time full n := by
  have hsum : n + Trace.delays (u ++ t) = n + Trace.delays u + Trace.delays t := by
    rw [Trace.delays_append, Nat.add_assoc]
  cases h with
  | ok hs => exact .ok (hs.trans hsum.symm)
  | fault hfull => exact .fault (hsum ▸ hfull)
  | halt => exact .halt
  | limit => exact .limit

theorem andThen {r : Run σ α} {f : α → σ → Run σ β} (h : r.Ticks time full n)
    (hf : ∀ a s u, r = ⟨.ok a s, u⟩ → (f a s).Ticks time full (time s)) :
    (r.andThen f).Ticks time full n := by
  cases h with
  | @ok a s u hs =>
    have hnext := hf a s u rfl
    rw [hs] at hnext
    exact hnext.append
  | fault hfull => exact .fault hfull
  | halt => exact .halt
  | limit => exact .limit

end Run.Ticks

/-! ### Programs -/

/-- Accesses that `P` allows are counted by the clock of the bus. -/
structure Bus.Ticks (P : Request → Prop) (time : σ → Nat) (full : Nat) (bus : Bus σ) : Prop where
  read : ∀ a s, P (.read a) → (⟨bus.read a s, []⟩ : Run σ UInt32).Ticks time full (time s)
  act : ∀ c s, P (.act c) → (⟨bus.act c s, [.act c]⟩ : Run σ Unit).Ticks time full (time s)

/-- **Programs.** What asks only for such accesses is counted as a whole. -/
theorem Bus.Ticks.run {P : Request → Prop} {Q : α → Prop} {bus : Bus σ} {p : Program α} {s : σ}
    (h : bus.Ticks P time full) (hstop : ¬ P .stop) (hp : p.Asks P Q) :
    (bus.run p s).Ticks time full (time s) := by
  induction p generalizing s with
  | done a => exact .ok rfl
  | fault => exact absurd hp hstop
  | limit => exact .limit
  | read a next ih =>
    have hread := h.read a s hp.1
    simp only [Bus.run]
    generalize bus.read a s = o at hread ⊢
    cases hread with
    | @ok v s₁ _ hs =>
      have hnext := ih v (s := s₁) (hp.2 v)
      rw [hs] at hnext
      exact Run.Ticks.append (u := [.read a v]) hnext
    | fault hfull => exact .fault hfull
    | halt => exact .halt
    | limit => exact .limit
  | act c next ih =>
    have hact := h.act c s hp.1
    simp only [Bus.run]
    generalize bus.act c s = o at hact ⊢
    cases hact with
    | @ok v s₁ _ hs =>
      have hnext := ih (s := s₁) hp.2
      rw [hs] at hnext
      exact Run.Ticks.append (u := [.act c]) hnext
    | fault hfull => exact .fault hfull
    -- a bus that stops before an action leaves it out of the trace
    | halt => exact .halt
    | limit => exact .limit

/-! ### Schedules and sessions -/

section Sessions

open Sim

variable {κ : Type} {slots : Nat} {P : Request → Prop} {hw : Hardware σ κ} {schedule : Schedule κ}

namespace Sim.Hardware

/-- Controls that leave the clock alone do so at any moment of a schedule. -/
theorem clock_of_advance {m : Moment} {s s' : σ}
    (hcontrol : ∀ k s s', hw.control k s = some s' → time s' = time s)
    (h : hw.advance schedule m s = some s') : time s' = time s := by
  obtain ⟨controls, limit⟩ := schedule
  simp only [Hardware.advance] at h
  induction controls generalizing s with
  | nil =>
    obtain rfl := Option.some.inj h
    rfl
  | cons entry rest ih =>
    rw [List.foldlM_cons] at h
    obtain ⟨s₁, h₁, h₂⟩ := Option.bind_eq_some_iff.1 h
    rw [ih h₂]
    split at h₁
    · exact hcontrol _ _ _ h₁
    · obtain rfl := Option.some.inj h₁
      rfl

/-- The counters of a rig have no part in it. -/
theorem ticks_keep {n : Nat} {r : Rig σ} {o : Outcome σ α} {t : List Event}
    (h : (⟨o, t⟩ : Run σ α).Ticks time full n) :
    (⟨keep r o, t⟩ : Run (Rig σ) α).Ticks (fun r => time r.device) full n := by
  rw [keep_eq_map]
  exact h.map fun _ _ => rfl

/-- **Schedules.** A device that keeps to a schedule has the clock of the device. -/
theorem ticks_rigged (hbus : hw.bus.Ticks P time full)
    (hcontrol : ∀ k s s', hw.control k s = some s' → time s' = time s) :
    (hw.rigged schedule).Ticks P (fun r => time r.device) full where
  read := by
    intro a r ha
    simp only [Hardware.rigged]
    split
    · split
      · split
        · rename_i device hadvance
          have hread := hbus.read a device ha
          rw [clock_of_advance hcontrol hadvance] at hread
          exact ticks_keep hread
        · exact .halt
      · exact .limit
    · exact ticks_keep (hbus.read a r.device ha)
  act := by
    intro c r hc
    have hact := fun s => hbus.act c s hc
    cases c with
    | write a v =>
      simp only [Bus.act, Hardware.rigged] at hact ⊢
      split
      · split
        · exact ticks_keep (hact r.device)
        · exact .limit
      · exact ticks_keep (hact r.device)
    | delay us =>
      simp only [Bus.act, Hardware.rigged] at hact ⊢
      split
      · split
        · rename_i device hadvance
          have hdelay := hact device
          rw [clock_of_advance hcontrol hadvance] at hdelay
          exact ticks_keep hdelay
        · exact .halt
      · exact .limit
    | barrier => exact ticks_keep (r := r) (hact r.device)
    | enter | leave | clock _ | pads _ => exact ticks_keep (r := r) (hact r.device)

/-- A call. -/
theorem ticks_perform {bus : Bus σ} {fuel : Nat} {c : Call} {x : Session σ slots}
    (hbus : bus.Ticks P time full) (hstop : ¬ P .stop)
    (hc : (c.program fuel x.driver).Asks P fun _ => True) :
    (Session.perform bus fuel c x).Ticks (fun y => time y.bus) full (time x.bus) := by
  rw [Session.perform_eq_map]
  exact (hbus.run hstop hc).map fun _ _ => rfl

/-- **Sessions.** As long as the driver keeps to an invariant under which the calls ask only for
what is counted, so is the session. -/
theorem ticks_play {I : Driver slots → Prop} {C : Call → Prop} {moves : List (Move κ)}
    {x : Session (Rig σ) slots} (hbus : hw.bus.Ticks P time full) (hstop : ¬ P .stop)
    (hcontrol : ∀ k s s', hw.control k s = some s' → time s' = time s)
    (hasks : ∀ d c fuel, I d → C c → (c.program fuel d).Asks P fun _ => True)
    (hkeeps : ∀ d c reply d', I d → C c → d.Leaves c reply d' → I d')
    (hmoves : ∀ m ∈ moves, m.Calls C) (hI : I x.driver) :
    (Session.play (hw.rigged schedule) hw.operate moves x).Ticks (fun y => time y.bus.device) full
      (time x.bus.device) := by
  have hrigged : (hw.rigged schedule).Ticks P (fun r => time r.device) full :=
    ticks_rigged hbus hcontrol
  induction moves generalizing x with
  | nil => exact .ok rfl
  | cons m rest ih =>
    obtain ⟨hm, hrest⟩ := List.forall_mem_cons.1 hmoves
    cases m with
    | call fuel c =>
      have hcall := ticks_perform hrigged hstop (hasks _ c fuel hI hm)
      refine hcall.andThen fun reply y u hperform => ?_
      have hleaves := Driver.leaves_of_completes (Session.perform_eq_ok_iff.1 hperform)
      exact (ih hrest (hkeeps _ _ _ _ hI hm hleaves)).andThen fun _ _ _ _ => .ok rfl
    | control k =>
      simp only [Session.play, Hardware.operate]
      cases hk : hw.control k x.bus.device with
      | none => exact .halt
      | some device =>
        rw [← hcontrol k _ _ hk]
        exact ih (x := ⟨x.driver, x.bus.withDevice device⟩) hrest hI

end Sim.Hardware

end Sessions

/-! ### The bench block -/

namespace Sim.Bench

/-- Microseconds that a driver has waited for a bench block. -/
def clock (b : Bench) : Nat := b.waited.toNat

theorem clock_of_control {k : Control} {b b' : Bench} (h : control k b = some b') :
    b'.clock = b.clock := by
  cases k with
  | stallAfter words =>
    simp only [control] at h
    split at h
    · obtain rfl := Option.some.inj h
      rfl
    · cases h
  | _ =>
    obtain rfl := Option.some.inj h
    rfl

theorem clock_read (b : Bench) (a : Address) : (b.read a).2.clock = b.clock := by
  unfold Bench.read readAt readStatus readInterruptStatus readData popWord
  dsimp only
  repeat' split
  all_goals rfl

theorem clock_write (b : Bench) (a : Address) (v : UInt32) : (b.write a v).clock = b.clock := by
  unfold Bench.write writeAt takeWord obey store
  dsimp only
  repeat' split
  all_goals rfl

/-- **The bench block** counts the delays of a driver that waits for one microsecond at a time. -/
theorem ticks_bus {P : Request → Prop} (hdelay : ∀ us, P (.act (.delay us)) → us = 1) :
    bus.Ticks P clock 0x100000000 where
  read := fun a b _ => .ok (clock_read b a)
  act := by
    intro c b hc
    cases c with
    | write a v => exact .ok (clock_write b a v)
    | delay us =>
      obtain rfl := hdelay us hc
      simp only [Bus.act, bus, wait]
      split
      · rename_i hlt
        have hsum : (b.waited + 1).toNat = b.waited.toNat + 1 := by
          rw [UInt32.toNat_add]
          exact Nat.mod_eq_of_lt hlt
        exact .ok hsum
      · rename_i hfull
        exact .fault (Nat.not_lt.1 hfull)
    | barrier | enter | leave | clock _ | pads _ => exact .ok rfl

end Sim.Bench

end PolledUart
