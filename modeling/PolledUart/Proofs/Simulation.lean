import PolledUart.Proofs.CallEffects
import PolledUart.Sim.Hardware

/-!
# One device in the place of another

Two devices are compared by a relation on their states. If every access that a program
may ask for, and every control, keeps the states related and gives the same answer, then
so does every run of the program, and every session of a driver: it ends the same way,
with the same answers and after the same events. The comparison goes one way: where the
first device stops the machine, nothing is said of the second.

* `Bus.Refines.run` — from single accesses to programs.
* `Hardware.Refines.rigged` — from devices to devices that keep to a schedule.
* `Session.play`, `Hardware.Refines.play` — all moves of a session, up to the first that
  does not complete.
* `Hardware.play_of_guarded` — a device whose operator keeps to a condition.
-/

namespace PolledUart

variable {σ σ' τ τ' α β : Type}

/-! ### Runs -/

/-- The second run is the first, with a related state at the end, unless the first has stopped the
machine. -/
inductive Run.Refines (R : σ → τ → Prop) : Run σ α → Run τ α → Prop where
  /-- Both complete. -/
  | ok {a : α} {s : σ} {t : τ} {u : List Event} : R s t → Refines R ⟨.ok a s, u⟩ ⟨.ok a t, u⟩
  /-- Both are cut off. -/
  | limit {u : List Event} : Refines R ⟨.limit, u⟩ ⟨.limit, u⟩
  /-- The first has stopped the machine. -/
  | fault {u : List Event} {r : Run τ α} : Refines R ⟨.fault, u⟩ r
  /-- The first has stopped the machine before a step. -/
  | halt {u : List Event} {r : Run τ α} : Refines R ⟨.halt, u⟩ r

namespace Run.Refines

variable {R : σ → τ → Prop} {r₁ : Run σ α} {r₂ : Run τ α}

/-- The values and the states at the end may be replaced. -/
theorem map {R' : σ' → τ' → Prop} {o₁ : Outcome σ α} {o₂ : Outcome τ α} {t₁ t₂ : List Event}
    {f₁ : α → σ → β × σ'} {f₂ : α → τ → β × τ'} (h : (⟨o₁, t₁⟩ : Run σ α).Refines R ⟨o₂, t₂⟩)
    (hf : ∀ a s t, R s t → (f₂ a t).1 = (f₁ a s).1 ∧ R' (f₁ a s).2 (f₂ a t).2) :
    (⟨o₁.map f₁, t₁⟩ : Run σ' β).Refines R' ⟨o₂.map f₂, t₂⟩ := by
  cases h with
  | @ok a s t _ hR =>
    obtain ⟨hvalue, hR'⟩ := hf a s t hR
    simp only [Outcome.map]
    rw [hvalue]
    exact .ok hR'
  | limit => exact .limit
  | fault => exact .fault
  | halt => exact .halt

/-- Both may have run something before. -/
theorem append {o₁ : Outcome σ α} {o₂ : Outcome τ α} {t₁ t₂ : List Event}
    (h : (⟨o₁, t₁⟩ : Run σ α).Refines R ⟨o₂, t₂⟩) (u : List Event) :
    (⟨o₁, u ++ t₁⟩ : Run σ α).Refines R ⟨o₂, u ++ t₂⟩ := by
  cases h with
  | ok hR => exact .ok hR
  | limit => exact .limit
  | fault => exact .fault
  | halt => exact .halt

theorem andThen {f₁ : α → σ → Run σ β} {f₂ : α → τ → Run τ β} (h : r₁.Refines R r₂)
    (hf : ∀ a s t u, r₁ = ⟨.ok a s, u⟩ → R s t → (f₁ a s).Refines R (f₂ a t)) :
    (r₁.andThen f₁).Refines R (r₂.andThen f₂) := by
  cases h with
  | @ok a s t u hR =>
    exact (hf a s t u rfl hR).append u
  | limit => exact .limit
  | fault => exact .fault
  | halt => exact .halt

end Run.Refines

/-- Accesses that `P` allows have the same answers on both buses, and keep their states related. -/
structure Bus.Refines (P : Request → Prop) (R : σ → τ → Prop) (bus₁ : Bus σ) (bus₂ : Bus τ) :
    Prop where
  read : ∀ a s t, P (.read a) → R s t →
    (⟨bus₁.read a s, []⟩ : Run σ UInt32).Refines R ⟨bus₂.read a t, []⟩
  act : ∀ c s t, P (.act c) → R s t →
    (⟨bus₁.act c s, []⟩ : Run σ Unit).Refines R ⟨bus₂.act c t, []⟩

/-- **Programs.** What holds of every access holds of a whole run. -/
theorem Bus.Refines.run {P : Request → Prop} {R : σ → τ → Prop} {bus₁ : Bus σ} {bus₂ : Bus τ}
    {Q : α → Prop} {p : Program α} {s : σ} {t : τ} (h : bus₁.Refines P R bus₂) (hp : p.Asks P Q)
    (hR : R s t) : (bus₁.run p s).Refines R (bus₂.run p t) := by
  induction p generalizing s t with
  | done a => exact .ok hR
  | fault => exact .fault
  | limit => exact .limit
  | read a next ih =>
    have hstep := h.read a s t hp.1 hR
    simp only [Bus.run]
    generalize bus₁.read a s = o₁ at hstep ⊢
    generalize bus₂.read a t = o₂ at hstep ⊢
    cases hstep with
    | ok hR' => exact (ih _ (hp.2 _) hR').append [_]
    | limit => exact .limit
    | fault => exact .fault
    | halt => exact .halt
  | act c next ih =>
    have hstep := h.act c s t hp.1 hR
    simp only [Bus.run]
    generalize bus₁.act c s = o₁ at hstep ⊢
    generalize bus₂.act c t = o₂ at hstep ⊢
    cases hstep with
    | ok hR' => exact (ih hp.2 hR').append [_]
    | limit => exact .limit
    | fault => exact .fault
    | halt => exact .halt

/-! ### Devices -/

namespace Sim

variable {κ : Type}

/-- The devices of two rigs are related, and the counters agree. -/
structure Rig.Related (R : σ → τ → Prop) (x : Rig σ) (y : Rig τ) : Prop where
  device : R x.device y.device
  reads : y.reads = x.reads
  delays : y.delays = x.delays
  accesses : y.accesses = x.accesses

/-- Accesses that `P` allows, and controls, do the same on both devices. -/
structure Hardware.Refines (P : Request → Prop) (R : σ → τ → Prop) (hw₁ : Hardware σ κ)
    (hw₂ : Hardware τ κ) : Prop where
  bus : hw₁.bus.Refines P R hw₂.bus
  control : ∀ k s t s', R s t → hw₁.control k s = some s' →
    ∃ t', hw₂.control k t = some t' ∧ R s' t'
  seesRegisters : hw₂.seesRegisters = hw₁.seesRegisters

namespace Hardware

variable {P : Request → Prop} {R : σ → τ → Prop} {hw₁ : Hardware σ κ} {hw₂ : Hardware τ κ}

theorem keep_eq_map (r : Rig σ) (o : Outcome σ α) :
    keep r o = o.map fun a device => (a, r.withDevice device) := by
  cases o <;> rfl

theorem Refines.advance (h : hw₁.Refines P R hw₂) {schedule : Schedule κ} {m : Moment} {s s' : σ}
    {t : τ} (hR : R s t) (ha : hw₁.advance schedule m s = some s') :
    ∃ t', hw₂.advance schedule m t = some t' ∧ R s' t' := by
  obtain ⟨controls, limit⟩ := schedule
  simp only [Hardware.advance] at *
  induction controls generalizing s t with
  | nil =>
    obtain rfl := Option.some.inj ha
    exact ⟨t, rfl, hR⟩
  | cons entry rest ih =>
    rw [List.foldlM_cons] at ha
    obtain ⟨s₁, h₁, h₂⟩ := Option.bind_eq_some_iff.1 ha
    have hfirst : ∃ t₁, (if entry.1 = m then hw₂.control entry.2 t else some t) = some t₁ ∧
        R s₁ t₁ := by
      split at h₁
      · rename_i hm
        rw [if_pos hm]
        exact h.control _ _ _ _ hR h₁
      · rename_i hm
        rw [if_neg hm]
        obtain rfl := Option.some.inj h₁
        exact ⟨t, rfl, hR⟩
    obtain ⟨t₁, ht₁, hR₁⟩ := hfirst
    obtain ⟨t', ht', hR'⟩ := ih hR₁ h₂
    refine ⟨t', ?_, hR'⟩
    rw [List.foldlM_cons]
    exact Option.bind_eq_some_iff.2 ⟨t₁, ht₁, ht'⟩

/-- The counters of the rigs have no part in it. -/
theorem refines_keep {x : Rig σ} {y : Rig τ} {o₁ : Outcome σ α} {o₂ : Outcome τ α}
    {t₁ t₂ : List Event}
    (hx : y.reads = x.reads ∧ y.delays = x.delays ∧ y.accesses = x.accesses)
    (h : (⟨o₁, t₁⟩ : Run σ α).Refines R ⟨o₂, t₂⟩) :
    (⟨keep x o₁, t₁⟩ : Run (Rig σ) α).Refines (Rig.Related R) ⟨keep y o₂, t₂⟩ := by
  rw [keep_eq_map, keep_eq_map]
  exact h.map fun _ _ _ hR => ⟨rfl, hR, hx.1, hx.2.1, hx.2.2⟩

/-- **Schedules.** What two devices do alike they do alike when both keep to a schedule. -/
theorem Refines.rigged (h : hw₁.Refines P R hw₂) (schedule : Schedule κ) :
    (hw₁.rigged schedule).Refines P (Rig.Related R) (hw₂.rigged schedule) where
  read := by
    intro a x y ha hR
    have hadvance : ∀ s', hw₁.advance schedule (.read (x.reads + 1)) x.device = some s' →
        ∃ t', hw₂.advance schedule (.read (x.reads + 1)) y.device = some t' ∧ R s' t' :=
      fun _ => h.advance hR.device
    simp only [Hardware.rigged, h.seesRegisters, hR.reads, hR.accesses]
    split
    · split
      · split
        · rename_i s' hs'
          obtain ⟨t', ht', hR'⟩ := hadvance s' hs'
          rw [ht']
          exact refines_keep ⟨rfl, hR.delays, rfl⟩ (h.bus.read a _ _ ha hR')
        · exact .halt
      · exact .limit
    · exact refines_keep ⟨hR.reads, hR.delays, hR.accesses⟩ (h.bus.read a _ _ ha hR.device)
  act := by
    intro c x y hc hR
    have hstep := fun s t hst => h.bus.act c s t hc hst
    cases c with
    | write a v =>
      simp only [Bus.act, Hardware.rigged, h.seesRegisters, hR.accesses] at hstep ⊢
      split
      · split
        · exact refines_keep ⟨hR.reads, hR.delays, rfl⟩ (hstep _ _ hR.device)
        · exact .limit
      · exact refines_keep ⟨hR.reads, hR.delays, hR.accesses⟩ (hstep _ _ hR.device)
    | delay us =>
      have hadvance : ∀ s', hw₁.advance schedule (.delay (x.delays + 1)) x.device = some s' →
          ∃ t', hw₂.advance schedule (.delay (x.delays + 1)) y.device = some t' ∧ R s' t' :=
        fun _ => h.advance hR.device
      simp only [Bus.act, Hardware.rigged, hR.delays, hR.accesses] at hstep ⊢
      split
      · split
        · rename_i s' hs'
          obtain ⟨t', ht', hR'⟩ := hadvance s' hs'
          rw [ht']
          exact refines_keep ⟨hR.reads, rfl, rfl⟩ (hstep _ _ hR')
        · exact .halt
      · exact .limit
    | barrier =>
      have hbarrier := hstep _ _ hR.device
      simp only [Bus.act, Hardware.rigged] at hbarrier ⊢
      cases hbarrier with
      | ok hR' => exact .ok ⟨hR', hR.reads, hR.delays, hR.accesses⟩
    | enter | leave | clock _ | pads _ => exact .ok hR

end Hardware

end Sim

/-! ### Sessions -/

section Sessions

open Sim

variable {κ : Type} {slots : Nat}

/-- Makes some moves, one after the other, up to the first that does not complete. The value is the
list of the answers. -/
def Session.play (bus : Bus σ) (operate : κ → σ → Option σ) :
    List (Move κ) → Session σ slots → Run (Session σ slots) (List Reply)
  | [], s => ⟨.ok [] s, []⟩
  | .call fuel c :: rest, s =>
    (perform bus fuel c s).andThen fun reply s =>
      (play bus operate rest s).andThen fun replies s => ⟨.ok (reply :: replies) s, []⟩
  | .control k :: rest, s =>
    match operate k s.bus with
    | some x => play bus operate rest ⟨s.driver, x⟩
    | none => ⟨.halt, []⟩

/-- The answer of an entry, if it is a call. -/
def Entry.reply? : Entry slots κ → Option Reply
  | .call _ _ reply _ => some reply
  | .control _ => none

/-- Moves that make a history have the answers of its calls and the events of its entries. -/
theorem Session.play_of_replay {bus : Bus σ} {operate : κ → σ → Option σ} {moves : List (Move κ)}
    {s s' : Session σ slots} {entries : List (Entry slots κ)}
    (h : Session.replay bus operate moves s = some (entries, s')) :
    Session.play bus operate moves s =
      ⟨.ok (entries.filterMap Entry.reply?) s', entries.flatMap Entry.trace⟩ := by
  induction moves generalizing s entries with
  | nil =>
    obtain ⟨rfl, rfl⟩ := Prod.mk.inj (Option.some.inj h)
    rfl
  | cons m rest ih =>
    cases m with
    | call fuel c =>
      rw [Session.replay] at h
      split at h
      · rename_i reply s₁ t hperform
        obtain ⟨⟨later, s₂⟩, hlater, hr⟩ := Option.map_eq_some_iff.1 h
        obtain ⟨rfl, rfl⟩ := Prod.mk.inj hr
        rw [Session.play, hperform]
        simp only [Run.andThen, ih hlater, List.append_nil]
        rfl
      · cases h
    | control k =>
      obtain ⟨x, hoperate, h₁⟩ := Option.bind_eq_some_iff.1 h
      obtain ⟨⟨later, s₂⟩, hlater, hr⟩ := Option.map_eq_some_iff.1 h₁
      obtain ⟨rfl, rfl⟩ := Prod.mk.inj hr
      have hplay := ih hlater
      rw [Session.play, hoperate]
      exact hplay

/-- The drivers of two sessions are the same, and their rigs are related. -/
structure Session.Related (R : σ → τ → Prop) (x : Session (Rig σ) slots)
    (y : Session (Rig τ) slots) : Prop where
  driver : y.driver = x.driver
  bus : Rig.Related R x.bus y.bus

namespace Sim.Hardware.Refines

variable {P : Request → Prop} {R : σ → τ → Prop} {hw₁ : Hardware σ κ} {hw₂ : Hardware τ κ}
  {schedule : Schedule κ} {x : Session (Rig σ) slots} {y : Session (Rig τ) slots}

/-- A call. -/
theorem perform {fuel : Nat} {c : Call} (h : hw₁.Refines P R hw₂)
    (hp : (c.program fuel x.driver).Asks P fun _ => True) (hR : Session.Related R x y) :
    (Session.perform (hw₁.rigged schedule) fuel c x).Refines (Session.Related R)
      (Session.perform (hw₂.rigged schedule) fuel c y) := by
  rw [Session.perform_eq_map, Session.perform_eq_map, hR.driver]
  exact ((h.rigged schedule).run hp hR.bus).map fun _ _ _ hbus => ⟨rfl, rfl, hbus⟩

/-- **Sessions.** If all calls that are made ask only for what `P` allows, as long as the driver
keeps to an invariant, the two sessions go the same way. -/
theorem play {I : Driver slots → Prop} {C : Call → Prop} {moves : List (Move κ)}
    (h : hw₁.Refines P R hw₂)
    (hasks : ∀ d c fuel, I d → C c → (c.program fuel d).Asks P fun _ => True)
    (hkeeps : ∀ d c reply d', I d → C c → d.Leaves c reply d' → I d')
    (hmoves : ∀ m ∈ moves, m.Calls C) (hI : I x.driver) (hR : Session.Related R x y) :
    (Session.play (hw₁.rigged schedule) hw₁.operate moves x).Refines (Session.Related R)
      (Session.play (hw₂.rigged schedule) hw₂.operate moves y) := by
  induction moves generalizing x y with
  | nil => exact .ok hR
  | cons m rest ih =>
    obtain ⟨hm, hrest⟩ := List.forall_mem_cons.1 hmoves
    cases m with
    | call fuel c =>
      refine (h.perform (hasks _ c fuel hI hm) hR).andThen fun reply x₁ y₁ u hrun hR₁ => ?_
      have hleaves := Driver.leaves_of_completes (Session.perform_eq_ok_iff.1 hrun)
      have hlater := ih hrest (hkeeps _ _ _ _ hI hm hleaves) hR₁
      exact hlater.andThen fun _ _ _ _ _ hR₂ => .ok hR₂
    | control k =>
      simp only [Session.play, Hardware.operate]
      cases hk : hw₁.control k x.bus.device with
      | none => exact .halt
      | some s' =>
        obtain ⟨t', ht', hR'⟩ := h.control _ _ _ _ hR.bus.device hk
        rw [ht']
        exact ih hrest hI ⟨hR.driver, hR', hR.bus.reads, hR.bus.delays, hR.bus.accesses⟩

end Sim.Hardware.Refines

end Sessions

/-! ### Conditions on the operator -/

/-- Every program asks for something. -/
theorem Program.asks_anything (p : Program α) : p.Asks (fun _ => True) fun _ => True := by
  induction p with
  | done a => trivial
  | fault => trivial
  | limit => trivial
  | read a next ih => exact ⟨trivial, ih⟩
  | act c next ih => exact ⟨trivial, ih⟩

namespace Sim.Hardware

variable {κ : Type} {slots : Nat} {hw : Hardware σ κ} {admits : κ → σ → Bool}

/-- A device that stops the machine at a control that is not admitted. -/
def guarded (hw : Hardware σ κ) (admits : κ → σ → Bool) : Hardware σ κ :=
  { hw with control := fun k s => if admits k s then hw.control k s else none }

theorem control_of_guarded {k : κ} {s s' : σ} (h : (hw.guarded admits).control k s = some s') :
    admits k s = true ∧ hw.control k s = some s' := by
  simp only [guarded] at h
  split at h
  · rename_i ha
    exact ⟨ha, h⟩
  · cases h

/-- A device may stand for itself under a guard. -/
theorem guarded_refines (P : Request → Prop) : (hw.guarded admits).Refines P Eq hw where
  bus := by
    have hsame : ∀ {α : Type} (o : Outcome σ α), (⟨o, []⟩ : Run σ α).Refines Eq ⟨o, []⟩ := by
      intro α o
      cases o with
      | ok a s => exact .ok rfl
      | limit => exact .limit
      | fault => exact .fault
      | halt => exact .halt
    constructor
    · rintro a s t - rfl
      exact hsame _
    · rintro c s t - rfl
      exact hsame _
  control := by
    rintro k s t s' rfl h
    exact ⟨s', (control_of_guarded h).2, rfl⟩
  seesRegisters := rfl

/-- **A guard that stops nothing** changes nothing: the session is that of the device itself. -/
theorem play_of_guarded {schedule : Schedule κ} {moves : List (Move κ)}
    {x : Session (Rig σ) slots} {o : Outcome (Session (Rig σ) slots) (List Reply)} {t : List Event}
    (h : Session.play ((hw.guarded admits).rigged schedule) (hw.guarded admits).operate moves x =
      ⟨o, t⟩) (hfault : o ≠ .fault) (hhalt : o ≠ .halt) :
    Session.play (hw.rigged schedule) hw.operate moves x = ⟨o, t⟩ := by
  have hrefines : (hw.guarded admits).Refines (fun _ => True) Eq hw := guarded_refines _
  have hplay : (Session.play ((hw.guarded admits).rigged schedule) (hw.guarded admits).operate
      moves x).Refines (Session.Related Eq)
      (Session.play (hw.rigged schedule) hw.operate moves x) :=
    hrefines.play (I := fun _ => True) (C := fun _ => True)
      (fun _ _ _ _ _ => Program.asks_anything _) (fun _ _ _ _ _ _ _ => trivial)
      (fun m _ => by cases m <;> trivial) trivial ⟨rfl, rfl, rfl, rfl, rfl⟩
  rw [h] at hplay
  generalize Session.play (hw.rigged schedule) hw.operate moves x = r at hplay ⊢
  cases hplay with
  | @ok _ y z _ hsame =>
    obtain ⟨hdriver, hdevice, hreads, hdelays, haccesses⟩ := hsame
    obtain ⟨d, ⟨_, _, _, _⟩⟩ := y
    obtain ⟨d', ⟨_, _, _, _⟩⟩ := z
    simp only at hdriver hdevice hreads hdelays haccesses
    subst hdriver hdevice hreads hdelays haccesses
    rfl
  | limit => rfl
  | fault => exact absurd rfl hfault
  | halt => exact absurd rfl hhalt

end Sim.Hardware

end PolledUart
