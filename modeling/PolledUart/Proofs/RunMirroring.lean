import PolledUart.Proofs.CallMirroring
import PolledUart.Proofs.Simulation

/-!
# Two sessions side by side

`Program.Mirrors` compares what two programs ask. If two devices answer corresponding
requests alike, the programs run alike on them: they end in the same way, with values that
belong together and in states that are related, and each event of one run answers the request
that corresponds to that of the other (`Run.Mirrors`). Unlike `Run.Refines` the comparison
goes both ways, and the traces need not be the same.

* `Bus.Mirrors.run` — from single accesses to programs.
* `Hardware.Mirrors.rigged` — from devices to devices that keep to a schedule.
* `Hardware.Mirrors.play` — sessions of two drivers that differ in their configurations.
-/

namespace PolledUart

variable {σ σ' τ τ' α α' β β' : Type} {Q : Request → Request → Prop} {R : σ → τ → Prop}
  {V : α → β → Prop}

/-! ### Runs -/

/-- The two end in the same way, with values that belong together and in related states. -/
inductive Outcome.Mirrors (R : σ → τ → Prop) (V : α → β → Prop) :
    Outcome σ α → Outcome τ β → Prop where
  /-- Both complete. -/
  | ok {a : α} {b : β} {s : σ} {t : τ} : V a b → R s t → Mirrors R V (.ok a s) (.ok b t)
  /-- Both stop the machine. -/
  | fault : Mirrors R V .fault .fault
  /-- Both stop the machine before a step. -/
  | halt : Mirrors R V .halt .halt
  /-- Both are cut off. -/
  | limit : Mirrors R V .limit .limit

/-- The values and the states at the end may be replaced. -/
theorem Outcome.Mirrors.map {R' : σ' → τ' → Prop} {V' : α' → β' → Prop} {o₁ : Outcome σ α}
    {o₂ : Outcome τ β} {f₁ : α → σ → α' × σ'} {f₂ : β → τ → β' × τ'} (h : o₁.Mirrors R V o₂)
    (hf : ∀ a b s t, V a b → R s t → V' (f₁ a s).1 (f₂ b t).1 ∧ R' (f₁ a s).2 (f₂ b t).2) :
    (o₁.map f₁).Mirrors R' V' (o₂.map f₂) := by
  cases h with
  | ok hV hR =>
    obtain ⟨hV', hR'⟩ := hf _ _ _ _ hV hR
    exact .ok hV' hR'
  | fault => exact .fault
  | halt => exact .halt
  | limit => exact .limit

/-- The two runs end in the same way, after events that correspond one by one. -/
structure Run.Mirrors (Q : Request → Request → Prop) (R : σ → τ → Prop) (V : α → β → Prop)
    (r₁ : Run σ α) (r₂ : Run τ β) : Prop where
  outcome : r₁.outcome.Mirrors R V r₂.outcome
  trace : List.Forall₂ (Event.Mirrors Q) r₁.trace r₂.trace

theorem Run.Mirrors.mono {R' : σ → τ → Prop} {r₁ : Run σ α} {r₂ : Run τ β}
    (h : r₁.Mirrors Q R V r₂) (hR : ∀ s t, R s t → R' s t) : r₁.Mirrors Q R' V r₂ := by
  obtain ⟨o₁, t₁⟩ := r₁
  obtain ⟨o₂, t₂⟩ := r₂
  obtain ⟨houtcome, htrace⟩ := h
  refine ⟨?_, htrace⟩
  cases houtcome with
  | ok hV hst => exact .ok hV (hR _ _ hst)
  | fault => exact .fault
  | halt => exact .halt
  | limit => exact .limit

theorem Run.Mirrors.andThen {R' : σ → τ → Prop} {V' : α' → β' → Prop} {r₁ : Run σ α}
    {r₂ : Run τ β} {f₁ : α → σ → Run σ α'} {f₂ : β → τ → Run τ β'}
    (h : r₁.Mirrors Q R V r₂)
    (hf : ∀ a b s t u, r₁ = ⟨.ok a s, u⟩ → V a b → R s t → (f₁ a s).Mirrors Q R' V' (f₂ b t)) :
    (r₁.andThen f₁).Mirrors Q R' V' (r₂.andThen f₂) := by
  obtain ⟨o₁, t₁⟩ := r₁
  obtain ⟨o₂, t₂⟩ := r₂
  obtain ⟨houtcome, htrace⟩ := h
  cases houtcome with
  | ok hV hR =>
    obtain ⟨hnext, hlater⟩ := hf _ _ _ _ t₁ rfl hV hR
    exact ⟨hnext, List.rel_append htrace hlater⟩
  | fault => exact ⟨.fault, htrace⟩
  | halt => exact ⟨.halt, htrace⟩
  | limit => exact ⟨.limit, htrace⟩

/-- Requests that correspond have the same answers on both buses, and keep their states related. -/
structure Bus.Mirrors (Q : Request → Request → Prop) (R : σ → τ → Prop) (bus₁ : Bus σ)
    (bus₂ : Bus τ) : Prop where
  read : ∀ a a' s t, Q (.read a) (.read a') → R s t →
    (bus₁.read a s).Mirrors R Eq (bus₂.read a' t)
  act : ∀ c c' s t, Q (.act c) (.act c') → R s t → (bus₁.act c s).Mirrors R Eq (bus₂.act c' t)

/-- **Programs.** What go on side by side run alike, if nothing is allowed to lapse. -/
theorem Bus.Mirrors.run {bus₁ : Bus σ} {bus₂ : Bus τ} {L : α → Prop} {p : Program α}
    {p' : Program β} {s : σ} {t : τ} (h : bus₁.Mirrors Q R bus₂) (hp : p.Mirrors Q False L V p')
    (hR : R s t) : (bus₁.run p s).Mirrors Q R V (bus₂.run p' t) := by
  induction hp generalizing s t with
  | done hV => exact ⟨.ok hV hR, .nil⟩
  | fault => exact ⟨.fault, .nil⟩
  | limit => exact ⟨.limit, .nil⟩
  | read hq _ ih =>
    have hstep := h.read _ _ s t hq hR
    simp only [Bus.run]
    generalize bus₁.read _ s = o₁ at hstep ⊢
    generalize bus₂.read _ t = o₂ at hstep ⊢
    cases hstep with
    | ok hv hR' =>
      obtain rfl := hv
      obtain ⟨houtcome, htrace⟩ := ih _ hR'
      exact ⟨houtcome, .cons (.read hq) htrace⟩
    | fault => exact ⟨.fault, .nil⟩
    | halt => exact ⟨.halt, .nil⟩
    | limit => exact ⟨.limit, .nil⟩
  | act hq _ ih =>
    have hstep := h.act _ _ s t hq hR
    simp only [Bus.run]
    generalize bus₁.act _ s = o₁ at hstep ⊢
    generalize bus₂.act _ t = o₂ at hstep ⊢
    cases hstep with
    | ok _ hR' =>
      obtain ⟨houtcome, htrace⟩ := ih hR'
      exact ⟨houtcome, .cons (.act hq) htrace⟩
    | fault => exact ⟨.fault, .cons (.act hq) .nil⟩
    | halt => exact ⟨.halt, .nil⟩
    | limit => exact ⟨.limit, .nil⟩
  | lapse hlapse => exact hlapse.allowed.elim

/-! ### Devices -/

namespace Sim

variable {κ : Type}

/-- Requests that correspond, and controls, do the same on both devices. -/
structure Hardware.Mirrors (Q : Request → Request → Prop) (R : σ → τ → Prop)
    (hw₁ : Hardware σ κ) (hw₂ : Hardware τ κ) : Prop where
  bus : hw₁.bus.Mirrors Q R hw₂.bus
  control : ∀ k s t, R s t → Option.Rel R (hw₁.control k s) (hw₂.control k t)
  seesRegisters : hw₂.seesRegisters = hw₁.seesRegisters

namespace Hardware

variable {hw₁ : Hardware σ κ} {hw₂ : Hardware τ κ} {schedule : Schedule κ}

theorem Mirrors.advance (h : hw₁.Mirrors Q R hw₂) {m : Moment} {s : σ} {t : τ} (hR : R s t) :
    Option.Rel R (hw₁.advance schedule m s) (hw₂.advance schedule m t) := by
  obtain ⟨controls, limit⟩ := schedule
  simp only [Hardware.advance]
  induction controls generalizing s t with
  | nil => exact .some hR
  | cons entry rest ih =>
    rw [List.foldlM_cons, List.foldlM_cons]
    have hfirst : Option.Rel R (if entry.1 = m then hw₁.control entry.2 s else some s)
        (if entry.1 = m then hw₂.control entry.2 t else some t) := by
      split
      · exact h.control _ _ _ hR
      · exact .some hR
    generalize (if entry.1 = m then hw₁.control entry.2 s else some s) = o₁ at hfirst ⊢
    generalize (if entry.1 = m then hw₂.control entry.2 t else some t) = o₂ at hfirst ⊢
    cases hfirst with
    | some hR₁ => exact ih hR₁
    | none => exact .none

/-- The counters of the rigs have no part in it. -/
theorem mirrors_keep {x : Rig σ} {y : Rig τ} {o₁ : Outcome σ α} {o₂ : Outcome τ β}
    (hx : y.reads = x.reads ∧ y.delays = x.delays ∧ y.accesses = x.accesses)
    (h : o₁.Mirrors R V o₂) : (keep x o₁).Mirrors (Rig.Related R) V (keep y o₂) := by
  rw [keep_eq_map, keep_eq_map]
  exact h.map fun _ _ _ _ hV hR => ⟨hV, hR, hx.1, hx.2.1, hx.2.2⟩

/-- A write corresponds to a write, and any other action to itself. -/
def SameKind (Q : Request → Request → Prop) : Prop :=
  ∀ c c', Q (.act c) (.act c') →
    (∃ a v a' v', c = .write a v ∧ c' = .write a' v') ∨ (∀ a v, c ≠ .write a v) ∧ c' = c

/-- **Schedules.** What two devices do alike they do alike when both keep to a schedule. -/
theorem Mirrors.rigged (h : hw₁.Mirrors Q R hw₂) (hkind : SameKind Q) (schedule : Schedule κ) :
    (hw₁.rigged schedule).Mirrors Q (Rig.Related R) (hw₂.rigged schedule) where
  read := by
    intro a a' x y hq hR
    have hadvance : Option.Rel R (hw₁.advance schedule (.read (x.reads + 1)) x.device)
        (hw₂.advance schedule (.read (x.reads + 1)) y.device) :=
      h.advance hR.device
    simp only [Hardware.rigged, h.seesRegisters, hR.reads, hR.accesses]
    split
    · split
      · generalize hw₁.advance schedule (.read (x.reads + 1)) x.device = o₁ at hadvance ⊢
        generalize hw₂.advance schedule (.read (x.reads + 1)) y.device = o₂ at hadvance ⊢
        cases hadvance with
        | some hR₁ => exact mirrors_keep ⟨rfl, hR.delays, rfl⟩ (h.bus.read _ _ _ _ hq hR₁)
        | none => exact .halt
      · exact .limit
    · exact mirrors_keep ⟨hR.reads, hR.delays, hR.accesses⟩ (h.bus.read _ _ _ _ hq hR.device)
  act := by
    intro c c' x y hq hR
    have hstep := fun s t hst => h.bus.act c c' s t hq hst
    rcases hkind c c' hq with ⟨a, v, a', v', rfl, rfl⟩ | ⟨hc, rfl⟩
    · simp only [Bus.act, Hardware.rigged, h.seesRegisters, hR.accesses] at hstep ⊢
      split
      · split
        · exact mirrors_keep ⟨hR.reads, hR.delays, rfl⟩ (hstep _ _ hR.device)
        · exact .limit
      · exact mirrors_keep ⟨hR.reads, hR.delays, hR.accesses⟩ (hstep _ _ hR.device)
    · cases c' with
      | write a v => exact absurd rfl (hc a v)
      | delay us =>
        have hadvance : Option.Rel R (hw₁.advance schedule (.delay (x.delays + 1)) x.device)
            (hw₂.advance schedule (.delay (x.delays + 1)) y.device) :=
          h.advance hR.device
        simp only [Bus.act, Hardware.rigged, hR.delays, hR.accesses] at hstep ⊢
        split
        · generalize hw₁.advance schedule (.delay (x.delays + 1)) x.device = o₁ at hadvance ⊢
          generalize hw₂.advance schedule (.delay (x.delays + 1)) y.device = o₂ at hadvance ⊢
          cases hadvance with
          | some hR₁ => exact mirrors_keep ⟨hR.reads, rfl, rfl⟩ (hstep _ _ hR₁)
          | none => exact .halt
        · exact .limit
      | barrier =>
        have hbarrier := hstep _ _ hR.device
        simp only [Bus.act, Hardware.rigged] at hbarrier ⊢
        cases hbarrier with
        | ok _ hR' => exact .ok rfl ⟨hR', hR.reads, hR.delays, hR.accesses⟩
      | enter | leave | clock _ | pads _ => exact .ok rfl hR

end Hardware

end Sim

/-! ### Sessions -/

section Sessions

open Sim

variable {κ : Type} {slots : Nat} {config config' : Config} {schedule : Schedule κ}
  {hw₁ : Hardware σ κ} {hw₂ : Hardware τ κ} {x : Session (Rig σ) slots}
  {y : Session (Rig τ) slots}

/-- The drivers of two sessions differ in nothing but their configurations, and their rigs are
related. -/
structure Session.Mirrors (config config' : Config) (R : σ → τ → Prop)
    (x : Session (Rig σ) slots) (y : Session (Rig τ) slots) : Prop where
  driver : ∃ ports, Driver.Pair (fun _ => True) config config' ports x.driver y.driver
  bus : Rig.Related R x.bus y.bus

/-- The two drivers of a pair make a call alike, if it is one of `C` and the first driver keeps to
`I`. -/
def CallsMirror (Q : Request → Request → Prop) (config config' : Config) (slots : Nat)
    (I : Driver slots → Prop) (C : Call → Prop) : Prop :=
  ∀ (d d' : Driver slots) ports fuel c,
    Driver.Pair (fun _ => True) config config' ports d d' → I d → C c →
    (c.withCause fuel d).Mirrors Q False Driver.CallTimedOut
      (fun a b => ∃ ports', Driver.Pair.Result (fun _ => True) config config' ports' a b)
      (c.withCause fuel d')

namespace Sim.Hardware.Mirrors

variable {I : Driver slots → Prop} {C : Call → Prop}

/-- A call. -/
theorem perform {fuel : Nat} {c : Call} (h : hw₁.Mirrors Q R hw₂) (hkind : SameKind Q)
    (hcalls : CallsMirror Q config config' slots I C) (hI : I x.driver) (hc : C c)
    (hxy : Session.Mirrors config config' R x y) :
    (Session.perform (hw₁.rigged schedule) fuel c x).Mirrors Q (Session.Mirrors config config' R)
      Eq (Session.perform (hw₂.rigged schedule) fuel c y) := by
  obtain ⟨⟨ports, hpair⟩, hbus⟩ := hxy
  have hprogram : (c.program fuel x.driver).Mirrors Q False (fun _ => False)
      (fun a b => ∃ ports', Driver.Pair.Result (fun _ => True) config config' ports' a b)
      (c.program fuel y.driver) := by
    rw [Call.program_eq, Call.program_eq]
    refine (hcalls _ _ ports fuel c hpair hI hc).bind ?_ fun _ hfalse => hfalse.elim
    rintro a b ⟨ports', hvalue, hdrivers⟩
    exact .done ⟨ports', congrArg Prod.snd hvalue, hdrivers⟩
  obtain ⟨houtcome, htrace⟩ := (h.rigged hkind schedule).run hprogram hbus
  rw [Session.perform_eq_map, Session.perform_eq_map]
  refine ⟨houtcome.map ?_, htrace⟩
  rintro a b s t ⟨ports', hvalue, hdrivers⟩ hR
  exact ⟨hvalue.symm, ⟨ports', hdrivers⟩, hR⟩

/-- **Sessions.** If all calls that are made are made alike, as long as the first driver keeps to an
invariant, the two sessions go alike. -/
theorem play {moves : List (Move κ)} (h : hw₁.Mirrors Q R hw₂) (hkind : SameKind Q)
    (hcalls : CallsMirror Q config config' slots I C)
    (hkeeps : ∀ d c reply d', I d → C c → d.Leaves c reply d' → I d')
    (hmoves : ∀ m ∈ moves, m.Calls C) (hI : I x.driver)
    (hxy : Session.Mirrors config config' R x y) :
    (Session.play (hw₁.rigged schedule) hw₁.operate moves x).Mirrors Q
      (Session.Mirrors config config' R) Eq
      (Session.play (hw₂.rigged schedule) hw₂.operate moves y) := by
  induction moves generalizing x y with
  | nil => exact ⟨.ok rfl hxy, .nil⟩
  | cons m rest ih =>
    obtain ⟨hm, hrest⟩ := List.forall_mem_cons.1 hmoves
    cases m with
    | call fuel c =>
      refine (h.perform hkind hcalls hI hm hxy).andThen ?_
      rintro reply _ x₁ y₁ u hrun rfl hxy₁
      have hleaves := Driver.leaves_of_completes (Session.perform_eq_ok_iff.1 hrun)
      refine (ih hrest (hkeeps _ _ _ _ hI hm hleaves) hxy₁).andThen ?_
      rintro replies _ x₂ y₂ - - rfl hxy₂
      exact ⟨.ok rfl hxy₂, .nil⟩
    | control k =>
      have hcontrol := h.control k _ _ hxy.bus.device
      simp only [Session.play, Hardware.operate]
      generalize hw₁.control k x.bus.device = o₁ at hcontrol ⊢
      generalize hw₂.control k y.bus.device = o₂ at hcontrol ⊢
      cases hcontrol with
      | some hR =>
        exact ih hrest hI ⟨hxy.driver, hR, hxy.bus.reads, hxy.bus.delays, hxy.bus.accesses⟩
      | none => exact ⟨.halt, .nil⟩

end Sim.Hardware.Mirrors

end Sessions

end PolledUart
