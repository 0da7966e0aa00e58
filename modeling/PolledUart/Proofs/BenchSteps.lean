import PolledUart.Proofs.Completion
import PolledUart.Sim.Bench

/-!
# Steps of the bench block

What one event does to a bench block that keeps to a schedule. Controls may come
right before a read or a delay; they add characters to the receive queue and leave
the record of the transfers alone (`Bench.Follows`). An access then does what the
block does with it, and for a layout that keeps the registers apart
(`Bench.TellsApart`) that is the access the driver meant.

* `Bench.step_read`, `Bench.step_write`, `Bench.step_aside` — the three kinds of
  steps, with the controls that came in between.
* `Bench.tellsApart_blsp`, `Bench.tellsApart_gsbi` — the two known layouts.
-/

namespace PolledUart

/-- The registers the driver writes. -/
def Register.written : List Register := [.mr1, .mr2, .csr, .cr, .dmrx, .dmen, .noCharsForTx, .tf]

/-- The registers the driver reads. -/
def Register.readable : List Register := [.sr, .isr, .rxfs, .rf]

namespace Sim

namespace Bench

/-- A layout in which the block tells the registers apart: all lie in its window, the readable
ones differ, and the ones whose writing has an effect differ from all others that are written. -/
structure TellsApart (m : RegisterMap) : Prop where
  inside : ∀ r, m.offset r < window
  reads : ∀ r ∈ Register.readable, ∀ q ∈ Register.readable, q ≠ r → m.offset q ≠ m.offset r
  writes : ∀ r ∈ [Register.tf, .cr, .noCharsForTx], ∀ q ∈ Register.written, q ≠ r →
    m.offset q ≠ m.offset r

theorem tellsApart_blsp : TellsApart .blsp where
  inside r := by cases r <;> decide
  reads := by decide
  writes := by decide

theorem tellsApart_gsbi : TellsApart .gsbi where
  inside r := by cases r <;> decide
  reads := by decide
  writes := by decide

theorem tellsApart_of_known {m : RegisterMap} (h : m = .blsp ∨ m = .gsbi) : TellsApart m := by
  rcases h with rfl | rfl
  · exact tellsApart_blsp
  · exact tellsApart_gsbi

/-! ### Controls -/

/-- The characters a control brings. -/
def Control.received : Control → List UInt8
  | .receive bytes => bytes
  | _ => []

/-- The second block is the first after some characters have arrived; its transmitter may have
become busy, stuck or stalled, and its overrun flag may have changed. -/
structure Follows (b b' : Bench) (arrived : List UInt8) : Prop where
  base : b'.base = b.base
  map : b'.map = b.map
  transfersBack : b'.transfersBack = b.transfersBack
  stale : b'.stale = b.stale
  rx : b'.rx = b.rx ++ arrived

theorem Follows.refl (b : Bench) : b.Follows b [] := ⟨rfl, rfl, rfl, rfl, by simp⟩

theorem Follows.trans {b₁ b₂ b₃ : Bench} {l₁ l₂ : List UInt8} (h : b₁.Follows b₂ l₁)
    (h' : b₂.Follows b₃ l₂) : b₁.Follows b₃ (l₁ ++ l₂) where
  base := h'.base.trans h.base
  map := h'.map.trans h.map
  transfersBack := h'.transfersBack.trans h.transfersBack
  stale := h'.stale.trans h.stale
  rx := by rw [h'.rx, h.rx, List.append_assoc]

theorem follows_of_control {k : Control} {b b' : Bench} (h : control k b = some b') :
    b.Follows b' k.received := by
  cases k with
  | stallAfter words =>
    simp only [control] at h
    split at h
    · obtain rfl := Option.some.inj h
      exact ⟨rfl, rfl, rfl, rfl, by simp [Control.received]⟩
    · cases h
  | receive bytes =>
    obtain rfl := Option.some.inj h
    exact ⟨rfl, rfl, rfl, rfl, rfl⟩
  | _ =>
    obtain rfl := Option.some.inj h
    exact ⟨rfl, rfl, rfl, rfl, by simp [Control.received]⟩

/-- A control between two calls is no access. -/
theorem follows_of_operate {k : Control} {r r' : Rig Bench} (h : hardware.operate k r = some r') :
    r.device.Follows r'.device k.received ∧ r'.reads = r.reads := by
  obtain ⟨device, hk, rfl⟩ := Option.map_eq_some_iff.1 h
  exact ⟨follows_of_control hk, rfl⟩

/-- The characters a schedule brings at a moment. -/
def arrivals (schedule : Schedule Control) (m : Moment) : List UInt8 :=
  schedule.controls.flatMap fun entry => if entry.1 = m then entry.2.received else []

theorem follows_of_advance {schedule : Schedule Control} {m : Moment} {b b' : Bench}
    (h : hardware.advance schedule m b = some b') : b.Follows b' (arrivals schedule m) := by
  obtain ⟨controls, limit⟩ := schedule
  simp only [Hardware.advance, arrivals] at *
  induction controls generalizing b with
  | nil =>
    obtain rfl := Option.some.inj h
    exact Follows.refl b
  | cons entry rest ih =>
    rw [List.foldlM_cons] at h
    obtain ⟨b₁, h₁, h₂⟩ := Option.bind_eq_some_iff.1 h
    rw [List.flatMap_cons]
    refine Follows.trans ?_ (ih h₂)
    split at h₁
    · rename_i hm
      rw [if_pos hm]
      exact follows_of_control h₁
    · rename_i hm
      rw [if_neg hm]
      obtain rfl := Option.some.inj h₁
      exact Follows.refl b

/-! ### Steps -/

section Steps

variable {schedule : Schedule Control} {r r' : Rig Bench}

/-- Before a read the controls of its moment come. -/
theorem step_read {a : Address} {v : UInt32}
    (h : (hardware.rigged schedule).Step r (.read a v) r') :
    ∃ device, r.device.Follows device (arrivals schedule (.read (r.reads + 1))) ∧
      device.read a = (v, r'.device) ∧ r'.reads = r.reads + 1 := by
  simp only [Bus.Step, Hardware.rigged, hardware, ↓reduceIte] at h
  split at h
  · split at h
    · rename_i device hadvance
      simp only [bus, Hardware.keep, Outcome.ok.injEq] at h
      obtain ⟨rfl, rfl⟩ := h
      exact ⟨device, follows_of_advance hadvance, rfl, rfl⟩
    · cases h
  · cases h

/-- A write comes at once. -/
theorem step_write {a : Address} {v : UInt32}
    (h : (hardware.rigged schedule).Step r (.act (.write a v)) r') :
    r'.device = r.device.write a v ∧ r'.reads = r.reads := by
  simp only [Bus.Step, Bus.act, Hardware.rigged, hardware, ↓reduceIte] at h
  split at h
  · simp only [bus, Hardware.keep, Outcome.ok.injEq, true_and] at h
    subst h
    exact ⟨rfl, rfl⟩
  · cases h

/-- Any other action brings no more than characters. -/
theorem step_aside {c : Action} (hc : ∀ a v, c ≠ .write a v)
    (h : (hardware.rigged schedule).Step r (.act c) r') :
    ∃ arrived, r.device.Follows r'.device arrived ∧ r'.reads = r.reads := by
  cases c with
  | write a v => exact absurd rfl (hc a v)
  | delay us =>
    simp only [Bus.Step, Bus.act, Hardware.rigged, hardware] at h
    split at h
    · split at h
      · rename_i device hadvance
        have hf := follows_of_advance hadvance
        simp only [bus, wait] at h
        split at h
        · simp only [Hardware.keep, Outcome.ok.injEq, true_and] at h
          subst h
          exact ⟨_, ⟨hf.base, hf.map, hf.transfersBack, hf.stale, hf.rx⟩, rfl⟩
        · cases h
      · cases h
    · cases h
  | _ =>
    simp only [Bus.Step, Bus.act, Outcome.ok.injEq, true_and] at h
    subst h
    exact ⟨[], Follows.refl _, rfl⟩

/-- The reads of a path are counted. -/
theorem reads_of_path {t : List Event} (h : Bus.Path (hardware.rigged schedule).Step r t r') :
    r'.reads = r.reads + Trace.readCount t := by
  induction h with
  | nil => rfl
  | @cons x y z e t hs _ ih =>
    cases e with
    | read a v =>
      obtain ⟨_, -, -, hreads⟩ := step_read hs
      rw [ih, hreads, Trace.readCount_read]
      omega
    | act c =>
      have hreads : y.reads = x.reads := by
        by_cases hc : ∃ a v, c = .write a v
        · obtain ⟨a, v, rfl⟩ := hc
          exact (step_write hs).2
        · exact (step_aside (fun a v e => hc ⟨a, v, e⟩) hs).choose_spec.2
      rw [ih, hreads, Trace.readCount_act]

end Steps

/-! ### Accesses of the block -/

section Accesses

variable {b : Block} {d : Bench}

/-- The block answers at the base and with the layout that the driver uses. -/
def Serves (d : Bench) (b : Block) : Prop := d.base = b.base ∧ d.map = b.map

theorem Follows.serves {d' : Bench} {arrived : List UInt8} (h : d.Follows d' arrived)
    (hd : d.Serves b) : d'.Serves b := ⟨h.base.trans hd.1, h.map.trans hd.2⟩

theorem Serves.offset (hd : d.Serves b) (q : Register) : b.location q - d.base = d.map.offset q := by
  rw [hd.1, hd.2, Block.location, UInt64.add_comm, UInt64.add_sub_cancel]

theorem Serves.read_location (hd : d.Serves b) (hm : TellsApart b.map) (q : Register) :
    d.read (b.location q) =
      ((d.readAt (d.map.offset q)).1,
        { (d.readAt (d.map.offset q)).2 with logged := (d.readAt (d.map.offset q)).2.logged + 1 }) := by
  have hin : d.map.offset q < window := hd.2 ▸ hm.inside q
  simp only [read, hd.offset, hin, ↓reduceIte]

theorem Serves.write_location (hd : d.Serves b) (hm : TellsApart b.map) (q : Register)
    (v : UInt32) :
    d.write (b.location q) v = writeAt { d with logged := d.logged + 1 } (d.map.offset q) v := by
  have hin : d.map.offset q < window := hd.2 ▸ hm.inside q
  simp only [write, hd.offset, hin, ↓reduceIte]

/-- Writing does not move the block. -/
theorem Serves.write (hd : d.Serves b) (a : Address) (v : UInt32) : (d.write a v).Serves b := by
  unfold Bench.write writeAt takeWord obey store
  dsimp only
  repeat' split
  all_goals exact hd

/-- Reading does not move the block. -/
theorem Serves.read (hd : d.Serves b) (a : Address) : (d.read a).2.Serves b := by
  unfold Bench.read readAt readStatus readInterruptStatus readData popWord
  dsimp only
  repeat' split
  all_goals exact hd

end Accesses

end Bench

end Sim

end PolledUart
