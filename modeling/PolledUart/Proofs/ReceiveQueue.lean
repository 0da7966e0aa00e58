import PolledUart.Proofs.BenchSteps
import PolledUart.Proofs.ReceiveTrace

/-!
# The receive queue of a bench block

What the events of a fetch have to do with the receive queue: the status tells whether
four characters wait, the receive state counts the characters over full words, and a
read of data takes up to four characters once the packing buffer has been pushed out.
Characters may arrive right before every read.

* `Bench.step_status`, `Bench.step_receiveState`, `Bench.step_data`,
  `Bench.step_command`, `Bench.step_rearm` — one lemma for each event of a fetch.
-/

namespace PolledUart.Sim.Bench

variable {b : Block} {d : Bench}

/-! ### Accesses of the receive registers -/

/-- The flags of the status register do not get in each other's way. -/
theorem status_rxReady (d : Bench) : d.status &&& Status.rxReady ≠ 0 ↔ 4 ≤ d.rx.length := by
  have hbits : ∀ ready takes idle lost : Bool,
      ((if ready then Status.rxReady else 0) ||| (if takes then Status.txReady else 0) |||
        (if idle then Status.txEmpty else 0) ||| (if lost then Status.overrun else 0)) &&&
          Status.rxReady ≠ 0 ↔ ready = true := by
    decide
  exact (hbits _ d.takesWords d.idle d.overrun).trans decide_eq_true_iff

/-- A transmitter that pretends to be busy does not hide a word that is ready. -/
theorem busyStatus_rxReady (d : Bench) :
    d.status &&& ~~~(Status.txReady ||| Status.txEmpty) &&& Status.rxReady ≠ 0 ↔
      4 ≤ d.rx.length := by
  have hmask : d.status &&& ~~~(Status.txReady ||| Status.txEmpty) &&& Status.rxReady =
      d.status &&& Status.rxReady := by
    rw [UInt32.and_assoc]
    rfl
  rw [hmask, status_rxReady]

theorem bufferCount_receiveState (d : Bench) :
    (ReceiveState.bufferCount d.receiveState).toNat = d.rx.length % 4 := by
  have h : ∀ k < 4, (ReceiveState.bufferCount (UInt32.ofNat k <<< 7)).toNat = k := by decide
  exact h _ (Nat.mod_lt _ (by decide))

theorem TellsApart.readAt_rxfs (hm : TellsApart d.map) :
    d.readAt (d.map.offset .rxfs) = (d.receiveState, d) := by
  have h₁ : d.map.offset .rxfs ≠ d.map.sr := hm.reads .sr (by decide) .rxfs (by decide) (by decide)
  have h₂ : d.map.offset .rxfs ≠ d.map.isr := hm.reads .isr (by decide) .rxfs (by decide) (by decide)
  unfold readAt
  rw [if_neg h₁, if_neg h₂]
  exact if_pos rfl

theorem TellsApart.readAt_rf (hm : TellsApart d.map) :
    d.readAt (d.map.offset .rf) = d.readData := by
  have h₁ : d.map.offset .rf ≠ d.map.sr := hm.reads .sr (by decide) .rf (by decide) (by decide)
  have h₂ : d.map.offset .rf ≠ d.map.isr := hm.reads .isr (by decide) .rf (by decide) (by decide)
  have h₃ : d.map.offset .rf ≠ d.map.rxfs := hm.reads .rxfs (by decide) .rf (by decide) (by decide)
  unfold readAt
  rw [if_neg h₁, if_neg h₂, if_neg h₃]
  exact if_pos rfl

theorem Serves.read_status {d' : Bench} {v : UInt32} (hd : d.Serves b) (hm : TellsApart b.map)
    (h : d.read (b.location .sr) = (v, d')) :
    d'.Serves b ∧ d'.rx = d.rx ∧ d'.stale = d.stale ∧
      (v &&& Status.rxReady ≠ 0 ↔ 4 ≤ d.rx.length) := by
  have hat : d.readAt (d.map.offset .sr) = d.readStatus := if_pos rfl
  rw [hd.read_location hm, hat] at h
  unfold readStatus at h
  split at h
  · obtain ⟨rfl, rfl⟩ := Prod.mk.inj h
    exact ⟨hd, rfl, rfl, status_rxReady d⟩
  · obtain ⟨rfl, rfl⟩ := Prod.mk.inj h
    exact ⟨hd, rfl, rfl, busyStatus_rxReady d⟩

theorem Serves.read_receiveState {d' : Bench} {v : UInt32} (hd : d.Serves b)
    (hm : TellsApart b.map) (h : d.read (b.location .rxfs) = (v, d')) :
    d'.Serves b ∧ d'.rx = d.rx ∧ d'.stale = d.stale ∧
      (ReceiveState.bufferCount v).toNat = d.rx.length % 4 := by
  rw [hd.read_location hm, TellsApart.readAt_rxfs (hd.2 ▸ hm)] at h
  obtain ⟨rfl, rfl⟩ := Prod.mk.inj h
  exact ⟨hd, rfl, rfl, bufferCount_receiveState d⟩

/-- A word of data is there if the packing buffer has been pushed out, or four characters wait. -/
theorem Serves.read_data {d' : Bench} {v : UInt32} (hd : d.Serves b) (hm : TellsApart b.map)
    (hready : d.stale = true ∨ 4 ≤ d.rx.length) (h : d.read (b.location .rf) = (v, d')) :
    d'.Serves b ∧ d'.rx = d.rx.drop 4 ∧ d'.stale = false ∧
      v = (FifoWord.ofBytes (d.rx.take 4)).raw := by
  rw [hd.read_location hm, TellsApart.readAt_rf (hd.2 ▸ hm)] at h
  unfold readData at h
  split at h
  · obtain ⟨rfl, rfl⟩ := Prod.mk.inj h
    exact ⟨hd, rfl, rfl, rfl⟩
  · rename_i hstale
    rw [if_pos (hready.resolve_left hstale)] at h
    obtain ⟨rfl, rfl⟩ := Prod.mk.inj h
    exact ⟨hd, rfl, Bool.not_eq_true _ ▸ hstale, rfl⟩

theorem obey_receiver (code : UInt32) (hcode : code ≠ Command.resetRx) :
    (d.obey code).rx = d.rx ∧
      (d.obey code).stale = (d.stale || decide (code = Command.forceStale)) := by
  unfold obey
  dsimp only
  by_cases hforce : code = Command.forceStale
  · subst hforce
    simp [Command.forceStale, Command.resetErrorStatus]
  · repeat' split
    all_goals simp_all

theorem Serves.write_command (hd : d.Serves b) (hm : TellsApart b.map) (code : UInt32)
    (hcode : code ≠ Command.resetRx) :
    (d.write (b.location .cr) code).rx = d.rx ∧
      (d.write (b.location .cr) code).stale = (d.stale || decide (code = Command.forceStale)) := by
  have hne : d.map.offset .cr ≠ d.map.tf :=
    (hd.2 ▸ hm : TellsApart d.map).writes .tf (by simp) .cr (by decide) (by decide)
  have hobey : writeAt { d with logged := d.logged + 1 } (d.map.offset .cr) code =
      obey { d with logged := d.logged + 1 } code := (if_neg hne).trans (if_pos rfl)
  rw [hd.write_location hm, hobey]
  exact obey_receiver code hcode

/-- Only a command changes what the receiver shows. -/
theorem Serves.write_other {q : Register} (hd : d.Serves b) (hm : TellsApart b.map)
    (hq : q ∈ Register.written) (hcr : q ≠ .cr) (v : UInt32) :
    (d.write (b.location q) v).rx = d.rx ∧ (d.write (b.location q) v).stale = d.stale := by
  have hne : d.map.offset q ≠ d.map.cr :=
    (hd.2 ▸ hm : TellsApart d.map).writes .cr (by simp) q hq hcr
  rw [hd.write_location hm]
  unfold writeAt takeWord store
  rw [if_neg hne]
  dsimp only
  repeat' split
  all_goals exact ⟨rfl, rfl⟩

/-! ### Steps of a fetch -/

/-- What the receiver of a bench block shows on its bus. -/
structure Intake where
  /-- Number of reads so far. -/
  reads : Nat
  /-- The characters that have not been read. -/
  queue : List UInt8
  /-- The packing buffer has been pushed out. -/
  stale : Bool

/-- The view of a block and the reads so far. -/
def intake (r : Rig Bench) : Intake := ⟨r.reads, r.device.rx, r.device.stale⟩

/-- A read is made right after some characters have arrived. -/
def Intake.next (x : Intake) (arrived : List UInt8) : Intake :=
  ⟨x.reads + 1, x.queue ++ arrived, x.stale⟩

/-- The characters that arrive right before the n-th read. -/
def arrivalsAt (schedule : Schedule Control) (n : Nat) : List UInt8 :=
  arrivals schedule (.read n)

section Steps

variable {schedule : Schedule Control} {r r' : Rig Bench} {v : UInt32}

theorem step_status (hs : r.device.Serves b) (hm : TellsApart b.map)
    (h : (hardware.rigged schedule).Step r (b.readEvent .sr v) r') :
    r'.device.Serves b ∧ intake r' = (intake r).next (arrivalsAt schedule (r.reads + 1)) ∧
      (v &&& Status.rxReady ≠ 0 ↔ 4 ≤ (intake r').queue.length) := by
  obtain ⟨device, hf, hread, hreads⟩ := step_read h
  obtain ⟨hs', hrx, hstale, hv⟩ := (hf.serves hs).read_status hm hread
  rw [intake, hreads, hrx, hstale, hf.stale]
  exact ⟨hs', by rw [hf.rx]; rfl, hv⟩

theorem step_receiveState (hs : r.device.Serves b) (hm : TellsApart b.map)
    (h : (hardware.rigged schedule).Step r (b.readEvent .rxfs v) r') :
    r'.device.Serves b ∧ intake r' = (intake r).next (arrivalsAt schedule (r.reads + 1)) ∧
      (ReceiveState.bufferCount v).toNat = (intake r').queue.length % 4 := by
  obtain ⟨device, hf, hread, hreads⟩ := step_read h
  obtain ⟨hs', hrx, hstale, hv⟩ := (hf.serves hs).read_receiveState hm hread
  rw [intake, hreads, hrx, hstale, hf.stale]
  exact ⟨hs', by rw [hf.rx]; rfl, hv⟩

theorem step_data (hs : r.device.Serves b) (hm : TellsApart b.map)
    (hready : (intake r).stale = true ∨
      4 ≤ ((intake r).next (arrivalsAt schedule (r.reads + 1))).queue.length)
    (h : (hardware.rigged schedule).Step r (b.readEvent .rf v) r') :
    r'.device.Serves b ∧
      intake r' = ⟨r.reads + 1,
        ((intake r).next (arrivalsAt schedule (r.reads + 1))).queue.drop 4, false⟩ ∧
      v = (FifoWord.ofBytes
        (((intake r).next (arrivalsAt schedule (r.reads + 1))).queue.take 4)).raw := by
  obtain ⟨device, hf, hread, hreads⟩ := step_read h
  have hqueue : ((intake r).next (arrivalsAt schedule (r.reads + 1))).queue = device.rx := hf.rx.symm
  rw [hqueue] at hready ⊢
  obtain ⟨hs', hrx, hstale, hv⟩ := (hf.serves hs).read_data hm
    (hready.imp_left fun h => hf.stale.trans h) hread
  rw [intake, hreads, hrx, hstale]
  exact ⟨hs', rfl, hv⟩

theorem step_command {code : UInt32} (hs : r.device.Serves b) (hm : TellsApart b.map)
    (hcode : code ≠ Command.resetRx)
    (h : (hardware.rigged schedule).Step r (b.writeEvent .cr code) r') :
    r'.device.Serves b ∧ intake r' =
      { intake r with stale := (intake r).stale || decide (code = Command.forceStale) } := by
  obtain ⟨hdevice, hreads⟩ := step_write h
  obtain ⟨hrx, hstale⟩ := hs.write_command hm code hcode
  rw [intake, hdevice, hreads, hrx, hstale]
  exact ⟨hs.write _ _, rfl⟩

theorem step_rearm (hs : r.device.Serves b) (hm : TellsApart b.map)
    (h : (hardware.rigged schedule).Step r (b.writeEvent .dmrx v) r') :
    r'.device.Serves b ∧ intake r' = intake r := by
  obtain ⟨hdevice, hreads⟩ := step_write h
  obtain ⟨hrx, hstale⟩ := hs.write_other hm (q := .dmrx) (by decide) (by decide) v
  rw [intake, hdevice, hreads, hrx, hstale]
  exact ⟨hs.write _ _, rfl⟩

end Steps

end PolledUart.Sim.Bench
