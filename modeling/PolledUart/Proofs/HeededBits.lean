import PolledUart.Proofs.CallEffects

/-!
# The bits that a program heeds

Most of what a status register shows is no matter for the program that reads it: sending looks
at the bits of the transmitter, receiving at those of the receiver. `Program.Heeds bits` says
that a program goes on the same way whatever the other bits of its answers are. It is proved
along the program, by one rule for each way to build one.

If the bits that are heeded, and whatever the program does to the device, hang on a part of the
device alone (`Bus.Shows`), then so does the whole run.

* `Transmit.heeds_transmit`, `Receive.heeds_fetchWaiting` — sending and receiving.
* `Driver.heeds_of_sending`, `Driver.heeds_of_reading` — the calls.
* `Bus.Shows.completes` — runs on two devices that are alike in one part.
-/

namespace PolledUart

variable {σ ρ α β : Type} {bits : Address → UInt32}

namespace Program

/-- Whatever the answers to its reads are outside of `bits`, the program goes on the same way. -/
def Heeds (bits : Address → UInt32) : Program α → Prop
  | .done _ => True
  | .fault => True
  | .limit => True
  | .read a next =>
    (∀ v v', v &&& bits a = v' &&& bits a → next v = next v') ∧ ∀ v, (next v).Heeds bits
  | .act _ next => next.Heeds bits

section Rules

variable {p : Program α} {f : α → Program β}

/-- What follows needs to be good only for the values that the first part can end with. -/
theorem Heeds.bind {P : Request → Prop} {Q : α → Prop} (hp : p.Heeds bits) (hq : p.Asks P Q)
    (hf : ∀ a, Q a → (f a).Heeds bits) : (p.bind f).Heeds bits := by
  induction p with
  | done a => exact hf a hq
  | fault => trivial
  | limit => trivial
  | read a next ih =>
    exact ⟨fun v v' hv => congrArg (·.bind f) (hp.1 v v' hv), fun v => ih v (hp.2 v) (hq.2 v)⟩
  | act c next ih => exact ih hp hq.2

theorem Heeds.seq (hp : p.Heeds bits) (hf : ∀ a, (f a).Heeds bits) : (p.bind f).Heeds bits := by
  induction p with
  | done a => exact hf a
  | fault => trivial
  | limit => trivial
  | read a next ih =>
    exact ⟨fun v v' hv => congrArg (·.bind f) (hp.1 v v' hv), fun v => ih v (hp.2 v)⟩
  | act c next ih => exact ih hp

theorem heeds_perform (c : Action) : (perform c).Heeds bits := trivial

end Rules

end Program

/-- Two answers that are the same in some bits are the same in fewer. -/
theorem UInt32.and_eq_of_within {v v' mask bits : UInt32} (hmask : mask &&& bits = mask)
    (h : v &&& bits = v' &&& bits) : v &&& mask = v' &&& mask := by
  calc v &&& mask = (v &&& bits) &&& mask := by rw [UInt32.and_assoc, UInt32.and_comm bits, hmask]
    _ = (v' &&& bits) &&& mask := by rw [h]
    _ = v' &&& mask := by rw [UInt32.and_assoc, UInt32.and_comm bits, hmask]

/-! ### Accesses of a block -/

/-- A wait heeds its mask. -/
theorem PollPolicy.heeds_waitFrom {policy : PollPolicy} {a : Address} {mask : UInt32}
    (hmask : mask &&& bits a = mask) (turns : Nat) (misses : UInt32) :
    (policy.waitFrom a mask turns misses).Heeds bits := by
  induction turns using Nat.strongRecOn generalizing misses with
  | ind turns ih =>
    unfold waitFrom
    refine ⟨fun v v' hv => ?_, fun v => ?_⟩
    · dsimp only
      rw [UInt32.and_eq_of_within hmask hv]
    · dsimp only
      split
      · trivial
      · split
        · trivial
        · trivial
        · split
          · trivial
          · exact ih _ (Nat.lt_succ_self _) _

namespace Block

variable {b : Block} {r : Register}

theorem heeds_address (b : Block) (r : Register) : (b.address r).Heeds bits := by
  unfold address Program.require
  split <;> trivial

/-- The answer to a read is heeded by what comes after it. -/
theorem heeds_read {f : UInt32 → Program β}
    (hsame : ∀ v v', v &&& bits (b.location r) = v' &&& bits (b.location r) → f v = f v')
    (hf : ∀ v, (f v).Heeds bits) : ((b.read r).bind f).Heeds bits := by
  cases ha : b.address? r with
  | none =>
    rw [read, address_of_address?_none ha]
    trivial
  | some a =>
    obtain rfl := eq_location ha
    rw [read_of_address? ha]
    exact ⟨hsame, hf⟩

/-- An answer of which all bits are heeded. -/
theorem heeds_read_all {f : UInt32 → Program β} (hall : bits (b.location r) = 0xffffffff)
    (hf : ∀ v, (f v).Heeds bits) : ((b.read r).bind f).Heeds bits := by
  refine heeds_read (fun v v' hv => ?_) hf
  have hones : ∀ w : UInt32, w &&& 0xffffffff = w := fun w => UInt32.and_neg_one
  rw [hall, hones, hones] at hv
  rw [hv]

theorem heeds_write (b : Block) (r : Register) (v : UInt32) : (b.write r v).Heeds bits :=
  (heeds_address b r).seq fun _ => Program.heeds_perform _

theorem heeds_waitFor {policy : PollPolicy} {fuel : Nat} {mask : UInt32}
    (hmask : mask &&& bits (b.location r) = mask) :
    (b.waitFor policy fuel r mask).Heeds bits := by
  refine (heeds_address b r).bind (P := fun _ => True) (asks_address fun _ => trivial) ?_
  rintro a rfl
  exact PollPolicy.heeds_waitFrom hmask _ 0

end Block

/-! ### Sending -/

namespace Transmit

variable {b : Block} {policy : PollPolicy} {fuel : Nat}

/-- The bits have those of the transmitter among them. -/
structure Heeded (b : Block) (bits : Address → UInt32) : Prop where
  empty : Status.txEmpty &&& bits (b.location .sr) = Status.txEmpty
  ready : Status.txReady &&& bits (b.location .sr) = Status.txReady
  taken : InterruptStatus.txReady &&& bits (b.location .isr) = InterruptStatus.txReady

theorem heeds_sendWords (h : Heeded b bits) (ws : List FifoWord) :
    (sendWords b policy fuel ws).Heeds bits := by
  induction ws with
  | nil => trivial
  | cons w rest ih =>
    refine (Block.heeds_waitFor h.ready).seq fun r => ?_
    cases r with
    | error _ => exact (Block.heeds_write b _ _).seq fun _ => trivial
    | ok _ => exact (Block.heeds_write b _ _).seq fun _ => ih

theorem heeds_awaitIdle (h : Heeded b bits) : (awaitIdle b policy fuel).Heeds bits := by
  refine Block.heeds_read (fun v v' hv => ?_) fun v => ?_
  · rw [UInt32.and_eq_of_within h.empty hv]
  · split
    · exact Block.heeds_waitFor h.taken
    · trivial

/-- **Sending** heeds the bits of the transmitter. -/
theorem heeds_transmit (h : Heeded b bits) (data : List UInt8) :
    (transmit b policy fuel data).Heeds bits := by
  unfold transmit
  split
  · trivial
  · split
    · trivial
    · refine (heeds_awaitIdle h).seq fun r => ?_
      cases r with
      | error _ => trivial
      | ok _ =>
        exact (Program.heeds_perform _).seq fun _ => (Block.heeds_write b _ _).seq fun _ =>
          (Block.heeds_write b _ _).seq fun _ => (heeds_sendWords h _).seq fun _ =>
          (Program.heeds_perform _).seq fun _ => trivial

theorem heeds_drain (h : Heeded b bits) : (drain b policy fuel).Heeds bits :=
  Block.heeds_waitFor h.empty

end Transmit

/-! ### Receiving -/

namespace Receive

variable {b : Block}

/-- The bits have those of the receiver among them, and all of what it hands out. -/
structure Heeded (b : Block) (bits : Address → UInt32) : Prop where
  overrun : Status.overrun &&& bits (b.location .sr) = Status.overrun
  ready : Status.rxReady &&& bits (b.location .sr) = Status.rxReady
  state : bits (b.location .rxfs) = 0xffffffff
  data : bits (b.location .rf) = 0xffffffff

theorem heeds_clearOverrun (h : Heeded b bits) : (clearOverrun b).Heeds bits := by
  refine Block.heeds_read (fun v v' hv => ?_) fun v => ?_
  · rw [UInt32.and_eq_of_within h.overrun hv]
  · split
    · exact Block.heeds_write b _ _
    · trivial

theorem heeds_forceOut (h : Heeded b bits) : (forceOut b).Heeds bits :=
  (Block.heeds_write b _ _).seq fun _ => Block.heeds_read_all h.data fun _ =>
    (Block.heeds_write b _ _).seq fun _ => (Block.heeds_write b _ _).seq fun _ => trivial

theorem heeds_fetch (h : Heeded b bits) : (fetch b).Heeds bits := by
  refine (heeds_clearOverrun h).seq fun _ => Block.heeds_read (fun v v' hv => ?_) fun v => ?_
  · rw [UInt32.and_eq_of_within h.ready hv]
  · split
    · exact Block.heeds_read_all h.data fun _ => trivial
    · refine Block.heeds_read_all h.state fun count => ?_
      dsimp only
      split
      · trivial
      · exact (heeds_forceOut h).seq fun _ => trivial

/-- **Receiving** heeds the bits of the receiver. -/
theorem heeds_fetchWaiting (h : Heeded b bits) (turns : Nat) :
    (fetchWaiting b turns).Heeds bits := by
  induction turns with
  | zero =>
    unfold fetchWaiting
    refine (heeds_fetch h).seq fun r => ?_
    cases r <;> trivial
  | succ turns ih =>
    unfold fetchWaiting
    refine (heeds_fetch h).seq fun r => ?_
    cases r with
    | none => exact ih
    | some _ => trivial

end Receive

/-! ### Calls -/

namespace Driver

variable {slots : Nat} {d d' : Driver slots} {fuel : Nat} {port : PortId} {c : Call}

/-! #### That send -/

theorem heeds_onPort {operation : Block → Program (Except IoError α)}
    (h : ∀ base, d.ports.resolve port = some base → (operation (d.block base)).Heeds bits) :
    (d.onPort port operation).Heeds bits := by
  unfold onPort
  split
  · trivial
  · rename_i base hport
    exact h base hport

section Sending

variable (h : ∀ base, d.ports.resolve port = some base → Transmit.Heeded (d.block base) bits)

include h

theorem heeds_write (data : List UInt8) : (d.write fuel port data).Heeds bits :=
  heeds_onPort fun base hport => Transmit.heeds_transmit (h base hport) data

theorem heeds_writeBytes (data : List UInt8) : (d.writeBytes fuel port data).Heeds bits := by
  unfold writeBytes
  split
  · trivial
  · refine (heeds_write h data).seq fun r => ?_
    cases r <;> trivial

theorem heeds_writeAll (data : List UInt8) : (d.writeAll fuel port data).Heeds bits := by
  unfold writeAll
  split
  · trivial
  · refine (heeds_writeBytes h data).seq fun r => ?_
    cases r <;> trivial

theorem heeds_writeText (text : List UInt8) : (d.writeText fuel port text).Heeds bits := by
  unfold writeText
  split
  · trivial
  · refine (heeds_write h text).seq fun r => ?_
    cases r <;> trivial

theorem heeds_writePieces (pieces : List (List UInt8)) :
    (d.writePieces fuel port pieces).Heeds bits := by
  induction pieces with
  | nil => trivial
  | cons piece rest ih =>
    refine (heeds_writeText h piece).seq fun r => ?_
    cases r with
    | error _ => trivial
    | ok _ => exact ih

/-- **A call that sends** heeds the bits of the transmitter. -/
theorem heeds_of_sending (hc : c.port? = some port) (hr : c.reads = false) :
    (c.program fuel d).Heeds bits := by
  cases c with
  | init _ _ _ _ => cases hc
  | getChar _ _ | drain _ _ | readBytes _ _ | readExact _ _ => cases hr
  | putChar p byte | write p data =>
    obtain rfl := Option.some.inj hc
    exact (heeds_write h _).seq fun _ => trivial
  | flush p =>
    obtain rfl := Option.some.inj hc
    exact (heeds_onPort fun base hport => Transmit.heeds_drain (h base hport)).seq fun _ => trivial
  | borrow p =>
    obtain rfl := Option.some.inj hc
    have hborrow : (d.onPort p fun _ => return .ok ()).Heeds bits := heeds_onPort fun _ _ => trivial
    exact hborrow.seq fun _ => trivial
  | writeBytes p data =>
    obtain rfl := Option.some.inj hc
    exact (heeds_writeBytes h data).seq fun _ => trivial
  | writeAll p data =>
    obtain rfl := Option.some.inj hc
    exact (heeds_writeAll h data).seq fun _ => trivial
  | writeText p text =>
    obtain rfl := Option.some.inj hc
    exact (heeds_writeText h text).seq fun _ => trivial
  | writePieces p pieces =>
    obtain rfl := Option.some.inj hc
    exact (heeds_writePieces h pieces).seq fun _ => trivial

end Sending

/-! #### That read -/

/-- The bits have those among them that reading a port heeds, if the port is registered. -/
def Reading (d : Driver slots) (port : PortId) (bits : Address → UInt32) : Prop :=
  ∀ base, d.ports.resolve port = some base → Receive.Heeded (d.block base) bits

theorem SameSetup.reading (h : d.SameSetup d') (hbits : d.Reading port bits) :
    d'.Reading port bits := by
  obtain ⟨hconfig, hports⟩ := h
  intro base hbase
  unfold block
  rw [hconfig]
  exact hbits base (hports ▸ hbase)

/-- Reading leaves the configuration and the ports as they are, whatever it asks for. -/
theorem mayRead_anything (d : Driver slots) (port : PortId) : d.MayRead port fun _ => True :=
  fun _ _ => ⟨fun _ _ => trivial, fun _ _ => trivial, fun _ _ => trivial, trivial⟩

theorem heeds_takeFrom (d : Driver slots) (slot : Nat) (cache : RxCache) :
    (d.takeFrom slot cache).Heeds bits := by
  unfold takeFrom setCache
  split
  · trivial
  · split <;> trivial

theorem heeds_getChar (h : d.Reading port bits) (wait : Bool) :
    (d.getChar fuel port wait).Heeds bits := by
  unfold getChar
  split
  · trivial
  · rename_i base hport
    have hword : (fetchWord fuel wait (d.block base)).Heeds bits := by
      unfold fetchWord
      split
      · exact (Receive.heeds_fetchWaiting (h base hport) fuel).seq fun _ => trivial
      · exact Receive.heeds_fetch (h base hport)
    have hcache : (d.cache port.index).Heeds bits := by
      unfold cache
      split <;> trivial
    refine hcache.seq fun cache => ?_
    split
    · refine hword.seq fun received => ?_
      cases received with
      | none => trivial
      | some _ => exact heeds_takeFrom d _ _
    · exact heeds_takeFrom d _ _

theorem heeds_drain (h : d.Reading port bits) (max : Nat) :
    (d.drain fuel port max).Heeds bits := by
  induction max generalizing d with
  | zero => trivial
  | succ max ih =>
    refine (heeds_getChar h false).bind (asks_getChar (mayRead_anything d port)) ?_
    rintro ⟨r, d₁⟩ h₁
    cases r with
    | error _ => trivial
    | ok _ => exact (ih (h₁.reading h)).seq fun _ => trivial

theorem heeds_takeReady (h : d.Reading port bits) (room : Nat) :
    (d.takeReady fuel port room).Heeds bits := by
  induction room generalizing d with
  | zero => trivial
  | succ room ih =>
    refine (heeds_getChar h false).bind (asks_getChar (mayRead_anything d port)) ?_
    rintro ⟨r, d₁⟩ h₁
    cases r with
    | error e => cases e <;> trivial
    | ok _ => exact (ih (h₁.reading h)).seq fun _ => trivial

theorem heeds_readBytes (h : d.Reading port bits) (room : Nat) :
    (d.readBytes fuel port room).Heeds bits := by
  cases room with
  | zero => trivial
  | succ room =>
    refine (heeds_getChar h true).bind (asks_getChar (mayRead_anything d port)) ?_
    rintro ⟨r, d₁⟩ h₁
    cases r with
    | error _ => trivial
    | ok _ => exact (heeds_takeReady (h₁.reading h) room).seq fun _ => trivial

theorem heeds_fillFrom (h : d.Reading port bits) (reads room : Nat) :
    (d.fillFrom fuel port reads room).Heeds bits := by
  induction reads generalizing d room with
  | zero => cases room <;> trivial
  | succ reads ih =>
    cases room with
    | zero => trivial
    | succ room =>
      refine (heeds_readBytes h (room + 1)).bind (asks_readBytes (mayRead_anything d port) _) ?_
      rintro ⟨⟨bytes, result⟩, d₁⟩ h₁
      match result with
      | .error _ => trivial
      | .ok 0 => trivial
      | .ok (n + 1) => exact (ih (h₁.reading h) _).seq fun _ => trivial

/-- **A call that reads** heeds the bits of the receiver. -/
theorem heeds_of_reading (h : d.Reading port bits) (hc : c.port? = some port)
    (hr : c.reads = true) : (c.program fuel d).Heeds bits := by
  cases c with
  | getChar p wait =>
    obtain rfl := Option.some.inj hc
    exact (heeds_getChar h wait).seq fun _ => trivial
  | drain p max =>
    obtain rfl := Option.some.inj hc
    exact (heeds_drain h max).seq fun _ => trivial
  | readBytes p room =>
    obtain rfl := Option.some.inj hc
    exact (heeds_readBytes h room).seq fun _ => trivial
  | readExact p room =>
    obtain rfl := Option.some.inj hc
    exact (heeds_fillFrom h room room).seq fun _ => trivial
  | _ => cases hr

end Driver

/-! ### Runs -/

namespace Bus

/-- On the requests of `P` the device works on a part of its state, of which `view` is the
description, as long as `inv` holds of it: what they do to the part, and what `bits` show of their
answers, hangs on the part alone. -/
structure Shows (bus : Bus σ) (bits : Address → UInt32) (P : Request → Prop) (inv : ρ → Prop)
    (view : σ → ρ) : Prop where
  read : ∀ a, P (.read a) → ∀ {s₁ s₂ s₁' : σ} {v : UInt32}, inv (view s₁) → view s₂ = view s₁ →
    bus.read a s₁ = .ok v s₁' → inv (view s₁') ∧
      ∃ v' s₂', bus.read a s₂ = .ok v' s₂' ∧ v &&& bits a = v' &&& bits a ∧ view s₂' = view s₁'
  act : ∀ c, P (.act c) → ∀ {s₁ s₂ s₁' : σ}, inv (view s₁) → view s₂ = view s₁ →
    bus.act c s₁ = .ok () s₁' → inv (view s₁') ∧
      ∃ s₂', bus.act c s₂ = .ok () s₂' ∧ view s₂' = view s₁'

/-- The requests of `P` leave a part of the device as it is, as long as `inv` holds of it. -/
def Spares (bus : Bus σ) (P : Request → Prop) (inv : ρ → Prop) (view : σ → ρ) : Prop :=
  ∀ e, P e.request → ∀ {s s' : σ}, inv (view s) → bus.Step s e s' → view s' = view s

variable {bus : Bus σ} {P : Request → Prop} {A : α → Prop} {inv : ρ → Prop} {view : σ → ρ}
  {p : Program α} {a : α} {t : List Event} {s s' s₁ s₂ s₁' : σ}

/-- **A run on a device that is alike in one part** ends with the same value and leaves that part
alike. -/
theorem Shows.completes (h : bus.Shows bits P inv view) (hheeds : p.Heeds bits)
    (hasks : p.Asks P A) (hinv : inv (view s₁)) (hview : view s₂ = view s₁)
    (hrun : bus.Completes p s₁ t a s₁') :
    inv (view s₁') ∧ ∃ t' s₂', bus.Completes p s₂ t' a s₂' ∧ view s₂' = view s₁' := by
  induction hrun generalizing s₂ with
  | done => exact ⟨hinv, [], s₂, .done, hview⟩
  | @read address next s s₁ s' v t a hread _ ih =>
    obtain ⟨hinv', v', s₂', hread', hbits, hview'⟩ := h.read _ hasks.1 hinv hview hread
    obtain ⟨hinv'', t', s₂'', hrest, hend⟩ := ih (hheeds.2 v) (hasks.2 v) hinv' hview'
    rw [hheeds.1 v v' hbits] at hrest
    exact ⟨hinv'', _, s₂'', .read hread' hrest, hend⟩
  | act hact _ ih =>
    obtain ⟨hinv', s₂', hact', hview'⟩ := h.act _ hasks.1 hinv hview hact
    obtain ⟨hinv'', t', s₂'', hrest, hend⟩ := ih hheeds hasks.2 hinv' hview'
    exact ⟨hinv'', _, s₂'', .act hact' hrest, hend⟩

theorem Spares.path (h : bus.Spares P inv view) (hP : ∀ e ∈ t, P e.request)
    (hinv : inv (view s)) (hpath : Path bus.Step s t s') : view s' = view s := by
  induction hpath with
  | nil => rfl
  | cons hstep _ ih =>
    obtain ⟨he, hrest⟩ := List.forall_mem_cons.1 hP
    have hsame := h _ he hinv hstep
    exact (ih hrest (hsame ▸ hinv)).trans hsame

/-- **A run that asks for nothing else** spares the part. -/
theorem Spares.completes (h : bus.Spares P inv view) (hasks : p.Asks P A)
    (hinv : inv (view s)) (hrun : bus.Completes p s t a s') : view s' = view s :=
  h.path (hrun.asks hasks).2 hinv hrun.path

end Bus

end PolledUart
